import Punaro.Relay.Deliver

/-!
# The adapter's journal

The adapter of a machine keeps a private journal (`internal/adapter/sync.go`): how far
each delivery has been handed over to the local mailbox, and which runtime starts
have been handed over to the host. It survives crashes of the adapter.
-/

namespace Punaro.Adapter

open Outcome

inductive DeliveryState where
  | received
  | forwarded
  | acknowledged
deriving DecidableEq

structure InboundDeliveryRow where
  messageID : String
  state : DeliveryState
  updatedAt : Int
deriving DecidableEq

inductive InvocationState where
  | pending
  | accepted
deriving DecidableEq

structure InboundInvocationRow where
  fence : String
  state : InvocationState
  updatedAt : Int
deriving DecidableEq

structure Journal where
  inboundDeliveries : Table String InboundDeliveryRow
  inboundInvocations : Table String InboundInvocationRow

/-- The journal `OpenJournal` creates. -/
def Journal.empty : Journal := ⟨.empty, .empty⟩

def invocationJournalRetention : Int := 48 * 3600 * 1000000000

/-! ## Deliveries -/

/-- Records a delivery once and returns its state; the identifier of a delivery stands for one message. -/
def Journal.ensureReceived (j : Journal) (deliveryID messageID : String) (now : Int) :
    Except Err (Journal × DeliveryState) := do
  require (trimSpace deliveryID ≠ "" ∧ trimSpace messageID ≠ "") (.message "delivery and message IDs are required")
  let inboundDeliveries := j.inboundDeliveries.insertOrIgnore deliveryID ⟨messageID, .received, unixMilli now⟩
  let row ← ofOption (inboundDeliveries.find? deliveryID) .noRows
  require (row.messageID = messageID) (.message "delivery ID was reused with another message")
  return ({ j with inboundDeliveries }, row.state)

/-- Records that the mailbox has accepted the delivery, unless it is acknowledged already. -/
def Journal.markForwarded (j : Journal) (deliveryID messageID : String) (now : Int) : Journal :=
  { j with
    inboundDeliveries :=
      match j.inboundDeliveries.find? deliveryID with
      | none => j.inboundDeliveries.insertOrIgnore deliveryID ⟨messageID, .forwarded, unixMilli now⟩
      | some _ => j.inboundDeliveries.updateAt deliveryID fun row =>
        { row with
          state := if row.state = .acknowledged then .acknowledged else .forwarded
          updatedAt := unixMilli now } }

def Journal.markAcknowledged (j : Journal) (deliveryID : String) (now : Int) : Except Err Journal := do
  require ((j.inboundDeliveries.find? deliveryID).isSome) (.message "adapter journal delivery is missing")
  return { j with
    inboundDeliveries := j.inboundDeliveries.updateAt deliveryID fun row =>
      { row with state := .acknowledged, updatedAt := unixMilli now } }

/-! ## Invocations -/

/-- Records an invocation once and returns its state; the identifier stands for one fence. -/
def Journal.ensureInvocation (j : Journal) (invocationID fence : String) (now : Int) :
    Except Err (Journal × InvocationState) := do
  require (trimSpace invocationID ≠ "" ∧ trimSpace fence ≠ "") (.message "invocation ID and fence are required")
  let inboundInvocations := j.inboundInvocations.insertOrIgnore invocationID ⟨fence, .pending, unixMilli now⟩
  let row ← ofOption (inboundInvocations.find? invocationID) .noRows
  require (row.fence = fence) (.message "invocation ID was reused with another fence")
  return ({ j with inboundInvocations }, row.state)

/-- Rows that have not been touched for the retention are forgotten. -/
def Journal.pruneInvocationRecoveryRows (j : Journal) (now : Int) : Journal :=
  { j with
    inboundInvocations := j.inboundInvocations.deleteWhere fun _ row =>
      row.updatedAt < unixMilli (now - invocationJournalRetention) }

def Journal.markInvocationAccepted (j : Journal) (invocationID fence : String) (now : Int) :
    Except Err Journal := do
  require ((j.inboundInvocations.find? invocationID).any fun row => row.fence == fence)
    (.message "adapter invocation journal is missing")
  return { j with
    inboundInvocations := j.inboundInvocations.updateAt invocationID fun row =>
      { row with state := .accepted, updatedAt := unixMilli now } }

def Journal.removeInvocation (j : Journal) (invocationID fence : String) : Except Err Journal := do
  require ((j.inboundInvocations.find? invocationID).any fun row => row.fence == fence)
    (.message "adapter journal invocation is missing")
  return { j with inboundInvocations := j.inboundInvocations.deleteWhere fun id _ => id == invocationID }

end Punaro.Adapter
