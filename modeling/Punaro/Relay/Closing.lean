import Punaro.Relay.Quota

/-!
# Cursors and closed deliveries

A recipient's cursor in a conversation is the highest sequence below its first
unacknowledged delivery. A delivery is closed by an acknowledgement, by age, or by
the recipient losing the right to receive; each close leaves a terminal record,
releases the quota and advances the cursor (`store.go`, `store_retention.go`).
-/

namespace Punaro

open Outcome

def advanceRecipientCursor (conversations : Table String ConversationRow) (m : Mail)
    (recipient conversationID : String) : Except Err Mail := do
  let cursor := (m.recipientCursors.find? (recipient, conversationID)).getD 0
  let pending := m.joined.filter fun r => r.delivery.recipientEndpoint == recipient &&
    r.message.conversationID == conversationID && r.delivery.ackedAt.isNone && cursor < r.message.sequence
  let target ← match (pending.map fun r => r.message.sequence).min? with
    | some next => pure (next - 1)
    | none => do
      let row ← ofOption (conversations.find? conversationID)
        (.wrapped "find recipient cursor maximum" .noRows)
      pure row.nextSequence
  return { m with
    recipientCursors := m.recipientCursors.put (recipient, conversationID)
      (if cursor < target then target else cursor) }

/-! ## Closing -/

structure PendingClose where
  id : String
  messageID : String
  conversationID : String
  recipient : String
  sequence : Nat
  leaseGeneration : Nat
  bodyBytes : Nat
  createdAt : Int
deriving DecidableEq

def JoinedRow.pendingClose (r : JoinedRow) : PendingClose :=
  ⟨r.id, r.delivery.messageID, r.message.conversationID, r.delivery.recipientEndpoint,
    r.message.sequence, r.delivery.leaseGeneration, r.bodyBytes, r.message.createdAt⟩

def PendingClose.terminal (row : PendingClose) (reason : ClosedReason) (closedAt : Int) : TerminalRow :=
  ⟨row.messageID, row.conversationID, row.recipient, row.sequence, reason, row.leaseGeneration,
    row.createdAt, closedAt⟩

/-- Closes a delivery that is still pending; `false` when it no longer is. -/
def closePendingDelivery (conversations : Table String ConversationRow) (m : Mail) (row : PendingClose)
    (reason : ClosedReason) (now : Int) : Except Err (Mail × Bool) := do
  require (row.id ≠ "" ∧ row.recipient ≠ "") (.message "invalid terminal close")
  if (m.deliveries.find? row.id).any fun d => d.ackedAt.isNone then
    let closedAt := unixMilli (truncateMilli now)
    let m := { m with
      deliveries := m.deliveries.updateAt row.id fun d => { d.unlease with ackedAt := some closedAt }
      deliveryTerminals := m.deliveryTerminals.insertOrIgnore row.id (row.terminal reason closedAt) }
    let m ← releaseQuota m row.recipient row.bodyBytes
    let m ← advanceRecipientCursor conversations m row.recipient row.conversationID
    return (m, true)
  else return (m, false)

/-- Closes every pending delivery of a conversation to a recipient who may no longer receive there;
returns how many were closed. -/
def retireRecipientDeliveries (conversations : Table String ConversationRow) (m : Mail)
    (recipient conversationID : String) (now : Int) : Except Err (Mail × Nat) :=
  let pending := (m.joined.filter fun r => r.delivery.recipientEndpoint == recipient &&
    r.delivery.ackedAt.isNone && r.message.conversationID == conversationID).map JoinedRow.pendingClose
  pending.foldlM (fun acc row => do
    let (m, closed) ← closePendingDelivery conversations acc.1 row .revoked now
    return (m, if closed then acc.2 + 1 else acc.2)) (m, 0)

/-- The terminal record of an acknowledgement. -/
def recordAckedTerminal (m : Mail) (deliveryID : String) (now : Int) : Except Err Mail := do
  let delivery ← ofOption (m.deliveries.find? deliveryID) (.wrapped "read acknowledged delivery" .noRows)
  let message ← ofOption (m.messages.find? delivery.messageID)
    (.wrapped "read acknowledged delivery" .noRows)
  let row := (JoinedRow.mk deliveryID delivery message).pendingClose
  return { m with
    deliveryTerminals := m.deliveryTerminals.insertOrIgnore deliveryID
      (row.terminal .acked (unixMilli (truncateMilli now))) }

/-! ## Maintenance -/

/-- `ORDER BY message.created_at, delivery.id`. -/
def JoinedRow.olderFirst (a b : JoinedRow) : Bool :=
  if a.message.createdAt == b.message.createdAt then a.id ≤ b.id
  else a.message.createdAt < b.message.createdAt

/-- The oldest pending delivery at or before the cutoff. -/
def oldestDue (m : Mail) (cutoff : Int) : Option JoinedRow :=
  ((m.joined.filter fun r => r.delivery.ackedAt.isNone && r.message.createdAt ≤ cutoff).insertionSort
    fun a b => a.olderFirst b).head?

/-- One transaction: `none` when nothing is due, otherwise the mail afterwards and whether a delivery
was closed. -/
def expireOneDueDelivery (conversations : Table String ConversationRow) (m : Mail) (cutoff now : Int) :
    Except Err (Option (Mail × Bool)) :=
  match oldestDue m cutoff with
  | none => .ok none
  | some r => do
    let closed ← closePendingDelivery conversations m r.pendingClose .expired now
    return some closed

/-- `ORDER BY closed_at, delivery_id`. -/
def terminalOlderFirst (a b : String × TerminalRow) : Bool :=
  if a.2.closedAt == b.2.closedAt then a.1 ≤ b.1 else a.2.closedAt < b.2.closedAt

/-- One transaction: drops the oldest terminal record at or before the cutoff. -/
def pruneOneTerminal (m : Mail) (cutoff : Int) : Option Mail :=
  ((m.deliveryTerminals.rows.filter fun r => r.2.closedAt ≤ cutoff).insertionSort
    fun a b => terminalOlderFirst a b).head?.map fun r =>
      { m with deliveryTerminals := m.deliveryTerminals.deleteWhere fun id _ => id == r.1 }

structure MaintenanceResult where
  expired : Nat
  pruned : Nat
  scanned : Nat
deriving DecidableEq

/-- The expiry loop, at most `batch` transactions; an error ends it and keeps the earlier closes. -/
def expireLoop (conversations : Table String ConversationRow) (cutoff now : Int) :
    Nat → Mail → MaintenanceResult → Mail × MaintenanceResult × Option Err
  | 0, m, result => (m, result, none)
  | batch + 1, m, result =>
    match expireOneDueDelivery conversations m cutoff now with
    | .error e => (m, result, some e)
    | .ok none => (m, result, none)
    | .ok (some (m', closed)) =>
      expireLoop conversations cutoff now batch m'
        { result with
          scanned := result.scanned + 1
          expired := if closed then result.expired + 1 else result.expired }

/-- The pruning loop. -/
def pruneLoop (cutoff : Int) : Nat → Mail → MaintenanceResult → Mail × MaintenanceResult
  | 0, m, result => (m, result)
  | batch + 1, m, result =>
    match pruneOneTerminal m cutoff with
    | none => (m, result)
    | some m' => pruneLoop cutoff batch m' { result with pruned := result.pruned + 1 }

/-- `retentionConfig`: the zero policy stands for the default. -/
def Store.retentionConfig (s : Store) : RetentionConfig :=
  if s.retention = ⟨0, 0, 0⟩ then .default else s.retention

/-- Expires what is past the maximum age, then prunes terminal records, each step in a transaction of
its own; the error, if any, comes with what was done before it. -/
def maintainDeliveries (s : Store) (now : Int) : Store × MaintenanceResult × Option Err :=
  let cfg := s.retentionConfig
  let now := truncateMilli now
  let cutoff := unixMilli (now - cfg.pendingMaxAgeSeconds * 1000000000)
  match expireLoop s.rooms.conversations cutoff now cfg.maintenanceBatch s.mail ⟨0, 0, 0⟩ with
  | (m, result, some e) => ({ s with mail := m }, result, some e)
  | (m, result, none) =>
    let pruneCutoff := unixMilli (now - cfg.terminalRetentionSeconds * 1000000000)
    let (m', result') := pruneLoop pruneCutoff cfg.maintenanceBatch m result
    ({ s with mail := m' }, result', none)

end Punaro
