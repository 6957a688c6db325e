import Punaro.Relay.Occupancy

/-!
# Pending-delivery quotas

The relay keeps explicit counters of what is pending, for each recipient and for
the installation (`internal/relay/quota.go`, `store_quota.go`). Accepting mail
charges them, closing a delivery releases them, and opening the store verifies
them against the deliveries themselves.
-/

namespace Punaro

open Outcome

/-! ## What is pending -/

/-- A row of `deliveries JOIN messages`. -/
structure JoinedRow where
  id : String
  delivery : DeliveryRow
  message : MessageRow

/-- `deliveries JOIN messages ON message.id = delivery.message_id`. -/
def Mail.joined (m : Mail) : List JoinedRow :=
  m.deliveries.rows.filterMap fun d =>
    (m.messages.find? d.2.messageID).map fun message => ⟨d.1, d.2, message⟩

/-- `length(CAST(message.body AS BLOB))`. -/
def JoinedRow.bodyBytes (r : JoinedRow) : Nat := r.message.body.utf8ByteSize

def Mail.pendingRows (m : Mail) : List JoinedRow := m.joined.filter fun r => r.delivery.ackedAt.isNone

/-- `COUNT(*)` and `SUM` of the body bytes. -/
def measure (rows : List JoinedRow) : QuotaCounters := ⟨rows.length, (rows.map JoinedRow.bodyBytes).sum⟩

/-- The pending rows addressed to one recipient. -/
def Mail.pendingFor (m : Mail) (recipient : String) : List JoinedRow :=
  m.pendingRows.filter fun r => r.delivery.recipientEndpoint == recipient

/-- `… GROUP BY delivery.recipient_endpoint`. -/
def Mail.pendingGroups (m : Mail) : List (String × QuotaCounters) :=
  (m.pendingRows.map fun r => r.delivery.recipientEndpoint).dedup.map fun recipient =>
    (recipient, measure (m.pendingFor recipient))

/-! ## Deciding, charging and releasing -/

structure QuotaCharge where
  recipient : String
  bytes : Nat

structure QuotaDecision where
  allowed : Bool
  retryAfterSeconds : Nat
deriving DecidableEq

/-- The whole fan-out fits every ceiling. -/
def decideQuota (cfg : QuotaConfig) (recipients : String → QuotaCounters) (install : QuotaCounters)
    (charges : List QuotaCharge) : QuotaDecision :=
  let retryAfter := min (max cfg.retryAfterSeconds 1) 3600
  let charged := fun recipient => charges.filter fun c => c.recipient == recipient
  let allowed :=
    charges.isEmpty ||
      (charges.all (fun c => c.recipient != "") &&
        (install.count + charges.length ≤ cfg.installationCount &&
          install.bytes + (charges.map QuotaCharge.bytes).sum ≤ cfg.installationBytes) &&
        charges.all fun c =>
          (recipients c.recipient).count + (charged c.recipient).length ≤ cfg.recipientCount &&
            (recipients c.recipient).bytes + ((charged c.recipient).map QuotaCharge.bytes).sum ≤
              cfg.recipientBytes)
  ⟨allowed, retryAfter⟩

/-- Counters grown by one delivery of the given size. -/
def QuotaCounters.charge (bodyBytes : Nat) (c : QuotaCounters) : QuotaCounters :=
  ⟨c.count + 1, c.bytes + bodyBytes⟩

/-- Counters shrunk by one delivery of the given size. -/
def QuotaCounters.release (bodyBytes : Nat) (c : QuotaCounters) : QuotaCounters :=
  ⟨c.count - 1, c.bytes - bodyBytes⟩

def readInstallQuota (m : Mail) : QuotaCounters := m.pendingQuotaInstall.getD ⟨0, 0⟩

def consumeQuota (cfg : QuotaConfig) (m : Mail) (recipients : List String) (bodyBytes : Nat) :
    Except Err Mail :=
  if recipients.isEmpty then .ok m
  else do
    let initialized := recipients.foldl (fun t recipient => t.insertOrIgnore recipient ⟨0, 0⟩)
      m.pendingQuotaRecipients
    let decision := decideQuota cfg (fun recipient => (initialized.find? recipient).getD ⟨0, 0⟩)
      (readInstallQuota m) (recipients.map fun recipient => ⟨recipient, bodyBytes⟩)
    require decision.allowed (.capacityExceeded decision.retryAfterSeconds)
    return { m with
      pendingQuotaRecipients :=
        recipients.foldl (fun t recipient => t.updateAt recipient (.charge bodyBytes)) initialized
      pendingQuotaInstall := some ⟨(readInstallQuota m).count + recipients.length,
        (readInstallQuota m).bytes + bodyBytes * recipients.length⟩ }

def releaseQuota (m : Mail) (recipient : String) (bodyBytes : Nat) : Except Err Mail := do
  require (recipient ≠ "") (.message "invalid quota release")
  let recipients := m.pendingQuotaRecipients.insertOrIgnore recipient ⟨0, 0⟩
  let counters := (recipients.find? recipient).getD ⟨0, 0⟩
  require (1 ≤ counters.count ∧ bodyBytes ≤ counters.bytes) .quotaInconsistent
  require (1 ≤ (readInstallQuota m).count ∧ bodyBytes ≤ (readInstallQuota m).bytes) .quotaInconsistent
  return { m with
    pendingQuotaRecipients := recipients.updateAt recipient (.release bodyBytes)
    pendingQuotaInstall := some ((readInstallQuota m).release bodyBytes) }

/-! ## Verifying and rebuilding -/

/-- `verifySQLitePendingQuota`. -/
def verifyPendingQuota (m : Mail) : Except Err Unit := do
  let install := readInstallQuota m
  require (install = measure m.pendingRows) .quotaInconsistent
  let groups := m.pendingGroups
  require (⟨(groups.map fun g => g.2.count).sum, (groups.map fun g => g.2.bytes).sum⟩ = install)
    .quotaInconsistent
  require (∀ r ∈ m.pendingQuotaRecipients.rows, r.2 = (groups.lookup r.1).getD ⟨0, 0⟩) .quotaInconsistent
  require (∀ g ∈ groups, (m.pendingQuotaRecipients.find? g.1).isSome) .quotaInconsistent

/-- Run when the store is opened: counters are created where they are missing. -/
def bootstrapPendingQuota (m : Mail) : Mail :=
  { m with
    pendingQuotaInstall :=
      if m.pendingQuotaInstall.isNone ∧ 0 < (measure m.pendingRows).count then
        some (measure m.pendingRows)
      else m.pendingQuotaInstall
    pendingQuotaRecipients :=
      m.pendingGroups.foldl (fun t g => t.insertOrIgnore g.1 g.2) m.pendingQuotaRecipients }

/-- `ReconcilePendingQuota`: the counters are rebuilt from the pending deliveries. -/
def reconcilePendingQuota (m : Mail) : Mail :=
  { m with
    pendingQuotaInstall := some (measure m.pendingRows)
    pendingQuotaRecipients := m.pendingGroups.foldl (fun t g => t.insertOrIgnore g.1 g.2) .empty }

/-- `quotaConfig`: the zero policy stands for the default. -/
def Store.quotaConfig (s : Store) : QuotaConfig :=
  if s.quota = ⟨0, 0, 0, 0, 0⟩ then .default else s.quota

end Punaro
