import Punaro.Relay.Append

/-!
# Leasing and acknowledging deliveries

A session leases its pending deliveries under three fences: the delivery's own
lease generation, the ownership generation of its endpoint and the generation of
the consumer reading it. An acknowledgement must present the live lease.
-/

namespace Punaro

open Outcome

structure Delivery where
  id : String
  recipientEndpoint : String
  recipientRole : String
  message : Message
  leaseToken : String
  leaseGeneration : Nat
  leaseUntil : Int
deriving DecidableEq

/-- Leased deliveries, and for each conversation the session's cursor. -/
structure DeliveryLeasePage where
  deliveries : List Delivery
  cursors : List (String × Nat)
deriving DecidableEq

/-! ## Cursors of a session -/

/-- The right a recipient key holds in a conversation. -/
def recipientCapabilities (r : Rooms) (conversationID recipientID : String) : Option Capability :=
  match parseRoleRecipient recipientID with
  | some role => r.roleMemberships.find? (conversationID, role)
  | none => r.memberships.find? (conversationID, recipientID)

/-- The lowest cursor among the session's recipient keys that receive in the conversation. -/
def recipientCursorForLease (r : Rooms) (m : Mail) (recipientIDs : List String) (conversationID : String) :
    Except Err Nat :=
  let receiving := recipientIDs.filter fun id =>
    (recipientCapabilities r conversationID id).any fun c => Capability.has c capReceive
  ofOption (receiving.map fun id => (m.recipientCursors.find? (id, conversationID)).getD 0).min? .forbidden

/-! ## Leasing -/

/-- The endpoint row once the consumer has claimed it. Another live consumer keeps it; a new consumer,
or one whose claim ran out, gets a new generation. -/
def claimConsumer (row : EndpointRow) (consumerID : String) (now ttl : Int) : Except Err EndpointRow := do
  let live := row.consumerLeaseUntil.any (unixMilli now < ·)
  require (¬ (row.consumerID.any (· != consumerID) ∧ live)) .conflict
  return { row with
    consumerID := some consumerID
    consumerGeneration :=
      if row.consumerID = some consumerID ∧ live then row.consumerGeneration
      else row.consumerGeneration + 1
    consumerLeaseUntil := some (unixMilli (now + ttl)) }

/-- Who leases: the machine, and the generations of its endpoint and of its consumer. -/
structure Holder where
  machineID : String
  ownershipGeneration : Nat
  consumerGeneration : Nat
deriving DecidableEq

/-- The delivery is open to the holder: unleased, expired, fenced off, or leased by this machine. -/
def DeliveryRow.openTo (d : DeliveryRow) (h : Holder) (now : Int) : Bool :=
  d.leaseUntil.all (· ≤ unixMilli now) || d.ownershipGeneration != some h.ownershipGeneration ||
    d.consumerGeneration != some h.consumerGeneration || d.leaseMachineID == some h.machineID

/-- The holder's own lease is still live. -/
def DeliveryRow.heldBy (d : DeliveryRow) (h : Holder) (now : Int) : Bool :=
  d.leaseMachineID == some h.machineID && d.leaseToken.isSome &&
    d.ownershipGeneration == some h.ownershipGeneration &&
    d.consumerGeneration == some h.consumerGeneration && d.leaseUntil.any (unixMilli now < ·)

/-- A new lease: a new token under the next generation. -/
def DeliveryRow.lease (d : DeliveryRow) (h : Holder) (token : String) (leaseUntil : Int) : DeliveryRow :=
  { d with
    leaseMachineID := some h.machineID
    leaseToken := some token
    leaseGeneration := d.leaseGeneration + 1
    ownershipGeneration := some h.ownershipGeneration
    consumerGeneration := some h.consumerGeneration
    leaseUntil := some leaseUntil }

/-- `ORDER BY m.sequence, m.id` within a conversation, otherwise
`ORDER BY m.created_at, m.conversation_id, m.sequence, m.id`. -/
def JoinedRow.leaseOrder (conversationID : String) (a b : JoinedRow) : Bool :=
  if conversationID == "" && a.message.createdAt != b.message.createdAt then
    a.message.createdAt < b.message.createdAt
  else if conversationID == "" && a.message.conversationID != b.message.conversationID then
    a.message.conversationID < b.message.conversationID
  else if a.message.sequence != b.message.sequence then a.message.sequence < b.message.sequence
  else a.delivery.messageID ≤ b.delivery.messageID

/-- The page of deliveries the query selects. -/
def leasePage (m : Mail) (h : Holder) (recipientIDs : List String) (conversationID : String) (now : Int)
    (limit : Nat) : List JoinedRow :=
  ((m.joined.filter fun r => r.delivery.recipientEndpoint ∈ recipientIDs && r.delivery.ackedAt.isNone &&
      r.delivery.openTo h now &&
      (conversationID == "" || r.message.conversationID == conversationID)).insertionSort
    fun a b => a.leaseOrder conversationID b).take limit

/-- The row of a selected delivery afterwards. -/
def leasedRow (h : Holder) (now ttl : Int) (token : String → String) (r : JoinedRow) : DeliveryRow :=
  if r.delivery.heldBy h now then r.delivery
  else r.delivery.lease h (token r.id) (unixMilli (now + ttl))

/-- What the session is handed for a selected delivery. -/
def leasedDelivery (m : Mail) (h : Holder) (endpoint : String) (now ttl : Int) (token : String → String)
    (r : JoinedRow) : Delivery where
  id := r.id
  recipientEndpoint := endpoint
  recipientRole := (parseRoleRecipient r.delivery.recipientEndpoint).getD ""
  message := messageOf m r.delivery.messageID r.message
  leaseToken := (leasedRow h now ttl token r).leaseToken.getD ""
  leaseGeneration := (leasedRow h now ttl token r).leaseGeneration
  leaseUntil := if r.delivery.heldBy h now then fromMillis (r.delivery.leaseUntil.getD 0) else now + ttl

/-- Leases a bounded page for a session; `token` gives the fresh token of each delivery. -/
def leaseDeliveries (s : Store) (machineID consumerID endpoint conversationID : String) (now ttl : Int)
    (limit : Int) (token : String → String) : Except Err (Store × DeliveryLeasePage) := do
  require (validMachineID machineID ∧ validRequestToken consumerID ∧ validEndpoint endpoint ∧ 0 < ttl ∧
    1 ≤ limit ∧ limit ≤ 100) (.message "invalid delivery lease request")
  let ownershipGeneration ← endpointOwnership s.presence endpoint machineID now
  let recipientIDs := sessionRecipientIDs s.presence machineID endpoint ownershipGeneration now
  let row ← ofOption (s.presence.endpoints.find? endpoint)
    (.wrapped "read endpoint consumer lease" .noRows)
  let row ← claimConsumer row consumerID now ttl
  let h : Holder := ⟨machineID, ownershipGeneration, row.consumerGeneration⟩
  let page := leasePage s.mail h recipientIDs conversationID now limit.toNat
  let deliveries := page.map (leasedDelivery s.mail h endpoint now ttl token)
  let mail := { s.mail with
    deliveries := page.foldl (fun t r => t.updateAt r.id fun _ => leasedRow h now ttl token r)
      s.mail.deliveries }
  let conversationIDs := ((if conversationID = "" then [] else [conversationID]) ++
    page.map fun r => r.message.conversationID).dedup
  let cursors ← conversationIDs.mapM fun id => do
    let cursor ← recipientCursorForLease s.rooms mail recipientIDs id
    return (id, cursor)
  return ({ s with
    presence := { s.presence with endpoints := s.presence.endpoints.updateAt endpoint fun _ => row }
    mail }, ⟨deliveries, cursors⟩)

/-! ## Acknowledging -/

/-- The presented token and generation are the delivery's live lease by this session. -/
def DeliveryRow.leaseMatches (d : DeliveryRow) (h : Holder) (token : String) (generation now : Int) : Prop :=
  d.leaseMachineID = some h.machineID ∧ d.leaseToken = some token ∧ (d.leaseGeneration : Int) = generation ∧
    d.ownershipGeneration = some h.ownershipGeneration ∧
    d.consumerGeneration = some h.consumerGeneration ∧ d.leaseUntil.any (unixMilli now < ·)

instance (d : DeliveryRow) (h : Holder) (token : String) (generation now : Int) :
    Decidable (d.leaseMatches h token generation now) :=
  inferInstanceAs (Decidable (_ ∧ _))

/-- The writes of an acknowledgement. -/
def closeAcked (conversations : Table String ConversationRow) (m : Mail) (deliveryID : String)
    (d : DeliveryRow) (now : Int) : Except Err Mail := do
  -- `UPDATE … WHERE acked_at IS NULL`; nothing is released when it changes no row.
  let affected := d.ackedAt.isNone
  let mail := if affected then
      { m with deliveries := m.deliveries.updateAt deliveryID fun d => { d with ackedAt := some (unixMilli now) } }
    else m
  let message ← ofOption (mail.messages.find? d.messageID) (.wrapped "read delivery conversation" .noRows)
  let mail ← if affected then do
      let mail ← releaseQuota mail d.recipientEndpoint message.body.utf8ByteSize
      recordAckedTerminal mail deliveryID now
    else pure mail
  advanceRecipientCursor conversations mail d.recipientEndpoint message.conversationID

def ackDelivery (s : Store) (machineID endpoint deliveryID token : String) (generation now : Int) :
    Except Err Store := do
  let ownershipGeneration ← endpointOwnership s.presence endpoint machineID now
  let recipientIDs := sessionRecipientIDs s.presence machineID endpoint ownershipGeneration now
  let d ← ofOption (s.mail.deliveries.find? deliveryID) .forbidden
  require (d.recipientEndpoint ∈ recipientIDs) .forbidden
  if d.ackedAt.isSome ∧ d.leaseToken = some token ∧ (d.leaseGeneration : Int) = generation then return s
  else
    let row ← ofOption (s.presence.endpoints.find? endpoint) .forbidden
    require (d.leaseMatches ⟨machineID, ownershipGeneration, row.consumerGeneration⟩ token generation now)
      .forbidden
    let mail ← closeAcked s.rooms.conversations s.mail deliveryID d now
    return { s with mail }

end Punaro
