import Punaro.Relay.Claims
import Punaro.Relay.Rate

/-!
# Accepting messages

A message gets the next sequence of its conversation and one pending delivery for
each recipient of its fan-out; receiving members outside the fan-out have their
cursors moved past it. Three operations accept mail: a member's append (to
everyone, to one role or to the Telegram user), the gateway's inbound append, and a
direct message between two roles.
-/

namespace Punaro

open Outcome

variable (E : Env)

/-- Fresh identifiers of one transaction: the message's, and one for each recipient's delivery. -/
structure FreshIDs where
  messageID : String
  deliveryID : String → String

structure Message where
  id : String
  conversationID : String
  sequence : Nat
  fromEndpoint : String
  fromRole : String
  fromParticipant : String
  inReplyToPunaroMessageID : String
  inReplyToEndpoint : String
  telegramThreadID : Int
  body : String
  createdAt : Int
deriving DecidableEq

/-- The message a stored row stands for; a direct message shows its role instead of the session
(`applyMessageMetadata`, `applyDirectSender`). -/
def messageOf (m : Mail) (id : String) (row : MessageRow) : Message :=
  let fromRole := (m.messageFromRoles.find? id).getD ""
  { id
    conversationID := row.conversationID
    sequence := row.sequence
    fromEndpoint := if fromRole = "" then row.fromEndpoint else ""
    fromRole
    fromParticipant := row.fromParticipant.getD ""
    inReplyToPunaroMessageID := row.inReplyToMessageID.getD ""
    inReplyToEndpoint := row.inReplyToEndpoint.getD ""
    telegramThreadID := row.telegramThreadID.getD 0
    body := row.body
    createdAt := fromMillis row.createdAt }

def messageByID (m : Mail) (messageID : String) : Except Err Message := do
  let row ← ofOption (m.messages.find? messageID) (.wrapped "read idempotent message" .noRows)
  return messageOf m messageID row

/-! ## Writing a message -/

/-- `UPDATE conversations SET next_sequence = next_sequence + 1 … RETURNING next_sequence`. -/
def allocateSequence (conversations : Table String ConversationRow) (conversationID : String) :
    Except Err (Table String ConversationRow × Nat) := do
  let row ← ofOption (conversations.find? conversationID) .forbidden
  return (conversations.updateAt conversationID fun row =>
    { row with nextSequence := row.nextSequence + 1 }, row.nextSequence + 1)

/-- `INSERT INTO messages`; a conversation and a sequence are unique. -/
def insertMessage (m : Mail) (id : String) (row : MessageRow) (context : String) : Except Err Mail := do
  require (∀ other ∈ m.messages.rows,
    ¬ (other.2.conversationID = row.conversationID ∧ other.2.sequence = row.sequence))
    (.wrapped context .constraint)
  let messages ← ofOption (m.messages.insert? id row) (.wrapped context .constraint)
  return { m with messages }

/-- A delivery that has never been leased. -/
def DeliveryRow.new (messageID recipient : String) : DeliveryRow :=
  ⟨messageID, recipient, none, none, 0, none, none, none, none⟩

/-- `INSERT INTO deliveries`; a message and a recipient are unique. -/
def insertDelivery (m : Mail) (id messageID recipient context : String) : Except Err Mail := do
  require (∀ other ∈ m.deliveries.rows,
    ¬ (other.2.messageID = messageID ∧ other.2.recipientEndpoint = recipient))
    (.wrapped context .constraint)
  let deliveries ← ofOption (m.deliveries.insert? id (.new messageID recipient))
    (.wrapped context .constraint)
  return { m with deliveries }

/-- One pass of a fan-out loop: the recipient gets a delivery, or its cursor moves past the message. -/
def fanOutOne (conversations : Table String ConversationRow) (conversationID : String) (ids : FreshIDs)
    (context : String) (m : Mail) (recipient : String × Bool) : Except Err Mail :=
  if recipient.2 then insertDelivery m (ids.deliveryID recipient.1) ids.messageID recipient.1 context
  else advanceRecipientCursor conversations m recipient.1 conversationID

/-- A fan-out loop over recipients, each with whether it is addressed. -/
def fanOut (conversations : Table String ConversationRow) (conversationID : String) (ids : FreshIDs)
    (context : String) (m : Mail) (recipients : List (String × Bool)) : Except Err Mail :=
  recipients.foldlM (fanOutOne conversations conversationID ids context) m

/-- The endpoints that receive in a conversation, other than the sender. -/
def receivingEndpoints (r : Rooms) (conversationID fromEndpoint : String) : List String :=
  (r.memberships.rows.filter fun m => m.1.1 == conversationID && Capability.has m.2 capReceive &&
    m.1.2 != fromEndpoint).map fun m => m.1.2

/-- The durable roles that receive in a conversation. -/
def receivingRoles (r : Rooms) (conversationID : String) : List String :=
  (r.roleMemberships.rows.filter fun m => m.1.1 == conversationID && Capability.has m.2 capReceive).map
    fun m => m.1.2

/-- The recipients the quota is charged for. -/
def appendDeliveryRecipients (r : Rooms) (conversationID fromEndpoint targetRole : String) : List String :=
  if targetRole = telegramUserParticipant then
    if fromEndpoint = telegramGatewayEndpoint then [] else [telegramGatewayEndpoint]
  else
    ((if targetRole = "" then receivingEndpoints r conversationID fromEndpoint else []) ++
      ((receivingRoles r conversationID).filter fun role => targetRole == "" || role == targetRole).map
        roleRecipient).insertionSort fun a b => a ≤ b

/-- The sender's own cursor moves past its message. -/
def advanceSessionCursors (p : Presence) (r : Rooms) (m : Mail)
    (machineID endpoint conversationID : String) (now : Int) : Except Err Mail := do
  let _ ← endpointOwnership p endpoint machineID now
  if (r.memberships.find? (conversationID, endpoint)).any fun c => Capability.has c capReceive then
    advanceRecipientCursor r.conversations m endpoint conversationID
  else return m

def rejectDirectConversationAppend (r : Rooms) (conversationID : String) : Except Err Unit :=
  require (∀ d ∈ r.directConversations.rows, d.2.conversationID ≠ conversationID) .forbidden

/-- The part that a member's append and the gateway's inbound append share once they are authorized:
what is written, who is charged and who is addressed. -/
structure Posting where
  conversationID : String
  senderMachineID : String
  fromEndpoint : String
  idempotencyKey : String
  requestHash : String
  body : String
  now : Int
  context : String
  message : Nat → MessageRow
  charged : List String
  endpointTargets : List (String × Bool)
  roleTargets : List (String × Bool)

/-- The message with its deliveries and cursors; returns the rooms and the mail afterwards, and the row
written. -/
def writePosting (s : Store) (post : Posting) (ids : FreshIDs) : Except Err (Rooms × Mail × MessageRow) := do
  let mail ← consumeQuota s.quotaConfig s.mail post.charged post.body.utf8ByteSize
  let (conversations, sequence) ← allocateSequence s.rooms.conversations post.conversationID
  let row := post.message sequence
  let mail ← insertMessage mail ids.messageID row post.context
  let mail ← fanOut conversations post.conversationID ids "create delivery" mail post.endpointTargets
  let mail ← fanOut conversations post.conversationID ids "create durable role delivery" mail
    post.roleTargets
  let rooms := { s.rooms with conversations }
  let mail ← advanceSessionCursors s.presence rooms mail post.senderMachineID post.fromEndpoint
    post.conversationID post.now
  return (rooms, mail, row)

/-- A retry returns the message it made; a new request is rate limited and written. -/
def postMessage (s : Store) (post : Posting) (ids : FreshIDs) : Except Err (Store × Message × Bool) :=
  match s.journal.idempotency.find? (post.senderMachineID, post.idempotencyKey) with
  | some existing => do
    require (existing.requestHash = post.requestHash) .conflict
    let message ← messageByID s.mail existing.target
    return (s, message, true)
  | none => do
    let rateBuckets ← consumeRateLimits s.rateLimitConfig s.rateBuckets post.senderMachineID
      post.conversationID post.now
    let (rooms, mail, row) ← writePosting s post ids
    let idempotency ← ofOption
      (s.journal.idempotency.insert? (post.senderMachineID, post.idempotencyKey)
        ⟨post.requestHash, ids.messageID, unixMilli post.now⟩)
      (.wrapped "record idempotency key" .constraint)
    return ({ s with rooms, mail, rateBuckets, journal := { s.journal with idempotency } },
      messageOf mail ids.messageID row, false)

/-! ## A member's append -/

structure AppendInput where
  conversationID : String
  senderMachineID : String
  fromEndpoint : String
  targetRole : String
  body : String
  artifactIDs : List String
  idempotencyKey : String
  now : Int

/-- The target, if any, can receive. -/
def checkAppendTarget (r : Rooms) (input : AppendInput) : Except Err Unit :=
  if input.targetRole = telegramUserParticipant then do
    requireCompleteTelegramClaim r input.conversationID
    require ((r.memberships.find? (input.conversationID, telegramGatewayEndpoint)).any fun c =>
      Capability.has c capReceive) .forbidden
  else if input.targetRole ≠ "" then
    require ((r.roleMemberships.find? (input.conversationID, input.targetRole)).any fun c =>
      Capability.has c capReceive) .forbidden
  else .ok ()

/-- What the append writes: every receiving endpoint and role, each with whether the target is it. -/
def AppendInput.posting (input : AppendInput) (r : Rooms) : Posting where
  conversationID := input.conversationID
  senderMachineID := input.senderMachineID
  fromEndpoint := input.fromEndpoint
  idempotencyKey := input.idempotencyKey
  requestHash := appendHash E input.conversationID input.fromEndpoint input.targetRole input.body
  body := input.body
  now := input.now
  context := "append message"
  message := fun sequence =>
    ⟨input.conversationID, sequence, input.fromEndpoint, input.body,
      unixMilli (truncateMilli input.now), none, none, none, none⟩
  charged := appendDeliveryRecipients r input.conversationID input.fromEndpoint input.targetRole
  endpointTargets := (receivingEndpoints r input.conversationID input.fromEndpoint).map fun endpoint =>
    (endpoint, input.targetRole == "" ||
      (input.targetRole == telegramUserParticipant && endpoint == telegramGatewayEndpoint))
  roleTargets := (receivingRoles r input.conversationID).map fun role =>
    (roleRecipient role, input.targetRole != telegramUserParticipant &&
      (input.targetRole == "" || role == input.targetRole))

/-- Returns the message, and whether the request was a retry. -/
def appendMessage (s : Store) (input : AppendInput) (ids : FreshIDs) :
    Except Err (Store × Message × Bool) := do
  require (trimSpace input.conversationID ≠ "" ∧ validMachineID input.senderMachineID ∧
    validEndpoint input.fromEndpoint ∧ (input.targetRole ≠ "" → validRole input.targetRole) ∧
    validRequestToken input.idempotencyKey ∧ input.artifactIDs = [])
    (.message "conversation, machine, endpoint, and idempotency key are required")
  require (input.body.utf8ByteSize ≤ maxMessageBodyBytes) (.message "message body exceeds 32768 bytes")
  require (validMessageBody input.body) (.message "message body is not portable UTF-8 text")
  let capabilities ← sessionCapabilities s.presence s.rooms input.conversationID input.senderMachineID
    input.fromEndpoint input.now
  require (Capability.has capabilities capSend) .forbidden
  rejectDirectConversationAppend s.rooms input.conversationID
  checkAppendTarget s.rooms input
  postMessage s (input.posting E s.rooms) ids

/-! ## Inbound mail from the gateway -/

structure TelegramInboundInput where
  conversationID : String
  senderMachineID : String
  fromEndpoint : String
  fromParticipant : String
  body : String
  inReplyToMessageID : String
  inReplyToEndpoint : String
  telegramThreadID : Int
  idempotencyKey : String
  now : Int

def validateTelegramInbound (input : TelegramInboundInput) : Except Err Unit := do
  require (trimSpace input.conversationID ≠ "" ∧ validMachineID input.senderMachineID ∧
    input.fromEndpoint = telegramGatewayEndpoint ∧ input.fromParticipant = telegramUserParticipant ∧
    validRequestToken input.idempotencyKey) .forbidden
  require (input.inReplyToEndpoint ≠ "" → validEndpoint input.inReplyToEndpoint) .forbidden
  require (input.inReplyToMessageID ≠ "" →
    validRequestToken input.inReplyToMessageID ∨ E.uuidValid input.inReplyToMessageID) .forbidden
  require (0 ≤ input.telegramThreadID) .forbidden
  require (validMessageBody input.body) (.message "message body is not portable UTF-8 text")
  require (input.body.utf8ByteSize ≤ maxMessageBodyBytes) (.message "message body exceeds 32768 bytes")

/-- `NULL` for a zero thread. -/
def nullableThreadID (value : Int) : Option Int := if value = 0 then none else some value

/-- What the inbound append writes: every receiving member but the gateway is addressed. -/
def TelegramInboundInput.posting (input : TelegramInboundInput) (r : Rooms) : Posting where
  conversationID := input.conversationID
  senderMachineID := input.senderMachineID
  fromEndpoint := input.fromEndpoint
  idempotencyKey := input.idempotencyKey
  requestHash := appendHash E input.conversationID input.fromEndpoint "" input.body
  body := input.body
  now := input.now
  context := "append telegram inbound"
  message := fun sequence =>
    ⟨input.conversationID, sequence, input.fromEndpoint, input.body,
      unixMilli (truncateMilli input.now), nullableText input.fromParticipant,
      nullableText input.inReplyToMessageID, nullableText input.inReplyToEndpoint,
      nullableThreadID input.telegramThreadID⟩
  charged := appendDeliveryRecipients r input.conversationID input.fromEndpoint ""
  endpointTargets := (receivingEndpoints r input.conversationID input.fromEndpoint).map fun e => (e, true)
  roleTargets := (receivingRoles r input.conversationID).map fun role => (roleRecipient role, true)

/-- Returns the message, and whether the request was a retry. -/
def appendTelegramInbound (s : Store) (input : TelegramInboundInput) (ids : FreshIDs) :
    Except Err (Store × Message × Bool) := do
  validateTelegramInbound E input
  requireCompleteTelegramClaim s.rooms input.conversationID
  let capabilities ← sessionCapabilities s.presence s.rooms input.conversationID input.senderMachineID
    input.fromEndpoint input.now
  require (Capability.has capabilities capSend) .forbidden
  postMessage s (input.posting E s.rooms) ids

/-! ## Direct messages -/

structure DirectMessageInput where
  senderMachineID : String
  fromRole : String
  toRole : String
  body : String
  idempotencyKey : String
  now : Int

/-- Fresh identifiers of a direct message: the conversation's, the message's and the delivery's. -/
structure DirectIDs where
  conversationID : String
  messageID : String
  deliveryID : String

/-- The session through which the role speaks now. -/
def liveBoundRoleSession (p : Presence) (machineID role : String) (now : Int) : Except Err String := do
  let b ← ofOption (p.roleBindings.find? role) .forbidden
  require (b.machineID = machineID ∧ liveBinding p b now) .forbidden
  return b.sessionEndpoint

/-- The direct conversation of an unordered pair of roles. The new conversation is discarded when the
pair already has one (`SAVEPOINT create_direct_conversation`). -/
def getOrCreateDirectConversation (r : Rooms) (roleLow roleHigh fromRole toRole : String) (now : Int)
    (id : String) : Except Err (Rooms × String) := do
  let conversations ← ofOption (r.conversations.insert? id ⟨0, unixMilli now, none⟩)
    (.wrapped "create direct conversation" .constraint)
  let roleMemberships ← [fromRole, toRole].foldlM (fun t role =>
    ofOption (t.insert? (id, role) (capSend ||| capReceive))
      (.wrapped "add direct conversation role member" .constraint)) r.roleMemberships
  match r.directConversations.insert? (roleLow, roleHigh) ⟨id, unixMilli now⟩ with
  | some directConversations =>
    return ({ r with conversations, roleMemberships, directConversations }, id)
  | none =>
    let existing ← ofOption (r.directConversations.find? (roleLow, roleHigh))
      (.wrapped "read converged direct conversation" .noRows)
    return (r, existing.conversationID)

/-- The message with its delivery and cursors. -/
def writeDirectMessage (s : Store) (r : Rooms) (input : DirectMessageInput)
    (session conversationID : String) (now : Int) (ids : DirectIDs) :
    Except Err (Rooms × Mail × MessageRow) := do
  let mail ← consumeQuota s.quotaConfig s.mail [roleRecipient input.toRole] input.body.utf8ByteSize
  let (conversations, sequence) ← allocateSequence r.conversations conversationID
  let row : MessageRow :=
    ⟨conversationID, sequence, session, input.body, unixMilli now, none, none, none, none⟩
  let mail ← insertMessage mail ids.messageID row "append direct message"
  let messageFromRoles ← ofOption (mail.messageFromRoles.insert? ids.messageID input.fromRole)
    (.wrapped "record direct message sender role" .constraint)
  let mail ← insertDelivery { mail with messageFromRoles } ids.deliveryID ids.messageID
    (roleRecipient input.toRole) "create direct role delivery"
  let mail ← advanceRecipientCursor conversations mail (roleRecipient input.fromRole) conversationID
  let rooms := { r with conversations }
  let mail ← advanceSessionCursors s.presence rooms mail input.senderMachineID session conversationID now
  return (rooms, mail, row)

/-- Returns the message, and whether the request was a retry. -/
def sendDirectMessage (s : Store) (input : DirectMessageInput) (ids : DirectIDs) :
    Except Err (Store × Message × Bool) := do
  require (validMachineID input.senderMachineID ∧ validRequestToken input.idempotencyKey ∧
    canonicalRoleForMachine input.fromRole input.senderMachineID ∧ canonicalRoleHandle input.toRole ∧
    input.fromRole ≠ input.toRole) (.message "invalid direct message request")
  require (input.body.utf8ByteSize ≤ maxMessageBodyBytes) (.message "message body exceeds 32768 bytes")
  require (validMessageBody input.body) (.message "message body is not portable UTF-8 text")
  let (roleLow, roleHigh) ← ofOption (orderedDirectRolePair input.fromRole input.toRole)
    (.message "invalid direct message request")
  let requestHash := directMessageRequestHash E input.fromRole input.toRole input.body
  let now := truncateMilli input.now
  match s.journal.directMessageIdempotency.find? (input.senderMachineID, input.idempotencyKey) with
  | some existing =>
    require (existing.requestHash = requestHash) .conflict
    let message ← messageByID s.mail existing.messageID
    return (s, message, true)
  | none =>
    let session ← liveBoundRoleSession s.presence input.senderMachineID input.fromRole now
    require ((s.presence.roleProfiles.find? input.toRole).any fun profile => profile.directAddressable)
      .forbidden
    let (rooms, conversationID) ← getOrCreateDirectConversation s.rooms roleLow roleHigh input.fromRole
      input.toRole now ids.conversationID
    let rateBuckets ← consumeRateLimits s.rateLimitConfig s.rateBuckets input.senderMachineID
      conversationID now
    let (rooms, mail, row) ← writeDirectMessage s rooms input session conversationID now ids
    let directMessageIdempotency ← ofOption
      (s.journal.directMessageIdempotency.insert? (input.senderMachineID, input.idempotencyKey)
        ⟨requestHash, input.fromRole, input.toRole, conversationID, ids.messageID, row.sequence,
          unixMilli now⟩)
      (.wrapped "record direct message idempotency key" .constraint)
    return ({ s with rooms, mail, rateBuckets, journal := { s.journal with directMessageIdempotency } },
      messageOf mail ids.messageID row, false)

end Punaro
