import Punaro.Relay.Closing
import Punaro.Relay.Invocation

/-!
# Conversations and their members

Creating a conversation, renaming it, changing its members, and the one-shot that
prepares a room for adoption by the Telegram gateway.
-/

namespace Punaro

open Outcome

variable (E : Env)

structure Conversation where
  id : String
  displayName : String
deriving DecidableEq

/-- `none` is the empty result of the query. -/
def conversationByID (r : Rooms) (id : String) : Option Conversation :=
  (r.conversations.find? id).map fun row => ⟨id, row.displayName.getD ""⟩

/-- A request that creates a conversation. An empty `machineID` is the call without a retry domain. -/
structure CreateConversationInput where
  machineID : String
  projectID : String
  idempotencyKey : String
  creatorEndpoint : String
  displayName : String
  members : List Member
  now : Int

/-- One pass of the member check: the endpoints and roles seen so far, and whether the creator holds
all three rights. -/
def checkMember (creatorEndpoint : String) (seen : List String × List String × Bool) (member : Member) :
    Except Err (List String × List String × Bool) := do
  require (validCapabilities member.capabilities) (.message "invalid conversation member")
  if member.endpoint ≠ "" ∧ member.role = "" ∧ member.roleMachineID = "" then
    require (validEndpoint member.endpoint ∧ ¬ reservedRelayMember member.endpoint)
      (.message "invalid conversation member")
    require (member.endpoint ∉ seen.1) (.message "duplicate conversation member")
    let full := capSend ||| capReceive ||| capAdmin
    return (seen.1 ++ [member.endpoint], seen.2.1,
      seen.2.2 || (member.endpoint == creatorEndpoint && member.capabilities &&& full == full))
  else if member.endpoint = "" ∧ validRole member.role ∧ member.role ≠ telegramUserParticipant ∧
      validMachineID member.roleMachineID then
    require (¬ Capability.has member.capabilities capInvoke) (.message "invalid conversation member")
    require (member.role ∉ seen.2.1) (.message "duplicate conversation member")
    return (seen.1, seen.2.1 ++ [member.role], seen.2.2)
  else .error (.message "invalid conversation member")

/-- Adds one member to a new conversation. -/
def addMember (conversationID : String) (r : Rooms) (member : Member) : Except Err Rooms :=
  if member.endpoint ≠ "" then do
    let memberships ← ofOption
      (r.memberships.insert? (conversationID, member.endpoint) member.capabilities)
      (.wrapped "add conversation member" .constraint)
    return { r with memberships }
  else do
    let roleMemberships ← ofOption
      (r.roleMemberships.insert? (conversationID, member.role) member.capabilities)
      (.wrapped "add durable role member" .constraint)
    return { r with roleMemberships }

/-- The transaction of `createConversation` past the retry key: `id` is the fresh identifier. -/
def createRoom (s : Store) (input : CreateConversationInput) (endpoints roles : List String)
    (displayName id : String) : Except Err Store := do
  endpoints.forM fun endpoint => endpointActive s.presence endpoint input.now
  if displayName ≠ "" then
    rejectExclusiveCreateOccupancy s.presence s.rooms endpoints roles input.now
  let presence ← input.members.foldlM (fun p member =>
    if member.role = "" then .ok p else claimRole p member.role member.roleMachineID) s.presence
  let conversations ← ofOption
    (s.rooms.conversations.insert? id ⟨0, unixMilli input.now, nullableText displayName⟩)
    (.wrapped "create conversation" .constraint)
  let rooms ← input.members.foldlM (addMember id) { s.rooms with conversations }
  return { s with presence, rooms }

/-- `createConversation`, with the fresh identifier `id`. -/
def createConversation (s : Store) (input : CreateConversationInput) (id : String) :
    Except Err (Store × Conversation) := do
  let displayName ← ofOption (sanitizeConversationDisplayName input.displayName)
    (.message "invalid conversation display name")
  require (validEndpoint input.creatorEndpoint ∧ input.members ≠ [] ∧ input.members.length ≤ 256)
    (.message "creator and members are required")
  let (endpoints, roles, creatorAdmin) ←
    input.members.foldlM (checkMember input.creatorEndpoint) ([], [], false)
  require creatorAdmin .forbidden
  if input.machineID = "" then
    let s ← createRoom s input endpoints roles displayName id
    return (s, ⟨id, displayName⟩)
  else
    endpointOwnedBy s.presence input.creatorEndpoint input.machineID input.now
    let requestHash := createConversationRequestHash E input.creatorEndpoint input.members displayName
    match s.journal.conversationIdempotency.find? (input.machineID, input.idempotencyKey) with
    | some existing =>
      require (existing.requestHash = requestHash) .conflict
      let conversation ← ofOption (conversationByID s.rooms existing.target)
        (.wrapped "read idempotent conversation" .noRows)
      return (s, conversation)
    | none =>
      let s ← createRoom s input endpoints roles displayName id
      let conversationIdempotency ← ofOption
        (s.journal.conversationIdempotency.insert? (input.machineID, input.idempotencyKey)
          ⟨requestHash, id, unixMilli input.now⟩)
        (.wrapped "record conversation idempotency key" .constraint)
      return ({ s with journal := { s.journal with conversationIdempotency } }, ⟨id, displayName⟩)

/-- The signed entry point: a machine and a retry key are required, and no project. -/
def createConversationIdempotent (s : Store) (input : CreateConversationInput) (id : String) :
    Except Err (Store × Conversation) := do
  require (validMachineID input.machineID ∧ validRequestToken input.idempotencyKey ∧ input.projectID = "")
    (.message "machine and idempotency key are required")
  createConversation E s input id

/-! ## Renaming -/

structure SetDisplayNameInput where
  conversationID : String
  actorMachineID : String
  actorEndpoint : String
  displayName : String
  idempotencyKey : String
  now : Int

/-- The caller's session is attached and administers the conversation. -/
def requireAdmin (s : Store) (conversationID machineID endpoint : String) (now : Int) (context : String) :
    Except Err Unit := do
  endpointOwnedBy s.presence endpoint machineID now
  let capabilities ← (sessionCapabilities s.presence s.rooms conversationID machineID endpoint now).mapError
    (.wrapped context)
  require (Capability.has capabilities capAdmin) .forbidden

/-- `UPDATE conversations SET display_name = ?`. -/
def Rooms.rename (r : Rooms) (conversationID displayName : String) : Rooms :=
  { r with
    conversations := r.conversations.updateAt conversationID fun row =>
      { row with displayName := some displayName } }

/-- Returns the conversation, and whether nothing was to change. -/
def setConversationDisplayName (s : Store) (input : SetDisplayNameInput) :
    Except Err (Store × Conversation × Bool) := do
  require (trimSpace input.conversationID ≠ "" ∧ validMachineID input.actorMachineID ∧
    validEndpoint input.actorEndpoint ∧ validRequestToken input.idempotencyKey) .forbidden
  let displayName ← ofOption (sanitizeConversationDisplayName input.displayName)
    (.message "invalid conversation display name")
  require (displayName ≠ "") (.message "invalid conversation display name")
  let requestHash := displayNameRequestHash E input.conversationID input.actorEndpoint displayName
  requireAdmin s input.conversationID input.actorMachineID input.actorEndpoint input.now
    "authorize display name actor"
  match s.journal.conversationDisplayNameIdempotency.find? (input.actorMachineID, input.idempotencyKey) with
  | some existing =>
    require (existing.requestHash = requestHash) .conflict
    let conversation ← ofOption (conversationByID s.rooms existing.target)
      (.wrapped "read idempotent conversation" .noRows)
    return (s, conversation, true)
  | none =>
    let conversation ← ofOption (conversationByID s.rooms input.conversationID) .forbidden
    let duplicate := conversation.displayName == displayName
    if ¬ duplicate ∧ conversation.displayName = "" then
      rejectExclusiveRenameOccupancy s.presence s.rooms input.conversationID input.now
    let rooms := if duplicate then s.rooms else s.rooms.rename input.conversationID displayName
    let conversationDisplayNameIdempotency ← ofOption
      (s.journal.conversationDisplayNameIdempotency.insert? (input.actorMachineID, input.idempotencyKey)
        ⟨requestHash, input.conversationID, unixMilli input.now⟩)
      (.wrapped "record display name idempotency key" .constraint)
    return ({ s with rooms, journal := { s.journal with conversationDisplayNameIdempotency } },
      ⟨input.conversationID, displayName⟩, duplicate)

/-! ## Membership control -/

structure ControlInput where
  conversationID : String
  actorMachineID : String
  actorEndpoint : String
  operation : ControlOperation
  member : Member
  idempotencyKey : String
  now : Int

structure ControlEvent where
  id : String
  conversationID : String
  actorEndpoint : String
  operation : ControlOperation
  member : Member
  createdAt : Int
deriving DecidableEq

/-- Members of the conversation: `COUNT(*)` of both membership tables. -/
def memberCount (r : Rooms) (conversationID : String) : Nat :=
  (r.memberships.rows.filter fun m => m.1.1 == conversationID).length +
    (r.roleMemberships.rows.filter fun m => m.1.1 == conversationID).length

/-- Administrators of the conversation other than the endpoint. -/
def remainingAdmins (r : Rooms) (conversationID endpoint : String) : Nat :=
  (r.memberships.rows.filter fun m => m.1.1 == conversationID && Capability.has m.2 capAdmin &&
      m.1.2 != endpoint).length +
    (r.roleMemberships.rows.filter fun m => m.1.1 == conversationID && Capability.has m.2 capAdmin).length

/-- What losing the right to receive does: pending deliveries are retired, the cursor moves on and
pending starts fail. -/
def revokeReceive (s : Store) (endpoint conversationID : String) (now : Int) : Except Err Store := do
  let (mail, _) ← retireRecipientDeliveries s.rooms.conversations s.mail endpoint conversationID now
  let mail ← advanceRecipientCursor s.rooms.conversations mail endpoint conversationID
  return { s with
    mail, invocations := failRevokedInvocations s.invocations conversationID endpoint now }

/-- The checks on a member that is not there yet. -/
def checkNewMember (s : Store) (input : ControlInput) : Except Err Unit := do
  endpointActive s.presence input.member.endpoint input.now
  require (memberCount s.rooms input.conversationID < 256) .conflict
  let exclusive ← conversationIsExclusive s.rooms input.conversationID
  if exclusive then
    sessionOccupiesOtherExclusiveConversation s.presence s.rooms input.member.endpoint
      input.conversationID input.now

/-- The member's row is written, and a receiving member's cursor is brought up to date. -/
def writeMember (s : Store) (conversationID endpoint : String) (capabilities : Capability) :
    Except Err Store := do
  let rooms := { s.rooms with
    memberships := s.rooms.memberships.put (conversationID, endpoint) capabilities }
  if Capability.has capabilities capReceive then
    let mail ← advanceRecipientCursor rooms.conversations s.mail endpoint conversationID
    return { s with rooms, mail }
  else return { s with rooms }

def upsertMember (s : Store) (input : ControlInput) : Except Err Store := do
  match s.rooms.memberships.find? (input.conversationID, input.member.endpoint) with
  | none =>
    checkNewMember s input
    writeMember s input.conversationID input.member.endpoint input.member.capabilities
  | some previous =>
    if Capability.has previous capAdmin ∧ ¬ Capability.has input.member.capabilities capAdmin then
      require (remainingAdmins s.rooms input.conversationID input.member.endpoint ≠ 0) .conflict
    if Capability.has previous capReceive ∧ ¬ Capability.has input.member.capabilities capReceive then
      let s ← revokeReceive s input.member.endpoint input.conversationID input.now
      writeMember s input.conversationID input.member.endpoint input.member.capabilities
    else writeMember s input.conversationID input.member.endpoint input.member.capabilities

def removeMember (s : Store) (input : ControlInput) : Except Err Store := do
  let capabilities ← ofOption
    (s.rooms.memberships.find? (input.conversationID, input.member.endpoint)) .forbidden
  if Capability.has capabilities capAdmin then
    require (remainingAdmins s.rooms input.conversationID input.member.endpoint ≠ 0) .conflict
  let s ← revokeReceive s input.member.endpoint input.conversationID input.now
  return { s with
    rooms := { s.rooms with
      memberships := s.rooms.memberships.deleteWhere fun k _ =>
        k == (input.conversationID, input.member.endpoint) } }

/-- Audit instants of one conversation strictly increase. -/
def controlCreatedAt (j : Journal) (conversationID : String) (now : Int) : Int :=
  let earlier := (j.conversationControls.rows.filter fun c => c.2.conversationID == conversationID).map
    fun c => c.2.createdAt
  match earlier.max? with
  | none => unixMilli now
  | some latest => if unixMilli now ≤ latest then latest + 1 else unixMilli now

def controlEventByID (j : Journal) (id : String) : Except Err ControlEvent := do
  let row ← ofOption (j.conversationControls.find? id) (.wrapped "read control audit event" .noRows)
  return ⟨id, row.conversationID, row.actorEndpoint, row.operation,
    ⟨row.memberEndpoint, "", "", row.memberCapabilities⟩, fromMillis row.createdAt⟩

/-- Returns the audit event, and whether the request was a retry; `id` is fresh. -/
def applyControl (s : Store) (input : ControlInput) (id : String) :
    Except Err (Store × ControlEvent × Bool) := do
  require (trimSpace input.conversationID ≠ "" ∧ validMachineID input.actorMachineID ∧
    validEndpoint input.actorEndpoint ∧ validRequestToken input.idempotencyKey ∧
    validEndpoint input.member.endpoint ∧ ¬ reservedRelayMember input.member.endpoint) .forbidden
  require (input.operation = .upsertMember → validCapabilities input.member.capabilities) .forbidden
  require (input.operation = .removeMember → input.member.capabilities = 0) .forbidden
  let requestHash := controlHash E input.conversationID input.actorEndpoint input.operation
    input.member.endpoint input.member.capabilities
  requireAdmin s input.conversationID input.actorMachineID input.actorEndpoint input.now
    "authorize control actor"
  match s.journal.conversationControlIdempotency.find? (input.actorMachineID, input.idempotencyKey) with
  | some existing =>
    require (existing.requestHash = requestHash) .conflict
    let event ← controlEventByID s.journal existing.target
    return (s, event, true)
  | none =>
    let s ← match input.operation with
      | .upsertMember => upsertMember s input
      | .removeMember => removeMember s input
    let createdAt := controlCreatedAt s.journal input.conversationID input.now
    let conversationControls ← ofOption
      (s.journal.conversationControls.insert? id ⟨input.conversationID, input.actorEndpoint,
        input.operation, input.member.endpoint, input.member.capabilities, createdAt⟩)
      (.wrapped "record control audit event" .constraint)
    let conversationControlIdempotency ← ofOption
      (s.journal.conversationControlIdempotency.insert? (input.actorMachineID, input.idempotencyKey)
        ⟨requestHash, id, unixMilli input.now⟩)
      (.wrapped "record control idempotency key" .constraint)
    return ({ s with journal := { s.journal with conversationControls, conversationControlIdempotency } },
      ⟨id, input.conversationID, input.actorEndpoint, input.operation, input.member,
        fromMillis createdAt⟩, false)

end Punaro
