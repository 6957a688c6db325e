import Punaro.Relay.Rooms

/-!
# Telegram claims

A named conversation may be claimed for the Telegram gateway: one reservation,
completed once by the gateway's own machine, which makes `telegram/primary` a
member with the rights to send and receive. `prepareTelegramAdopt` is the
host-local step that frees a room for it.
-/

namespace Punaro

open Outcome

variable (E : Env)

structure TelegramClaim where
  conversationID : String
  status : ClaimStatus
  displayName : String
  createdAt : Int
  completedAt : Option Int
deriving DecidableEq

def requireCompleteTelegramClaim (r : Rooms) (conversationID : String) : Except Err Unit :=
  require ((r.telegramClaims.find? conversationID).any fun claim => claim.status == .complete) .forbidden

/-- `telegram_claims JOIN conversations`; `none` is the empty result. -/
def telegramClaimByConversation (r : Rooms) (conversationID : String) : Option TelegramClaim := do
  let claim ← r.telegramClaims.find? conversationID
  let conversation ← r.conversations.find? conversationID
  return ⟨conversationID, claim.status, conversation.displayName.getD "", fromMillis claim.createdAt,
    claim.completedAt.map fromMillis⟩

/-! ## Reserving -/

structure TelegramClaimInput where
  conversationID : String
  machineID : String
  endpoint : String
  idempotencyKey : String
  now : Int

def bindTelegramClaimIdempotency (j : Journal) (machineID key conversationID requestHash : String)
    (now : Int) : Except Err Journal :=
  match j.telegramClaimIdempotency.find? (machineID, key) with
  | some bound =>
    if bound.target ≠ conversationID ∨ bound.requestHash ≠ requestHash then .error .conflict else .ok j
  | none => do
    let telegramClaimIdempotency ← ofOption
      (j.telegramClaimIdempotency.insert? (machineID, key) ⟨requestHash, conversationID, unixMilli now⟩)
      (.wrapped "bind telegram claim idempotency key" .constraint)
    return { j with telegramClaimIdempotency }

/-- `INSERT INTO telegram_claims`; the machine and its key are unique. -/
def insertTelegramClaim (r : Rooms) (conversationID : String) (row : TelegramClaimRow) :
    Except Err Rooms := do
  require (∀ c ∈ r.telegramClaims.rows,
    ¬ (c.2.requestedByMachine = row.requestedByMachine ∧ c.2.idempotencyKey = row.idempotencyKey))
    (.wrapped "reserve telegram claim" .constraint)
  let telegramClaims ← ofOption (r.telegramClaims.insert? conversationID row)
    (.wrapped "reserve telegram claim" .constraint)
  return { r with telegramClaims }

/-- Returns the claim, and whether it was there already. -/
def reserveTelegramClaim (s : Store) (input : TelegramClaimInput) :
    Except Err (Store × TelegramClaim × Bool) := do
  require (trimSpace input.conversationID ≠ "" ∧ validMachineID input.machineID ∧
    validEndpoint input.endpoint ∧ validRequestToken input.idempotencyKey) .forbidden
  endpointOwnedBy s.presence input.endpoint input.machineID input.now
  let conversation ← ofOption (conversationByID s.rooms input.conversationID) .forbidden
  require (conversation.displayName ≠ "") .forbidden
  if input.endpoint ≠ telegramGatewayEndpoint then
    let capabilities ← (sessionCapabilities s.presence s.rooms input.conversationID input.machineID
      input.endpoint input.now).mapError (.wrapped "authorize claim actor")
    require (capabilities ≠ 0) .forbidden
  let requestHash := telegramClaimRequestHash E input.conversationID
  match s.journal.telegramClaimIdempotency.find? (input.machineID, input.idempotencyKey) with
  | some bound =>
    require (bound.requestHash = requestHash) .conflict
    let claim ← ofOption (telegramClaimByConversation s.rooms bound.target)
      (.wrapped "read telegram claim" .noRows)
    return (s, claim, true)
  | none =>
    match s.rooms.telegramClaims.find? input.conversationID with
    | some _ =>
      let claim ← ofOption (telegramClaimByConversation s.rooms input.conversationID)
        (.wrapped "read telegram claim" .noRows)
      let journal ← bindTelegramClaimIdempotency s.journal input.machineID input.idempotencyKey
        input.conversationID requestHash input.now
      return ({ s with journal }, claim, true)
    | none =>
      rejectExclusiveClaimOccupancy s.presence s.rooms input.conversationID input.now
      let createdAt := truncateMilli input.now
      let rooms ← insertTelegramClaim s.rooms input.conversationID
        ⟨.pending, input.machineID, input.endpoint, input.idempotencyKey, requestHash,
          unixMilli createdAt, none⟩
      let journal ← bindTelegramClaimIdempotency s.journal input.machineID input.idempotencyKey
        input.conversationID requestHash input.now
      return ({ s with rooms, journal },
        ⟨input.conversationID, .pending, conversation.displayName, createdAt, none⟩, false)

/-! ## Completing -/

structure TelegramClaimCompleteInput where
  conversationID : String
  machineID : String
  now : Int

/-- The gateway becomes a member, or its rights are clamped; a gateway that starts to receive has its
cursor brought up to date. -/
def ensureTelegramGatewayMembership (r : Rooms) (m : Mail) (conversationID : String) :
    Except Err (Rooms × Mail) :=
  match r.memberships.find? (conversationID, telegramGatewayEndpoint) with
  | none => do
    let memberships ← ofOption
      (r.memberships.insert? (conversationID, telegramGatewayEndpoint) telegramGatewayCapabilities)
      (.wrapped "insert telegram gateway member" .constraint)
    let m ← advanceRecipientCursor r.conversations m telegramGatewayEndpoint conversationID
    return ({ r with memberships }, m)
  | some previous => do
    let memberships :=
      if previous ≠ telegramGatewayCapabilities then
        r.memberships.updateAt (conversationID, telegramGatewayEndpoint) fun _ =>
          telegramGatewayCapabilities
      else r.memberships
    if ¬ Capability.has previous capReceive then
      let m ← advanceRecipientCursor r.conversations m telegramGatewayEndpoint conversationID
      return ({ r with memberships }, m)
    else return ({ r with memberships }, m)

/-- Returns the claim, and whether it was complete already; `id` is fresh. -/
def completeTelegramClaim (s : Store) (input : TelegramClaimCompleteInput) (id : String) :
    Except Err (Store × TelegramClaim × Bool) := do
  require (trimSpace input.conversationID ≠ "" ∧ validMachineID input.machineID) .forbidden
  endpointOwnedBy s.presence telegramGatewayEndpoint input.machineID input.now
  let claim ← ofOption (telegramClaimByConversation s.rooms input.conversationID) .forbidden
  if claim.status = .complete then return (s, claim, true)
  else
    let (rooms, mail) ← ensureTelegramGatewayMembership s.rooms s.mail input.conversationID
    let completedAt := truncateMilli input.now
    let telegramParticipants ← ofOption
      (rooms.telegramParticipants.insert? input.conversationID (unixMilli completedAt))
      (.wrapped "insert telegram participant" .constraint)
    -- The claim was read as pending in this transaction, so the conditional update finds it.
    let telegramClaims := rooms.telegramClaims.updateAt input.conversationID fun row =>
      { row with status := .complete, completedAt := some (unixMilli completedAt) }
    let telegramClaimEvents ← ofOption
      (rooms.telegramClaimEvents.insert? id
        ⟨input.conversationID, input.machineID, telegramGatewayEndpoint, unixMilli completedAt⟩)
      (.wrapped "record telegram claim event" .constraint)
    return ({ s with rooms := { rooms with telegramParticipants, telegramClaims, telegramClaimEvents }, mail },
      { claim with status := .complete, completedAt := some completedAt }, false)

/-! ## Preparing an adoption -/

structure AdoptPrepareInput where
  keeperID : String
  nonKeeperID : String
  nonKeeperName : String
  now : Int

def requireRoleMembership (r : Rooms) (conversationID role : String) : Except Err Unit :=
  require (r.roleMemberships.find? (conversationID, role)).isSome .conflict

/-- Only the gateway may be left in the room, and it must be. -/
def rejectAdoptPrepareOccupancy (p : Presence) (r : Rooms) (conversationID : String) (now : Int) :
    Except Err Unit := do
  let extra := (r.memberships.rows.filter fun m => m.1.1 == conversationID &&
      m.1.2 != telegramPrimaryEndpoint).length +
    (r.roleMemberships.rows.filter fun m => m.1.1 == conversationID).length
  require (extra = 0) .conflict
  require (r.memberships.find? (conversationID, telegramPrimaryEndpoint)).isSome .conflict
  rejectExclusiveRenameOccupancy p r conversationID now

/-- Drops the Telegram role from a still unnamed room and names it; `wallClock` is read when the input
carries no instant. -/
def prepareTelegramAdopt (s : Store) (input : AdoptPrepareInput) (wallClock : Int) : Except Err Store := do
  require (trimSpace input.keeperID ≠ "" ∧ trimSpace input.nonKeeperID ≠ "" ∧
    input.keeperID ≠ input.nonKeeperID) (.message "keeper and non-keeper conversations are required")
  let displayName ← ofOption (sanitizeConversationDisplayName input.nonKeeperName)
    (.message "invalid conversation display name")
  require (displayName ≠ "") (.message "invalid conversation display name")
  let now := if input.now = zeroTime then wallClock else input.now
  let keeper ← ofOption (conversationByID s.rooms input.keeperID) .forbidden
  require (keeper.displayName ≠ "") (.message "keeper conversation is unnamed")
  let nonKeeper ← ofOption (conversationByID s.rooms input.nonKeeperID) .forbidden
  require (nonKeeper.displayName = "") (.message "non-keeper conversation is already named")
  requireRoleMembership s.rooms keeper.id telegramCodexRole
  requireRoleMembership s.rooms nonKeeper.id telegramCodexRole
  let rooms := { s.rooms with
    roleMemberships := s.rooms.roleMemberships.deleteWhere fun k _ =>
      k == (nonKeeper.id, telegramCodexRole) }
  let recipient := roleRecipient telegramCodexRole
  let (mail, _) ← retireRecipientDeliveries rooms.conversations s.mail recipient nonKeeper.id now
  let mail ← advanceRecipientCursor rooms.conversations mail recipient nonKeeper.id
  rejectAdoptPrepareOccupancy s.presence rooms nonKeeper.id now
  return { s with rooms := rooms.rename nonKeeper.id displayName, mail }

end Punaro
