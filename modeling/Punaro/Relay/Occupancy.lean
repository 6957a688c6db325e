import Punaro.Relay.Presence

/-!
# Exclusive occupancy

A conversation that is named, or that holds a Telegram claim, is *exclusive*: a
session other than the Telegram gateway may occupy one of them only. A session
occupies a conversation when it is a member, or when a role that is a member is
live-bound to it. The guards below are the relay's own queries.
-/

namespace Punaro

open Outcome

variable (E : Env)

/-- `((display_name IS NOT NULL AND display_name <> '') OR EXISTS (… telegram_claims …))` of a
conversation row. -/
def exclusiveConversationPredicate (r : Rooms) (id : String) (row : ConversationRow) : Bool :=
  row.displayName.any (· != "") || (r.telegramClaims.find? id).isSome

/-- The conversation exists and is exclusive. -/
def exclusiveConversation (r : Rooms) (id : String) : Bool :=
  (r.conversations.find? id).any fun row => exclusiveConversationPredicate r id row

def conversationIsExclusive (r : Rooms) (conversationID : String) : Except Err Bool := do
  let row ← ofOption (r.conversations.find? conversationID) .forbidden
  return exclusiveConversationPredicate r conversationID row

/-- The binding and the endpoint it names are both unexpired, of one machine and one ownership
generation. -/
def liveBinding (p : Presence) (b : RoleBindingRow) (now : Int) : Bool :=
  unixMilli now < b.leaseUntil &&
    (p.endpoints.find? b.sessionEndpoint).any fun row => row.machineID == b.machineID &&
      row.ownershipGeneration == b.ownershipGeneration && unixMilli now < row.leaseUntil

/-- The session a role is live-bound to. -/
def liveRoleSession (p : Presence) (role : String) (now : Int) : Option String :=
  (p.roleBindings.find? role).bind fun b => if liveBinding p b now then some b.sessionEndpoint else none

/-- The conversations in which an endpoint is a member itself. -/
def memberConversations (r : Rooms) (endpoint : String) : List String :=
  (r.memberships.rows.filter fun m => m.1.2 == endpoint).map fun m => m.1.1

/-- The conversations of which a role is a member. -/
def roleConversations (r : Rooms) (role : String) : List String :=
  (r.roleMemberships.rows.filter fun m => m.1.2 == role).map fun m => m.1.1

/-- The conversations of which a role live-bound to the session, other than `except`, is a member. -/
def boundConversations (p : Presence) (r : Rooms) (endpoint : String) (except : Option String)
    (now : Int) : List String :=
  (r.roleMemberships.rows.filter fun m =>
    liveRoleSession p m.1.2 now == some endpoint && some m.1.2 != except).map fun m => m.1.1

def sessionOccupiesOtherExclusiveConversation (p : Presence) (r : Rooms)
    (endpoint excludeConversationID : String) (now : Int) : Except Err Unit :=
  if endpoint = telegramPrimaryEndpoint then .ok ()
  else
    require (¬ (memberConversations r endpoint ++ boundConversations p r endpoint none now).any fun c =>
      c != excludeConversationID && exclusiveConversation r c) .conflict

def rejectExclusiveCreateOccupancy (p : Presence) (r : Rooms) (endpoints roles : List String)
    (now : Int) : Except Err Unit :=
  (endpoints ++ roles.filterMap fun role => liveRoleSession p role now).forM fun session =>
    sessionOccupiesOtherExclusiveConversation p r session "" now

/-- The members of a conversation and the sessions its roles are live-bound to. -/
def conversationOccupants (p : Presence) (r : Rooms) (conversationID : String) (now : Int) : List String :=
  ((r.memberships.rows.filter fun m => m.1.1 == conversationID).map fun m => m.1.2) ++
    (r.roleMemberships.rows.filter fun m => m.1.1 == conversationID).filterMap fun m =>
      liveRoleSession p m.1.2 now

def rejectExclusiveOccupants (p : Presence) (r : Rooms) (conversationID : String) (now : Int) :
    Except Err Unit :=
  (conversationOccupants p r conversationID now).forM fun endpoint =>
    sessionOccupiesOtherExclusiveConversation p r endpoint conversationID now

def rejectExclusiveClaimOccupancy (p : Presence) (r : Rooms) (conversationID : String) (now : Int) :
    Except Err Unit :=
  rejectExclusiveOccupants p r conversationID now

def rejectExclusiveRenameOccupancy (p : Presence) (r : Rooms) (conversationID : String) (now : Int) :
    Except Err Unit :=
  rejectExclusiveOccupants p r conversationID now

/-- What the session would occupy once the role is bound to it, counted without repetition. -/
def rejectExclusiveBindOccupancy (p : Presence) (r : Rooms) (sessionEndpoint role : String) (now : Int) :
    Except Err Unit :=
  if sessionEndpoint = telegramPrimaryEndpoint then .ok ()
  else
    require (((memberConversations r sessionEndpoint ++
      boundConversations p r sessionEndpoint (some role) now ++
      roleConversations r role).filter (exclusiveConversation r)).dedup.length ≤ 1) .conflict

/-! ## The session's topic -/

structure SessionTopic where
  id : String
  displayName : String
  claimed : Bool
deriving DecidableEq

/-- The exclusive conversations a session occupies. -/
def sessionTopics (p : Presence) (r : Rooms) (endpoint : String) (now : Int) : List SessionTopic :=
  (r.conversations.rows.filter fun c => exclusiveConversationPredicate r c.1 c.2 &&
      ((r.memberships.find? (c.1, endpoint)).isSome ||
        c.1 ∈ boundConversations p r endpoint none now)).map fun c =>
    ⟨c.1, c.2.displayName.getD "", (r.telegramClaims.find? c.1).any fun claim => claim.status == .complete⟩

def sessionTopic (s : Store) (machineID endpoint : String) (now : Int) : Except Err SessionTopic := do
  require (validMachineID machineID ∧ validEndpoint endpoint) .forbidden
  endpointOwnedBy s.presence endpoint machineID now
  match sessionTopics s.presence s.rooms endpoint now with
  | [] => .error .forbidden
  | [topic] => return topic
  | _ => .error .conflict

/-! ## Binding a role -/

/-- `MaxActiveRolesPerSession`. -/
def maxActiveRolesPerSession : Nat := 128

/-- A rebound role's pending deliveries lose their leases; the lease generation stays. -/
def DeliveryRow.unlease (d : DeliveryRow) : DeliveryRow :=
  { d with
    leaseMachineID := none, leaseToken := none, ownershipGeneration := none,
    consumerGeneration := none, leaseUntil := none }

def bindRoleToSession (s : Store) (machineID role sessionEndpoint : String) (now ttl : Int) :
    Except Err Store := do
  require (validMachineID machineID ∧ validRole role ∧ role ≠ telegramUserParticipant ∧
    validEndpoint sessionEndpoint ∧ 0 < ttl) .forbidden
  let (generation, leaseUntil) ← endpointOwnershipUntil s.presence sessionEndpoint machineID now
  require (s.presence.roles.find? role = some machineID) .forbidden
  let bindingUntil := min (unixMilli (now + ttl)) leaseUntil
  require (unixMilli now < bindingUntil) .forbidden
  let active := s.presence.roleBindings.rows.filter fun b =>
    b.2.boundTo machineID sessionEndpoint generation now && b.1 != role
  require (active.length < maxActiveRolesPerSession) .conflict
  rejectExclusiveBindOccupancy s.presence s.rooms sessionEndpoint role now
  -- A role moved to another session, or bound again after an interruption, gives up its leases.
  let rebinding := (s.presence.roleBindings.find? role).any fun previous =>
    previous.sessionEndpoint != sessionEndpoint || previous.ownershipGeneration != generation ||
      previous.leaseUntil ≤ unixMilli now
  return { s with
    presence := { s.presence with
      roleBindings := s.presence.roleBindings.put role ⟨sessionEndpoint, machineID, generation, bindingUntil⟩ }
    mail := { s.mail with
      deliveries := s.mail.deliveries.update fun _ d =>
        if rebinding && d.recipientEndpoint == roleRecipient role && d.ackedAt.isNone then d.unlease
        else d } }

end Punaro
