import Punaro.Relay.Hash

/-!
# Presence: endpoints, sessions and role profiles

A machine advertises the endpoints attached to it for a bounded lease. Losing an
endpoint, by detaching it, letting its lease lapse or having it taken over, raises
its ownership generation. A durable role speaks through the session it is bound
to, as long as the binding's lease runs and the generation is still the one it was
bound under.
-/

namespace Punaro

open Outcome

variable (E : Env)

/-! ## Ownership -/

def endpointOwnershipUntil (p : Presence) (endpoint machineID : String) (now : Int) :
    Except Err (Nat × Int) :=
  match p.endpoints.find? endpoint with
  | none => .error .forbidden
  | some row =>
    if row.machineID ≠ machineID ∨ row.leaseUntil ≤ unixMilli now then .error .forbidden
    else .ok (row.ownershipGeneration, row.leaseUntil)

def endpointOwnership (p : Presence) (endpoint machineID : String) (now : Int) : Except Err Nat := do
  let (generation, _) ← endpointOwnershipUntil p endpoint machineID now
  return generation

def endpointOwnedBy (p : Presence) (endpoint machineID : String) (now : Int) : Except Err Unit := do
  let _ ← endpointOwnership p endpoint machineID now

def endpointActive (p : Presence) (endpoint : String) (now : Int) : Except Err Unit :=
  match p.endpoints.find? endpoint with
  | none => .error .forbidden
  | some row => if row.leaseUntil ≤ unixMilli now then .error .forbidden else .ok ()

/-- A session of the given ownership generation speaks for the bound role. -/
def RoleBindingRow.boundTo (b : RoleBindingRow) (machineID endpoint : String) (generation : Nat)
    (now : Int) : Bool :=
  b.machineID == machineID && b.sessionEndpoint == endpoint && b.ownershipGeneration == generation &&
    unixMilli now < b.leaseUntil

/-- The recipient keys a session leases for: its own endpoint, and the roles bound to it. -/
def sessionRecipientIDs (p : Presence) (machineID endpoint : String) (generation : Nat) (now : Int) :
    List String :=
  endpoint :: (p.roleBindings.rows.filter fun r => r.2.boundTo machineID endpoint generation now).map
    fun r => roleRecipient r.1

/-- What a session may do in a conversation: the rights of its own membership and those of every role
it is bound to. -/
def sessionCapabilities (p : Presence) (r : Rooms) (conversationID machineID endpoint : String)
    (now : Int) : Except Err Capability := do
  let generation ← endpointOwnership p endpoint machineID now
  let own := (r.memberships.find? (conversationID, endpoint)).getD 0
  let roles := r.roleMemberships.rows.filter fun m => m.1.1 == conversationID &&
    (p.roleBindings.find? m.1.2).any fun b => b.boundTo machineID endpoint generation now
  return roles.foldl (fun capabilities m => capabilities ||| m.2) own

/-! ## Advertising -/

def invocationPendingRetention : Int := 24 * 3600 * 1000000000

/-- A pending hand-off to another machine that is leased or recently active, or one just accepted,
keeps the endpoint from being taken over. -/
def handoffReserved (i : Invocations) (endpoint machineID : String) (now : Int) : Bool :=
  i.invocations.rows.any fun r => r.2.targetEndpoint == endpoint && r.2.targetMachineID != machineID &&
    ((r.2.status == .pending &&
        ((r.2.leaseMachineID.isSome && r.2.leaseUntil.any (unixMilli now < ·)) ||
          (0 < r.2.leaseGeneration &&
            unixMilli (now - invocationPendingRetention) < r.2.lastActivityAt))) ||
      (r.2.status == .succeeded && unixMilli now < r.2.notBefore))

/-- The row an advertisement leaves at an endpoint: a takeover, or a renewal after the lease lapsed,
starts a new ownership generation without a consumer. -/
def advertisedRow (old : Option EndpointRow) (machineID : String) (now leaseUntil : Int) : EndpointRow :=
  match old with
  | none => ⟨machineID, leaseUntil, 1, none, 0, none⟩
  | some row =>
    if row.machineID ≠ machineID ∨ row.leaseUntil ≤ unixMilli now then
      { row with
        machineID, leaseUntil, ownershipGeneration := row.ownershipGeneration + 1,
        consumerID := none, consumerLeaseUntil := none }
    else { row with machineID, leaseUntil }

/-- One pass of the loop over the advertised endpoints: the endpoint row, then the live bindings of its
generation. -/
def advertiseEndpoint (machineID : String) (now leaseUntil : Int) (p : Presence) (endpoint : String) :
    Presence :=
  let row := advertisedRow (p.endpoints.find? endpoint) machineID now leaseUntil
  { p with
    endpoints := p.endpoints.put endpoint row
    roleBindings := p.roleBindings.update fun _ b =>
      if b.boundTo machineID endpoint row.ownershipGeneration now then { b with leaseUntil } else b }

/-- The endpoints a machine stops advertising are detached. -/
def detachEndpoints (machineID : String) (seen : List String) (now : Int) (p : Presence) : Presence :=
  { p with
    endpoints := p.endpoints.update fun endpoint row =>
      if row.machineID = machineID ∧ unixMilli now < row.leaseUntil ∧ endpoint ∉ seen then
        { row with
          leaseUntil := unixMilli now, ownershipGeneration := row.ownershipGeneration + 1,
          consumerID := none, consumerLeaseUntil := none }
      else row }

/-- The checks on the advertised list, in its order. -/
def checkEndpoints : List String → List String → Except Err Unit
  | _, [] => .ok ()
  | seen, endpoint :: rest => do
    require (validEndpoint endpoint) (.message "endpoint is required")
    require (endpoint ∉ seen) (.message ("duplicate endpoint " ++ endpoint.quote))
    checkEndpoints (endpoint :: seen) rest

def advertiseEndpoints (s : Store) (machineID : String) (endpoints : List String) (now ttl : Int) :
    Except Err Store := do
  require (validMachineID machineID ∧ 0 < ttl) (.message "invalid endpoint lease")
  checkEndpoints [] endpoints
  if let some i := s.invocations then
    require (endpoints.all fun endpoint => !handoffReserved i endpoint machineID now) .conflict
  let detached := detachEndpoints machineID endpoints now s.presence
  return { s with
    presence := endpoints.foldl (advertiseEndpoint machineID now (unixMilli (now + ttl))) detached }

/-! ## Role profiles -/

structure RegisterRoleInput where
  machineID : String
  role : String
  displayName : String
  directAddressable : Bool
  idempotencyKey : String
  now : Int

structure RoleProfile where
  role : String
  displayName : String
  directAddressable : Bool
  updatedAt : Int
deriving DecidableEq

/-- `NULL` for an empty text (`nullableText`, `nullableDisplayName`). -/
def nullableText (value : String) : Option String := if value == "" then none else some value

/-- The role's owner, recorded on first use; another machine's role is refused. -/
def claimRole (p : Presence) (role machineID : String) : Except Err Presence :=
  match p.roles.find? role with
  | none => do
    let roles ← ofOption (p.roles.insert? role machineID) (.wrapped "create durable role" .constraint)
    return { p with roles }
  | some owner => if owner = machineID then .ok p else .error .forbidden

/-- Returns the profile, and whether it is new. -/
def registerRoleProfile (s : Store) (input : RegisterRoleInput) :
    Except Err (Store × RoleProfile × Bool) := do
  let displayName ← ofOption (normalizeRoleDisplayName input.displayName)
    (.message "invalid role registration")
  require (validMachineID input.machineID ∧ validRequestToken input.idempotencyKey ∧
    canonicalRoleForMachine input.role input.machineID) (.message "invalid role registration")
  let requestHash := registerRoleRequestHash E input.role displayName input.directAddressable
  match s.journal.roleProfileIdempotency.find? (input.machineID, input.idempotencyKey) with
  | some existing =>
    require (existing.requestHash = requestHash) .conflict
    return (s, ⟨existing.role, existing.displayName.getD "", existing.directAddressable,
      fromMillis existing.updatedAt⟩, false)
  | none =>
    let p ← claimRole s.presence input.role input.machineID
    let updatedAt := truncateMilli input.now
    let profile := RoleProfileRow.mk (nullableText displayName) input.directAddressable (unixMilli updatedAt)
    let journaled ← ofOption
      (s.journal.roleProfileIdempotency.insert? (input.machineID, input.idempotencyKey)
        ⟨requestHash, input.role, nullableText displayName, input.directAddressable,
          unixMilli updatedAt, unixMilli updatedAt⟩)
      (.wrapped "record role profile idempotency key" .constraint)
    return ({ s with
        presence := { p with roleProfiles := p.roleProfiles.put input.role profile }
        journal := { s.journal with roleProfileIdempotency := journaled } },
      ⟨input.role, displayName, input.directAddressable, updatedAt⟩,
      (p.roleProfiles.find? input.role).isNone)

end Punaro
