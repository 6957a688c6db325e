import Punaro.Relay.Quota

/-!
# Invocations

A member holding the invoke right may ask that an offline receiving member be
started (`internal/relay/invocation.go`). The request becomes an invocation that
the target's machine leases, starts at most three times and reports on; it carries
a fence that never changes. The tables are created by the first request.
-/

namespace Punaro

open Outcome

variable (E : Env)

def maxInvocationAttempts : Nat := 3

/-- One minute. -/
def maxInvocationBackoff : Int := 60 * 1000000000

def invocationTerminalRetention : Int := 24 * 3600 * 1000000000

structure InvokeInput where
  conversationID : String
  senderMachineID : String
  fromEndpoint : String
  targetEndpoint : String
  idempotencyKey : String
  now : Int

/-- What a caller or an adapter sees of an invocation. -/
structure Invocation where
  id : String
  conversationID : String
  targetEndpoint : String
  targetMachineID : String
  fence : String
  status : InvocationStatus
  leaseToken : String
  leaseGeneration : Nat
  leaseUntil : Int
  recoveryOnly : Bool
deriving DecidableEq

/-! ## Records -/

/-- Appends to an invocation's audit trail under the next ordinal. -/
def recordInvocationAudit (i : Invocations) (invocationID : String) (action : InvocationAction) (now : Int) :
    Invocations :=
  let ordinals := (i.invocationAudit.rows.filter fun r => r.1.1 == invocationID).map fun r => r.1.2
  { i with
    invocationAudit := i.invocationAudit.put (invocationID, ordinals.foldl max 0 + 1)
      ⟨action, unixMilli now⟩ }

def InvocationRow.unlease (r : InvocationRow) : InvocationRow :=
  { r with leaseMachineID := none, leaseConsumerID := none, leaseToken := none, leaseUntil := none }

/-- Ends the invocations `ids` with the given status: one update and one audit record each. -/
def endInvocations (i : Invocations) (ids : List String) (status : InvocationStatus)
    (action : InvocationAction) (now : Int) : Invocations :=
  ids.foldl (fun i id =>
    recordInvocationAudit
      { i with
        invocations := i.invocations.updateAt id fun r =>
          { r.unlease with status, terminalAt := some (unixMilli now) } } id action now) i

/-- The identifiers of the invocations a query selects. -/
def Invocations.ids (i : Invocations) (p : InvocationRow → Bool) : List String :=
  (i.invocations.rows.filter fun r => p r.2).map Prod.fst

/-- `INSERT INTO invocations`; the fence is unique. -/
def insertInvocation (i : Invocations) (id : String) (row : InvocationRow) (context : String) :
    Except Err Invocations := do
  require (∀ r ∈ i.invocations.rows, r.2.fence ≠ row.fence) (.wrapped context .constraint)
  let invocations ← ofOption (i.invocations.insert? id row) (.wrapped context .constraint)
  return { i with invocations }

def insertInvocationIdempotency (i : Invocations) (machineID key requestHash invocationID context : String) :
    Except Err Invocations := do
  let invocationIdempotency ← ofOption
    (i.invocationIdempotency.insert? (machineID, key) ⟨requestHash, invocationID⟩)
    (.wrapped context .constraint)
  return { i with invocationIdempotency }

def invocationByID (i : Invocations) (id : String) : Except Err Invocation := do
  let row ← ofOption (i.invocations.find? id) .forbidden
  return ⟨id, row.conversationID, row.targetEndpoint, row.targetMachineID, row.fence, row.status, "", 0,
    zeroTime, false⟩

/-- A caller of another conversation learns only that its request converged. -/
def invocationForCaller (invocation : Invocation) (input : InvokeInput) : Invocation :=
  if invocation.conversationID = input.conversationID then invocation
  else ⟨"", input.conversationID, input.targetEndpoint, "", "", invocation.status, "", 0, zeroTime, false⟩

/-! ## Clean-up passes -/

/-- Terminal records past retention, with their retry keys and audit trails (`ON DELETE CASCADE`). -/
def pruneExpiredTerminalInvocations (i : Invocations) (now : Int) : Invocations :=
  let expired := fun r : InvocationRow =>
    r.terminalAt.any (· < unixMilli (now - invocationTerminalRetention))
  let gone := fun id => (i.invocations.find? id).any expired
  { invocations := i.invocations.deleteWhere fun _ r => expired r
    invocationIdempotency := i.invocationIdempotency.deleteWhere fun _ r => gone r.invocationID
    invocationAudit := i.invocationAudit.deleteWhere fun k _ => gone k.1 }

def expireAbandonedInvocations (i : Invocations) (targetEndpoint : String) (now : Int) : Invocations :=
  endInvocations i
    (i.ids fun r => r.targetEndpoint == targetEndpoint && r.status == .pending &&
      (if 0 < r.lastActivityAt then r.lastActivityAt else r.createdAt) <
        unixMilli (now - invocationPendingRetention) &&
      r.leaseUntil.all (· ≤ unixMilli now))
    .failed .failed now

/-- Run when a member loses the right to receive. -/
def failRevokedInvocations (i : Option Invocations) (conversationID targetEndpoint : String) (now : Int) :
    Option Invocations :=
  i.map fun i => endInvocations i
    (i.ids fun r => r.conversationID == conversationID && r.targetEndpoint == targetEndpoint &&
      r.status == .pending)
    .failed .failed now

def expireAbandonedLeasedInvocations (i : Invocations) (machineID : String) (now : Int) : Invocations :=
  endInvocations i
    (i.ids fun r => r.targetMachineID == machineID && r.status == .pending && 0 < r.leaseGeneration &&
      r.lastActivityAt < unixMilli (now - invocationPendingRetention) &&
      r.leaseUntil.all (· ≤ unixMilli now))
    .failed .failed now

/-- `lease_machine_id IS NULL OR lease_until <= now`. -/
def InvocationRow.unleasedAt (r : InvocationRow) (now : Int) : Bool :=
  r.leaseMachineID.isNone || r.leaseUntil.any (· ≤ unixMilli now)

/-- Requests whose target has changed hands since they were authorized. -/
def failStaleOwners (p : Presence) (i : Invocations) (machineID : String) (now : Int) : Invocations :=
  endInvocations i
    (i.ids fun r => r.targetMachineID == machineID && r.status == .pending && r.unleasedAt now &&
      (p.endpoints.find? r.targetEndpoint).all fun e => e.machineID != r.targetMachineID ||
        (e.ownershipGeneration != r.targetOwnershipGeneration && e.leaseUntil ≤ unixMilli now))
    .failed .failed now

/-- Requests whose target has nothing left to read. This pass keeps the lease columns. -/
def failStale (m : Mail) (i : Invocations) (machineID : String) (now : Int) : Invocations :=
  (i.ids fun r => r.targetMachineID == machineID && r.status == .pending && r.unleasedAt now &&
      !m.deliveries.rows.any fun d => d.2.recipientEndpoint == r.targetEndpoint && d.2.ackedAt.isNone).foldl
    (fun i id =>
      recordInvocationAudit
        { i with
          invocations := i.invocations.updateAt id fun r =>
            { r with status := .failed, terminalAt := some (unixMilli now) } } id .failed now) i

/-- Requests whose target has attached by itself. -/
def consumeOnline (p : Presence) (i : Invocations) (machineID : String) (now : Int) : Invocations :=
  endInvocations i
    (i.ids fun r => r.targetMachineID == machineID && r.status == .pending && r.unleasedAt now &&
      (p.endpoints.find? r.targetEndpoint).any fun e => e.machineID == r.targetMachineID &&
        unixMilli now < e.leaseUntil)
    .alreadyRunning .alreadyRunning now

/-! ## Requesting -/

/-- The target has an unacknowledged delivery of the conversation. -/
def pendingWork (m : Mail) (targetEndpoint conversationID : String) : Bool :=
  m.joined.any fun r => r.delivery.recipientEndpoint == targetEndpoint && r.delivery.ackedAt.isNone &&
    r.message.conversationID == conversationID

/-- `SELECT capabilities FROM memberships …`, refused unless it carries the right. -/
def requireCapability (r : Rooms) (conversationID endpoint : String) (mask : Capability) :
    Except Err Unit :=
  require ((r.memberships.find? (conversationID, endpoint)).any fun c => Capability.has c mask) .forbidden

/-- A new invocation of `input`, for the target's present machine and generation. -/
def InvokeInput.row (input : InvokeInput) (target : EndpointRow) (fence : String)
    (status : InvocationStatus) (terminalAt : Option Int) : InvocationRow where
  conversationID := input.conversationID
  fromEndpoint := input.fromEndpoint
  targetEndpoint := input.targetEndpoint
  targetMachineID := target.machineID
  fence := fence
  status := status
  attempts := 0
  notBefore := unixMilli input.now
  leaseMachineID := none
  leaseConsumerID := none
  leaseToken := none
  leaseGeneration := 0
  recoveryOnly := false
  targetOwnershipGeneration := target.ownershipGeneration
  leaseUntil := none
  lastActivityAt := unixMilli input.now
  terminalAt := terminalAt
  createdAt := unixMilli input.now

/-- Records a new invocation with its retry key and first audit record. -/
def openInvocation (i : Invocations) (input : InvokeInput) (requestHash id : String)
    (row : InvocationRow) (context : String) (action : InvocationAction) :
    Except Err (Invocations × Invocation × Bool) := do
  let i ← insertInvocation i id row context
  let i ← insertInvocationIdempotency i input.senderMachineID input.idempotencyKey requestHash id
    "record invocation idempotency"
  return (recordInvocationAudit i id action input.now,
    ⟨id, row.conversationID, row.targetEndpoint, row.targetMachineID, row.fence, row.status, "", 0,
      zeroTime, false⟩, false)

/-- `ORDER BY created_at, id`. -/
def invocationOlderFirst (a b : String × InvocationRow) : Bool :=
  if a.2.createdAt == b.2.createdAt then a.1 ≤ b.1 else a.2.createdAt < b.2.createdAt

/-- The transaction of a request; `id` and `fence` are fresh. -/
def requestInvocationWithSchema (s : Store) (i : Invocations) (input : InvokeInput)
    (requestHash id fence : String) : Except Err (Invocations × Invocation × Bool) := do
  endpointOwnedBy s.presence input.fromEndpoint input.senderMachineID input.now
  requireCapability s.rooms input.conversationID input.fromEndpoint capInvoke
  let i := pruneExpiredTerminalInvocations i input.now
  match i.invocationIdempotency.find? (input.senderMachineID, input.idempotencyKey) with
  | some existing =>
    require (existing.requestHash = requestHash) .conflict
    let invocation ← invocationByID i existing.invocationID
    return (i, invocationForCaller invocation input, true)
  | none =>
    requireCapability s.rooms input.conversationID input.targetEndpoint capReceive
    let target ← ofOption (s.presence.endpoints.find? input.targetEndpoint) .forbidden
    let i := expireAbandonedInvocations i input.targetEndpoint input.now
    require (pendingWork s.mail input.targetEndpoint input.conversationID) .conflict
    if unixMilli input.now < target.leaseUntil then
      openInvocation i input requestHash id
        (input.row target fence .alreadyRunning (some (unixMilli input.now)))
        "record already-running invocation" .alreadyRunning
    else
      -- Callers that race to wake one target converge on one fence.
      let open_ := (i.invocations.rows.filter fun r => r.2.targetEndpoint == input.targetEndpoint &&
        r.2.targetMachineID == target.machineID &&
        r.2.targetOwnershipGeneration == target.ownershipGeneration &&
        (r.2.status == .pending || (r.2.status == .succeeded && unixMilli input.now < r.2.notBefore)))
      match (open_.insertionSort fun a b => invocationOlderFirst a b).head? with
      | some existing =>
        let invocation ← invocationByID i existing.1
        let i ← insertInvocationIdempotency i input.senderMachineID input.idempotencyKey requestHash
          existing.1 "record coalesced invocation idempotency"
        return (recordInvocationAudit i existing.1 .coalesced input.now,
          invocationForCaller invocation input, true)
      | none =>
        openInvocation i input requestHash id (input.row target fence .pending none)
          "queue invocation" .requested

/-- `ensureInvocationSchema`. -/
def ensureInvocationSchema (i : Option Invocations) : Invocations := i.getD ⟨.empty, .empty, .empty⟩

/-- The inexpensive checks that come before the tables are created. -/
def checkInvocationRequest (s : Store) (input : InvokeInput) : Except Err Unit := do
  require (trimSpace input.conversationID ≠ "" ∧ validMachineID input.senderMachineID ∧
    validEndpoint input.fromEndpoint ∧ validEndpoint input.targetEndpoint ∧
    validRequestToken input.idempotencyKey) (.message "invalid invocation request")
  endpointOwnedBy s.presence input.fromEndpoint input.senderMachineID input.now
  requireCapability s.rooms input.conversationID input.fromEndpoint capInvoke
  requireCapability s.rooms input.conversationID input.targetEndpoint capReceive
  if s.invocations.isNone then
    require (pendingWork s.mail input.targetEndpoint input.conversationID) .conflict

/-- The tables afterwards, and the answer. A request that fails in its transaction may still have
created the tables. -/
def requestInvocation (s : Store) (input : InvokeInput) (id fence : String) :
    Option Invocations × Except Err (Invocation × Bool) :=
  match checkInvocationRequest s input with
  | .error e => (s.invocations, .error e)
  | .ok () =>
    let i := ensureInvocationSchema s.invocations
    let requestHash := stableHash E [input.conversationID, input.fromEndpoint, input.targetEndpoint]
    match requestInvocationWithSchema s i input requestHash id fence with
    | .error e => (some i, .error e)
    | .ok (i', invocation, duplicate) => (some i', .ok (invocation, duplicate))

/-! ## Leasing -/

/-- The invocations a machine's consumer may lease now. -/
def leasableInvocations (p : Presence) (i : Invocations) (machineID consumerID : String) (now : Int)
    (limit : Nat) : List (String × InvocationRow) :=
  let mine := fun r : InvocationRow =>
    r.leaseMachineID == some machineID && r.leaseConsumerID == some consumerID
  ((i.invocations.rows.filter fun r => r.2.targetMachineID == machineID && r.2.status == .pending &&
      r.2.notBefore ≤ unixMilli now &&
      (r.2.leaseUntil.all (· ≤ unixMilli now) || mine r.2) &&
      (p.endpoints.find? r.2.targetEndpoint).any fun e => e.machineID == r.2.targetMachineID &&
        (e.ownershipGeneration == r.2.targetOwnershipGeneration ||
          (mine r.2 && r.2.leaseUntil.any (unixMilli now < ·)))).insertionSort
    fun a b => invocationOlderFirst a b).take limit

/-- The row after a lease: a fresh lease spends an attempt, or becomes a recovery once they are spent;
a live lease handed back to its consumer does not. -/
def InvocationRow.leased (r : InvocationRow) (machineID consumerID token : String) (now ttl : Int) :
    InvocationRow :=
  let fresh := r.leaseUntil.all (· ≤ unixMilli now)
  let spent := maxInvocationAttempts ≤ r.attempts
  { r with
    attempts := if fresh && !spent then r.attempts + 1 else r.attempts
    recoveryOnly := if fresh && spent then true else r.recoveryOnly
    lastActivityAt := if fresh then unixMilli now else r.lastActivityAt
    leaseMachineID := some machineID
    leaseConsumerID := some consumerID
    leaseToken := some token
    leaseGeneration := r.leaseGeneration + 1
    leaseUntil := some (unixMilli (now + ttl)) }

/-- Leases one selected invocation; `acc` holds the tables, the result so far and the next token. -/
def leaseInvocation (machineID consumerID : String) (now ttl : Int) (tokens : Nat → String)
    (acc : Invocations × List Invocation) (selected : String × InvocationRow) :
    Invocations × List Invocation :=
  let token := tokens acc.2.length
  let row := selected.2.leased machineID consumerID token now ttl
  let i := { acc.1 with invocations := acc.1.invocations.updateAt selected.1 fun _ => row }
  (if selected.2.leaseUntil.all (· ≤ unixMilli now) then recordInvocationAudit i selected.1 .leased now
    else i,
    acc.2 ++ [⟨selected.1, row.conversationID, row.targetEndpoint, row.targetMachineID, row.fence,
      .pending, token, row.leaseGeneration, now + ttl, row.recoveryOnly⟩])

/-- The tables afterwards and the leased work; `tokens` are the fresh lease tokens. -/
def leaseInvocations (s : Store) (machineID consumerID : String) (now ttl : Int) (limit : Int)
    (tokens : Nat → String) : Except Err (Option Invocations × List Invocation) :=
  match s.invocations with
  | none => .ok (none, [])
  | some i => do
    require (validMachineID machineID ∧ validRequestToken consumerID ∧ 0 < ttl ∧ 1 ≤ limit ∧ limit ≤ 100)
      (.message "invalid invocation lease request")
    let i := expireAbandonedLeasedInvocations i machineID now
    let i := failStaleOwners s.presence i machineID now
    let i := failStale s.mail i machineID now
    let i := consumeOnline s.presence i machineID now
    let (i, leased) := (leasableInvocations s.presence i machineID consumerID now limit.toNat).foldl
      (leaseInvocation machineID consumerID now ttl tokens) (i, [])
    return (some i, leased)

/-! ## Reporting -/

/-- The pending invocation the presented lease is live on. -/
def leasedInvocation (s : Store) (machineID invocationID token : String) (generation now : Int) :
    Except Err (Invocations × InvocationRow) := do
  require (validMachineID machineID ∧ trimSpace invocationID ≠ "" ∧ validRequestToken token ∧
    1 ≤ generation) .forbidden
  let i ← ofOption s.invocations .forbidden
  let row ← ofOption (i.invocations.find? invocationID) .forbidden
  require (row.status = .pending ∧ row.leaseMachineID = some machineID ∧ row.leaseToken = some token ∧
    (row.leaseGeneration : Int) = generation ∧ row.leaseUntil.any (unixMilli now < ·)) .forbidden
  return (i, row)

def invocationBackoff (attempt : Nat) : Int := min (2 * 1000000000 * 2 ^ (attempt - 1)) maxInvocationBackoff

def reportInvocation (s : Store) (machineID invocationID token : String) (generation : Int)
    (accepted : Bool) (now : Int) : Except Err Invocations := do
  let (i, row) ← leasedInvocation s machineID invocationID token generation now
  if accepted then
    return recordInvocationAudit
      { i with
        invocations := i.invocations.updateAt invocationID fun r =>
          { r.unlease with
            status := .succeeded, notBefore := unixMilli (now + maxInvocationBackoff),
            terminalAt := some (unixMilli now) } } invocationID .accepted now
  else
    let exhausted := maxInvocationAttempts ≤ row.attempts
    return recordInvocationAudit
      { i with
        invocations := i.invocations.updateAt invocationID fun r =>
          { r.unlease with
            status := if exhausted then .failed else .pending
            attempts := row.attempts
            notBefore := unixMilli (if exhausted then now else now + invocationBackoff row.attempts)
            terminalAt := if exhausted then some (unixMilli now) else none } } invocationID
      (if exhausted then .failed else .retry) now

def rejectInvocation (s : Store) (machineID invocationID token : String) (generation now : Int) :
    Except Err Invocations := do
  let (i, _) ← leasedInvocation s machineID invocationID token generation now
  return endInvocations i [invocationID] .failed .failed now

end Punaro
