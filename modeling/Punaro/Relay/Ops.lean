import Punaro.Relay.Deliver

/-!
# Operations and runs

`Op` is one call of a mutating method of the store with everything it depends on:
its arguments, the fresh identifiers and tokens it draws, the clock it reads. `step`
runs the call as the database does: a refused call leaves the store unchanged,
except that `MaintainDeliveries` keeps the transactions it has committed and
`RequestInvocation` the tables it has created.

`run` executes a list of calls; `stateAt` is the store after the first calls of one.
-/

namespace Punaro

open Outcome

variable (E : Env)

/-- Prunes expired nonces and records one; a nonce still recorded is refused. -/
def consumeRequestNonce (t : Table (String × String) Int) (machineID nonce : String)
    (now expiresAt : Int) : Except Err (Table (String × String) Int) := do
  require (validMachineID machineID ∧ validRequestToken nonce ∧ now < expiresAt) .forbidden
  ofOption ((t.deleteWhere fun _ expires => expires ≤ unixMilli now).insert? (machineID, nonce)
    (unixMilli expiresAt)) .forbidden

inductive Op where
  | registerRoleProfile (input : RegisterRoleInput)
  | advertiseEndpoints (machineID : String) (endpoints : List String) (now ttl : Int)
  | bindRoleToSession (machineID role sessionEndpoint : String) (now ttl : Int)
  | createConversation (creatorEndpoint : String) (members : List Member) (now : Int) (id : String)
  | createConversationIdempotent (input : CreateConversationInput) (id : String)
  | applyControl (input : ControlInput) (id : String)
  | setConversationDisplayName (input : SetDisplayNameInput)
  | reserveTelegramClaim (input : TelegramClaimInput)
  | completeTelegramClaim (input : TelegramClaimCompleteInput) (id : String)
  | prepareTelegramAdopt (input : AdoptPrepareInput) (wallClock : Int)
  | appendMessage (input : AppendInput) (ids : FreshIDs)
  | appendTelegramInbound (input : TelegramInboundInput) (ids : FreshIDs)
  | sendDirectMessage (input : DirectMessageInput) (ids : DirectIDs)
  | leaseDeliveries (machineID consumerID endpoint conversationID : String) (now ttl limit : Int)
      (token : String → String)
  | ackDelivery (machineID endpoint deliveryID token : String) (generation now : Int)
  | maintainDeliveries (now : Int)
  | consumeRequestNonce (machineID nonce : String) (now expiresAt : Int)
  | requestInvocation (input : InvokeInput) (id fence : String)
  | leaseInvocations (machineID consumerID : String) (now ttl limit : Int) (tokens : Nat → String)
  | reportInvocation (machineID invocationID token : String) (generation : Int) (accepted : Bool)
      (now : Int)
  | rejectInvocation (machineID invocationID token : String) (generation now : Int)
  | reconcilePendingQuota
  | setRateLimits (cfg : RateLimitConfig)
  | setQuotaLimits (cfg : QuotaConfig)
  | setRetentionPolicy (cfg : RetentionConfig)
  | reopen

/-- The instant a call works with, if it has one. -/
def Op.clock : Op → Option Int
  | registerRoleProfile input => some input.now
  | advertiseEndpoints _ _ now _ => some now
  | bindRoleToSession _ _ _ now _ => some now
  | createConversation _ _ now _ => some now
  | createConversationIdempotent input _ => some input.now
  | applyControl input _ => some input.now
  | setConversationDisplayName input => some input.now
  | reserveTelegramClaim input => some input.now
  | completeTelegramClaim input _ => some input.now
  | prepareTelegramAdopt input wallClock => some (if input.now = zeroTime then wallClock else input.now)
  | appendMessage input _ => some input.now
  | appendTelegramInbound input _ => some input.now
  | sendDirectMessage input _ => some input.now
  | leaseDeliveries _ _ _ _ now _ _ _ => some now
  | ackDelivery _ _ _ _ _ now => some now
  | maintainDeliveries now => some now
  | consumeRequestNonce _ _ now _ => some now
  | requestInvocation input _ _ => some input.now
  | leaseInvocations _ _ now _ _ _ => some now
  | reportInvocation _ _ _ _ _ now => some now
  | rejectInvocation _ _ _ _ now => some now
  | reconcilePendingQuota | setRateLimits _ | setQuotaLimits _ | setRetentionPolicy _ | reopen => none

/-- The identifier a call draws for a new invocation. -/
def Op.invocationID : Op → Option String
  | requestInvocation _ id _ => some id
  | _ => none

/-- What a call answers. -/
inductive Reply where
  | done
  | profile (profile : RoleProfile) (created : Bool)
  | conversation (conversation : Conversation) (duplicate : Bool)
  | control (event : ControlEvent) (duplicate : Bool)
  | claim (claim : TelegramClaim) (duplicate : Bool)
  | message (message : Message) (duplicate : Bool)
  | page (page : DeliveryLeasePage)
  | maintenance (result : MaintenanceResult)
  | invocation (invocation : Invocation) (duplicate : Bool)
  | invocations (invocations : List Invocation)
  | refused (error : Err)

/-- The end of a transaction: commit and answer, or roll back and refuse. -/
def commit {α : Type} (s : Store) (x : Except Err (Store × α)) (reply : α → Reply) : Store × Reply :=
  match x with
  | .ok (s', a) => (s', reply a)
  | .error e => (s, .refused e)

/-- A transaction that answers nothing but its success. -/
def commitDone (s : Store) (x : Except Err Store) : Store × Reply :=
  commit s (x.map fun s' => (s', ())) fun _ => .done

/-- The store after a restart: the policies are the defaults, missing counters and claim keys are
created (`openStore`, `migrate`). -/
def reopened (s : Store) : Store :=
  { s with
    mail := bootstrapPendingQuota s.mail
    journal := { s.journal with
      telegramClaimIdempotency := s.rooms.telegramClaims.rows.foldl (fun t c =>
        t.insertOrIgnore (c.2.requestedByMachine, c.2.idempotencyKey)
          ⟨c.2.requestHash, c.1, c.2.createdAt⟩) s.journal.telegramClaimIdempotency }
    rateLimits := .default
    quota := .default
    retention := .default }

/-- One call. -/
def step (s : Store) : Op → Store × Reply
  | .registerRoleProfile input => commit s (registerRoleProfile E s input) fun a => .profile a.1 a.2
  | .advertiseEndpoints machineID endpoints now ttl =>
    commitDone s (advertiseEndpoints s machineID endpoints now ttl)
  | .bindRoleToSession machineID role sessionEndpoint now ttl =>
    commitDone s (bindRoleToSession s machineID role sessionEndpoint now ttl)
  | .createConversation creatorEndpoint members now id =>
    commit s (createConversation E s ⟨"", "", "", creatorEndpoint, "", members, now⟩ id) fun c =>
      .conversation c false
  | .createConversationIdempotent input id =>
    commit s (createConversationIdempotent E s input id) fun c => .conversation c false
  | .applyControl input id => commit s (applyControl E s input id) fun a => .control a.1 a.2
  | .setConversationDisplayName input =>
    commit s (setConversationDisplayName E s input) fun a => .conversation a.1 a.2
  | .reserveTelegramClaim input => commit s (reserveTelegramClaim E s input) fun a => .claim a.1 a.2
  | .completeTelegramClaim input id => commit s (completeTelegramClaim s input id) fun a => .claim a.1 a.2
  | .prepareTelegramAdopt input wallClock => commitDone s (prepareTelegramAdopt s input wallClock)
  | .appendMessage input ids => commit s (appendMessage E s input ids) fun a => .message a.1 a.2
  | .appendTelegramInbound input ids =>
    commit s (appendTelegramInbound E s input ids) fun a => .message a.1 a.2
  | .sendDirectMessage input ids => commit s (sendDirectMessage E s input ids) fun a => .message a.1 a.2
  | .leaseDeliveries machineID consumerID endpoint conversationID now ttl limit token =>
    commit s (leaseDeliveries s machineID consumerID endpoint conversationID now ttl limit token) .page
  | .ackDelivery machineID endpoint deliveryID token generation now =>
    commitDone s (ackDelivery s machineID endpoint deliveryID token generation now)
  | .maintainDeliveries now =>
    match maintainDeliveries s now with
    | (s', result, none) => (s', .maintenance result)
    | (s', _, some e) => (s', .refused e)
  | .consumeRequestNonce machineID nonce now expiresAt =>
    commitDone s ((consumeRequestNonce s.requestNonces machineID nonce now expiresAt).map fun t =>
      { s with requestNonces := t })
  | .requestInvocation input id fence =>
    match requestInvocation E s input id fence with
    | (i, .ok (invocation, duplicate)) => ({ s with invocations := i }, .invocation invocation duplicate)
    | (i, .error e) => ({ s with invocations := i }, .refused e)
  | .leaseInvocations machineID consumerID now ttl limit tokens =>
    commit s ((leaseInvocations s machineID consumerID now ttl limit tokens).map fun a =>
      ({ s with invocations := a.1 }, a.2)) .invocations
  | .reportInvocation machineID invocationID token generation accepted now =>
    commitDone s ((reportInvocation s machineID invocationID token generation accepted now).map fun i =>
      { s with invocations := some i })
  | .rejectInvocation machineID invocationID token generation now =>
    commitDone s ((rejectInvocation s machineID invocationID token generation now).map fun i =>
      { s with invocations := some i })
  | .reconcilePendingQuota => ({ s with mail := reconcilePendingQuota s.mail }, .done)
  | .setRateLimits cfg => commitDone s (cfg.validate.map fun _ => { s with rateLimits := cfg })
  | .setQuotaLimits cfg => commitDone s (cfg.validate.map fun _ => { s with quota := cfg })
  | .setRetentionPolicy cfg => commitDone s (cfg.validate.map fun _ => { s with retention := cfg })
  | .reopen => (reopened s, .done)

/-- The store after a list of calls. -/
def run (s : Store) (ops : List Op) : Store := ops.foldl (fun s op => (step E s op).1) s

/-- The store after the first `n` of the calls, starting from an empty database. -/
def stateAt (ops : List Op) (n : Nat) : Store := run E Store.empty (ops.take n)

/-- The answer to call number `n`. -/
def replyAt (ops : List Op) (n : Nat) : Option Reply :=
  ops[n]?.map fun op => (step E (stateAt E ops n) op).2

end Punaro
