import Punaro.Adapter.Journal
import Punaro.Lib.Program

/-!
# The adapter's cycle

`SyncOnce` (`internal/adapter/sync.go`) advertises the sessions attached to the local
mailbox, hands their leased deliveries over and starts the runtimes it is asked to
start. It is a program that calls the mailbox, the relay, the host and its own
journal; any of these calls may fail, and a failed call may still have taken effect.
-/

namespace Punaro.Adapter

/-- The envelope injected into the local mailbox. -/
structure InboundMessage where
  punaroMessageID : String
  conversationID : String
  sequence : Nat
  fromEndpoint : String
  fromRole : String
  fromParticipant : String
  recipientRole : String
  inReplyToEndpoint : String
  inReplyToPunaroMessageID : String
  telegramThreadID : Int
  body : String
  createdAt : Int
deriving DecidableEq

def inboundEnvelope (delivery : Delivery) : InboundMessage where
  punaroMessageID := delivery.message.id
  conversationID := delivery.message.conversationID
  sequence := delivery.message.sequence
  fromEndpoint :=
    if delivery.message.fromParticipant = telegramUserParticipant then telegramUserParticipant
    else delivery.message.fromEndpoint
  fromRole := delivery.message.fromRole
  fromParticipant := delivery.message.fromParticipant
  recipientRole := delivery.recipientRole
  inReplyToEndpoint := delivery.message.inReplyToEndpoint
  inReplyToPunaroMessageID := delivery.message.inReplyToPunaroMessageID
  telegramThreadID := delivery.message.telegramThreadID
  body := delivery.message.body
  createdAt := delivery.message.createdAt

/-! ## Calls -/

inductive JournalCall where
  | ensureReceived (deliveryID messageID : String) (now : Int)
  | markForwarded (deliveryID messageID : String) (now : Int)
  | markAcknowledged (deliveryID : String) (now : Int)
  | ensureInvocation (invocationID fence : String) (now : Int)
  | pruneInvocationRecoveryRows (now : Int)
  | markInvocationAccepted (invocationID fence : String) (now : Int)
  | removeInvocation (invocationID fence : String)

abbrev JournalCall.Result : JournalCall → Type
  | .ensureReceived .. => DeliveryState
  | .ensureInvocation .. => InvocationState
  | _ => Unit

/-- A call of the adapter. `send` names the delivery it is about, which the mailbox is not told. -/
inductive Call where
  | now
  | attached
  | send (endpoint deliveryID : String) (message : InboundMessage)
  | advertise (endpoints : List String)
  | lease (endpoint : String)
  | ack (delivery : Delivery)
  | leaseInvocations
  | reportInvocation (invocation : Invocation) (accepted : Bool)
  | invoke (invocation : Invocation)
  | journal (call : JournalCall)

abbrev Call.Reply : Call → Type
  | .now => Int
  | .attached => Answer Err (List String)
  | .lease _ => Answer Err (List Delivery)
  | .leaseInvocations => Answer Err (List Invocation)
  | .journal call => Answer Err call.Result
  | _ => Answer Err Unit

abbrev Program := Prog Call Call.Reply Err

open Prog

/-- `fmt.Errorf("… %q: %w", …)`. -/
def quoted (context id : String) (e : Err) : Err := .wrapped (context ++ " " ++ id.quote) e

/-! ## Deliveries -/

def uniqueEndpoints (endpoints : List String) : Except Err (List String) :=
  if endpoints.any fun endpoint => trimSpace endpoint == "" then
    .error (.message "attached mailbox contains an empty endpoint")
  else .ok (endpoints.dedup.insertionSort fun a b => a ≤ b)

/-- A result, or the end of the program. -/
def orFail {α : Type} : Except Err α → Program α
  | .ok a => .done a
  | .error e => .fail e

/-- The acknowledgement of a delivery the mailbox has accepted. -/
def acknowledge (delivery : Delivery) (now : Int) : Program Unit := do
  perform (.ack delivery) >>= result (quoted "acknowledge relay delivery" delivery.id)
  perform (.journal (.markAcknowledged delivery.id now)) >>=
    result (quoted "record relay acknowledgement" delivery.id)

def forwardAndAcknowledge (endpoint : String) (delivery : Delivery) (now : Int) : Program Unit := do
  let state ← perform (.journal (.ensureReceived delivery.id delivery.message.id now)) >>=
    result (quoted "record received delivery" delivery.id)
  match state with
  | .acknowledged => return
  | .received =>
    perform (.send endpoint delivery.id (inboundEnvelope delivery)) >>= result fun e =>
      .wrapped ("inject delivery " ++ delivery.id.quote ++ " into local mailbox") e
    perform (.journal (.markForwarded delivery.id delivery.message.id now)) >>=
      result (quoted "record local delivery handoff" delivery.id)
    acknowledge delivery now
  -- The mailbox accepted this before a prior acknowledgement attempt.
  | .forwarded => acknowledge delivery now

/-! ## Runtime starts -/

/-- One leased invocation. -/
def syncInvocation (now : Int) (invocation : Invocation) : Program Unit := do
  let state ← perform (.journal (.ensureInvocation invocation.id invocation.fence now)) >>=
    result (quoted "record invocation" invocation.id)
  let finish : Program Unit := do
    perform (.reportInvocation invocation true) >>= result (quoted "report runtime invocation" invocation.id)
    perform (.journal (.removeInvocation invocation.id invocation.fence)) >>=
      result (quoted "remove accepted invocation" invocation.id)
  if state = .accepted then finish
  else if invocation.recoveryOnly then
    -- Without a local record of an accepted start another one would not be safe.
    perform (.reportInvocation invocation false) >>=
      result (quoted "report unconfirmed recovery invocation" invocation.id)
    perform (.journal (.removeInvocation invocation.id invocation.fence)) >>=
      result (quoted "remove unconfirmed recovery invocation" invocation.id)
    .fail (.message ("recovery-only invocation " ++ invocation.id.quote ++ " has no accepted local handoff"))
  else
    let attached ← perform .attached >>= result (.wrapped "recheck attached mailbox sessions")
    let attached ← orFail (uniqueEndpoints attached)
    if invocation.targetEndpoint ∈ attached then
      perform (.reportInvocation invocation true) >>=
        result (quoted "record locally attached invocation" invocation.id)
      perform (.journal (.removeInvocation invocation.id invocation.fence)) >>=
        result (quoted "remove locally attached invocation" invocation.id)
    else
      let started : Answer Err Unit ← perform (Call.invoke invocation)
      match started with
      | .failed e _ =>
        perform (.reportInvocation invocation false) >>= result fun reportErr =>
          .wrapped ("runtime invocation " ++ invocation.id.quote ++ " failed and retry report failed") reportErr
        perform (.journal (.removeInvocation invocation.id invocation.fence)) >>=
          result (quoted "remove failed invocation" invocation.id)
        .fail (quoted "run runtime invocation" invocation.id e)
      | .ok () =>
        perform (.journal (.markInvocationAccepted invocation.id invocation.fence now)) >>=
          result (quoted "record accepted invocation" invocation.id)
        finish

/-- The invocation a journal call is about. -/
def JournalCall.about : JournalCall → Option String
  | .ensureInvocation id _ _ => some id
  | .markInvocationAccepted id _ _ => some id
  | .removeInvocation id _ => some id
  | _ => none

/-- The calls made about one leased invocation. A runtime is started only if the lease allows it. -/
def Call.Concerns (invocation : Invocation) : Call → Prop
  | .attached => True
  | .reportInvocation i _ => i = invocation
  | .invoke i => i = invocation ∧ invocation.recoveryOnly = false
  | .journal entry => entry.about = some invocation.id
  | _ => False

theorem orFail_makes {α : Type} {P : Call → Prop} {x : Except Err α} : (orFail x).Makes P := by
  cases x <;> trivial

theorem syncInvocation_makes (now : Int) (invocation : Invocation) :
    (syncInvocation now invocation).Makes (Call.Concerns invocation) := by
  have hreport (accepted : Bool) (wrap : Err → Err) :
      (perform (.reportInvocation invocation accepted) >>= result wrap : Program Unit).Makes
        (Call.Concerns invocation) := (makes_perform (by exact rfl)).bind fun _ => makes_result
  have hremove (wrap : Err → Err) :
      (perform (.journal (.removeInvocation invocation.id invocation.fence)) >>= result wrap : Program Unit).Makes
        (Call.Concerns invocation) := (makes_perform (by exact rfl)).bind fun _ => makes_result
  unfold syncInvocation
  refine ((makes_perform (by exact rfl)).bind fun _ => makes_result).bind fun state => ?_
  dsimp only
  split
  · exact (hreport true _).bind fun _ => hremove _
  split
  · exact (hreport false _).bind fun _ => (hremove _).bind fun _ => trivial
  rename_i hfresh
  refine ((makes_perform (by trivial)).bind fun _ => makes_result).bind fun attached => ?_
  refine orFail_makes.bind fun attached => ?_
  split
  · exact (hreport true _).bind fun _ => hremove _
  refine (makes_perform (by exact ⟨rfl, by simpa using hfresh⟩)).bind fun started => ?_
  split
  · exact (hreport false _).bind fun _ => (hremove _).bind fun _ => trivial
  · refine ((makes_perform (by exact rfl)).bind fun _ => makes_result).bind fun _ => ?_
    exact (hreport true _).bind fun _ => hremove _

def syncInvocations (now : Int) : Program Unit := do
  perform (.journal (.pruneInvocationRecoveryRows now)) >>=
    result (.wrapped "prune invocation recovery rows")
  let invocations ← perform .leaseInvocations >>= result (.wrapped "lease runtime invocations")
  invocations.forM (syncInvocation now)

/-! ## The cycle -/

/-- What a `Syncer` is configured with beyond its mailbox, relay and journal: an invoker, and a relay
client that also serves invocations. -/
structure Syncer where
  invoker : Bool
  invocationRelay : Bool

def Syncer.syncOnce (s : Syncer) : Program Unit := do
  let endpoints ← perform .attached >>= result (.wrapped "read attached mailbox sessions")
  let endpoints ← orFail (uniqueEndpoints endpoints)
  perform (.advertise endpoints) >>= result (.wrapped "advertise attached sessions")
  endpoints.forM fun endpoint => do
    let deliveries ← perform (.lease endpoint) >>= result (quoted "lease deliveries for" endpoint)
    deliveries.forM fun delivery => do
      let now ← perform .now
      forwardAndAcknowledge endpoint delivery now
  if s.invoker then
    if s.invocationRelay then
      let now ← perform .now
      syncInvocations now
    else .fail (.message "adapter invocation relay is unavailable")

/-! ## The journal as a world -/

/-- What a journal call does and answers. -/
def Journal.run (j : Journal) : (call : JournalCall) → Except Err (Journal × call.Result)
  | .ensureReceived deliveryID messageID now => j.ensureReceived deliveryID messageID now
  | .markForwarded deliveryID messageID now => .ok (j.markForwarded deliveryID messageID now, ())
  | .markAcknowledged deliveryID now => (j.markAcknowledged deliveryID now).map fun j => (j, ())
  | .ensureInvocation invocationID fence now => j.ensureInvocation invocationID fence now
  | .pruneInvocationRecoveryRows now => .ok (j.pruneInvocationRecoveryRows now, ())
  | .markInvocationAccepted invocationID fence now =>
    (j.markInvocationAccepted invocationID fence now).map fun j => (j, ())
  | .removeInvocation invocationID fence => (j.removeInvocation invocationID fence).map fun j => (j, ())

/-- A journal call that may fail: with `some (e, took)` it answers the error `e`, after it took effect or
without effect. -/
def Journal.attempt (j : Journal) (call : JournalCall) : Option (Err × Bool) → Journal × Answer Err call.Result
  | none =>
    match j.run call with
    | .ok (j', a) => (j', .ok a)
    | .error e => (j, .failed e false)
  | some (e, took) =>
    match took, j.run call with
    | true, .ok (j', _) => (j', .failed e true)
    | _, _ => (j, .failed e false)

/-- A journal call that took effect ran, any other left the journal as it was. -/
theorem Journal.attempt_cases (j : Journal) (call : JournalCall) (fate : Option (Err × Bool)) :
    (∃ a, j.run call = .ok ((j.attempt call fate).1, a) ∧ (j.attempt call fate).2.took = true ∧
      ∀ b, (j.attempt call fate).2 = .ok b → b = a) ∨
    ((j.attempt call fate).1 = j ∧ (j.attempt call fate).2.took = false) := by
  unfold Journal.attempt
  split
  · split
    · rename_i j' a hrun
      exact .inl ⟨a, hrun, rfl, fun b hb => by cases hb; rfl⟩
    · exact .inr ⟨rfl, rfl⟩
  · split
    · rename_i j' a hrun
      exact .inl ⟨a, hrun, rfl, fun b hb => by cases hb⟩
    · exact .inr ⟨rfl, rfl⟩

end Punaro.Adapter
