import Punaro.Adapter.Sync
import Punaro.Relay.Ops

/-!
# An adapter and its relay

One adapter starts runtimes for the invocations it leases from the relay. The relay
answers with its own clock and goes on serving others meanwhile; requests and replies
may get lost, journal calls may fail, and the adapter may be stopped between any two
calls and started again on its journal.
-/

namespace Punaro

namespace Adapter

open Prog

/-- What a cycle does about invocations: it reads the clock and serves what it leases. -/
def wakeCycle : Program Unit := do
  let now ← perform .now
  syncInvocations now

/-- The relay and the adapter's journal, the clocks both read, and the identifiers drawn for invocations. -/
structure Wake where
  relay : Store
  drawn : List String
  journal : Journal
  adapterClock : Int
  relayClock : Int

/-- Nothing has been stored yet. -/
def Wake.start : Wake := ⟨Store.empty, [], Journal.empty, 0, 0⟩

/-- What is left open about the answer to a call: what the mailbox and the host answer, whether a call to the
journal or the relay fails, the lease the relay gives and the endpoints it lets the adapter serve. -/
structure WakeAnswer where
  attached : Answer Err (List String)
  started : Answer Err Unit
  failure : Option (Err × Bool)
  ttl : Int
  limit : Int
  tokens : Nat → String
  allows : String → Bool

/-- A request to the relay: with `some (e, took)` it answers the error `e`, lost before or after it took
effect. -/
def Wake.ask {α : Type} (E : Env) (w : Wake) (op : Op) (read : Reply → Except Err α) :
    Option (Err × Bool) → Wake × Answer Err α
  | some (e, false) => (w, .failed e false)
  | some (e, true) => ({ w with relay := (step E w.relay op).1 }, .failed e true)
  | none => ({ w with relay := (step E w.relay op).1 },
    match read (step E w.relay op).2 with
    | .ok a => .ok a
    | .error e => .failed e false)

/-- The leased invocations the adapter may serve (`handler.leaseInvocations`). -/
def Reply.leased (allows : String → Bool) : Reply → Except Err (List Invocation)
  | .invocations page => .ok (page.filter fun invocation => allows invocation.targetEndpoint)
  | .refused e => .error e
  | _ => .error (.message "unexpected reply")

def Reply.accepted : Reply → Except Err Unit
  | .done => .ok ()
  | .refused e => .error e
  | _ => .error (.message "unexpected reply")

/-- The answers to the adapter of the given machine and consumer. Deliveries are not served here. -/
def Wake.answer (E : Env) (machineID consumerID : String) (o : WakeAnswer) (w : Wake) :
    (c : Call) → Wake × c.Reply
  | .now => (w, w.adapterClock)
  | .attached => (w, o.attached)
  | .invoke _ => (w, o.started)
  | .leaseInvocations =>
    w.ask E (.leaseInvocations machineID consumerID w.relayClock o.ttl o.limit o.tokens) (Reply.leased o.allows)
      o.failure
  | .reportInvocation invocation accepted =>
    w.ask E (.reportInvocation machineID invocation.id invocation.leaseToken invocation.leaseGeneration accepted
      w.relayClock) Reply.accepted o.failure
  | .journal entry => ({ w with journal := (w.journal.attempt entry o.failure).1 },
    (w.journal.attempt entry o.failure).2)
  | .send .. => (w, .failed (.message "not served") false)
  | .advertise _ => (w, .failed (.message "not served") false)
  | .lease _ => (w, .failed (.message "not served") false)
  | .ack _ => (w, .failed (.message "not served") false)

/-- What happens apart from the adapter: time passes, or the relay serves a call of anyone. -/
inductive WakeMove where
  | tick (adapterClock relayClock : Int)
  | relay (op : Op)

def Wake.move (E : Env) (w : Wake) : WakeMove → Wake
  | .tick adapterClock relayClock => { w with adapterClock, relayClock }
  | .relay op => { w with relay := (step E w.relay op).1, drawn := w.drawn ++ op.invocationID.toList }

/-- The cycles of one adapter next to its relay, with the calls the adapter makes. -/
def wake (E : Env) (machineID consumerID : String) :
    System (Wake × List ((c : Call) × c.Reply)) Call Call.Reply Err Unit Unit WakeAnswer WakeMove where
  main _ := wakeCycle
  act := recorded (Wake.answer E machineID consumerID)
  env x s := (s.1.move E x, s.2)

end Adapter

end Punaro
