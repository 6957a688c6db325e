import Punaro.Adapter.Wake
import Punaro.Proof.Starts

/-!
# No second start

Once the adapter has recorded that a runtime was started for an invocation, it never
starts another for it, as long as that record outlives the invocation at the relay:
while the invocation is pending there, the record is in the journal; once it has
ended, it is never leased again. The record is pruned by age, on the adapter's clock,
and the relay keeps a pending invocation for as long as it is leased at least once a
day, up to three times; so a record can be pruned too early (`prunedRun`).
-/

namespace Punaro.Adapter

open Outcome Prog

/-- The invocation whose start a call has recorded. -/
def acceptedBy : ((c : Call) × c.Reply) → Option String
  | ⟨.journal (.markInvocationAccepted id _ _), answer⟩ => if answer.took then some id else none
  | _ => none

/-- The invocations for which `markInvocationAccepted` has been committed. -/
def acceptedIn (h : List ((c : Call) × c.Reply)) : List String := h.filterMap acceptedBy

/-- The relay has the invocation to be started. -/
def Wake.pending (w : Wake) (id : String) : Bool :=
  (w.relay.invocation? id).any fun r => r.status == .pending

/-- The journal says that a runtime has been started. -/
def Journal.accepted (j : Journal) (id : String) : Bool :=
  (j.inboundInvocations.find? id).any fun row => row.state == .accepted

abbrev WakeState := Wake × List ((c : Call) × c.Reply)

abbrev WakeCue := Cue Unit Unit WakeAnswer WakeMove

abbrev WakeConfig := Config Unit WakeState Call Call.Reply Err Unit

/-- What the cues lead to, from nothing stored. -/
abbrev wakeRun (E : Env) (machineID consumerID : String) (cues : List WakeCue) : WakeConfig :=
  (wake E machineID consumerID).run (Wake.start, []) cues

/-! ## The runs considered -/

/-- No identifier is drawn twice. -/
def Fresh (σ : WakeConfig) : WakeCue → Bool
  | .env (.relay op) => op.invocationID.all fun id => id ∉ σ.state.1.drawn
  | _ => true

def hours (n : Int) : Int := n * 3600 * 1000000000

/-- The relay works with its clock; neither clock goes back, and they are never more than 23 hours apart. -/
def Clocked (σ : WakeConfig) : WakeCue → Bool
  | .env (.relay op) => op.clock.all fun now => now = σ.state.1.relayClock
  | .env (.tick adapterClock relayClock) => σ.state.1.adapterClock ≤ adapterClock &&
    σ.state.1.relayClock ≤ relayClock && adapterClock - relayClock ≤ hours 23 && relayClock - adapterClock ≤ hours 23
  | _ => true

/-- The record of a start is not pruned while its invocation is pending at the relay. -/
def Wake.spares (w : Wake) : Call → Bool
  | .journal (.pruneInvocationRecoveryRows now) => w.journal.inboundInvocations.rows.all fun r =>
    !(r.2.state == .accepted && w.pending r.1 && r.2.updatedAt < unixMilli (now - invocationJournalRetention))
  | _ => true

/-- Pruning spares the records that are still needed. -/
def Spares (σ : WakeConfig) : WakeCue → Bool
  | .call _ _ =>
    match σ.thread () with
    | some (.call c _) => σ.state.1.spares c
    | _ => true
  | _ => true

/-- The invocation a runtime is about to be started for. -/
def starting (σ : WakeConfig) : Option Invocation :=
  match σ.thread () with
  | some (.call (.invoke invocation) _) => some invocation
  | _ => none

/-- No runtime is started for an invocation once a start has been recorded for it. -/
def NoSecondStart (σ : WakeConfig) : Prop :=
  ∀ invocation, starting σ = some invocation → invocation.id ∉ acceptedIn σ.state.2

/-- No runtime is started under a lease that is for recovery only. -/
def NoRecoveryStart (σ : WakeConfig) : Prop :=
  ∀ invocation, starting σ = some invocation → invocation.recoveryOnly = false

theorem starting_eq_some {σ : WakeConfig} {invocation : Invocation} (h : starting σ = some invocation) :
    ∃ k, σ.thread () = some (.call (.invoke invocation) k) := by
  unfold starting at h
  split at h
  · rename_i k hthread
    cases h
    exact ⟨k, hthread⟩
  · cases h

/-! ## The discipline -/

/-- Every invocation was drawn; a recorded start of an invocation that is pending at the relay is in the
journal. -/
structure WakeOK (s : WakeState) : Prop where
  drawn : ∀ {id}, s.1.relay.invocation? id ≠ none → id ∈ s.1.drawn
  known : ∀ {id}, id ∈ acceptedIn s.2 → id ∈ s.1.drawn
  fenced : ∀ {id}, id ∈ acceptedIn s.2 → s.1.pending id → s.1.journal.accepted id

/-- Others leave the adapter alone, and no ended invocation is opened again. -/
structure WakeRely (s s' : WakeState) : Prop where
  journal : s'.1.journal = s.1.journal
  history : s'.2 = s.2
  drawn : ∀ {id}, id ∈ s.1.drawn → id ∈ s'.1.drawn
  pending : ∀ {id}, id ∈ s.1.drawn → s'.1.pending id → s.1.pending id

/-- A start is made only if none is recorded, and only a start of a known invocation is recorded; the record is
removed only once the invocation has ended. -/
def wakePre : Call → WakeState → Prop
  | .invoke invocation, s => invocation.id ∉ acceptedIn s.2
  | .journal (.markInvocationAccepted id _ _), s => id ∈ s.1.drawn
  | .journal (.removeInvocation id _), s => id ∈ acceptedIn s.2 → s.1.pending id = false
  | _, _ => True

def wakeDiscipline : Discipline WakeState Call WakeAnswer WakeMove where
  Inv := WakeOK
  Rely := WakeRely
  Guar _ _ := True
  Pre := wakePre
  Allows _ s c := s.1.spares c
  Moves x s := ∀ op, x = .relay op → ∀ id, op.invocationID = some id → id ∉ s.1.drawn

/-! ## The relay -/

section

variable {E : Env} {machineID consumerID id : String} {w : Wake} {s s' : WakeState} {o : WakeAnswer} {c : Call}
  {op : Op}
variable {invocation : Invocation} {j j' : Journal} {α : Type} {e : (c : Call) × c.Reply} {now : Int}
  {wrap wrap' : Err → Err} {entry : JournalCall} {fence : String} {failure : Option (Err × Bool)}

theorem Wake.pending_iff : w.pending id ↔ ∃ r, w.relay.invocation? id = some r ∧ r.status = .pending := by
  unfold Wake.pending
  rw [Option.any_eq_true]
  simp

/-- A call of the relay opens no invocation but the one whose identifier it draws. -/
theorem pending_step (hp : ({ w with relay := (step E w.relay op).1 } : Wake).pending id) :
    w.pending id ∨ op.invocationID = some id := by
  obtain ⟨r', hr', hpending⟩ := Wake.pending_iff.1 hp
  exact ((step_invocation op id).pending hr' hpending).imp_left Wake.pending_iff.2

/-- What a request to the relay leaves. -/
theorem Wake.ask_cases (E : Env) (w : Wake) (op : Op) (read : Reply → Except Err α)
    (failure : Option (Err × Bool)) :
    ((w.ask E op read failure).1 = w ∨ (w.ask E op read failure).1 = { w with relay := (step E w.relay op).1 }) ∧
    ∀ a, (w.ask E op read failure).2 = .ok a →
      (w.ask E op read failure).1 = { w with relay := (step E w.relay op).1 } ∧
        read (step E w.relay op).2 = .ok a := by
  unfold Wake.ask
  split
  · exact ⟨.inl rfl, by rintro a ⟨⟩⟩
  · exact ⟨.inr rfl, by rintro a ⟨⟩⟩
  · refine ⟨.inr rfl, fun a ha => ⟨rfl, ?_⟩⟩
    dsimp only at ha
    split at ha
    · rename_i b hb
      cases ha
      exact hb
    · cases ha

/-- A request to the relay touches nothing but the relay. -/
theorem Wake.ask_rest (E : Env) (w : Wake) (op : Op) (read : Reply → Except Err α)
    (failure : Option (Err × Bool)) :
    (w.ask E op read failure).1.drawn = w.drawn ∧ (w.ask E op read failure).1.journal = w.journal := by
  rcases (w.ask_cases E op read failure).1 with h | h
  · rw [h]
    exact ⟨rfl, rfl⟩
  · rw [h]
    exact ⟨rfl, rfl⟩

theorem WakeOK.ask {read : Reply → Except Err α} (ok : WakeOK s) (hop : op.invocationID = none)
    (he : acceptedBy e = none) : WakeOK ((s.1.ask E op read failure).1, s.2 ++ [e]) := by
  have hsame : acceptedIn (s.2 ++ [e]) = acceptedIn s.2 := by simp [acceptedIn, List.filterMap_append, he]
  rcases (s.1.ask_cases E op read failure).1 with h | h
  · rw [h]
    exact ⟨ok.drawn, hsame.symm ▸ ok.known, hsame.symm ▸ ok.fenced⟩
  · rw [h]
    refine ⟨fun {id} hstored => ?_, fun hid => ok.known (hsame ▸ hid), fun {id} hid hp => ?_⟩
    · refine ok.drawn (((step_invocation op id).stored hstored).resolve_right ?_)
      rw [hop]
      rintro ⟨⟩
    · refine ok.fenced (hsame ▸ hid) ((pending_step hp).resolve_right ?_)
      rw [hop]
      rintro ⟨⟩

/-! ## The journal -/

/-- What a journal call leaves at an invocation it is not about. -/
theorem run_other {a : entry.Result} {id' : String} (hrun : j.run entry = .ok (j', a))
    (hentry : entry.about = some id') (hid : id ≠ id') :
    j'.inboundInvocations.find? id = j.inboundInvocations.find? id := by
  cases entry with
  | ensureInvocation =>
    cases hentry
    simp only [Journal.run, Journal.ensureInvocation, ok_rules, Prod.mk.injEq] at hrun
    obtain ⟨-, -, -, -, -, -, rfl, -⟩ := hrun
    exact Table.find?_insertOrIgnore.trans (if_neg hid)
  | markInvocationAccepted =>
    cases hentry
    simp only [Journal.run, Journal.markInvocationAccepted, exceptMap_eq_ok, ok_rules, Prod.mk.injEq] at hrun
    obtain ⟨j, ⟨-, -, rfl⟩, rfl, -⟩ := hrun
    exact (Table.find?_updateAt _).trans (if_neg hid)
  | removeInvocation =>
    cases hentry
    simp only [Journal.run, Journal.removeInvocation, exceptMap_eq_ok, ok_rules, Prod.mk.injEq] at hrun
    obtain ⟨j, ⟨-, -, rfl⟩, rfl, -⟩ := hrun
    ext row
    rw [Table.find?_deleteWhere_eq_some]
    simp [hid]
  | _ => cases hentry

theorem accepted_other {a : entry.Result} {id' : String} (hrun : j.run entry = .ok (j', a))
    (hentry : entry.about = some id') (hid : id ≠ id') :
    j'.accepted id = j.accepted id := by
  unfold Journal.accepted
  rw [run_other hrun hentry hid]

theorem markInvocationAccepted_row {u : Unit}
    (hrun : j.run (.markInvocationAccepted id fence now) = .ok (j', u)) : j'.accepted id := by
  simp only [Journal.run, Journal.markInvocationAccepted, exceptMap_eq_ok, ok_rules, Prod.mk.injEq] at hrun
  obtain ⟨j, ⟨-, hrow, rfl⟩, rfl, -⟩ := hrun
  obtain ⟨row, hrow, -⟩ := (Option.any_eq_true _ _).1 hrow
  unfold Journal.accepted
  rw [Table.find?_updateAt, if_pos rfl, hrow]
  rfl

theorem ensureInvocation_row {state : InvocationState} (h : j.ensureInvocation id fence now = .ok (j', state)) :
    (∃ row, j'.inboundInvocations.find? id = some row ∧ row.state = state) ∧
      (j.accepted id → state = .accepted) ∧ (j'.accepted id ↔ j.accepted id) := by
  unfold Journal.ensureInvocation at h
  simp only [ok_rules, Prod.mk.injEq] at h
  obtain ⟨-, -, row, hrow, -, -, rfl, hstate⟩ := h
  have hfind := hrow
  rw [Table.find?_insertOrIgnore, if_pos rfl, Option.some.injEq] at hfind
  refine ⟨⟨row, hrow, hstate⟩, fun haccepted => ?_, ?_⟩
  · unfold Journal.accepted at haccepted
    cases hold : j.inboundInvocations.find? id with
    | none => simp [hold] at haccepted
    | some old =>
      rw [hold] at haccepted hfind
      cases hfind
      rw [← hstate]
      simpa using haccepted
  · unfold Journal.accepted
    dsimp only
    rw [hrow]
    cases hold : j.inboundInvocations.find? id with
    | none =>
      rw [hold] at hfind
      simp [← hfind]
    | some old =>
      rw [hold] at hfind
      cases hfind
      rfl

theorem acceptedIn_append {h : List ((c : Call) × c.Reply)} :
    id ∈ acceptedIn (h ++ [e]) ↔ id ∈ acceptedIn h ∨ acceptedBy e = some id := by
  simp [acceptedIn, List.filterMap_append]

/-- A journal call that keeps every record still needed. -/
theorem WakeOK.journal (ok : WakeOK s) (he : acceptedBy e = none)
    (hkept : ∀ id, id ∈ acceptedIn s.2 → s.1.pending id → s.1.journal.accepted id → j.accepted id) :
    WakeOK ({ s.1 with journal := j }, s.2 ++ [e]) := by
  have hsame : ∀ {id}, id ∈ acceptedIn (s.2 ++ [e]) → id ∈ acceptedIn s.2 := by
    intro id hid
    rw [acceptedIn_append, he] at hid
    exact hid.resolve_right (by rintro ⟨⟩)
  exact ⟨ok.drawn, fun hid => ok.known (hsame hid),
    fun hid hp => hkept _ (hsame hid) hp (ok.fenced (hsame hid) hp)⟩

theorem WakeOK.attempt (ok : WakeOK s) (hpre : wakePre (.journal entry) s) (hspares : s.1.spares (.journal entry)) :
    WakeOK ({ s.1 with journal := (s.1.journal.attempt entry failure).1 },
      s.2 ++ [⟨.journal entry, (s.1.journal.attempt entry failure).2⟩]) := by
  rcases s.1.journal.attempt_cases entry failure with ⟨a, hrun, htook, -⟩ | ⟨hsame, htook⟩
  · generalize s.1.journal.attempt entry failure = out at hrun htook ⊢
    obtain ⟨j, answer⟩ := out
    dsimp only at hrun htook ⊢
    cases entry with
    | ensureReceived =>
      simp only [Journal.run, Journal.ensureReceived, ok_rules, Prod.mk.injEq] at hrun
      obtain ⟨-, -, -, -, -, -, rfl, -⟩ := hrun
      exact ok.journal rfl fun _ _ _ h => h
    | markForwarded =>
      simp only [Journal.run, Except.ok.injEq, Prod.mk.injEq, and_true] at hrun
      subst hrun
      exact ok.journal rfl fun _ _ _ h => h
    | markAcknowledged =>
      simp only [Journal.run, Journal.markAcknowledged, exceptMap_eq_ok, ok_rules, Prod.mk.injEq] at hrun
      obtain ⟨_, ⟨-, -, rfl⟩, rfl, -⟩ := hrun
      exact ok.journal rfl fun _ _ _ h => h
    | ensureInvocation id' =>
      obtain ⟨-, -, hkept⟩ := ensureInvocation_row hrun
      refine ok.journal rfl fun id _ _ h => ?_
      by_cases hid : id = id'
      · subst hid
        exact hkept.2 h
      · rwa [accepted_other hrun rfl hid]
    | pruneInvocationRecoveryRows now =>
      simp only [Journal.run, Except.ok.injEq, Prod.mk.injEq, and_true] at hrun
      subst hrun
      refine ok.journal rfl fun id _ hp h => ?_
      -- the row is spared, since its invocation is pending
      unfold Journal.accepted at h ⊢
      obtain ⟨row, hrow, hstate⟩ := Option.any_eq_true _ _ |>.1 h
      simp only [Wake.spares, List.all_eq_true] at hspares
      have hold := hspares (id, row) (Table.find?_eq_some_iff_mem.1 hrow)
      simp only [hstate, hp, Bool.and_true, Bool.true_and, Bool.not_eq_true'] at hold
      rw [Option.any_eq_true]
      exact ⟨row, Table.find?_deleteWhere_eq_some.2 ⟨hrow, hold⟩, hstate⟩
    | markInvocationAccepted id' fence now =>
      have hby : acceptedBy ⟨.journal (.markInvocationAccepted id' fence now), answer⟩ = some id' := if_pos htook
      refine ⟨ok.drawn, fun {id} hid => ?_, fun {id} hid hp => ?_⟩
      · rw [acceptedIn_append, hby, Option.some.injEq] at hid
        rcases hid with hid | rfl
        · exact ok.known hid
        · exact hpre
      · by_cases heq : id = id'
        · subst heq
          exact markInvocationAccepted_row hrun
        · rw [acceptedIn_append, hby, Option.some.injEq] at hid
          change j.accepted id
          rw [accepted_other hrun rfl heq]
          exact ok.fenced (hid.resolve_right fun h => heq h.symm) hp
    | removeInvocation id' fence =>
      refine ok.journal rfl fun id hid hp h => ?_
      have hne : id ≠ id' := by
        rintro rfl
        rw [hpre hid] at hp
        cases hp
      rwa [accepted_other hrun rfl hne]
  · rw [hsame]
    refine ok.journal ?_ fun _ _ _ h => h
    cases entry <;> simp [acceptedBy, htook]

/-! ## One call -/

theorem WakeOK.other (ok : WakeOK s) (he : acceptedBy e = none) :
    WakeOK (s.1, s.2 ++ [e]) := ok.journal he fun _ _ _ h => h

theorem WakeOK.call (ok : WakeOK s) (hpre : wakePre c s) (hspares : s.1.spares c) :
    WakeOK ((wake E machineID consumerID).act o s c).1 := by
  cases c with
  | journal entry => exact ok.attempt hpre hspares
  | leaseInvocations => exact ok.ask rfl rfl
  | reportInvocation => exact ok.ask rfl rfl
  | now => exact ok.other rfl
  | attached => exact ok.other rfl
  | invoke invocation => exact ok.other rfl
  | send => exact ok.other rfl
  | advertise endpoints => exact ok.other rfl
  | lease endpoint => exact ok.other rfl
  | ack delivery => exact ok.other rfl

/-- No call of the adapter draws an identifier. -/
theorem act_drawn : ((wake E machineID consumerID).act o s c).1.1.drawn = s.1.drawn := by
  cases c with
  | leaseInvocations => exact (s.1.ask_rest E _ _ _).1
  | reportInvocation => exact (s.1.ask_rest E _ _ _).1
  | _ => rfl

/-- Only `markInvocationAccepted` records a start. -/
theorem act_accepted (hc : ∀ id fence now, c ≠ .journal (.markInvocationAccepted id fence now)) :
    acceptedIn ((wake E machineID consumerID).act o s c).1.2 = acceptedIn s.2 := by
  have hnone : acceptedBy ⟨c, ((wake E machineID consumerID).act o s c).2⟩ = none := by
    unfold acceptedBy
    split
    · rename_i id fence now answer heq
      cases heq
      exact absurd rfl (hc id fence now)
    · rfl
  change acceptedIn (s.2 ++ [⟨c, ((wake E machineID consumerID).act o s c).2⟩]) = _
  simp [acceptedIn, List.filterMap_append, hnone]

/-! ## What is known about the invocation at hand -/

/-- Its identifier was drawn. -/
def Drawn (id : String) (s : WakeState) : Prop := id ∈ s.1.drawn

/-- No start of it has been recorded. -/
structure Unstarted (id : String) (s : WakeState) : Prop where
  drawn : Drawn id s
  not_accepted : id ∉ acceptedIn s.2

/-- It has ended at the relay. -/
structure Ended (id : String) (s : WakeState) : Prop where
  drawn : Drawn id s
  ended : s.1.pending id = false

/-- Its start, if recorded, is in the journal. -/
structure Fenced (id : String) (s : WakeState) : Prop where
  drawn : Drawn id s
  fenced : id ∈ acceptedIn s.2 → s.1.journal.accepted id

theorem Drawn.rely (h : Drawn id s) (hrely : WakeRely s s') : Drawn id s' := hrely.drawn h

theorem Unstarted.rely (h : Unstarted id s) (hrely : WakeRely s s') : Unstarted id s' :=
  ⟨h.drawn.rely hrely, hrely.history ▸ h.not_accepted⟩

theorem Ended.rely (h : Ended id s) (hrely : WakeRely s s') : Ended id s' := by
  refine ⟨h.drawn.rely hrely, ?_⟩
  by_contra hp
  have hwas := hrely.pending h.drawn (by simpa using hp)
  rw [h.ended] at hwas
  cases hwas

theorem Fenced.rely (h : Fenced id s) (hrely : WakeRely s s') : Fenced id s' := by
  refine ⟨h.drawn.rely hrely, ?_⟩
  rw [hrely.history, hrely.journal]
  exact h.fenced

theorem Drawn.act (h : Drawn id s) : Drawn id ((wake E machineID consumerID).act o s c).1 := by
  unfold Drawn
  rw [act_drawn]
  exact h

theorem Unstarted.act (h : Unstarted id s)
    (hc : ∀ id fence now, c ≠ .journal (.markInvocationAccepted id fence now)) :
    Unstarted id ((wake E machineID consumerID).act o s c).1 := by
  refine ⟨h.drawn.act, ?_⟩
  rw [act_accepted hc]
  exact h.not_accepted

/-- What one invocation does does not matter to another. -/
theorem Fenced.act (h : Fenced id s) (hc : c.Concerns invocation) (hid : id ≠ invocation.id) :
    Fenced id ((wake E machineID consumerID).act o s c).1 := by
  refine ⟨h.drawn.act, fun haccepted => ?_⟩
  cases c with
  | attached | invoke =>
    rw [act_accepted (by rintro _ _ _ ⟨⟩)] at haccepted
    exact h.fenced haccepted
  | reportInvocation i accepted =>
    have hjournal := (s.1.ask_rest E (.reportInvocation machineID i.id i.leaseToken i.leaseGeneration accepted
      s.1.relayClock) Reply.accepted o.failure).2
    change (Wake.journal _).accepted id
    rw [act_accepted (by rintro _ _ _ ⟨⟩)] at haccepted
    refine (congrArg (fun j => Journal.accepted j id) hjournal).trans (h.fenced haccepted)
  | journal entry =>
    change (s.1.journal.attempt entry o.failure).1.accepted id
    have hwas : id ∈ acceptedIn s.2 := by
      change id ∈ acceptedIn (s.2 ++ [_]) at haccepted
      refine (acceptedIn_append.1 haccepted).resolve_right fun hby => hid ?_
      unfold acceptedBy at hby
      split at hby
      · rename_i id' fence now answer heq
        cases heq
        cases (hc : some id' = some invocation.id)
        split at hby
        · cases hby
          rfl
        · cases hby
      · cases hby
    rcases s.1.journal.attempt_cases entry o.failure with ⟨a, hrun, -⟩ | ⟨hsame, -⟩
    · rw [accepted_other hrun hc hid]
      exact h.fenced hwas
    · rw [hsame]
      exact h.fenced hwas
  | _ => exact hc.elim

/-! ## One cycle -/

/-- The discipline of the cycles. -/
abbrev Wakes (E : Env) (machineID consumerID : String) {α : Type} (p : Program α) (Q : α → WakeState → Prop)
    (s : WakeState) : Prop := p.Safe (wake E machineID consumerID).act wakeDiscipline Q s

/-- A call made when `A` is known. -/
theorem wakes_perform {A : WakeState → Prop} {Q : c.Reply → WakeState → Prop} (hA : A s)
    (stable : ∀ {s s'}, A s → WakeRely s s' → A s') (pre : ∀ s, A s → WakeOK s → wakePre c s)
    (post : ∀ s o, A s → WakeOK s → WakeOK ((wake E machineID consumerID).act o s c).1 →
      Q ((wake E machineID consumerID).act o s c).2 ((wake E machineID consumerID).act o s c).1) :
    Wakes E machineID consumerID (perform c) Q s := by
  intro s₁ hrely ok
  have hA₁ := stable hA hrely
  refine ⟨pre s₁ hA₁ ok, fun o hspares => ?_⟩
  have ok' : WakeOK ((wake E machineID consumerID).act o s₁ c).1 := ok.call (pre s₁ hA₁ ok) hspares
  exact ⟨trivial, ok', post s₁ o hA₁ ok ok'⟩

/-- Removing the record of an invocation without one, or of one that has ended. -/
theorem remove_wakes (h : Unstarted id s ∨ Ended id s) :
    Wakes E machineID consumerID (perform (.journal (.removeInvocation id fence)) >>= result wrap)
      (fun _ _ => True) s := by
  simp only [safe_bind, safe_result]
  refine wakes_perform (A := fun s => Unstarted id s ∨ Ended id s) h
    (fun h hrely => h.imp (·.rely hrely) (·.rely hrely)) (fun s h _ hid => ?_) fun _ _ _ _ _ _ _ => trivial
  rcases h with h | h
  · exact absurd hid h.not_accepted
  · exact h.ended

/-- Reporting on an invocation of which no start has been recorded. -/
theorem report_wakes {accepted : Bool} (h : Unstarted invocation.id s) :
    Wakes E machineID consumerID (perform (.reportInvocation invocation accepted) >>= result wrap)
      (fun _ s => Unstarted invocation.id s) s := by
  simp only [safe_bind, safe_result]
  exact wakes_perform (A := Unstarted invocation.id) h (fun h hrely => h.rely hrely) (fun _ _ _ => trivial)
    fun s o h _ _ _ _ => h.act (by rintro _ _ _ ⟨⟩)

/-- An invocation whose start the relay has taken note of has ended. -/
theorem reported_ended {u : Unit}
    (h : ((wake E machineID consumerID).act o s (.reportInvocation invocation true)).2 = .ok u)
    (hdrawn : Drawn invocation.id s) :
    Ended invocation.id ((wake E machineID consumerID).act o s (.reportInvocation invocation true)).1 := by
  refine ⟨hdrawn.act, ?_⟩
  obtain ⟨hstate, hread⟩ := (s.1.ask_cases E (.reportInvocation machineID invocation.id invocation.leaseToken
    invocation.leaseGeneration true s.1.relayClock) Reply.accepted o.failure).2 u h
  change (Wake.ask E s.1 _ _ _).1.pending invocation.id = false
  rw [hstate]
  have hdone : (step E s.1.relay (.reportInvocation machineID invocation.id invocation.leaseToken
      invocation.leaseGeneration true s.1.relayClock)).2 = .done := by
    unfold Reply.accepted at hread
    split at hread
    · assumption
    · cases hread
    · cases hread
  obtain ⟨r, hr, hsucceeded⟩ := reportInvocation_done hdone
  simp [Wake.pending, hr, hsucceeded]

/-- The end of an invocation that has been started: its record goes once the relay knows. -/
theorem finish_wakes (h : Drawn invocation.id s) :
    Wakes E machineID consumerID
      (perform (.reportInvocation invocation true) >>= result wrap >>= fun _ =>
        perform (.journal (.removeInvocation invocation.id invocation.fence)) >>= result wrap')
      (fun _ _ => True) s := by
  rw [Wakes, safe_bind]
  simp only [safe_bind (f := result wrap), safe_result]
  refine wakes_perform (A := Drawn invocation.id) h (fun h hrely => h.rely hrely) (fun _ _ _ => trivial)
    fun s o h _ _ u hu => ?_
  exact remove_wakes (.inr (reported_ended hu h))

/-- Giving an invocation back of which no start has been recorded. -/
theorem release_wakes {accepted : Bool} {e : Err} (h : Unstarted invocation.id s) :
    Wakes E machineID consumerID
      (perform (.reportInvocation invocation accepted) >>= result wrap >>= fun _ =>
        perform (.journal (.removeInvocation invocation.id invocation.fence)) >>= result wrap' >>= fun _ =>
          .fail e : Program Unit)
      (fun _ _ => True) s := by
  rw [Wakes, safe_bind]
  refine (report_wakes h).mono fun _ _ h => ?_
  rw [safe_bind]
  exact (remove_wakes (.inl h)).mono fun _ _ _ => trivial

theorem orFail_safe {x : Except Err α} {Q : α → WakeState → Prop} (h : ∀ a, Q a s) :
    Wakes E machineID consumerID (orFail x) Q s := by
  cases x with
  | ok a => exact h a
  | error e => trivial

theorem syncInvocation_wakes (h : Fenced invocation.id s) :
    Wakes E machineID consumerID (syncInvocation now invocation) (fun _ _ => True) s := by
  unfold syncInvocation
  rw [Wakes, safe_bind]
  simp only [safe_bind (f := result _), safe_result]
  refine wakes_perform (A := Fenced invocation.id) h (fun h hrely => h.rely hrely) (fun _ _ _ => trivial)
    fun s o h _ _ state hstate => ?_
  have hdrawn : Drawn invocation.id ((wake E machineID consumerID).act o s
    (.journal (.ensureInvocation invocation.id invocation.fence now))).1 := h.drawn.act
  split
  · exact finish_wakes hdrawn
  rename_i hpending
  -- the journal would say if a start had been recorded
  have hunstarted : Unstarted invocation.id ((wake E machineID consumerID).act o s
      (.journal (.ensureInvocation invocation.id invocation.fence now))).1 := by
    refine ⟨hdrawn, fun hid => hpending ?_⟩
    rw [act_accepted (by rintro _ _ _ ⟨⟩)] at hid
    change (s.1.journal.attempt (.ensureInvocation invocation.id invocation.fence now) o.failure).2 = .ok state
      at hstate
    rcases s.1.journal.attempt_cases (.ensureInvocation invocation.id invocation.fence now) o.failure with
      ⟨a, hrun, -, hans⟩ | ⟨-, htook⟩
    · rw [hans state hstate]
      exact (ensureInvocation_row hrun).2.1 (h.fenced hid)
    · rw [hstate] at htook
      cases htook
  clear hstate
  generalize ((wake E machineID consumerID).act o s _).1 = s₁ at hdrawn hunstarted ⊢
  split
  · exact release_wakes hunstarted
  rw [safe_bind]
  simp only [safe_bind (f := result _), safe_result]
  refine wakes_perform (A := Unstarted invocation.id) hunstarted (fun h hrely => h.rely hrely) (fun _ _ _ => trivial)
    fun s₂ o₂ h₂ _ _ attached _ => ?_
  have h₃ : Unstarted invocation.id ((wake E machineID consumerID).act o₂ s₂ .attached).1 :=
    h₂.act (by rintro _ _ _ ⟨⟩)
  rw [safe_bind]
  refine orFail_safe fun endpoints => ?_
  split
  · exact finish_wakes h₃.drawn
  rw [safe_bind]
  refine wakes_perform (A := Unstarted invocation.id) h₃ (fun h hrely => h.rely hrely)
    (fun _ h _ => h.not_accepted) fun s₃ o₃ h₃ _ _ => ?_
  have h₄ : Unstarted invocation.id ((wake E machineID consumerID).act o₃ s₃ (.invoke invocation)).1 :=
    h₃.act (by rintro _ _ _ ⟨⟩)
  split
  · exact release_wakes h₄
  · rw [safe_bind]
    simp only [safe_bind (f := result _), safe_result]
    refine wakes_perform (A := Drawn invocation.id) h₄.drawn (fun h hrely => h.rely hrely) (fun _ h _ => h)
      fun s₄ o₄ h₄ _ _ _ _ => ?_
    exact finish_wakes h₄.act

/-- What is leased is pending, and each invocation is leased once. -/
theorem leased_pending {page : List Invocation}
    (h : ((wake E machineID consumerID).act o s .leaseInvocations).2 = .ok page) :
    (page.map Invocation.id).Nodup ∧
      ∀ invocation ∈ page, ((wake E machineID consumerID).act o s .leaseInvocations).1.1.pending invocation.id := by
  obtain ⟨hstate, hread⟩ := (s.1.ask_cases E (.leaseInvocations machineID consumerID s.1.relayClock o.ttl o.limit
    o.tokens) (Reply.leased o.allows) o.failure).2 page h
  change _ ∧ ∀ invocation ∈ page, (Wake.ask E s.1 _ _ _).1.pending invocation.id
  rw [hstate]
  obtain ⟨leased, hleased, rfl⟩ : ∃ leased, (step E s.1.relay (.leaseInvocations machineID consumerID s.1.relayClock
      o.ttl o.limit o.tokens)).2 = .invocations leased ∧
      page = leased.filter fun invocation => o.allows invocation.targetEndpoint := by
    unfold Reply.leased at hread
    split at hread
    · rename_i leased hreply
      cases hread
      exact ⟨leased, hreply, rfl⟩
    · cases hread
    · cases hread
  obtain ⟨hnodup, hpending⟩ := leaseInvocations_reply hleased
  refine ⟨hnodup.sublist (List.filter_sublist.map _), fun invocation hmem => ?_⟩
  obtain ⟨r, hr, hp⟩ := hpending invocation (List.mem_of_mem_filter hmem)
  exact Wake.pending_iff.2 ⟨r, hr, hp⟩

/-- Serving one invocation leaves the others as they are. -/
theorem syncInvocation_beside {page : List Invocation} (h : Fenced invocation.id s)
    (hpage : ∀ i ∈ page, Fenced i.id s) (hid : invocation.id ∉ page.map Invocation.id) :
    Wakes E machineID consumerID (syncInvocation now invocation) (fun _ s => ∀ i ∈ page, Fenced i.id s) s := by
  have hwakes : Wakes E machineID consumerID (syncInvocation now invocation) (fun _ _ => True) s :=
    syncInvocation_wakes h
  refine (hwakes.frame (A := fun s => ∀ i ∈ page, Fenced i.id s) (syncInvocation_makes now invocation)
    (fun s s' hrely h i hi => (h i hi).rely hrely) (fun o c s hc _ _ _ h i hi => (h i hi).act hc ?_)
    hpage).mono fun _ _ h => h.2
  intro heq
  exact hid (heq ▸ List.mem_map_of_mem hi)

theorem syncInvocations_wakes (now : Int) : Wakes E machineID consumerID (syncInvocations now) (fun _ _ => True) s := by
  unfold syncInvocations
  rw [Wakes, safe_bind]
  simp only [safe_bind (f := result _), safe_result]
  refine wakes_perform (A := fun _ => True) trivial (fun _ _ => trivial) (fun _ _ _ => trivial)
    fun s o _ _ _ _ _ => ?_
  rw [safe_bind]
  simp only [safe_bind (f := result _), safe_result]
  refine wakes_perform (A := fun _ => True) trivial (fun _ _ => trivial) (fun _ _ _ => trivial)
    fun s o _ _ ok page hpage => ?_
  obtain ⟨hnodup, hpending⟩ := leased_pending hpage
  -- the invocations still to be served have distinct identifiers, and their starts are in the journal
  refine (safe_forM (fun page s => (page.map Invocation.id).Nodup ∧ ∀ i ∈ page, Fenced i.id s)
    (fun invocation page s h => ?_) ⟨hnodup, fun i hi => ?_⟩).mono fun _ _ _ => trivial
  · obtain ⟨hnodup, hfenced⟩ := h
    obtain ⟨hfirst, hrest⟩ := List.nodup_cons.1 hnodup
    exact (syncInvocation_beside (hfenced invocation List.mem_cons_self)
      (fun i hi => hfenced i (List.mem_cons_of_mem _ hi)) hfirst).mono fun _ _ h => ⟨hrest, h⟩
  · have hp := hpending i hi
    refine ⟨ok.drawn ?_, fun hid => ok.fenced hid hp⟩
    obtain ⟨r, hr, -⟩ := Wake.pending_iff.1 hp
    rw [hr]
    rintro ⟨⟩

theorem wakeCycle_wakes : Wakes E machineID consumerID wakeCycle (fun _ _ => True) s := by
  unfold wakeCycle
  rw [Wakes, safe_bind]
  exact wakes_perform (A := fun _ => True) trivial (fun _ _ => trivial) (fun _ _ _ => trivial)
    fun _ _ _ _ _ => syncInvocations_wakes _

end

/-! ## Every run -/

section

variable (E : Env) (machineID consumerID : String)

theorem wake_keeps : (wake E machineID consumerID).Keeps wakeDiscipline (fun _ _ => True) where
  refl s := ⟨rfl, rfl, fun h => h, fun _ h => h⟩
  trans h h' := ⟨h'.journal.trans h.journal, h'.history.trans h.history, fun hid => h'.drawn (h.drawn hid),
    fun hid hp => h.pending hid (h'.pending (h.drawn hid) hp)⟩
  stable _ _ _ _ _ := trivial
  env x s hx ok := by
    cases x with
    | tick =>
      exact ⟨⟨ok.drawn, ok.known, ok.fenced⟩, rfl, rfl, fun h => h, fun _ h => h⟩
    | relay op =>
      have hfresh := hx op rfl
      -- an invocation that was drawn before is not opened by this call
      have hpending : ∀ {id}, id ∈ s.1.drawn → (s.1.move E (.relay op)).pending id → s.1.pending id := by
        intro id hid hp
        exact (pending_step hp).resolve_right fun h => hfresh id h hid
      refine ⟨⟨fun {id} hstored => ?_, fun hid => ?_, fun hid hp => ?_⟩, rfl, rfl, fun hid => ?_, hpending⟩
      · change id ∈ s.1.drawn ++ op.invocationID.toList
        rcases (step_invocation op id).stored hstored with h | h
        · exact List.mem_append_left _ (ok.drawn h)
        · rw [h]
          exact List.mem_append_right _ List.mem_cons_self
      · exact List.mem_append_left _ (ok.known hid)
      · exact ok.fenced hid (hpending (ok.known hid) hp)
      · exact List.mem_append_left _ hid
  main _ _ _ := wakeCycle_wakes

theorem wakeOK_start : WakeOK (Wake.start, []) :=
  ⟨fun h => absurd rfl h, fun h => (by cases h), fun h => (by cases h)⟩

theorem wakeCycle_makes : wakeCycle.Makes fun c => ∀ i, c = .invoke i → i.recoveryOnly = false := by
  unfold wakeCycle syncInvocations
  refine (makes_perform (by rintro _ ⟨⟩)).bind fun now => ?_
  refine ((makes_perform (by rintro _ ⟨⟩)).bind fun _ => makes_result).bind fun _ => ?_
  refine ((makes_perform (by rintro _ ⟨⟩)).bind fun _ => makes_result).bind fun page => ?_
  refine makes_forM (fun invocation => (syncInvocation_makes now invocation).mono ?_) page
  rintro c hc i rfl
  obtain ⟨rfl, hrecovery⟩ := hc
  exact hrecovery

/-- **No second start.** No runtime is started under a lease for recovery only. And in every run in which
pruning spares the records of the invocations still pending at the relay, whatever gets lost or fails and
wherever the adapter is stopped, no runtime is started for an invocation once a start has been recorded. -/
theorem no_second_start (cues : List WakeCue) :
    NoRecoveryStart (wakeRun E machineID consumerID cues) ∧
      ((wake E machineID consumerID).Meets (fun σ cue => Fresh σ cue ∧ Spares σ cue)
        ⟨(Wake.start, []), fun _ => none⟩ cues → NoSecondStart (wakeRun E machineID consumerID cues)) := by
  refine ⟨fun invocation hstart => ?_, fun hmeets invocation hstart => ?_⟩
  · obtain ⟨k, h⟩ := starting_eq_some hstart
    exact System.run_makes (fun _ => wakeCycle_makes) cues h invocation rfl
  · obtain ⟨k, h⟩ := starting_eq_some hstart
    have keeps := wake_keeps E machineID consumerID
    have good := System.safe keeps (.inl inferInstance) wakeOK_start (hmeets.mono fun σ cue hcue => ?_)
    · exact good.pre keeps h
    · obtain ⟨hfresh, hspares⟩ := hcue
      cases cue with
      | start => trivial
      | call =>
        intro c k hthread
        change σ.state.1.spares c
        simpa only [Spares, hthread] using hspares
      | stop i => trivial
      | env x =>
        rintro op rfl id hid
        simpa [Fresh, hid] using hfresh

end

/-! ## A record pruned too early -/

/-- Everything works, or the call fails without effect. -/
def wakeAnswer (fails : Bool) : WakeAnswer :=
  ⟨.ok [], .ok (), if fails then some (.message "connection reset", false) else none, 10000000000, 1,
    fun _ => "token", fun _ => true⟩

def wakeCalls (n : ℕ) : List WakeCue := List.replicate n (.call () (wakeAnswer false))

/-- A member of a room is asked to be started while it is offline, one hour into the relay's time. -/
def askedRun : List WakeCue :=
  [.env (.tick 0 (hours 1)),
    .env (.relay (.advertiseEndpoints "desk" ["desk/alice"] (hours 1) 60000000000)),
    .env (.relay (.advertiseEndpoints "den" ["den/bob"] (hours 1) 1000000000)),
    .env (.relay (.createConversation "desk/alice" [⟨"desk/alice", "", "", 15⟩, ⟨"den/bob", "", "", 3⟩] (hours 1)
      "room")),
    .env (.relay (.appendMessage ⟨"room", "desk", "desk/alice", "", "hello", [], "key", hours 1⟩
      ⟨"message", fun _ => "delivery"⟩)),
    .env (.tick 0 (hours 1 + 2000000000)),
    .env (.relay (.requestInvocation ⟨"room", "desk", "desk/alice", "den/bob", "wake", hours 1 + 2000000000⟩
      "invocation" "fence"))]

/-- The adapter starts the runtime and records it; its report is lost. -/
def startedCycle : List WakeCue :=
  .start () () :: (wakeCalls 7 ++ [.call () (wakeAnswer true), .stop ()])

/-- The adapter is leased the invocation again and finds its record; its report is lost again. -/
def resumedCycle : List WakeCue :=
  .start () () :: (wakeCalls 4 ++ [.call () (wakeAnswer true), .stop ()])

/-- Both times the report is lost; the invocation is leased a third time two days after the first, when the
adapter has just pruned its record. -/
def prunedRun : List WakeCue :=
  askedRun ++ startedCycle ++ .env (.tick (hours 24) (hours 25)) :: resumedCycle ++
    [.env (.tick (hours 48 + 1800000000000) (hours 49)), .start () ()] ++ wakeCalls 5

/-- The runtime is started a second time, half an hour of skew between the clocks. -/
theorem second_start : (wake ⟨fun x => x, fun _ => true⟩ "den" "consumer").Meets
      (fun σ cue => Fresh σ cue ∧ Clocked σ cue) ⟨(Wake.start, []), fun _ => none⟩ prunedRun ∧
    ¬ NoSecondStart (wakeRun ⟨fun x => x, fun _ => true⟩ "den" "consumer" prunedRun) := by
  refine ⟨by decide +kernel, fun hholds => ?_⟩
  have hstart := hholds ⟨"invocation", "room", "den/bob", "den", "fence", .pending, "token", 3,
    hours 49 + 10000000000, false⟩ (by decide +kernel)
  revert hstart
  decide +kernel

/-- If the report of the second cycle arrives, the record is no longer needed when it is pruned. -/
def reportedRun : List WakeCue :=
  askedRun ++ startedCycle ++ [.env (.tick (hours 24) (hours 25)), .start () ()] ++ wakeCalls 6 ++
    [.stop (), .env (.tick (hours 48 + 1800000000000) (hours 49)), .start () ()] ++ wakeCalls 3

theorem no_second_start_reportedRun :
    (wake ⟨fun x => x, fun _ => true⟩ "den" "consumer").Meets (fun σ cue => Fresh σ cue ∧ Spares σ cue)
      ⟨(Wake.start, []), fun _ => none⟩ reportedRun ∧
    acceptedIn (wakeRun ⟨fun x => x, fun _ => true⟩ "den" "consumer" reportedRun).state.2 = ["invocation"] ∧
    NoSecondStart (wakeRun ⟨fun x => x, fun _ => true⟩ "den" "consumer" reportedRun) :=
  have hmeets : (wake ⟨fun x => x, fun _ => true⟩ "den" "consumer").Meets (fun σ cue => Fresh σ cue ∧ Spares σ cue)
    ⟨(Wake.start, []), fun _ => none⟩ reportedRun := by decide +kernel
  ⟨hmeets, by decide +kernel, (no_second_start _ "den" "consumer" reportedRun).2 hmeets⟩

end Punaro.Adapter
