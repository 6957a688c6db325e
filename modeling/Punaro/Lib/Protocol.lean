import Punaro.Lib.Program

/-!
# Protocols of programs

A protocol says which calls a program may make next, by what it has done so far: it
is an automaton that reads calls with their answers. That a program follows a
protocol (`Prog.Follows`) is read off the program alone, whatever the world answers.

In a run, every program that follows the protocol is in one of its states
(`System.Tracks`), and `System.tracked` proves what holds of the world and these
states together: that at most one program is in a state, or what a program in a
state still knows.
-/

namespace Punaro

/-- The calls a program in state `q` may make, and the state it is in after one. -/
structure Protocol (C : Type) (R : C → Type) (Q : Type) where
  Allows : Q → C → Prop
  next : Q → (c : C) → R c → Q

/-- The call leads from `L` to `L`. -/
def Protocol.Keeps {C : Type} {R : C → Type} {Q : Type} (P : Protocol C R Q) (L : Q → Prop) (c : C) : Prop :=
  ∀ q, L q → P.Allows q c ∧ ∀ r, L (P.next q c r)

namespace Prog

variable {C : Type} {R : C → Type} {ε α β Q κ : Type} {P : Protocol C R Q} {q : Q}
variable {p : Prog C R ε α} {E : Except ε α → Q → Prop} {f : α → Prog C R ε β}

/-- The program follows the protocol from `q` on, and ends in a state that meets `E`. -/
def Follows (P : Protocol C R Q) : Prog C R ε α → (Except ε α → Q → Prop) → Q → Prop
  | .done a, E, q => E (.ok a) q
  | .fail e, E, q => E (.error e) q
  | .call c k, E, q => P.Allows q c ∧ ∀ r, (k r).Follows P E (P.next q c r)

@[simp] theorem follows_done {a : α} :
    (.done a : Prog C R ε α).Follows P E q ↔ E (.ok a) q := Iff.rfl

theorem follows_perform_bind {c : C} {f : R c → Prog C R ε α} :
    ((perform c : Prog C R ε (R c)) >>= f).Follows P E q ↔ P.Allows q c ∧ ∀ r, (f r).Follows P E (P.next q c r) :=
  Iff.rfl

theorem Follows.mono {E' : Except ε α → Q → Prop} (h : p.Follows P E q) (hE : ∀ r q, E r q → E' r q) :
    p.Follows P E' q := by
  induction p generalizing q with
  | done a => exact hE _ _ h
  | fail e => exact hE _ _ h
  | call c k ih => exact ⟨h.1, fun r => ih r (h.2 r)⟩

@[simp] theorem follows_bind {E : Except ε β → Q → Prop} :
    (p >>= f).Follows P E q ↔
      p.Follows P (fun r q => match r with
        | .ok a => (f a).Follows P E q
        | .error e => E (.error e) q) q := by
  induction p generalizing q with
  | done a => rfl
  | fail e => rfl
  | call c k ih =>
    rw [call_bind]
    simp only [Follows, ih]

@[simp] theorem follows_attempt {E : Except ε (Except ε α) → Q → Prop} :
    p.attempt.Follows P E q ↔ p.Follows P (fun r q => E (.ok r) q) q := by
  induction p generalizing q with
  | done a => rfl
  | fail e => rfl
  | call c k ih => simp only [attempt, Follows, ih]

/-- The program leads from `L` to `L`, whatever it ends with. -/
structure Stays (P : Protocol C R Q) (L : Q → Prop) (p : Prog C R ε α) : Prop where
  follows : ∀ q, L q → p.Follows P (fun _ => L) q

section

variable {L : Q → Prop}

theorem stays_done {a : α} : Stays P L (.done a : Prog C R ε α) := ⟨fun _ hq => hq⟩

theorem stays_fail {e : ε} : Stays P L (.fail e : Prog C R ε α) := ⟨fun _ hq => hq⟩

theorem Stays.bind {p : Prog C R ε α} (hp : Stays P L p) (hf : ∀ a, Stays P L (f a)) : Stays P L (p >>= f) := by
  refine ⟨fun q hq => follows_bind.2 ((hp.follows q hq).mono ?_)⟩
  rintro (e | a) q' hq'
  · exact hq'
  · exact (hf a).follows q' hq'

theorem stays_perform_bind {c : C} {f : R c → Prog C R ε β} (hc : P.Keeps L c) (hf : ∀ r, Stays P L (f r)) :
    Stays P L (perform c >>= f) :=
  ⟨fun q hq => follows_perform_bind.2 ⟨(hc q hq).1, fun r => (hf r).follows _ ((hc q hq).2 r)⟩⟩

theorem Stays.attempt {p : Prog C R ε α} (hp : Stays P L p) : Stays P L p.attempt :=
  ⟨fun q hq => follows_attempt.2 (hp.follows q hq)⟩

theorem stays_forM {f : κ → Prog C R ε PUnit} (h : ∀ a, Stays P L (f a)) (l : List κ) : Stays P L (l.forM f) := by
  induction l with
  | nil => exact stays_done
  | cons a l ih => exact (h a).bind fun _ => ih

end

/-- The protocol of the programs that make such calls only. -/
def only (F : C → Prop) : Protocol C R Unit := ⟨fun _ => F, fun _ _ _ => ()⟩

theorem Stays.makes {F : C → Prop} (hp : Stays (only F) (fun _ => True) p) : p.Makes F := by
  have hfollows := hp.follows () trivial
  clear hp
  induction p with
  | done a => trivial
  | fail e => trivial
  | call c k ih => exact ⟨hfollows.1, fun r => ih r (hfollows.2 r)⟩

end Prog

namespace System

variable {ι S C : Type} {R : C → Type} {ε α M O X Q : Type} [DecidableEq ι] {sys : System S C R ε α M O X}
  {P : Protocol C R Q} {σ : Config ι S C R ε α} {τ : ι → Q} {q₀ : Q}

/-- Every running program follows the protocol from the state it is in. -/
def Tracks (P : Protocol C R Q) (σ : Config ι S C R ε α) (τ : ι → Q) : Prop :=
  ∀ i p, σ.thread i = some p → p.Follows P (fun _ _ => True) (τ i)

/-- The states the programs are in after a move; `q₀` is the state of a program that starts or has stopped. -/
def advance (sys : System S C R ε α M O X) (P : Protocol C R Q) (q₀ : Q) (σ : Config ι S C R ε α) (τ : ι → Q) :
    Cue ι M O X → ι → Q
  | .start i _ =>
    match σ.thread i with
    | none => Function.update τ i q₀
    | some _ => τ
  | .call i o =>
    match σ.thread i with
    | some (.call c _) => Function.update τ i (P.next (τ i) c (sys.act o σ.state c).2)
    | _ => τ
  | .stop i => Function.update τ i q₀
  | .env _ => τ

theorem Tracks.update {i : ι} {s' : S} {p : Option (Prog C R ε α)} {q : Q} (h : Tracks P σ τ)
    (hp : ∀ p', p = some p' → p'.Follows P (fun _ _ => True) q) :
    Tracks P ⟨s', Function.update σ.thread i p⟩ (Function.update τ i q) := by
  intro j p' hj
  by_cases hij : j = i
  · subst hij
    rw [Function.update_self]
    exact hp p' (by simpa using hj)
  · rw [Function.update_of_ne hij]
    exact h j p' (by simpa [Function.update_of_ne hij] using hj)

theorem Tracks.play (h : Tracks P σ τ) (hmain : ∀ m, (sys.main m).Follows P (fun _ _ => True) q₀)
    (cue : Cue ι M O X) : Tracks P (sys.play σ cue) (sys.advance P q₀ σ τ cue) := by
  cases cue with
  | start i m =>
    unfold System.play advance
    dsimp only
    cases hi : σ.thread i with
    | none =>
      refine h.update ?_
      rintro _ ⟨⟩
      exact hmain m
    | some p => exact h
  | call i o =>
    unfold System.play advance
    dsimp only
    cases hi : σ.thread i with
    | none => exact h
    | some p =>
      cases p with
      | call =>
        refine h.update ?_
        rintro _ ⟨⟩
        exact (h i _ hi).2 _
      | done a => exact h
      | fail e => exact h
  | stop i => exact h.update nofun
  | env x => exact h

/-- The state of a program that runs after a move: the one it was in, the first, or the next after its call. -/
theorem advance_thread (P : Protocol C R Q) (q₀ : Q) (τ : ι → Q) {cue : Cue ι M O X} {i : ι} {p : Prog C R ε α}
    (h : (sys.play σ cue).thread i = some p) :
    (σ.thread i = some p ∧ sys.advance P q₀ σ τ cue i = τ i) ∨
      (∃ m, cue = .start i m ∧ p = sys.main m ∧ sys.advance P q₀ σ τ cue i = q₀) ∨
      ∃ o c k, cue = .call i o ∧ σ.thread i = some (.call c k) ∧ p = k (sys.act o σ.state c).2 ∧
        sys.advance P q₀ σ τ cue i = P.next (τ i) c (sys.act o σ.state c).2 := by
  rcases play_thread h with hsame | ⟨m, rfl, hi, rfl⟩ | ⟨o, c, k, rfl, hi, rfl⟩
  · by_cases hgone : ∃ c k, σ.thread i = some (.call c k) ∧ ∃ o, cue = .call i o
    · -- a call that leads back to the same program
      obtain ⟨c, k, hi, o, rfl⟩ := hgone
      refine .inr (.inr ⟨o, c, k, rfl, hi, ?_, ?_⟩)
      · simpa [System.play, hi] using h.symm
      · simp [advance, hi]
    · refine .inl ⟨hsame, ?_⟩
      cases cue with
      | start j m =>
        unfold advance
        dsimp only
        cases hj : σ.thread j with
        | some p' => rfl
        | none => exact Function.update_of_ne (by rintro rfl; rw [hj] at hsame; cases hsame) _ _
      | call j o =>
        unfold advance
        dsimp only
        cases hj : σ.thread j with
        | none => rfl
        | some p' =>
          cases p' with
          | done a => rfl
          | fail e => rfl
          | call c k => exact Function.update_of_ne (by rintro rfl; exact hgone ⟨c, k, hj, o, rfl⟩) _ _
      | stop j =>
        refine Function.update_of_ne ?_ _ _
        rintro rfl
        simp [System.play] at h
      | env x => rfl
  · exact .inr (.inl ⟨m, rfl, rfl, by simp [advance, hi]⟩)
  · exact .inr (.inr ⟨o, c, k, rfl, hi, rfl, by simp [advance, hi]⟩)

/-- What every move keeps, of the world together with the states the programs are in, holds in every run. -/
theorem tracked {J : Config ι S C R ε α → (ι → Q) → Prop} {A : Config ι S C R ε α → Cue ι M O X → Prop}
    (hmain : ∀ m, (sys.main m).Follows P (fun _ _ => True) q₀)
    (hplay : ∀ σ τ cue, Tracks P σ τ → J σ τ → A σ cue → J (sys.play σ cue) (sys.advance P q₀ σ τ cue))
    {cues : List (Cue ι M O X)} (htracks : Tracks P σ τ) (hJ : J σ τ) (hcues : sys.Meets A σ cues) :
    ∃ τ', Tracks P (cues.foldl sys.play σ) τ' ∧ J (cues.foldl sys.play σ) τ' := by
  induction cues generalizing σ τ with
  | nil => exact ⟨τ, htracks, hJ⟩
  | cons cue cues ih => exact ih (htracks.play hmain cue) (hplay σ τ cue htracks hJ hcues.1) hcues.2

/-- What every call keeps, of the world and the states the programs are in, and what is kept when a program starts
or stops, holds in every run. -/
theorem tracked_calls {J : S → (ι → Q) → Prop} (hmain : ∀ m, (sys.main m).Follows P (fun _ _ => True) q₀)
    (hidle : ∀ s τ i, J s τ → J s (Function.update τ i q₀)) (henv : ∀ x s τ, J s τ → J (sys.env x s) τ)
    (hcall : ∀ o s τ i c, J s τ → P.Allows (τ i) c →
      J (sys.act o s c).1 (Function.update τ i (P.next (τ i) c (sys.act o s c).2)))
    {s : S} (hJ : J s fun _ => q₀) (cues : List (Cue ι M O X)) :
    ∃ τ, Tracks P (sys.run s cues) τ ∧ J (sys.run s cues).state τ := by
  refine tracked (A := fun _ _ => True) (J := fun σ τ => J σ.state τ) hmain ?_ nofun hJ
    (meets_of_forall (fun _ _ => trivial) _ _)
  intro σ τ cue htracks hJ _
  cases cue with
  | start i m =>
    unfold System.play advance
    dsimp only
    cases hi : σ.thread i with
    | none => exact hidle _ _ i hJ
    | some p => exact hJ
  | call i o =>
    unfold System.play advance
    dsimp only
    cases hi : σ.thread i with
    | none => exact hJ
    | some p =>
      cases p with
      | call c k => exact hcall o _ τ i c hJ (htracks i _ hi).1
      | done a => exact hJ
      | fail e => exact hJ
  | stop i => exact hidle _ _ i hJ
  | env x => exact henv x _ τ hJ

end System

end Punaro
