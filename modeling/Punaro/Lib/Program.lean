import Mathlib.Logic.Function.Basic
import Mathlib.Logic.Unique

/-!
# Programs that call out

A program makes calls, goes on with their answers and may end with an error
(`Prog`). It runs against a world that answers its calls, next to other programs,
and may be stopped between any two calls; the world also moves on its own. A run is
a list of cues, so that it can be replayed (`System.run`).

`Prog.Safe` is the weakest precondition of a program under a `Discipline`: an
invariant of the world, what the program may rely on while it is between two calls,
what its own calls guarantee, and what must hold when a call is made. `System.safe`
says that a discipline every program keeps holds in every run.
-/

namespace Punaro

/-- A program that makes calls `c : C`, each answered by an `R c`. -/
inductive Prog (C : Type) (R : C → Type) (ε α : Type) where
  | done (a : α)
  | fail (e : ε)
  | call (c : C) (k : R c → Prog C R ε α)

/-- How a call to another party ends: with its result, or with an error, whether or not the call took
effect there. -/
inductive Answer (ε α : Type) where
  | ok (a : α)
  | failed (e : ε) (took : Bool)
deriving DecidableEq

/-- Whether the call took effect. -/
def Answer.took {ε α : Type} : Answer ε α → Bool
  | .ok _ => true
  | .failed _ took => took

namespace Prog

variable {C : Type} {R : C → Type} {ε α β : Type}

def bind : Prog C R ε α → (α → Prog C R ε β) → Prog C R ε β
  | .done a, f => f a
  | .fail e, _ => .fail e
  | .call c k, f => .call c fun r => (k r).bind f

instance : Monad (Prog C R ε) where
  pure := .done
  bind := bind

/-- One call. -/
def perform (c : C) : Prog C R ε (R c) := .call c .done

/-- The result of an answer; its error ends the program. -/
def result (wrap : ε → ε) : Answer ε α → Prog C R ε α
  | .ok a => .done a
  | .failed e _ => .fail (wrap e)

@[simp] theorem pure_eq_done (a : α) : (pure a : Prog C R ε α) = .done a := rfl

@[simp] theorem done_bind (a : α) (f : α → Prog C R ε β) : ((.done a : Prog C R ε α) >>= f) = f a := rfl

@[simp] theorem fail_bind (e : ε) (f : α → Prog C R ε β) : ((.fail e : Prog C R ε α) >>= f) = .fail e := rfl

@[simp] theorem call_bind (c : C) (k : R c → Prog C R ε α) (f : α → Prog C R ε β) :
    ((.call c k : Prog C R ε α) >>= f) = .call c fun r => k r >>= f := rfl

@[simp] theorem perform_bind (c : C) (f : R c → Prog C R ε β) :
    ((perform c : Prog C R ε (R c)) >>= f) = .call c f := rfl

/-- The program, with an error as one of its results. -/
def attempt : Prog C R ε α → Prog C R ε (Except ε α)
  | .done a => .done (.ok a)
  | .fail e => .done (.error e)
  | .call c k => .call c fun r => (k r).attempt

/-- Every call the program can make meets `P`. -/
def Makes (P : C → Prop) : Prog C R ε α → Prop
  | .done _ => True
  | .fail _ => True
  | .call c k => P c ∧ ∀ r, (k r).Makes P

variable {P : C → Prop}
variable {p : Prog C R ε α} {c : C} {f : α → Prog C R ε β} {Q : α → Prop}

theorem makes_perform (h : P c) : (perform c : Prog C R ε (R c)).Makes P := ⟨h, fun _ => trivial⟩

theorem makes_result {wrap : ε → ε} {answer : Answer ε α} : (result wrap answer : Prog C R ε α).Makes P := by
  cases answer <;> trivial

theorem Makes.mono {P' : C → Prop} (h : p.Makes P) (hP : ∀ c, P c → P' c) : p.Makes P' := by
  induction p with
  | done a => trivial
  | fail e => trivial
  | call c k ih => exact ⟨hP c h.1, fun r => ih r (h.2 r)⟩

theorem Makes.bind (hp : p.Makes P) (hf : ∀ a, (f a).Makes P) : (p >>= f).Makes P := by
  induction p with
  | done a => exact hf a
  | fail e => trivial
  | call c k ih => exact ⟨hp.1, fun r => ih r (hp.2 r)⟩

/-- Every result the program can end with meets `Q`. -/
def Results (Q : α → Prop) : Prog C R ε α → Prop
  | .done a => Q a
  | .fail _ => True
  | .call _ k => ∀ r, (k r).Results Q

theorem makes_true : p.Makes fun _ => True := by
  induction p with
  | done a => trivial
  | fail e => trivial
  | call c k ih => exact ⟨trivial, fun r => ih r⟩

theorem Results.bind {Q' : β → Prop} (hp : p.Results Q) (hf : ∀ a, Q a → (f a).Results Q') : (p >>= f).Results Q' := by
  induction p with
  | done a => exact hf a hp
  | fail e => trivial
  | call c k ih => exact fun r => ih r (hp r)

theorem results_true : p.Results fun _ => True := by
  induction p with
  | done a => trivial
  | fail e => trivial
  | call c k ih => exact fun r => ih r

theorem results_perform_bind {Q : β → Prop} {f : R c → Prog C R ε β} :
    ((perform c : Prog C R ε (R c)) >>= f).Results Q ↔ ∀ r, (f r).Results Q := Iff.rfl

theorem Results.attempt (h : p.Results Q) : p.attempt.Results fun r => ∀ a, r = .ok a → Q a := by
  induction p with
  | done a => rintro _ ⟨⟩; exact h
  | fail e => rintro _ ⟨⟩
  | call c k ih => exact fun r => ih r (h r)

theorem Makes.bind_results (hp : p.Makes P) (hq : p.Results Q) (hf : ∀ a, Q a → (f a).Makes P) : (p >>= f).Makes P := by
  induction p with
  | done a => exact hf a hq
  | fail e => trivial
  | call c k ih => exact ⟨hp.1, fun r => ih r (hp.2 r) (hq r)⟩

theorem makes_perform_bind {f : R c → Prog C R ε α} (h : P c) (hf : ∀ r, (f r).Makes P) :
    ((perform c : Prog C R ε (R c)) >>= f).Makes P := ⟨h, hf⟩

theorem makes_forM_of_mem {κ : Type} {f : κ → Prog C R ε PUnit} {l : List κ} (h : ∀ a ∈ l, (f a).Makes P) :
    (l.forM f).Makes P := by
  induction l with
  | nil => trivial
  | cons a l ih =>
    exact (h a List.mem_cons_self).bind fun _ => ih fun b hb => h b (List.mem_cons_of_mem _ hb)

theorem makes_forM {κ : Type} {f : κ → Prog C R ε PUnit} (h : ∀ a, (f a).Makes P) (l : List κ) :
    (l.forM f).Makes P := makes_forM_of_mem fun a _ => h a

theorem Makes.attempt (h : p.Makes P) : p.attempt.Makes P := by
  induction p with
  | done a => trivial
  | fail e => trivial
  | call c k ih => exact ⟨h.1, fun r => ih r (h.2 r)⟩

/-- What the program ends with if its calls are answered in worlds that meet `I`, whatever happens between them. -/
def Within {S O : Type} (act : O → S → (c : C) → S × R c) (I : S → Prop) : Prog C R ε α → (α → Prop) → Prop
  | .done a, Q => Q a
  | .fail _, _ => True
  | .call c k, Q => ∀ o s, I s → (k (act o s c).2).Within act I Q

section

variable {S O : Type} {act : O → S → (c : C) → S × R c} {I : S → Prop}

theorem within_perform_bind {f : R c → Prog C R ε β} {Q : β → Prop} :
    ((perform c : Prog C R ε (R c)) >>= f).Within act I Q ↔ ∀ o s, I s → (f (act o s c).2).Within act I Q := Iff.rfl

theorem Within.bind {Q' : β → Prop} (hp : p.Within act I Q)
    (hf : ∀ a, Q a → (f a).Within act I Q') : (p >>= f).Within act I Q' := by
  induction p with
  | done a => exact hf a hp
  | fail e => trivial
  | call c k ih => exact fun o s hs => ih _ (hp o s hs)

theorem Results.within (hp : p.Results Q) : p.Within act I Q := by
  induction p with
  | done a => exact hp
  | fail e => trivial
  | call c k ih => exact fun o s _ => ih _ (hp _)

end

end Prog

/-! ## Programs that run alone -/

namespace Prog

variable {C : Type} {R : C → Type} {ε α β M S O : Type} {act : O → S → (c : C) → S × R c}

/-- The program run as far as the answers go, given what is left open about each of them: the world it leaves
behind, and its result if it has ended. -/
def play (act : O → S → (c : C) → S × R c) : Prog C R ε α → List O → S → S × Option (Except ε α)
  | .done a, _, s => (s, some (.ok a))
  | .fail e, _, s => (s, some (.error e))
  | .call _ _, [], s => (s, none)
  | .call c k, o :: os, s => (k (act o s c).2).play act os (act o s c).1

/-- The program run to its end, with every answer as `o` leaves it. -/
def complete (act : O → S → (c : C) → S × R c) (o : O) : Prog C R ε α → S → S × Except ε α
  | .done a, s => (s, .ok a)
  | .fail e, s => (s, .error e)
  | .call c k, s => (k (act o s c).2).complete act o (act o s c).1

/-- Every answer of the run meets the condition. -/
def Admits (act : O → S → (c : C) → S × R c) (A : O → S → C → Prop) : Prog C R ε α → List O → S → Prop
  | .call c k, o :: os, s => A o s c ∧ (k (act o s c).2).Admits act A os (act o s c).1
  | _, _, _ => True

instance decidableAdmits (A : O → S → C → Prop) [∀ o s c, Decidable (A o s c)] :
    ∀ (p : Prog C R ε α) (os : List O) (s : S), Decidable (p.Admits act A os s)
  | .done _, _, _ => .isTrue trivial
  | .fail _, _, _ => .isTrue trivial
  | .call _ _, [], _ => .isTrue trivial
  | .call c k, o :: os, s => @instDecidableAnd _ _ _ (decidableAdmits A (k (act o s c).2) os (act o s c).1)

variable {A : O → S → C → Prop} {p : Prog C R ε α} {f : α → Prog C R ε β} {os : List O} {s : S}

theorem admits_of_forall (h : ∀ o ∈ os, ∀ s c, A o s c) : p.Admits act A os s := by
  induction p generalizing os s with
  | done a => trivial
  | fail e => trivial
  | call c k ih =>
    cases os with
    | nil => trivial
    | cons o os => exact ⟨h o List.mem_cons_self s c, ih _ fun o' ho' => h o' (List.mem_cons_of_mem _ ho')⟩

theorem admits_true : p.Admits act (fun _ _ _ => True) os s :=
  admits_of_forall fun _ _ _ _ => trivial

/-- The calls of a run, each with the world it is made in. -/
def trace (act : O → S → (c : C) → S × R c) : Prog C R ε α → List O → S → List (S × C)
  | .call c k, o :: os, s => (s, c) :: (k (act o s c).2).trace act os (act o s c).1
  | _, _, _ => []

/-- Programs run one after the other, each as far as its answers go. -/
def history (act : O → S → (c : C) → S × R c) (main : M → Prog C R ε α) (runs : List (M × List O)) (s : S) : S :=
  runs.foldl (fun s run => ((main run.1).play act run.2 s).1) s

/-- Every answer of every run meets the condition. -/
def HistoryAdmits (act : O → S → (c : C) → S × R c) (A : O → S → C → Prop) (main : M → Prog C R ε α) :
    List (M × List O) → S → Prop
  | [], _ => True
  | run :: runs, s => (main run.1).Admits act A run.2 s ∧
    HistoryAdmits act A main runs ((main run.1).play act run.2 s).1

instance decidableHistoryAdmits (A : O → S → C → Prop) [∀ o s c, Decidable (A o s c)] (main : M → Prog C R ε α) :
    ∀ (runs : List (M × List O)) (s : S), Decidable (HistoryAdmits act A main runs s)
  | [], _ => .isTrue trivial
  | run :: runs, s =>
    @instDecidableAnd _ _ _ (decidableHistoryAdmits A main runs ((main run.1).play act run.2 s).1)

/-- Every run meets the condition, in the world it starts from. -/
def Throughout (act : O → S → (c : C) → S × R c) (main : M → Prog C R ε α) (F : M → List O → S → Prop) :
    List (M × List O) → S → Prop
  | [], _ => True
  | run :: runs, s => F run.1 run.2 s ∧ Throughout act main F runs ((main run.1).play act run.2 s).1

instance decidableThroughout (main : M → Prog C R ε α) (F : M → List O → S → Prop)
    [∀ m os s, Decidable (F m os s)] :
    ∀ (runs : List (M × List O)) (s : S), Decidable (Throughout act main F runs s)
  | [], _ => .isTrue trivial
  | run :: runs, s => @instDecidableAnd _ _ _ (decidableThroughout main F runs ((main run.1).play act run.2 s).1)

/-- However the calls are answered, the world meets `I` after each of them and the program ends with `Q`. The
answers considered are those of `A`. -/
def Ensures (act : O → S → (c : C) → S × R c) (A : O → S → C → Prop) (I : S → Prop) :
    Prog C R ε α → (Except ε α → S → Prop) → S → Prop
  | .done a, Q, s => Q (.ok a) s
  | .fail e, Q, s => Q (.error e) s
  | .call c k, Q, s => ∀ o, A o s c → I (act o s c).1 ∧ (k (act o s c).2).Ensures act A I Q (act o s c).1

/-- The world meets `I` after each call and at the end. -/
abbrev Retains (act : O → S → (c : C) → S × R c) (A : O → S → C → Prop) (I : S → Prop) (p : Prog C R ε α) (s : S) :
    Prop := p.Ensures act A I (fun _ => I) s

variable {I J : S → Prop} {Q Q' : Except ε α → S → Prop}

@[simp] theorem ensures_done {a : α} : (.done a : Prog C R ε α).Ensures act A I Q s ↔ Q (.ok a) s := Iff.rfl

@[simp] theorem ensures_fail {e : ε} : (.fail e : Prog C R ε α).Ensures act A I Q s ↔ Q (.error e) s := Iff.rfl

theorem ensures_perform_bind {c : C} {f : R c → Prog C R ε α} :
    ((perform c : Prog C R ε (R c)) >>= f).Ensures act A I Q s ↔
      ∀ o, A o s c → I (act o s c).1 ∧ (f (act o s c).2).Ensures act A I Q (act o s c).1 := Iff.rfl

theorem Ensures.mono (h : p.Ensures act A I Q s) (hQ : ∀ r s, Q r s → Q' r s) : p.Ensures act A I Q' s := by
  induction p generalizing s with
  | done a => exact hQ _ _ h
  | fail e => exact hQ _ _ h
  | call c k ih => exact fun o ho => ⟨(h o ho).1, ih _ (h o ho).2⟩

theorem Ensures.weaken (h : p.Ensures act A I Q s) (hJ : ∀ s, I s → J s) : p.Ensures act A J Q s := by
  induction p generalizing s with
  | done a => exact h
  | fail e => exact h
  | call c k ih => exact fun o ho => ⟨hJ _ (h o ho).1, ih _ (h o ho).2⟩

@[simp] theorem ensures_bind {Q : Except ε β → S → Prop} :
    (p >>= f).Ensures act A I Q s ↔
      p.Ensures act A I (fun r s => match r with
        | .ok a => (f a).Ensures act A I Q s
        | .error e => Q (.error e) s) s := by
  induction p generalizing s with
  | done a => rfl
  | fail e => rfl
  | call c k ih =>
    rw [call_bind]
    simp only [Ensures, ih]

@[simp] theorem ensures_attempt {Q : Except ε (Except ε α) → S → Prop} :
    p.attempt.Ensures act A I Q s ↔ p.Ensures act A I (fun r s => Q (.ok r) s) s := by
  induction p generalizing s with
  | done a => rfl
  | fail e => rfl
  | call c k ih => simp only [attempt, Ensures, ih]

theorem Ensures.both (h : p.Ensures act A I Q s) (h' : p.Ensures act A J Q' s) :
    p.Ensures act A (fun s => I s ∧ J s) (fun r s => Q r s ∧ Q' r s) s := by
  induction p generalizing s with
  | done a => exact ⟨h, h'⟩
  | fail e => exact ⟨h, h'⟩
  | call c k ih => exact fun o ho => ⟨⟨(h o ho).1, (h' o ho).1⟩, ih _ (h o ho).2 (h' o ho).2⟩

theorem Ensures.and (h : p.Ensures act A I Q s) (h' : p.Ensures act A J Q' s) :
    p.Ensures act A I (fun r s => Q r s ∧ Q' r s) s :=
  (h.both h').weaken fun _ => And.left

theorem Results.ensures {Q : α → Prop} (h : p.Results Q) :
    p.Ensures act A (fun _ => True) (fun r _ => ∀ a, r = .ok a → Q a) s := by
  induction p generalizing s with
  | done a => rintro _ ⟨⟩; exact h
  | fail e => rintro _ ⟨⟩
  | call c k ih => exact fun o _ => ⟨trivial, ih _ (h _)⟩

/-- What the last part of a program ensures from any world. -/
theorem ensures_last {Q : β → S → Prop}
    (h : ∀ a s, (f a).Ensures act A (fun _ => True) (fun r s => ∀ b, r = .ok b → Q b s) s) :
    (p >>= f).Ensures act A (fun _ => True) (fun r s => ∀ b, r = .ok b → Q b s) s := by
  induction p generalizing s with
  | done a => exact h a s
  | fail e => rintro _ ⟨⟩
  | call c k ih => exact fun o _ => ⟨trivial, ih _⟩

/-- A loop, from one loop assertion to the next. -/
theorem ensures_forM {κ : Type} {f : κ → Prog C R ε PUnit} (L : List κ → S → Prop) {E : ε → S → Prop}
    (pass : ∀ a l s, L (a :: l) s → (f a).Ensures act A I (fun r s => match r with
      | .ok _ => L l s
      | .error e => E e s) s) {l : List κ} (h : L l s) :
    (l.forM f).Ensures act A I (fun r s => match r with
      | .ok _ => L [] s
      | .error e => E e s) s := by
  induction l generalizing s with
  | nil => exact h
  | cons a l ih =>
    change (f a >>= fun _ => l.forM f).Ensures act A I _ s
    rw [ensures_bind]
    refine (pass a l s h).mono ?_
    rintro (e | u) s hs
    · exact hs
    · exact ih hs

/-- What none of the program's calls touches is still there at its end. -/
theorem Makes.ensures {P : C → Prop} (hp : p.Makes P)
    (keep : ∀ o c s, A o s c → P c → J s → I (act o s c).1 ∧ J (act o s c).1) (hJ : J s) :
    p.Ensures act A I (fun _ s => J s) s := by
  induction p generalizing s with
  | done a => exact hJ
  | fail e => exact hJ
  | call c k ih =>
    intro o ho
    obtain ⟨hI, hJ'⟩ := keep o c s ho hp.1 hJ
    exact ⟨hI, ih _ (hp.2 _) hJ'⟩

/-- However the calls are answered, every call the program makes meets `G`. -/
def Guards (act : O → S → (c : C) → S × R c) (A : O → S → C → Prop) (G : S → C → Prop) : Prog C R ε α → S → Prop
  | .call c k, s => G s c ∧ ∀ o, A o s c → (k (act o s c).2).Guards act A G (act o s c).1
  | _, _ => True

variable {G : S → C → Prop}
variable {o : O} {main : M → Prog C R ε α} {runs : List (M × List O)} {s' : S} {F : M → List O → S → Prop}

theorem Makes.guards {P : C → Prop} (hp : p.Makes P) (hG : ∀ s c, P c → G s c) : p.Guards act A G s := by
  induction p generalizing s with
  | done a => trivial
  | fail e => trivial
  | call c k ih => exact ⟨hG s c hp.1, fun o _ => ih _ (hp.2 _)⟩

theorem guards_perform_bind {c : C} {f : R c → Prog C R ε α} :
    ((perform c : Prog C R ε (R c)) >>= f).Guards act A G s ↔
      G s c ∧ ∀ o, A o s c → (f (act o s c).2).Guards act A G (act o s c).1 := Iff.rfl

theorem guards_bind (hp : p.Guards act A G s)
    (hf : p.Ensures act A I (fun r s => ∀ a, r = .ok a → (f a).Guards act A G s) s) :
    (p >>= f).Guards act A G s := by
  induction p generalizing s with
  | done a => exact hf a rfl
  | fail e => trivial
  | call c k ih => exact ⟨hp.1, fun o ho => ih _ (hp.2 o ho) (hf o ho).2⟩

theorem Guards.attempt (hp : p.Guards act A G s) : p.attempt.Guards act A G s := by
  induction p generalizing s with
  | done a => trivial
  | fail e => trivial
  | call c k ih => exact ⟨hp.1, fun o ho => ih _ (hp.2 o ho)⟩

theorem Guards.trace (h : p.Guards act A G s) (hos : p.Admits act A os s) :
    ∀ call ∈ p.trace act os s, G call.1 call.2 := by
  induction p generalizing s os with
  | done a => exact nofun
  | fail e => exact nofun
  | call c k ih =>
    cases os with
    | nil => exact nofun
    | cons o os =>
      rintro call (_ | ⟨_, hcall⟩)
      · exact h.1
      · exact ih _ (h.2 o hos.1) hos.2 call hcall

/-- A run that was stopped has left a world that meets `I`. -/
theorem Ensures.play (h : p.Ensures act A I Q s) (hos : p.Admits act A os s) (hI : I s) :
    (∀ r, (p.play act os s).2 = some r → Q r (p.play act os s).1) ∧
      ((p.play act os s).2 = none → I (p.play act os s).1) := by
  induction p generalizing s os with
  | done a => exact ⟨fun r hr => by cases hr; exact h, nofun⟩
  | fail e => exact ⟨fun r hr => by cases hr; exact h, nofun⟩
  | call c k ih =>
    cases os with
    | nil => exact ⟨nofun, fun _ => hI⟩
    | cons o os => exact ih _ (h o hos.1).2 hos.2 (h o hos.1).1

/-- What holds after every call and at the end holds of the world a run leaves behind, however it ends. -/
theorem Ensures.left (h : p.Retains act A I s) (hos : p.Admits act A os s) (hI : I s) : I (p.play act os s).1 := by
  cases hresult : (p.play act os s).2 with
  | none => exact (h.play hos hI).2 hresult
  | some r => exact (h.play hos hI).1 r hresult

theorem Ensures.ended (h : p.Ensures act A I Q s) (hos : p.Admits act A os s) (hI : I s) {r : Except ε α}
    (hplay : p.play act os s = (s', some r)) : Q r s' := by
  have hQ := (h.play hos hI).1 r (by rw [hplay])
  rwa [hplay] at hQ

/-- What a program ensures holds at its end. -/
theorem Ensures.complete (h : p.Ensures act A I Q s) (ho : ∀ s c, A o s c) :
    Q (p.complete act o s).2 (p.complete act o s).1 := by
  induction p generalizing s with
  | done a => exact h
  | fail e => exact h
  | call c k ih => exact ih _ (h o (ho s c)).2

theorem historyAdmits_concat {run : M × List O} :
    HistoryAdmits act A main (runs ++ [run]) s ↔
      HistoryAdmits act A main runs s ∧ (main run.1).Admits act A run.2 (history act main runs s) := by
  induction runs generalizing s with
  | nil => simp [HistoryAdmits, history]
  | cons first runs ih =>
    simp only [List.cons_append, HistoryAdmits, ih, and_assoc]
    rfl

theorem historyAdmits_true : HistoryAdmits act (fun _ _ _ => True) main runs s := by
  induction runs generalizing s with
  | nil => trivial
  | cons run runs ih => exact ⟨admits_true, ih⟩

/-- What every run of every program leaves behind, whether it has ended or was stopped. -/
theorem history_inv (hmain : ∀ run ∈ runs, ∀ s, I s → (main run.1).Retains act A I s) (hI : I s)
    (hruns : HistoryAdmits act A main runs s) : I (history act main runs s) := by
  induction runs generalizing s with
  | nil => exact hI
  | cons run runs ih =>
    exact ih (fun r hr => hmain r (List.mem_cons_of_mem _ hr)) ((hmain run List.mem_cons_self s hI).left hruns.1 hI)
      hruns.2

theorem throughout_concat {run : M × List O} : Throughout act main F (runs ++ [run]) s ↔
      Throughout act main F runs s ∧ F run.1 run.2 (history act main runs s) := by
  induction runs generalizing s with
  | nil => simp [Throughout, history]
  | cons first runs ih =>
    simp only [List.cons_append, Throughout, ih, and_assoc]
    rfl

theorem Throughout.exists (h : Throughout act main F runs s) : ∀ run ∈ runs, ∃ s, F run.1 run.2 s := by
  induction runs generalizing s with
  | nil => exact nofun
  | cons first runs ih =>
    rintro run (_ | ⟨_, hrun⟩)
    · exact ⟨s, h.1⟩
    · exact ih h.2 run hrun

/-- From one run to the next, with an invariant of the worlds in between. -/
theorem Throughout.step {G : M → List O → S → Prop} (h : Throughout act main F runs s) (hJ : J s)
    (hstep : ∀ m os s, J s → F m os s → G m os s ∧ J ((main m).play act os s).1) : Throughout act main G runs s := by
  induction runs generalizing s with
  | nil => trivial
  | cons run runs ih =>
    obtain ⟨hG, hJ'⟩ := hstep run.1 run.2 s hJ h.1
    exact ⟨hG, ih h.2 hJ'⟩

end Prog

/-! ## Runs -/

/-- The world, and the programs running in it. -/
structure Config (ι S C : Type) (R : C → Type) (ε α : Type) where
  state : S
  thread : ι → Option (Prog C R ε α)

/-- The result of a program that has ended without an error. -/
def Config.returned {ι S C : Type} {R : C → Type} {ε α : Type} (σ : Config ι S C R ε α) (i : ι) : Option α :=
  match σ.thread i with
  | some (.done a) => some a
  | _ => none

theorem Config.returned_eq_some {ι S C : Type} {R : C → Type} {ε α : Type} {σ : Config ι S C R ε α} {i : ι} {a : α} :
    σ.returned i = some a ↔ σ.thread i = some (.done a) := by
  unfold Config.returned
  split
  · rename_i b hb
    rw [hb]
    simp
  · rename_i hnot
    exact iff_of_false nofun fun h => hnot a h

/-- One move of a run: a program starts, makes its next call or stops, or the world moves. -/
inductive Cue (ι M O X : Type) where
  | start (i : ι) (m : M)
  | call (i : ι) (o : O)
  | stop (i : ι)
  | env (x : X)

/-- The programs that may be started, how the world answers (`o : O` is what is left open about the
answer) and how it moves. -/
structure System (S C : Type) (R : C → Type) (ε α M O X : Type) where
  main : M → Prog C R ε α
  act : O → S → (c : C) → S × R c
  env : X → S → S

/-- A world that keeps the calls made and their answers. -/
def recorded {S C O : Type} {R : C → Type} (act : O → S → (c : C) → S × R c) :
    O → S × List ((c : C) × R c) → (c : C) → (S × List ((c : C) × R c)) × R c :=
  fun o s c => (((act o s.1 c).1, s.2 ++ [⟨c, (act o s.1 c).2⟩]), (act o s.1 c).2)

namespace System

variable {ι S C : Type} {R : C → Type} {ε α M O X : Type} [DecidableEq ι]

def play (sys : System S C R ε α M O X) (σ : Config ι S C R ε α) : Cue ι M O X → Config ι S C R ε α
  | .start i m =>
    match σ.thread i with
    | none => { σ with thread := Function.update σ.thread i (some (sys.main m)) }
    | some _ => σ
  | .call i o =>
    match σ.thread i with
    | some (.call c k) =>
      ⟨(sys.act o σ.state c).1, Function.update σ.thread i (some (k (sys.act o σ.state c).2))⟩
    | _ => σ
  | .stop i => { σ with thread := Function.update σ.thread i none }
  | .env x => { σ with state := sys.env x σ.state }

/-- The run that follows the cues, from a world in which no program runs. -/
def run (sys : System S C R ε α M O X) (s : S) (cues : List (Cue ι M O X)) : Config ι S C R ε α :=
  cues.foldl sys.play ⟨s, fun _ => none⟩

/-- Every move of the run meets the condition. -/
def Meets (sys : System S C R ε α M O X) (A : Config ι S C R ε α → Cue ι M O X → Prop) :
    Config ι S C R ε α → List (Cue ι M O X) → Prop
  | _, [] => True
  | σ, cue :: cues => A σ cue ∧ sys.Meets A (sys.play σ cue) cues

instance decidableMeets (sys : System S C R ε α M O X) (A : Config ι S C R ε α → Cue ι M O X → Prop)
    [∀ σ cue, Decidable (A σ cue)] : ∀ σ cues, Decidable (sys.Meets A σ cues)
  | _, [] => .isTrue trivial
  | σ, cue :: cues => @instDecidableAnd _ _ _ (sys.decidableMeets A (sys.play σ cue) cues)

end System

/-! ## Disciplines -/

/-- What the programs of a system keep to. -/
structure Discipline (S C O X : Type) where
  /-- The invariant of the world. -/
  Inv : S → Prop
  /-- What a program between two calls may rely on. -/
  Rely : S → S → Prop
  /-- What every call of a program guarantees. -/
  Guar : S → S → Prop
  /-- What holds when a call is made. -/
  Pre : C → S → Prop
  /-- The answers considered. -/
  Allows : O → S → C → Prop
  /-- The moves of the world considered. -/
  Moves : X → S → Prop

section

variable {ι S C : Type} {R : C → Type} {ε α β M O X : Type}

/-- The program keeps to the discipline from `s` on, and ends with `Q` if it ends without an error. -/
def Prog.Safe (act : O → S → (c : C) → S × R c) (D : Discipline S C O X) :
    Prog C R ε α → (α → S → Prop) → S → Prop
  | .done a, Q, s => Q a s
  | .fail _, _, _ => True
  | .call c k, Q, s => ∀ s₁, D.Rely s s₁ → D.Inv s₁ → D.Pre c s₁ ∧ ∀ o, D.Allows o s₁ c →
    D.Guar s₁ (act o s₁ c).1 ∧ D.Inv (act o s₁ c).1 ∧ (k (act o s₁ c).2).Safe act D Q (act o s₁ c).1

variable {act : O → S → (c : C) → S × R c} {D : Discipline S C O X} {Q Q' : α → S → Prop} {s s' : S}
variable {p : Prog C R ε α}

@[simp] theorem Prog.safe_done {a : α} : (.done a : Prog C R ε α).Safe act D Q s ↔ Q a s := Iff.rfl

@[simp] theorem Prog.safe_fail {e : ε} : (.fail e : Prog C R ε α).Safe act D Q s := trivial

@[simp] theorem Prog.safe_result {wrap : ε → ε} {answer : Answer ε α} :
    (Prog.result wrap answer : Prog C R ε α).Safe act D Q s ↔ ∀ a, answer = .ok a → Q a s := by
  cases answer with
  | ok a => simp [Prog.result]
  | failed => simp [Prog.result]

theorem Prog.safe_perform {c : C} {Q : R c → S → Prop} :
    (perform c : Prog C R ε (R c)).Safe act D Q s ↔
      ∀ s₁, D.Rely s s₁ → D.Inv s₁ → D.Pre c s₁ ∧ ∀ o, D.Allows o s₁ c →
        D.Guar s₁ (act o s₁ c).1 ∧ D.Inv (act o s₁ c).1 ∧ Q (act o s₁ c).2 (act o s₁ c).1 := Iff.rfl

theorem Prog.Safe.mono (h : p.Safe act D Q s) (hQ : ∀ a s, Q a s → Q' a s) : p.Safe act D Q' s := by
  induction p generalizing s with
  | done a => exact hQ a s h
  | fail e => trivial
  | call c k ih =>
    intro s₁ hrely hinv
    obtain ⟨hpre, hstep⟩ := h s₁ hrely hinv
    refine ⟨hpre, fun o ho => ?_⟩
    obtain ⟨hguar, hinv', hsafe⟩ := hstep o ho
    exact ⟨hguar, hinv', ih _ hsafe⟩

@[simp] theorem Prog.safe_bind {f : α → Prog C R ε β} {Q : β → S → Prop} :
    (p >>= f).Safe act D Q s ↔ p.Safe act D (fun a s => (f a).Safe act D Q s) s := by
  induction p generalizing s with
  | done a => rfl
  | fail e => rfl
  | call c k ih =>
    rw [Prog.call_bind]
    simp only [Prog.Safe, ih]

/-- A loop keeps to the discipline if every pass does, from one loop assertion to the next. -/
theorem Prog.safe_forM {κ : Type} {f : κ → Prog C R ε PUnit} (L : List κ → S → Prop)
    (pass : ∀ a l s, L (a :: l) s → (f a).Safe act D (fun _ s => L l s) s) {l : List κ} (h : L l s) :
    (l.forM f).Safe act D (fun _ s => L [] s) s := by
  induction l generalizing s with
  | nil => exact h
  | cons a l ih =>
    change (f a >>= fun _ => l.forM f).Safe act D _ s
    rw [Prog.safe_bind]
    exact (pass a l s h).mono fun _ _ hL => ih hL

/-- What none of the program's calls touches, and nobody else does, is still there at its end. -/
theorem Prog.Safe.frame {P : C → Prop} {A : S → Prop} (hp : p.Makes P)
    (stable : ∀ s s', D.Rely s s' → A s → A s')
    (keep : ∀ o c s, P c → D.Inv s → D.Pre c s → D.Allows o s c → A s → A (act o s c).1) (h : p.Safe act D Q s)
    (hA : A s) : p.Safe act D (fun a s => Q a s ∧ A s) s := by
  induction p generalizing s with
  | done a => exact ⟨h, hA⟩
  | fail e => trivial
  | call c k ih =>
    intro s₁ hrely hinv
    obtain ⟨hpre, hstep⟩ := h s₁ hrely hinv
    refine ⟨hpre, fun o ho => ?_⟩
    obtain ⟨hguar, hinv', hsafe⟩ := hstep o ho
    exact ⟨hguar, hinv', ih _ (hp.2 _) hsafe (keep o c s₁ hp.1 hinv hpre ho (stable s s₁ hrely hA))⟩

/-- The discipline of a program that runs alone in a world that does not move. -/
def Discipline.alone (Inv : S → Prop) (Pre : C → S → Prop) : Discipline S C O X where
  Inv := Inv
  Rely := Eq
  Guar _ _ := True
  Pre := Pre
  Allows _ _ _ := True
  Moves _ _ := False

/-- A call of a program that runs alone. -/
theorem Prog.safe_perform_alone {Inv : S → Prop} {Pre : C → S → Prop} {c : C} {Q : R c → S → Prop}
    (keep : ∀ o, Inv s → Pre c s → Inv (act o s c).1) (pre : Inv s → Pre c s)
    (post : ∀ o, Inv s → Inv (act o s c).1 → Q (act o s c).2 (act o s c).1) :
    (perform c : Prog C R ε (R c)).Safe act (.alone Inv Pre : Discipline S C O X) Q s := by
  rintro s₁ ⟨⟩ hinv
  refine ⟨pre hinv, fun o _ => ?_⟩
  have hinv' := keep o hinv (pre hinv)
  exact ⟨trivial, hinv', post o hinv hinv'⟩

/-- A program whose calls may be made in any state. -/
theorem Prog.Makes.safe_alone {Inv : S → Prop} {Pre : C → S → Prop}
    (keep : ∀ o c s, Inv s → Pre c s → Inv (act o s c).1) (h : p.Makes fun c => ∀ s, Pre c s) :
    p.Safe act (.alone Inv Pre : Discipline S C O X) (fun _ _ => True) s := by
  induction p generalizing s with
  | done a => trivial
  | fail e => trivial
  | call c k ih =>
    rintro s₁ ⟨⟩ hinv
    exact ⟨h.1 s, fun o _ => ⟨trivial, keep o c s hinv (h.1 s), ih _ (h.2 _)⟩⟩

/-- What others do while the program is between two calls does not matter. -/
theorem Prog.Safe.stable (htrans : ∀ {a b c}, D.Rely a b → D.Rely b c → D.Rely a c)
    (hQ : ∀ a s s', D.Rely s s' → Q a s → Q a s') (h : p.Safe act D Q s) (hrely : D.Rely s s') :
    p.Safe act D Q s' := by
  cases p with
  | done a => exact hQ a s s' hrely h
  | fail e => trivial
  | call => exact fun s₁ hs₁ => h s₁ (htrans hrely hs₁)

end

namespace System

variable {ι S C : Type} {R : C → Type} {ε α M O X : Type} [DecidableEq ι]

/-- Every program of the system keeps to the discipline and ends with `Q`. -/
structure Keeps (sys : System S C R ε α M O X) (D : Discipline S C O X) (Q : α → S → Prop) : Prop where
  refl : ∀ s, D.Rely s s
  trans : ∀ {a b c}, D.Rely a b → D.Rely b c → D.Rely a c
  stable : ∀ a s s', D.Rely s s' → Q a s → Q a s'
  env : ∀ x s, D.Moves x s → D.Inv s → D.Inv (sys.env x s) ∧ D.Rely s (sys.env x s)
  main : ∀ m s, D.Inv s → (sys.main m).Safe sys.act D Q s

/-- The moves a discipline considers. -/
def Considers (D : Discipline S C O X) (σ : Config ι S C R ε α) : Cue ι M O X → Prop
  | .call i o => ∀ c k, σ.thread i = some (.call c k) → D.Allows o σ.state c
  | .env x => D.Moves x σ.state
  | _ => True

/-- The world keeps its invariant and every running program is safe. -/
structure Good (sys : System S C R ε α M O X) (D : Discipline S C O X) (Q : α → S → Prop)
    (σ : Config ι S C R ε α) : Prop where
  inv : D.Inv σ.state
  threads : ∀ i p, σ.thread i = some p → p.Safe sys.act D Q σ.state

variable {sys : System S C R ε α M O X} {D : Discipline S C O X} {Q : α → S → Prop} {σ : Config ι S C R ε α}
variable {i : ι} {cues : List (Cue ι M O X)} {A A' : Config ι S C R ε α → Cue ι M O X → Prop} {cue : Cue ι M O X}
  {s : S} {c : C} {k : R c → Prog C R ε α}

/-- One program has moved on. -/
theorem Good.update {s' : S} {q : Option (Prog C R ε α)} (hinv : D.Inv s')
    (hnew : ∀ p, q = some p → p.Safe sys.act D Q s')
    (hold : ∀ j p, j ≠ i → σ.thread j = some p → p.Safe sys.act D Q s') :
    sys.Good D Q ⟨s', Function.update σ.thread i q⟩ := by
  refine ⟨hinv, fun j p hp => ?_⟩
  change Function.update σ.thread i q j = some p at hp
  by_cases hj : j = i
  · subst hj
    rw [Function.update_self] at hp
    exact hnew p hp
  · rw [Function.update_of_ne hj] at hp
    exact hold j p hj hp

theorem Good.play (good : sys.Good D Q σ) (keeps : sys.Keeps D Q)
    (others : Subsingleton ι ∨ ∀ s s', D.Guar s s' → D.Rely s s') (h : Considers D σ cue) :
    sys.Good D Q (sys.play σ cue) := by
  cases cue with
  | start i m =>
    unfold System.play
    dsimp only
    split
    · refine .update good.inv (fun p hp => ?_) fun j p _ hp => good.threads j p hp
      cases hp
      exact keeps.main m σ.state good.inv
    · exact good
  | call i o =>
    unfold System.play
    dsimp only
    split
    · rename_i c k hthread
      obtain ⟨-, hstep⟩ := good.threads i _ hthread σ.state (keeps.refl _) good.inv
      obtain ⟨hguar, hinv, hsafe⟩ := hstep o (h c k hthread)
      refine .update hinv (fun p hp => ?_) fun j p hj hp => ?_
      · cases hp
        exact hsafe
      · rcases others with honly | hrely
        · exact absurd (Subsingleton.elim j i) hj
        · exact (good.threads j p hp).stable keeps.trans keeps.stable (hrely _ _ hguar)
    · exact good
  | stop i => exact .update good.inv (by rintro p ⟨⟩) fun j p _ hp => good.threads j p hp
  | env x =>
    obtain ⟨hinv, hrely⟩ := keeps.env x σ.state h good.inv
    exact ⟨hinv, fun j p hp => (good.threads j p hp).stable keeps.trans keeps.stable hrely⟩

theorem Good.foldl (good : sys.Good D Q σ) (keeps : sys.Keeps D Q)
    (others : Subsingleton ι ∨ ∀ s s', D.Guar s s' → D.Rely s s') (h : sys.Meets (Considers D) σ cues) :
    sys.Good D Q (cues.foldl sys.play σ) := by
  induction cues generalizing σ with
  | nil => exact good
  | cons cue cues ih => exact ih (good.play keeps others h.1) h.2

/-- **Every run** of a system that keeps to a discipline stays within it. -/
theorem safe (keeps : sys.Keeps D Q) (others : Subsingleton ι ∨ ∀ s s', D.Guar s s' → D.Rely s s')
    (hinv : D.Inv s) (h : sys.Meets (Considers D) ⟨s, fun _ => none⟩ cues) :
    sys.Good D Q (sys.run s cues) := by
  refine Good.foldl ⟨hinv, ?_⟩ keeps others h
  rintro i p ⟨⟩

theorem Meets.mono (hA : ∀ σ cue, A σ cue → A' σ cue) (h : sys.Meets A σ cues) : sys.Meets A' σ cues := by
  induction cues generalizing σ with
  | nil => trivial
  | cons cue cues ih => exact ⟨hA σ cue h.1, ih h.2⟩

theorem Meets.and (h : sys.Meets A σ cues) (h' : sys.Meets A' σ cues) :
    sys.Meets (fun σ cue => A σ cue ∧ A' σ cue) σ cues := by
  induction cues generalizing σ with
  | nil => trivial
  | cons cue cues ih => exact ⟨⟨h.1, h'.1⟩, ih h.2 h'.2⟩

omit [DecidableEq ι] in
/-- A program that has ended has done so with `Q`. -/
theorem Good.ended (good : sys.Good D Q σ) {a : α} (h : σ.thread i = some (.done a)) : Q a σ.state :=
  good.threads i _ h

omit [DecidableEq ι] in
/-- What must hold when a call is made does. -/
theorem Good.pre (good : sys.Good D Q σ) (keeps : sys.Keeps D Q) (h : σ.thread i = some (.call c k)) :
    D.Pre c σ.state :=
  (good.threads i _ h σ.state (keeps.refl _) good.inv).1

omit [DecidableEq ι] in
/-- The next call of a program gives the guarantee. -/
theorem Good.guar (good : sys.Good D Q σ) (keeps : sys.Keeps D Q) (h : σ.thread i = some (.call c k)) {o : O}
    (ho : D.Allows o σ.state c) :
    D.Guar σ.state (sys.act o σ.state c).1 :=
  ((good.threads i _ h σ.state (keeps.refl _) good.inv).2 o ho).1

theorem meets_append {cues' : List (Cue ι M O X)} :
    sys.Meets A σ (cues ++ cues') ↔ sys.Meets A σ cues ∧ sys.Meets A (cues.foldl sys.play σ) cues' := by
  induction cues generalizing σ with
  | nil => exact (iff_of_eq (true_and _)).symm
  | cons cue cues ih =>
    rw [List.cons_append, Meets, Meets, ih, and_assoc]
    rfl

theorem meets_of_forall (h : ∀ σ cue, A σ cue) (σ : Config ι S C R ε α) (cues : List (Cue ι M O X)) :
    sys.Meets A σ cues := by
  induction cues generalizing σ with
  | nil => trivial
  | cons cue cues ih => exact ⟨h σ cue, ih _⟩

/-- In every run a program makes only calls it can make. -/
theorem run_makes {P : C → Prop} (main : ∀ m, (sys.main m).Makes P) (cues : List (Cue ι M O X))
    (h : (sys.run s cues).thread i = some (.call c k)) : P c := by
  -- the discipline that only looks at the calls
  let D : Discipline S C O X := ⟨fun _ => True, fun _ _ => True, fun _ _ => True, fun c _ => P c,
    fun _ _ _ => True, fun _ _ => True⟩
  have hsafe : ∀ (p : Prog C R ε α) s, p.Makes P → p.Safe sys.act D (fun _ _ => True) s := by
    intro p
    induction p with
    | done a => exact fun _ _ => trivial
    | fail e => exact fun _ _ => trivial
    | call c k ih => exact fun s hp s₁ _ _ => ⟨hp.1, fun o _ => ⟨trivial, trivial, ih _ _ (hp.2 _)⟩⟩
  have keeps : sys.Keeps D (fun _ _ => True) :=
    ⟨fun _ => trivial, fun _ _ => trivial, fun _ _ _ _ _ => trivial, fun _ _ _ _ => ⟨trivial, trivial⟩,
      fun m s _ => hsafe _ s (main m)⟩
  have meets : sys.Meets (Considers D) ⟨s, fun _ => none⟩ cues := by
    refine meets_of_forall (fun σ cue => ?_) _ cues
    cases cue with
    | start => trivial
    | call => exact fun _ _ _ => trivial
    | stop i => trivial
    | env x => trivial
  have good := safe keeps (.inr fun _ _ _ => trivial) trivial meets
  exact good.pre keeps h

/-- A program that runs after a move was there before it, has just started or has just made a call. -/
theorem play_thread {p : Prog C R ε α} (h : (sys.play σ cue).thread i = some p) :
    σ.thread i = some p ∨ (∃ m, cue = .start i m ∧ σ.thread i = none ∧ p = sys.main m) ∨
      ∃ o c k, cue = .call i o ∧ σ.thread i = some (.call c k) ∧ p = k (sys.act o σ.state c).2 := by
  cases cue with
  | start j m =>
    unfold System.play at h
    dsimp only at h
    cases hj : σ.thread j with
    | some p' => exact .inl (by simpa only [hj] using h)
    | none =>
      simp only [hj] at h
      by_cases hij : i = j
      · subst hij
        rw [Function.update_self] at h
        exact .inr (.inl ⟨m, rfl, hj, (Option.some.inj h).symm⟩)
      · rw [Function.update_of_ne hij] at h
        exact .inl h
  | call j o =>
    unfold System.play at h
    dsimp only at h
    cases hj : σ.thread j with
    | none => exact .inl (by simpa only [hj] using h)
    | some p' =>
      cases p' with
      | done a => exact .inl (by simpa only [hj] using h)
      | fail e => exact .inl (by simpa only [hj] using h)
      | call c k =>
        simp only [hj] at h
        by_cases hij : i = j
        · subst hij
          rw [Function.update_self] at h
          exact .inr (.inr ⟨o, c, k, rfl, hj, (Option.some.inj h).symm⟩)
        · rw [Function.update_of_ne hij] at h
          exact .inl h
  | stop j =>
    change Function.update σ.thread j none i = some p at h
    by_cases hij : i = j
    · subst hij
      rw [Function.update_self] at h
      cases h
    · rw [Function.update_of_ne hij] at h
      exact .inl h
  | env x => exact .inl h

/-- The world after a move is the one before it, unless a program made a call or the world moved. -/
theorem play_state (sys : System S C R ε α M O X) (σ : Config ι S C R ε α) (cue : Cue ι M O X) :
    (sys.play σ cue).state = σ.state ∨
      (∃ i o c k, cue = .call i o ∧ σ.thread i = some (.call c k) ∧
        (sys.play σ cue).state = (sys.act o σ.state c).1) ∨
      ∃ x, cue = .env x ∧ (sys.play σ cue).state = sys.env x σ.state := by
  cases cue with
  | start i m =>
    unfold System.play
    dsimp only
    cases hi : σ.thread i <;> exact .inl rfl
  | call i o =>
    unfold System.play
    dsimp only
    cases hi : σ.thread i with
    | none => exact .inl rfl
    | some p =>
      cases p with
      | done a => exact .inl rfl
      | fail e => exact .inl rfl
      | call c k => exact .inr (.inl ⟨i, o, c, k, rfl, hi, rfl⟩)
  | stop i => exact .inl rfl
  | env x => exact .inr (.inr ⟨x, rfl, rfl⟩)

/-- A move keeps what a program ends with, also if another one is started in its place. -/
theorem within_play (sys : System S C R ε α M O X) {I : S → Prop} {Q : α → Prop}
    (main : ∀ m, (sys.main m).Within sys.act I Q) (hcue : ∀ o, cue = .call i o → I σ.state)
    (h : ∀ p, σ.thread i = some p → p.Within sys.act I Q) :
    ∀ p, (sys.play σ cue).thread i = some p → p.Within sys.act I Q := by
  intro p hp
  rcases play_thread hp with hsame | ⟨m, -, -, rfl⟩ | ⟨o, c, k, rfl, hi, rfl⟩
  · exact h p hsame
  · exact main m
  · exact h _ hi o σ.state (hcue o rfl)

/-- Runs of programs that run alone, one after the other. -/
theorem safe_alone [Subsingleton ι] {Inv : S → Prop} {Pre : C → S → Prop} {sys : System S C R ε α M O Empty}
    (main : ∀ m s, Inv s → (sys.main m).Safe sys.act (.alone Inv Pre : Discipline S C O Empty) (fun _ _ => True) s)
    (hinv : Inv s) (cues : List (Cue ι M O Empty)) :
    Inv (sys.run s cues).state ∧
      ∀ i c k, (sys.run s cues).thread i = some (.call c k) → Pre c (sys.run s cues).state := by
  have keeps : sys.Keeps (.alone Inv Pre : Discipline S C O Empty) (fun _ _ => True) :=
    ⟨fun _ => rfl, fun h h' => h.trans h', fun _ _ _ _ _ => trivial, fun x => x.elim, main⟩
  have meets : sys.Meets (Considers (.alone Inv Pre : Discipline S C O Empty)) ⟨s, fun _ => none⟩ cues := by
    refine meets_of_forall (fun σ cue => ?_) _ cues
    cases cue with
    | start => trivial
    | call => exact fun _ _ _ => trivial
    | stop i => trivial
    | env x => exact x.elim
  have good := safe keeps (.inl inferInstance) hinv meets
  exact ⟨good.inv, fun i c k h => good.pre keeps h⟩

end System

end Punaro
