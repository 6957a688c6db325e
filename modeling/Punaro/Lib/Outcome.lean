import Mathlib.Logic.Basic
import Mathlib.Tactic.Common

/-!
# Computations that may refuse

Rules for `Except`-valued code written in `do` notation: how to take a successful
computation apart (`bind_eq_ok`), what a guard gives (`require_eq_ok`), the loop
rule (`foldlM_rule`), and which errors a computation can end with (`OnError`).
-/

namespace Outcome

universe u

variable {ε ι : Type*} {α β : Type u} {f : β → ι → Except ε β} {x : Except ε α} {c : Prop} {b : β} {a : α}

/-- Continue only if `c` holds; otherwise refuse with `e`. -/
def require (c : Prop) [Decidable c] (e : ε) : Except ε Unit := if c then .ok () else .error e

/-- The value of an option, or the refusal `e`. -/
def ofOption (o : Option α) (e : ε) : Except ε α := o.elim (.error e) .ok

@[simp] theorem bind_eq_ok {f : α → Except ε β} : x >>= f = .ok b ↔ ∃ a, x = .ok a ∧ f a = .ok b := by
  cases x <;> simp [bind, Except.bind]

@[simp] theorem pure_eq_ok {b : α} : (pure a : Except ε α) = .ok b ↔ a = b := by
  simp [pure, Except.pure]

@[simp] theorem map_eq_ok {f : α → β} : f <$> x = .ok b ↔ ∃ a, x = .ok a ∧ f a = b := by
  cases x <;> simp [Functor.map, Except.map]

@[simp] theorem exceptMap_eq_ok {f : α → β} :
    x.map f = .ok b ↔ ∃ a, x = .ok a ∧ f a = b := map_eq_ok

@[simp] theorem require_eq_ok [Decidable c] {e : ε} {u : Unit} : require c e = .ok u ↔ c := by
  unfold require
  split <;> simp_all

@[simp] theorem ofOption_eq_ok {o : Option α} {e : ε} : ofOption o e = .ok a ↔ o = some a := by
  cases o <;> simp [ofOption]

/-- The rules above as one set: a successful block, step by step. -/
theorem ok_rules :
    (∀ {ε α β : Type} {x : Except ε α} {f : α → Except ε β} {b : β}, x >>= f = .ok b ↔ ∃ a, x = .ok a ∧ f a = .ok b) ∧
    (∀ {ε α : Type} {a b : α}, (pure a : Except ε α) = .ok b ↔ a = b) ∧
    (∀ {ε : Type} {c : Prop} [Decidable c] {e : ε} {u : Unit}, require c e = .ok u ↔ c) ∧
    ∀ {ε α : Type} {o : Option α} {e : ε} {a : α}, ofOption o e = .ok a ↔ o = some a :=
  ⟨bind_eq_ok, pure_eq_ok, require_eq_ok, ofOption_eq_ok⟩

@[simp] theorem mapError_eq_ok {δ : Type*} {f : ε → δ} : x.mapError f = .ok a ↔ x = .ok a := by
  cases x <;> simp [Except.mapError]

/-- A check made under a condition only. -/
@[simp] theorem ite_bind_eq_ok [Decidable c] {x : Except ε PUnit} {y : Except ε β} :
    (if c then x >>= fun _ => y else y) = .ok b ↔ (c → x = .ok ⟨⟩) ∧ y = .ok b := by
  split
  · rename_i hc
    rw [bind_eq_ok]
    exact ⟨fun ⟨_, hx, hy⟩ => ⟨fun _ => hx, hy⟩, fun ⟨hx, hy⟩ => ⟨_, hx hc, hy⟩⟩
  · rename_i hc
    simp [hc]

@[simp] theorem ite_bind₂_eq_ok [Decidable c] {g : α → Except ε PUnit} {y : Except ε β} :
    (if c then x >>= fun a => g a >>= fun _ => y else y) = .ok b ↔
      (c → ∃ a, x = .ok a ∧ g a = .ok ⟨⟩) ∧ y = .ok b := by
  split
  · rename_i hc
    simp only [bind_eq_ok]
    exact ⟨fun ⟨a, hx, _, hg, hy⟩ => ⟨fun _ => ⟨a, hx, hg⟩, hy⟩,
      fun ⟨hx, hy⟩ => (hx hc).imp fun _ ⟨hx, hg⟩ => ⟨hx, _, hg, hy⟩⟩
  · rename_i hc
    simp [hc]

/-! ## Loops -/

/-- **Loop rule.** An invariant of the remaining work and the accumulator that every pass preserves
holds of the result with no work left. -/
theorem foldlM_rule (P : List ι → β → Prop) (pass : ∀ a l b b', P (a :: l) b → f b a = .ok b' → P l b') :
    ∀ {l : List ι} {b b' : β}, P l b → l.foldlM f b = .ok b' → P [] b' := by
  intro l
  induction l with
  | nil =>
    intro b b' hP h
    rw [List.foldlM_nil, pure_eq_ok] at h
    exact h ▸ hP
  | cons a l ih =>
    intro b b' hP h
    rw [List.foldlM_cons, bind_eq_ok] at h
    obtain ⟨b₁, h₁, h⟩ := h
    exact ih (pass a l b b₁ hP h₁) h

/-- Every element of a completed loop was passed. -/
theorem foldlM_mem : ∀ {l : List ι} {b b' : β}, l.foldlM f b = .ok b' → ∀ a ∈ l, ∃ c c', f c a = .ok c' := by
  intro l
  induction l with
  | nil => intro b b' _ a ha; cases ha
  | cons x l ih =>
    intro b b' h a ha
    rw [List.foldlM_cons, bind_eq_ok] at h
    obtain ⟨b₁, h₁, h⟩ := h
    rcases List.mem_cons.1 ha with rfl | ha
    · exact ⟨b, b₁, h₁⟩
    · exact ih h a ha

theorem forM_eq_ok {f : ι → Except ε PUnit} {l : List ι} : l.forM f = .ok () ↔ ∀ a ∈ l, f a = .ok () := by
  induction l with
  | nil => simp [List.forM, pure, Except.pure]
  | cons a l ih =>
    change (f a >>= fun _ => l.forM f) = _ ↔ _
    rw [bind_eq_ok, List.forall_mem_cons, ← ih]
    exact exists_and_right.trans (and_congr_left' ⟨fun ⟨_, h⟩ => h, fun h => ⟨(), h⟩⟩)

/-! ## Errors -/

/-- Every error the computation can end with satisfies `P`. -/
def OnError (P : ε → Prop) (x : Except ε α) : Prop := ∀ e, x = .error e → P e

variable {P : ε → Prop}
variable {x : Except ε α} {e : ε}

@[simp] theorem onError_ok : OnError P (.ok a : Except ε α) := fun _ h => by cases h

@[simp] theorem onError_pure : OnError P (pure a : Except ε α) := onError_ok

@[simp] theorem onError_error : OnError P (.error e : Except ε α) ↔ P e :=
  ⟨fun h => h e rfl, fun h e' he => by cases he; exact h⟩

@[simp] theorem onError_require [Decidable c] : OnError P (require c e) ↔ (¬c → P e) := by
  unfold require
  split <;> simp_all

@[simp] theorem onError_ofOption {o : Option α} : OnError P (ofOption o e) ↔ (o = none → P e) := by
  cases o <;> simp [ofOption]

@[simp] theorem onError_bind {f : α → Except ε β} :
    OnError P (x >>= f) ↔ OnError P x ∧ ∀ a, x = .ok a → OnError P (f a) := by
  cases x <;> simp [bind, Except.bind]

@[simp] theorem onError_map {f : α → β} : OnError P (f <$> x) ↔ OnError P x := by
  cases x <;> simp [Functor.map, Except.map]

@[simp] theorem onError_exceptMap {f : α → β} : OnError P (x.map f) ↔ OnError P x :=
  onError_map

@[simp] theorem onError_ite [Decidable c] {y : Except ε α} :
    OnError P (if c then x else y) ↔ (c → OnError P x) ∧ (¬c → OnError P y) := by
  split <;> simp_all

theorem onError_foldlM (Q : List ι → β → Prop) (pass : ∀ a l b b', Q (a :: l) b → f b a = .ok b' → Q l b')
    (safe : ∀ a l b, Q (a :: l) b → OnError P (f b a)) :
    ∀ {l : List ι} {b : β}, Q l b → OnError P (l.foldlM f b) := by
  intro l
  induction l with
  | nil => intro b _; exact onError_pure
  | cons a l ih =>
    intro b hQ
    rw [List.foldlM_cons]
    exact onError_bind.2 ⟨safe a l b hQ, fun b' h => ih (pass a l b b' hQ h)⟩

@[simp] theorem onError_mapError {ε' : Type*} {x : Except ε' α} {g : ε' → ε} :
    OnError P (x.mapError g) ↔ OnError (fun e => P (g e)) x := by
  cases x <;> simp [Except.mapError]

theorem onError_foldlM_all (safe : ∀ b a, OnError P (f b a)) (l : List ι) (b : β) : OnError P (l.foldlM f b) :=
  onError_foldlM (fun _ _ => True) (fun _ _ _ _ _ _ => trivial) (fun a _ b _ => safe b a) trivial

theorem onError_forM {f : ι → Except ε PUnit} (safe : ∀ a, OnError P (f a)) (l : List ι) : OnError P (l.forM f) := by
  induction l with
  | nil => exact onError_pure
  | cons a l ih => exact onError_bind.2 ⟨safe a, fun _ _ => ih⟩

theorem onError_mapM {f : ι → Except ε α} (l : List ι) (safe : ∀ a ∈ l, OnError P (f a)) : OnError P (l.mapM f) := by
  induction l with
  | nil => exact onError_pure
  | cons a l ih =>
    rw [List.mapM_cons]
    have htail := ih fun b hb => safe b (List.mem_cons_of_mem _ hb)
    simp [safe a (List.mem_cons_self ..), htail]

end Outcome
