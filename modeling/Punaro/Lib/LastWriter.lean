import Mathlib.Order.Lattice
import Mathlib.Tactic.Common

/-!
# Last writer wins

A register that keeps the latest of the entries written to it, in a linear order of
their ranks. What it holds is the latest of its first entry and those written
(`Latest`), and so does not depend on the order or the number of the writes
(`Latest.unique`).
-/

namespace LastWriter

variable {E R : Type*} [LinearOrder R] {rank : E → R} {init o o' : Option E} {l l' : List E} {e r : E}

/-- Write an entry that is later than the one in the register. -/
def overwrite (rank : E → R) : Option E → E → Option E
  | none, e => some e
  | some r, e => if rank e ≤ rank r then some r else some e

theorem overwrite_of_le (h : o = some r) (hle : rank e ≤ rank r) : overwrite rank o e = o := by
  rw [h]
  exact if_pos hle

/-- `o` is the latest of the entry `init` and of the entries of `l`; on a tie, `init` stays. -/
structure Latest (rank : E → R) (init : Option E) (l : List E) (o : Option E) : Prop where
  empty : o = none → init = none ∧ l = []
  source : ∀ r, o = some r → init = some r ∨ r ∈ l ∧ ∀ i, init = some i → rank i < rank r
  le : ∀ r, o = some r → ∀ e ∈ l, rank e ≤ rank r

theorem latest_init : Latest rank init [] init := ⟨fun h => ⟨h, rfl⟩, fun _ h => .inl h, nofun⟩

theorem Latest.init_le (h : Latest rank init l o) {i : E} (hi : init = some i) : ∃ r, o = some r ∧ rank i ≤ rank r := by
  cases o with
  | none =>
    rw [(h.empty rfl).1] at hi
    cases hi
  | some r =>
    refine ⟨r, rfl, ?_⟩
    rcases h.source r rfl with hr | ⟨-, hlt⟩
    · rw [hi] at hr
      cases hr
      exact le_rfl
    · exact (hlt i hi).le

theorem Latest.overwrite (h : Latest rank init l o) (e : E) : Latest rank init (e :: l) (overwrite rank o e) := by
  cases o with
  | none =>
    obtain ⟨rfl, rfl⟩ := h.empty rfl
    refine ⟨nofun, ?_, ?_⟩
    · rintro _ ⟨⟩
      exact .inr ⟨by simp, nofun⟩
    · rintro _ ⟨⟩ e' he'
      rw [List.mem_singleton.1 he']
  | some r =>
    by_cases hle : rank e ≤ rank r
    · rw [overwrite_of_le rfl hle]
      refine ⟨nofun, ?_, ?_⟩
      · rintro _ ⟨⟩
        exact (h.source r rfl).imp_right fun hr => ⟨by simp [hr.1], hr.2⟩
      · rintro _ ⟨⟩ e' he'
        rcases List.mem_cons.1 he' with rfl | he'
        · exact hle
        · exact h.le r rfl e' he'
    · have hlt : rank r < rank e := not_le.1 hle
      have hwrite : overwrite rank (some r) e = some e := if_neg hle
      rw [hwrite]
      refine ⟨nofun, ?_, ?_⟩
      · rintro _ ⟨⟩
        refine .inr ⟨by simp, fun i hi => ?_⟩
        obtain ⟨_, ⟨⟩, hle⟩ := h.init_le hi
        exact hle.trans_lt hlt
      · rintro _ ⟨⟩ e' he'
        rcases List.mem_cons.1 he' with rfl | he'
        · exact le_rfl
        · exact (h.le r rfl e' he').trans hlt.le

/-- **The latest entry is determined by the set of the entries**, if they differ in their ranks. -/
theorem Latest.unique (h : Latest rank init l o) (h' : Latest rank init l' o') (hset : ∀ e, e ∈ l ↔ e ∈ l')
    (hrank : ∀ e ∈ l, ∀ e' ∈ l, rank e = rank e' → e = e') : o = o' := by
  cases o with
  | none =>
    obtain ⟨rfl, rfl⟩ := h.empty rfl
    cases o' with
    | none => rfl
    | some r' =>
      rcases h'.source r' rfl with hr | ⟨hr, -⟩
      · cases hr
      · cases (hset r').2 hr
  | some r =>
    cases o' with
    | none =>
      obtain ⟨rfl, rfl⟩ := h'.empty rfl
      rcases h.source r rfl with hr | ⟨hr, -⟩
      · cases hr
      · cases (hset r).1 hr
    | some r' =>
      rcases h.source r rfl with hr | ⟨hr, hlt⟩ <;> rcases h'.source r' rfl with hr' | ⟨hr', hlt'⟩
      · exact hr.symm.trans hr'
      · exact absurd (h.le r rfl r' ((hset r').2 hr')) (not_le.2 (hlt' r hr))
      · exact absurd (h'.le r' rfl r ((hset r).1 hr)) (not_le.2 (hlt r' hr'))
      · have hle := h'.le r' rfl r ((hset r).1 hr)
        have hge := h.le r rfl r' ((hset r').2 hr')
        rw [hrank r hr r' ((hset r').2 hr') (le_antisymm hle hge)]

end LastWriter
