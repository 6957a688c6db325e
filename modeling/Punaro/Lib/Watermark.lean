import Mathlib.Order.Bounds.Basic
import Mathlib.Order.Interval.Set.Basic
import Mathlib.Tactic.Common

/-!
# Watermarks

A reader of a numbered sequence has a set of *open* positions, those it has still
to deal with, and a *head*, the last position in use. Its watermark is the last
position below the first open one, or the head when nothing is open
(`IsWatermark`). A stored cursor follows the watermark as positions are opened at
the head, closed anywhere, and skipped.
-/

/-- `w` is the last position below every open one: the first open position is `w + 1`, or nothing is
open and `w` is the head. -/
def IsWatermark (opened : Set ℕ) (head w : ℕ) : Prop := IsLeast opened (w + 1) ∨ opened = ∅ ∧ w = head

namespace IsWatermark

variable {S T : Set ℕ} {n w w' p : ℕ}

theorem lt (h : IsWatermark S n w) (hp : p ∈ S) : w < p := by
  rcases h with h | ⟨h, -⟩
  · exact h.2 hp
  · rw [h] at hp; exact absurd hp (Set.notMem_empty p)

theorem le_head (h : IsWatermark S n w) (hS : ∀ p ∈ S, p ≤ n) : w ≤ n := by
  rcases h with h | ⟨-, h⟩
  · exact Nat.le_of_succ_le (hS _ h.1)
  · exact h.le

/-- Opening the position after the head leaves the watermark where it is. -/
theorem open_head (h : IsWatermark S n w) (hS : ∀ p ∈ S, p ≤ n) : IsWatermark (insert (n + 1) S) (n + 1) w := by
  rcases h with h | ⟨rfl, rfl⟩
  · refine .inl ⟨.inr h.1, ?_⟩
    rintro p (rfl | hp)
    · exact (hS _ h.1).trans (Nat.le_succ n)
    · exact h.2 hp
  · exact .inl (by simp)

/-- **Advancing.** From any cursor below all open positions and not past the head, moving to the
position before the first open one above it, or to the head when there is none, gives the watermark. -/
theorem advance {target : ℕ} (hlt : ∀ p ∈ S, w < p) (hle : w ≤ n)
    (htarget : IsLeast {p ∈ S | w < p} (target + 1) ∨ {p ∈ S | w < p} = ∅ ∧ target = n) :
    IsWatermark S n (if w < target then target else w) := by
  have hS : {p ∈ S | w < p} = S := Set.sep_eq_self_iff_mem_true.2 hlt
  rw [hS] at htarget
  have hw : (if w < target then target else w) = target := by
    split
    · rfl
    · rcases htarget with h | ⟨-, h⟩
      · have := hlt _ h.1
        omega
      · omega
  rw [hw]
  exact htarget

end IsWatermark
