import Mathlib.Data.List.Basic
import Mathlib.Data.List.Infix

/-!
# Searching a text

`index p l` is where `p` first occurs in `l`, `lastIndex p l` where it last does. The
lemmas are about texts made of lines: a pattern that does not contain the separator
occurs in a text only within a line.
-/

namespace Search

variable {α : Type*} [DecidableEq α] {p a b l : List α} {sep : α}

/-- `strings.Index`. -/
def index (p : List α) : List α → Option ℕ
  | [] => if p = [] then some 0 else none
  | a :: l => if p <+: a :: l then some 0 else (index p l).map (· + 1)

/-- `strings.LastIndex`. -/
def lastIndex (p : List α) : List α → Option ℕ
  | [] => if p = [] then some 0 else none
  | a :: l =>
    match lastIndex p l with
    | some i => some (i + 1)
    | none => if p <+: a :: l then some 0 else none

/-- `strings.Contains`. -/
def contains (p l : List α) : Bool := (index p l).isSome

theorem index_eq_none : index p l = none ↔ ¬p <:+: l := by
  induction l with
  | nil => simp [index, List.infix_nil]
  | cons a l ih =>
    unfold index
    rw [List.infix_cons_iff]
    split
    · simp [*]
    · simp [*]

theorem contains_eq_false : contains p l = false ↔ ¬p <:+: l := by
  rw [contains, Option.isSome_eq_false_iff, Option.isNone_iff_eq_none, index_eq_none]

theorem lastIndex_eq_none (h : ¬p <:+: l) : lastIndex p l = none := by
  induction l with
  | nil => simpa [lastIndex, List.infix_nil] using h
  | cons a l ih =>
    rw [List.infix_cons_iff, not_or] at h
    simp [lastIndex, ih h.2, h.1]

omit [DecidableEq α] in
/-- A pattern without the separator that starts before it ends before it. -/
theorem prefix_append_cons (hsep : sep ∉ p) : p <+: a ++ sep :: b ↔ p <+: a := by
  constructor
  · intro h
    rcases List.prefix_or_prefix_of_prefix h (List.prefix_append a (sep :: b)) with h | ⟨c, rfl⟩
    · exact h
    · rw [List.prefix_append_right_inj] at h
      cases c with
      | nil => simp
      | cons x c =>
        rw [List.cons_prefix_cons] at h
        exact absurd (by simp [h.1]) hsep
  · exact fun h => h.trans (List.prefix_append ..)

omit [DecidableEq α] in
/-- A pattern without the separator occurs on one of its sides. -/
theorem infix_append_cons (hsep : sep ∉ p) : p <:+: a ++ sep :: b ↔ p <:+: a ∨ p <:+: b := by
  induction a with
  | nil =>
    rw [List.nil_append, List.infix_cons_iff, List.infix_nil]
    constructor
    · rintro (h | h)
      · exact .inl (List.prefix_nil.1 ((prefix_append_cons (a := []) hsep).1 h))
      · exact .inr h
    · rintro (rfl | h)
      · exact .inl (List.nil_prefix ..)
      · exact .inr h
  | cons x a ih =>
    rw [List.cons_append, List.infix_cons_iff, ih, List.infix_cons_iff, ← List.cons_append,
      prefix_append_cons hsep, or_assoc]

/-- The first occurrence of a pattern that starts a line. -/
theorem index_line (hsep : sep ∉ p) (h : ¬p <:+: a) : index p (a ++ sep :: (p ++ b)) = some (a.length + 1) := by
  have hp : p ≠ [] := by rintro rfl; exact h (List.nil_infix ..)
  induction a with
  | nil =>
    have hno : ¬p <+: sep :: (p ++ b) := fun hpre =>
      hp (List.prefix_nil.1 ((prefix_append_cons (a := []) hsep).1 hpre))
    have hyes : index p (p ++ b) = some 0 := by
      cases hpb : p ++ b with
      | nil => exact absurd (List.append_eq_nil_iff.1 hpb).1 hp
      | cons x l => simp [index, ← hpb]
    simp [index, hno, hyes]
  | cons x a ih =>
    rw [List.infix_cons_iff, not_or] at h
    have hno : ¬p <+: x :: (a ++ sep :: (p ++ b)) := by
      rw [← List.cons_append, prefix_append_cons hsep]
      exact h.1
    simp [index, hno, ih h.2]

/-- The last occurrence of a pattern that ends the last line. -/
theorem lastIndex_line (hsep : sep ∉ p) (hp : p ≠ []) : lastIndex p (a ++ (p ++ [sep])) = some a.length := by
  induction a with
  | nil =>
    obtain ⟨x, p', rfl⟩ := List.exists_cons_of_ne_nil hp
    have hnone : lastIndex (x :: p') (p' ++ [sep]) = none := by
      refine lastIndex_eq_none fun h => ?_
      have heq := h.eq_of_length (by simp)
      exact hsep (heq ▸ by simp)
    simp [lastIndex, hnone]
  | cons x a ih => simp [lastIndex, ih]

/-- Joined texts without the separator determine the texts. -/
theorem intercalate_inj {ls ls' : List (List α)} (hls : ∀ part ∈ ls, sep ∉ part) (hls' : ∀ part ∈ ls', sep ∉ part)
    (hne : ls ≠ []) (hne' : ls' ≠ []) (h : [sep].intercalate ls = [sep].intercalate ls') : ls = ls' := by
  rw [← List.splitOn_intercalate sep hls hne, h, List.splitOn_intercalate sep hls' hne']

omit [DecidableEq α] in
/-- The first separator ends the first text. -/
theorem append_cons_inj {a' b' : List α} (ha : sep ∉ a) (ha' : sep ∉ a') (h : a ++ sep :: b = a' ++ sep :: b') :
    a = a' ∧ b = b' := by
  have hcase : ∀ {a a' b b' c : List α}, sep ∉ a' → a' = a ++ c → sep :: b = c ++ sep :: b' → c = [] := by
    rintro a a' b b' (_ | ⟨x, c⟩) ha' rfl h
    · rfl
    · simp only [List.cons_append, List.cons.injEq] at h
      exact absurd (by simp [h.1]) ha'
  rcases List.append_eq_append_iff.1 h with ⟨c, hc, heq⟩ | ⟨c, hc, heq⟩
  · obtain rfl := hcase ha' hc heq
    simp_all
  · obtain rfl := hcase ha hc heq
    simp_all

omit [DecidableEq α] in
/-- So do texts each of which is ended by the separator. -/
theorem flatMap_ended_inj {ls ls' : List (List α)} (hls : ∀ part ∈ ls, sep ∉ part) (hls' : ∀ part ∈ ls', sep ∉ part)
    (h : ls.flatMap (· ++ [sep]) = ls'.flatMap (· ++ [sep])) : ls = ls' := by
  induction ls generalizing ls' with
  | nil =>
    cases ls' with
    | nil => rfl
    | cons part' ls' => simp at h
  | cons part ls ih =>
    cases ls' with
    | nil => simp at h
    | cons part' ls' =>
      rw [List.forall_mem_cons] at hls hls'
      simp only [List.flatMap_cons, List.append_assoc, List.singleton_append] at h
      obtain ⟨rfl, hrest⟩ := append_cons_inj hls.1 hls'.1 h
      rw [ih hls.2 hls'.2 hrest]

end Search
