import Mathlib.Algebra.BigOperators.Group.List.Basic
import Mathlib.Algebra.Order.BigOperators.Group.List
import Mathlib.Algebra.Order.Group.Nat
import Mathlib.Data.List.Dedup
import Mathlib.Data.List.Nodup
import Mathlib.Tactic.Abel

/-!
# Keyed tables

`Table K V` is a relational table with a primary key: the rows in insertion
order, together with the proof that no key occurs twice. A scan returns the rows
in that order. The statements of a store become

* `find?`: a point query by primary key;
* `insert?`: an insert, refused when the key is taken;
* `insertOrIgnore`, `put`, `upsert`: an insert that keeps, overwrites or updates the row already there;
* `update`, `updateAt`: an update of every row, or of the row at one key;
* `deleteWhere`: a conditional delete.

Every operation is described by what it does to `find?`; the aggregate `sum`
follows inserts and updates exactly.
-/

/-- A table: rows in insertion order, with pairwise distinct keys. -/
structure Table (K V : Type*) where
  rows : List (K × V)
  nodup : (rows.map Prod.fst).Nodup

namespace Table

variable {K V : Type*} {t t' : Table K V} {k k' : K} {v v' : V}

/-! ## Operations -/

/-- The table without rows. -/
def empty : Table K V := ⟨[], List.nodup_nil⟩

/-- `UPDATE`: every row through `f`, which sees the key. -/
def update (t : Table K V) (f : K → V → V) : Table K V :=
  ⟨t.rows.map fun r => (r.1, f r.1 r.2), by simpa [Function.comp_def] using t.nodup⟩

theorem update_update (f g : K → V → V) : (t.update f).update g = t.update fun k v => g k (f k v) := by
  simp [update, Function.comp_def]

/-- `DELETE … WHERE`. -/
def deleteWhere (t : Table K V) (p : K → V → Bool) : Table K V :=
  ⟨t.rows.filter fun r => !p r.1 r.2, t.nodup.sublist (List.filter_sublist.map _)⟩

@[simp] theorem mem_deleteWhere {p : K → V → Bool} {r : K × V} :
    r ∈ (t.deleteWhere p).rows ↔ r ∈ t.rows ∧ p r.1 r.2 = false := by
  simp [deleteWhere]

/-- Rows that agree on the first half of their key differ on the second. -/
theorem nodup_map_snd {K₁ K₂ : Type*} {t : Table (K₁ × K₂) V} {c : K₁} {p : (K₁ × K₂) × V → Bool}
    (hp : ∀ r, p r = true → r.1.1 = c) : ((t.rows.filter p).map fun r => r.1.2).Nodup := by
  have hkeys : ((t.rows.filter p).map Prod.fst).Nodup := t.nodup.sublist (List.filter_sublist.map _)
  have hmap : (t.rows.filter p).map (fun r => r.1.2) = ((t.rows.filter p).map Prod.fst).map Prod.snd := by
    simp [Function.comp_def]
  rw [hmap]
  refine hkeys.map_on fun x hx y hy hxy => ?_
  obtain ⟨r, hr, rfl⟩ := List.mem_map.1 hx
  obtain ⟨r', hr', rfl⟩ := List.mem_map.1 hy
  exact Prod.ext ((hp r (List.mem_filter.1 hr).2).trans (hp r' (List.mem_filter.1 hr').2).symm) hxy

/-- The sum of `g` over all rows. -/
def sum {M : Type*} [AddCommMonoid M] (t : Table K V) (g : K → V → M) : M :=
  (t.rows.map fun r => g r.1 r.2).sum

@[simp] theorem sum_empty {M : Type*} [AddCommMonoid M] (g : K → V → M) :
    (empty : Table K V).sum g = 0 := rfl

theorem sum_update {M : Type*} [AddCommMonoid M] (f : K → V → V) (g : K → V → M) :
    (t.update f).sum g = t.sum fun k v => g k (f k v) := by
  simp [sum, update, Function.comp_def]

variable [DecidableEq K]

/-- The row at a key. -/
def find? (t : Table K V) (k : K) : Option V := (t.rows.find? fun r => r.1 = k).map Prod.snd

theorem find?_eq_some_iff_mem : t.find? k = some v ↔ (k, v) ∈ t.rows := by
  obtain ⟨rows, nodup⟩ := t
  unfold find?
  induction rows with
  | nil => simp
  | cons r rows ih =>
    simp only [List.map_cons, List.nodup_cons, List.mem_map, Prod.exists, exists_and_right,
      exists_eq_right, not_exists] at nodup
    simp only [List.find?_cons, List.mem_cons]
    by_cases h : r.1 = k
    · subst h
      simp only [decide_true, Option.map_some, Option.some.injEq]
      constructor
      · rintro rfl; exact .inl rfl
      · rintro (h | h)
        · rw [← h]
        · exact absurd h (nodup.1 v)
    · simp only [h, decide_false]
      rw [ih nodup.2]
      constructor
      · exact .inr
      · rintro (h' | h')
        · exact absurd (by rw [← h']) h
        · exact h'

theorem find?_eq_none_iff : t.find? k = none ↔ k ∉ t.rows.map Prod.fst := by
  rw [Option.eq_none_iff_forall_ne_some]
  simp only [ne_eq, find?_eq_some_iff_mem, List.mem_map, Prod.exists, exists_and_right,
    exists_eq_right, not_exists]

/-- `INSERT`: refused when the key is taken. -/
def insert? (t : Table K V) (k : K) (v : V) : Option (Table K V) :=
  if h : t.find? k = none then
    some ⟨t.rows ++ [(k, v)], by
      rw [List.map_append]
      exact List.nodup_append.2 ⟨t.nodup, List.nodup_singleton _, by
        rintro a ha b hb rfl
        rw [find?_eq_none_iff] at h
        simp only [List.map_cons, List.map_nil, List.mem_singleton] at hb
        exact h (hb ▸ ha)⟩⟩
  else none

/-- `UPDATE` of the row at one key. -/
def updateAt (t : Table K V) (k : K) (f : V → V) : Table K V :=
  t.update fun k' v => if k' = k then f v else v

/-- `INSERT OR IGNORE`: the row already at the key stays. -/
def insertOrIgnore (t : Table K V) (k : K) (v : V) : Table K V := (t.insert? k v).getD t

/-- `INSERT … ON CONFLICT DO UPDATE`: the row at the key is replaced. -/
def put (t : Table K V) (k : K) (v : V) : Table K V :=
  (t.insert? k v).getD (t.updateAt k fun _ => v)

/-- `INSERT … ON CONFLICT DO UPDATE`, with an update that sees the row at the key. -/
def upsert (t : Table K V) (k : K) (v : V) (f : V → V) : Table K V := (t.insert? k v).getD (t.updateAt k f)

/-! ## What the operations do to `find?` -/

@[simp] theorem find?_empty : (empty : Table K V).find? k = none := rfl

theorem insert?_eq_some (h : t.insert? k v = some t') : t.find? k = none ∧ t'.rows = t.rows ++ [(k, v)] := by
  unfold insert? at h
  split at h
  · rename_i hk
    cases h
    exact ⟨hk, rfl⟩
  · cases h

theorem insert?_eq_none : t.insert? k v = none ↔ t.find? k ≠ none := by
  unfold insert?
  split <;> simp_all

theorem mem_insert? (h : t.insert? k v = some t') {r : K × V} : r ∈ t'.rows ↔ r ∈ t.rows ∨ r = (k, v) := by
  simp [(insert?_eq_some h).2]

theorem find?_insert? (h : t.insert? k v = some t') (k' : K) : t'.find? k' = if k' = k then some v else t.find? k' := by
  obtain ⟨hk, hrows⟩ := insert?_eq_some h
  ext w
  rw [find?_eq_some_iff_mem, mem_insert? h]
  split
  · rename_i hkk
    subst hkk
    rw [← find?_eq_some_iff_mem, hk]
    simp [eq_comm]
  · rename_i hkk
    rw [find?_eq_some_iff_mem]
    simp [hkk]

@[simp] theorem find?_update (f : K → V → V) : (t.update f).find? k = (t.find? k).map (f k) := by
  unfold find? update
  simp only [List.find?_map, Option.map_map, Function.comp_def]
  cases h : t.rows.find? fun r => r.1 = k with
  | none => rfl
  | some r =>
    have hr := List.find?_some h
    simp only [decide_eq_true_eq] at hr
    simp [← hr]

@[simp] theorem find?_updateAt (f : V → V) :
    (t.updateAt k f).find? k' = if k' = k then (t.find? k').map f else t.find? k' := by
  unfold updateAt
  rw [find?_update]
  split
  · rfl
  · exact Option.map_id_apply

theorem insertOrIgnore_of_some (h : t.find? k = some v') : t.insertOrIgnore k v = t := by
  have : t.insert? k v = none := insert?_eq_none.2 (by simp [h])
  simp [insertOrIgnore, this]

theorem find?_insertOrIgnore :
    (t.insertOrIgnore k v).find? k' = if k' = k then some ((t.find? k).getD v) else t.find? k' := by
  unfold insertOrIgnore
  cases h : t.insert? k v with
  | none =>
    obtain ⟨w, hw⟩ := Option.ne_none_iff_exists'.1 (insert?_eq_none.1 h)
    by_cases hk : k' = k <;> simp [hk, hw]
  | some t' => simp [find?_insert? h, (insert?_eq_some h).1]

@[simp] theorem find?_put : (t.put k v).find? k' = if k' = k then some v else t.find? k' := by
  unfold put
  cases h : t.insert? k v with
  | none =>
    obtain ⟨w, hw⟩ := Option.ne_none_iff_exists'.1 (insert?_eq_none.1 h)
    by_cases hk : k' = k <;> simp [hk, hw]
  | some t' => simp [find?_insert? h]

theorem length_put : (t.put k v).rows.length = if t.find? k = none then t.rows.length + 1 else t.rows.length := by
  unfold put
  cases h : t.insert? k v with
  | none => rw [if_neg (insert?_eq_none.1 h), Option.getD_none, updateAt, update, List.length_map]
  | some t' =>
    obtain ⟨hnone, hrows⟩ := insert?_eq_some h
    rw [if_pos hnone, Option.getD_some, hrows, List.length_append, List.length_singleton]

@[simp] theorem find?_upsert (f : V → V) :
    (t.upsert k v f).find? k' = if k' = k then some ((t.find? k).elim v f) else t.find? k' := by
  unfold upsert
  cases h : t.insert? k v with
  | none =>
    obtain ⟨w, hw⟩ := Option.ne_none_iff_exists'.1 (insert?_eq_none.1 h)
    by_cases hk : k' = k <;> simp [hk, hw]
  | some t' => simp [find?_insert? h, (insert?_eq_some h).1]

/-- Every row meets `F`. -/
def All (F : K → V → Prop) (t : Table K V) : Prop := ∀ k v, t.find? k = some v → F k v

theorem all_iff_rows : t.All F ↔ ∀ row ∈ t.rows, F row.1 row.2 := by
  simp only [All, find?_eq_some_iff_mem, Prod.forall]

instance (F : K → V → Prop) [∀ k v, Decidable (F k v)] : Decidable (t.All F) :=
  decidable_of_iff _ all_iff_rows.symm

theorem All.empty : (empty : Table K V).All F := by
  rintro k v ⟨⟩

theorem All.put (h : t.All F) (hv : F k v) : (t.put k v).All F := by
  intro k' v' hfind
  rw [find?_put] at hfind
  split at hfind
  · rename_i hk
    cases hfind
    exact hk ▸ hv
  · exact h k' v' hfind

theorem All.foldl {f : Table K V → ι → Table K V} {l : List ι} (h : t.All F)
    (hf : ∀ t, ∀ a ∈ l, t.All F → (f t a).All F) : (l.foldl f t).All F := by
  induction l generalizing t with
  | nil => exact h
  | cons a l ih => exact ih (hf t a List.mem_cons_self h) fun t b hb => hf t b (List.mem_cons_of_mem _ hb)

/-! ## Loops of statements -/

/-- Inserting row after row keeps what is there and adds the missing keys. -/
theorem find?_foldl_insertOrIgnore (f : K → V) (ks : List K) (t : Table K V) :
    (ks.foldl (fun t k => t.insertOrIgnore k (f k)) t).find? k' =
      (t.find? k').or (if k' ∈ ks then some (f k') else none) := by
  induction ks generalizing t with
  | nil => simp
  | cons k ks ih =>
    rw [List.foldl_cons, ih, find?_insertOrIgnore]
    by_cases hk : k' = k
    · subst hk
      cases t.find? k' <;> simp
    · simp [hk]

/-- Rows already there stay, whatever is inserted after them. -/
theorem find?_foldl_insertOrIgnore_of_some (key : ι → K) (val : ι → V) (l : List ι) {t : Table K V}
    (h : t.find? k = some v) : (l.foldl (fun t a => t.insertOrIgnore (key a) (val a)) t).find? k = some v := by
  induction l generalizing t with
  | nil => exact h
  | cons a l ih =>
    refine ih ?_
    rw [find?_insertOrIgnore]
    split
    · rename_i hk
      rw [← hk, h, Option.getD_some]
    · exact h

/-- An insert keeps every row. -/
theorem find?_insert?_of_some (hinsert : t.insert? k' v' = some t') (h : t.find? k = some v) : t'.find? k = some v := by
  rw [find?_insert? hinsert, if_neg]
  · exact h
  · rintro rfl
    rw [(insert?_eq_some hinsert).1] at h
    cases h

/-- Updating key after key: each row is updated once for each occurrence of its key. -/
theorem foldl_updateAt (f : V → V) (ks : List K) (t : Table K V) :
    ks.foldl (fun t k => t.updateAt k f) t = t.update fun k v => f^[ks.count k] v := by
  induction ks generalizing t with
  | nil => simp [update]
  | cons k ks ih =>
    rw [List.foldl_cons, ih, updateAt, update_update]
    congr 1
    funext k' v
    by_cases hk : k' = k
    · subst hk; simp
    · simp [hk, List.count_cons_of_ne (Ne.symm hk)]

/-- Overwriting the rows at distinct keys is one update. -/
theorem foldl_overwrite (key : ι → K) (g : ι → V) {l : List ι} (hl : (l.map key).Nodup) (t : Table K V) :
    l.foldl (fun t a => t.updateAt (key a) fun _ => g a) t =
      t.update fun k v => ((l.find? fun a => key a = k).map g).getD v := by
  induction l generalizing t with
  | nil => simp [update]
  | cons a l ih =>
    rw [List.map_cons, List.nodup_cons] at hl
    rw [List.foldl_cons, ih hl.2, updateAt, update_update]
    congr 1
    funext k v
    by_cases hk : key a = k
    · subst hk
      have : l.find? (fun b => key b = key a) = none := by
        simpa using fun b hb hba => hl.1 (List.mem_map.2 ⟨b, hb, hba⟩)
      simp [this]
    · simp [hk, Ne.symm hk]

theorem find?_deleteWhere_eq_some {p : K → V → Bool} :
    (t.deleteWhere p).find? k = some v ↔ t.find? k = some v ∧ p k v = false := by
  rw [find?_eq_some_iff_mem, mem_deleteWhere, find?_eq_some_iff_mem]

theorem All.deleteWhere (h : t.All F) (p : K → V → Bool) : (t.deleteWhere p).All F :=
  fun k v hfind => h k v (find?_deleteWhere_eq_some.1 hfind).1

/-! ## Sums over the rows -/

variable {M : Type*} [AddCommMonoid M]
variable {F : K → V → Prop} {ι : Type*}

theorem sum_congr {g g' : K → V → M} (h : ∀ k v, t.find? k = some v → g k v = g' k v) : t.sum g = t.sum g' := by
  unfold sum
  congr 1
  exact List.map_congr_left fun r hr => h r.1 r.2 (find?_eq_some_iff_mem.2 hr)

theorem sum_insert? (h : t.insert? k v = some t') (g : K → V → M) : t'.sum g = t.sum g + g k v := by
  simp [sum, (insert?_eq_some h).2]

/-- A point update exchanges the contribution of one row. -/
theorem sum_updateAt (h : t.find? k = some v) (f : V → V) (g : K → V → M) :
    (t.updateAt k f).sum g + g k v = t.sum g + g k (f v) := by
  unfold updateAt
  rw [sum_update]
  obtain ⟨rows, nodup⟩ := t
  rw [find?_eq_some_iff_mem] at h
  obtain ⟨l₁, l₂, rfl⟩ := List.append_of_mem h
  simp only [List.map_append, List.map_cons] at nodup
  have hne : ∀ r ∈ l₁ ++ l₂, r.1 ≠ k := by
    intro r hr hrk
    have hnd := List.nodup_middle.1 nodup
    rw [List.nodup_cons, ← List.map_append] at hnd
    exact hnd.1 (List.mem_map.2 ⟨r, hr, hrk⟩)
  have hmap : ∀ l : List (K × V), (∀ r ∈ l, r.1 ≠ k) →
      (l.map fun r => g r.1 (if r.1 = k then f r.2 else r.2)) = l.map fun r => g r.1 r.2 := by
    intro l hl
    exact List.map_congr_left fun r hr => by rw [if_neg (hl r hr)]
  simp only [sum, List.map_append, List.map_cons, List.sum_append, List.sum_cons, if_true,
    hmap l₁ (fun r hr => hne r (by simp [hr])), hmap l₂ (fun r hr => hne r (by simp [hr]))]
  abel

/-! ## Grouping -/

/-- The sums of the groups add up to the whole. -/
theorem sum_groups {α : Type*} (f : α → K) (w : α → M) (l : List α) :
    ((l.map f).dedup.map fun k => ((l.filter fun a => f a == k).map w).sum).sum = (l.map w).sum := by
  have key : ∀ l' : List α, (∀ a ∈ l', a ∈ l) →
      ((l.map f).dedup.map fun k => ((l'.filter fun a => f a == k).map w).sum).sum = (l'.map w).sum := by
    intro l'
    induction l' with
    | nil => simp
    | cons a l' ih =>
      intro hsub
      have ha : f a ∈ (l.map f).dedup := List.mem_dedup.2 (List.mem_map_of_mem (hsub a (by simp)))
      have hcons : ∀ k, (((a :: l').filter fun a => f a == k).map w).sum =
          (if k = f a then w a else 0) + ((l'.filter fun a => f a == k).map w).sum := by
        intro k
        by_cases hk : k = f a
        · subst hk; simp
        · simp [hk, Ne.symm hk]
      rw [List.map_cons, List.sum_cons, ← ih fun b hb => hsub b (by simp [hb])]
      simp only [hcons, List.sum_map_add]
      congr 1
      rw [List.sum_map_eq_nsmul_single (f a) _ fun k hk _ => if_neg hk,
        List.count_eq_one_of_mem (List.nodup_dedup _) ha, one_nsmul, if_pos rfl]
  exact key l fun a ha => ha

end Table
