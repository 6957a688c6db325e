import Mathlib.Data.List.Infix
import Punaro.Cutover.Executor

/-!
# An import loses and duplicates nothing

Importers of one table run next to each other, each with its own page size; calls fail,
before or after they took effect, and importers are stopped and started again. What is
staged is always a beginning of the table, in order (`Imported`), and all of it once an
importer has returned.
-/

namespace Punaro.Cutover

open Outcome Prog

variable {K : Codec} {rows : List MigrationSourceRow} {batch : MigrationSourceBatch}

/-! ## Keys -/

/-- The rows of a table as they are handed over, in the order of their keys. -/
def Source.exported (K : Codec) (s : Source) (table : String) : List MigrationSourceRow :=
  (s.data.rows K table).map (SourceRow.exported K table)

/-- The rows are strictly ordered by their encoded keys. -/
def Ascending (rows : List MigrationSourceRow) : Prop := rows.Pairwise fun a b => a.key < b.key

instance (rows : List MigrationSourceRow) : Decidable (Ascending rows) := List.instDecidablePairwise _

/-- Every row has a key. -/
def Keyed (rows : List MigrationSourceRow) : Prop := ∀ row ∈ rows, row.key ≠ ""

/-- The key of the last row; it is where reading goes on. -/
def lastKey (rows : List MigrationSourceRow) : String := (rows.getLast?.map MigrationSourceRow.key).getD ""

section

variable {rows front front' more : List MigrationSourceRow}

theorem lastKey_append (hmore : more ≠ []) : lastKey (front ++ more) = lastKey more := by
  unfold lastKey
  rw [List.getLast?_append, List.getLast?_eq_some_getLast hmore, Option.some_or]

theorem lastKey_ne_empty (hkeyed : Keyed front) (hne : front ≠ []) : lastKey front ≠ "" := by
  unfold lastKey
  rw [List.getLast?_eq_some_getLast hne]
  exact hkeyed _ (List.getLast_mem hne)

theorem lastKey_eq_empty (hkeyed : Keyed front) : lastKey front = "" ↔ front = [] :=
  ⟨fun h => not_not.1 fun hne => lastKey_ne_empty hkeyed hne h, fun h => by simp [h, lastKey]⟩

theorem lastKey_lt (hasc : Ascending (front ++ more)) (hfront : front ≠ []) (hmore : more ≠ []) :
    lastKey front < lastKey (front ++ more) := by
  rw [lastKey_append hmore]
  unfold lastKey
  rw [List.getLast?_eq_some_getLast hfront, List.getLast?_eq_some_getLast hmore]
  exact (List.pairwise_append.1 hasc).2.2 _ (List.getLast_mem hfront) _ (List.getLast_mem hmore)

/-- The last key tells how far an ascending list has been read. -/
theorem lastKey_inj (hasc : Ascending rows) (hfront : front <+: rows) (hfront' : front' <+: rows)
    (hkeyed : Keyed front) (hkeyed' : Keyed front') (h : lastKey front = lastKey front') : front = front' := by
  -- the shorter of the two beginnings ends with a smaller key, unless it is empty
  have hle : ∀ {a b : List MigrationSourceRow}, b <+: rows → a <+: b → Keyed b → lastKey a = lastKey b → a = b := by
    rintro a _ hb ⟨more, rfl⟩ hkeyed heq
    by_cases hmore : more = []
    · simp [hmore]
    by_cases ha : a = []
    · subst ha
      exact absurd heq.symm (lastKey_ne_empty hkeyed (by simpa using hmore))
    · have hlt := lastKey_lt (hasc.sublist hb.sublist) ha hmore
      exact absurd heq hlt.ne
  rcases List.prefix_or_prefix_of_prefix hfront hfront' with hpre | hpre
  · exact hle hfront' hpre hkeyed' h
  · exact (hle hfront hpre hkeyed h.symm).symm

end

/-! ## Pages -/

theorem encode_split (key : String) : encodeMigrationRowKey (splitMigrationRowKey key) = key := by
  apply String.toList_inj.1
  unfold encodeMigrationRowKey splitMigrationRowKey
  rw [String.toList_intercalate, List.map_map]
  have hid : String.toList ∘ String.ofList = id := funext fun l => String.toList_ofList
  rw [hid, List.map_id]
  exact List.intercalate_splitOn '\x1f'

section

variable {s : Source} {table : String}

theorem exported_inj (hasc : Ascending (s.exported K table)) {a b : SourceRow} (ha : a ∈ s.data.rows K table)
    (hb : b ∈ s.data.rows K table) (h : encodeMigrationRowKey a.key = encodeMigrationRowKey b.key) : a = b := by
  have hnodup : ((s.data.rows K table).map fun row => encodeMigrationRowKey row.key).Nodup :=
    List.pairwise_map.2 ((List.pairwise_map.1 hasc).imp fun hlt => hlt.ne)
  exact List.inj_on_of_nodup_map hnodup ha hb h

/-- Distinct encoded keys come from distinct keys, so that the rows are in the strict order of their keys. -/
theorem rows_pairwise (hasc : Ascending (s.exported K table)) :
    (s.data.rows K table).Pairwise fun a b => a.key < b.key := by
  have hsorted : (s.data.rows K table).Pairwise fun a b => a.key ≤ b.key :=
    List.pairwise_insertionSort (fun a b : SourceRow => a.key ≤ b.key) _
  have hdistinct : (s.data.rows K table).Pairwise fun a b => a.key ≠ b.key := by
    refine (List.pairwise_map.1 hasc).imp fun {a b} hlt heq => ?_
    simp [SourceRow.exported, heq] at hlt
  exact (hsorted.and hdistinct).imp fun h => lt_of_le_of_ne h.1 h.2

/-- In a sorted list, what lies behind an element follows it. -/
theorem filter_gt_of_pairwise {α β : Type} [Preorder β] [DecidableLT β] {f : α → β} {l m : List α} {x : α}
    (h : (l ++ x :: m).Pairwise fun a b => f a < f b) : (l ++ x :: m).filter (fun y => f x < f y) = m := by
  obtain ⟨-, hright, hcross⟩ := List.pairwise_append.1 h
  have hl : l.filter (fun y => f x < f y) = [] := by
    refine List.filter_eq_nil_iff.2 fun y hy => ?_
    have hlt := hcross y hy x (List.mem_cons_self ..)
    simpa using hlt.not_gt
  have hm : m.filter (fun y => f x < f y) = m := by
    refine List.filter_eq_self.2 fun y hy => ?_
    simpa using (List.pairwise_cons.1 hright).1 y hy
  simp [List.filter_append, hl, hm]

/-- Reading goes on exactly behind the rows that were read. -/
theorem resumeAfter_eq {front rest : List SourceRow} {found : List SourceRow}
    (hasc : Ascending (s.exported K table)) (hsplit : s.data.rows K table = front ++ rest)
    (hkeyed : Keyed (front.map (SourceRow.exported K table)))
    (h : resumeAfter table (lastKey (front.map (SourceRow.exported K table))) (s.data.rows K table) = .ok found) :
    found = rest := by
  unfold resumeAfter at h
  split at h
  · rename_i hempty
    obtain rfl : front = [] := by simpa using (lastKey_eq_empty hkeyed).1 hempty
    rw [pure_eq_ok] at h
    rw [← h, hsplit, List.nil_append]
  · rename_i hne
    simp only [ok_rules] at h
    obtain ⟨-, -, -, hany, rfl⟩ := h
    obtain ⟨row, hrow, hkey⟩ : ∃ row ∈ s.data.rows K table,
        row.key = splitMigrationRowKey (lastKey (front.map (SourceRow.exported K table))) := by simpa using hany
    rcases List.eq_nil_or_concat' front with rfl | ⟨before, last, rfl⟩
    · exact absurd rfl hne
    have hcursor : lastKey ((before ++ [last]).map (SourceRow.exported K table)) = encodeMigrationRowKey last.key := by
      simp [lastKey, SourceRow.exported]
    -- the row the cursor names is the last one that was read
    have hlast : last ∈ s.data.rows K table := by rw [hsplit]; simp
    obtain rfl : row = last := by
      refine exported_inj hasc hrow hlast ?_
      rw [hkey, encode_split, hcursor]
    rw [← hkey]
    rw [List.append_assoc, List.singleton_append] at hsplit
    rw [hsplit]
    exact filter_gt_of_pairwise (hsplit ▸ rows_pairwise hasc)

/-- A page that was read. -/
structure PageOf (limit : ℕ) (rest : List MigrationSourceRow) (batch : MigrationSourceBatch) : Prop where
  positive : 1 ≤ limit
  rows : batch.rows = rest.take limit
  done : batch.done = (rest.drop limit).isEmpty
  nextKey : batch.nextKey = lastKey batch.rows
  keyed : Keyed batch.rows

theorem readMigrationSourceBatch_page {front rest : List MigrationSourceRow} {limit : ℕ}
    (hasc : Ascending (s.exported K table)) (hsplit : s.exported K table = front ++ rest) (hkeyed : Keyed front)
    (h : readMigrationSourceBatch K s table (lastKey front) limit = .ok batch) : PageOf limit rest batch := by
  obtain ⟨front, rest, hrows, rfl, rfl⟩ := List.map_eq_append_iff.1 hsplit
  unfold readMigrationSourceBatch at h
  simp only [ok_rules] at h
  obtain ⟨_, ⟨hlimit, -⟩, manifest, hmanifest, -, -, h⟩ := h
  split at h
  · -- the schema has no such table
    rename_i habsent
    have hversion : manifest.version = s.data.version := by rw [(inspectMigrationSource_eq_ok hmanifest).1]; rfl
    have hnone : s.data.rows K table = [] := by
      have htable : s.data.table K table = [] := by
        unfold SourceData.table
        rw [if_pos (by rw [← hversion]; exact habsent)]
      simp [SourceData.rows, htable]
    obtain ⟨rfl, rfl⟩ := List.append_eq_nil_iff.1 (hrows.symm.trans hnone)
    rw [pure_eq_ok] at h
    exact h ▸ ⟨hlimit, by simp, by simp, rfl, by simp [Keyed]⟩
  · simp only [ok_rules] at h
    obtain ⟨found, hfound, _, hpage, -, -, rfl⟩ := h
    obtain rfl := resumeAfter_eq hasc hrows hkeyed hfound
    refine ⟨hlimit, by simp [List.map_take], by simp [← List.map_drop], rfl, ?_⟩
    intro row hrow
    obtain ⟨r, hr, rfl⟩ := List.mem_map.1 hrow
    have hchecked := forM_eq_ok.1 hpage r hr
    simp only [SourceRow.checkKey, ok_rules] at hchecked
    obtain ⟨-, ⟨-, hne, -⟩, -⟩ := hchecked
    exact hne

end

/-! ## Staging -/

/-- A loop of inserts appends its rows. -/
theorem foldlM_insert?_rows {κ ν ι : Type} [DecidableEq κ] {key : ι → κ} {val : ι → ν} {e : Err} :
    ∀ {l : List ι} {t t' : Table κ ν},
      l.foldlM (fun t i => ofOption (t.insert? (key i) (val i)) e) t = .ok t' →
        t'.rows = t.rows ++ l.map fun i => (key i, val i) := by
  intro l
  induction l with
  | nil =>
    intro t t' h
    rw [List.foldlM_nil, pure_eq_ok] at h
    simp [h]
  | cons i l ih =>
    intro t t' h
    simp only [List.foldlM_cons, ok_rules] at h
    obtain ⟨t₁, hinsert, h⟩ := h
    rw [ih h, (Table.insert?_eq_some hinsert).2]
    simp

section

variable {d d' : Destination} {actorPrincipalID : String} {batch : MailCutoverBatch}
  {checkpoint : MailCutoverCheckpoint}

/-- A page is staged behind the checkpoint, or has been staged before. -/
inductive StageCase (K : Codec) (d : Destination) (batch : MailCutoverBatch) (d' : Destination) : Prop where
  | again (hkey : (d.checkpoint K batch.epochID batch.table).lastKey.getD "" = lastKey batch.rows)
      (hne : batch.rows ≠ []) (heq : d' = d)
  | empty (hkey : (d.checkpoint K batch.epochID batch.table).lastKey.getD "" = batch.afterKey)
      (hrows : batch.rows = []) (heq : d' = d)
  | more (hkey : (d.checkpoint K batch.epochID batch.table).lastKey.getD "" = batch.afterKey)
      (hrows : d'.staging.rows = d.staging.rows ++ batch.rows.map fun row =>
        ((batch.epochID, batch.table, row.key), ⟨row.payload, row.sha256⟩))
      (hcheckpoints : d'.checkpoints = d.checkpoints.put (batch.epochID, batch.table)
        ⟨if (batch.rows.getLast?.map MigrationSourceRow.key).getD batch.afterKey = "" then none
            else some ((batch.rows.getLast?.map MigrationSourceRow.key).getD batch.afterKey),
          (d.checkpoint K batch.epochID batch.table).rowCount + batch.rows.length,
          nextMailCutoverDigest K (d.checkpoint K batch.epochID batch.table).rollingSHA256 batch.rows, true⟩)

theorem stageMailCutoverBatch_cases
    (h : stageMailCutoverBatch K d actorPrincipalID batch = .ok (d', checkpoint)) :
    batch.valid K ∧ StageCase K d batch d' := by
  unfold stageMailCutoverBatch at h
  simp only [ok_rules] at h
  obtain ⟨_, hvalid, _, -, _, -, h⟩ := h
  refine ⟨hvalid, ?_⟩
  split at h
  · simp only [ok_rules, Prod.mk.injEq] at h
    obtain ⟨_, ⟨hkey, hne⟩, _, -, rfl, -⟩ := h
    refine .again ?_ hne rfl
    rw [hkey, lastKey, List.getLast?_eq_some_getLast hne]
    rfl
  rename_i hkey
  rw [not_not] at hkey
  split at h
  · rename_i hempty
    simp only [pure_eq_ok, Prod.mk.injEq] at h
    exact .empty hkey hempty.2 h.1.symm
  · simp only [ok_rules, Prod.mk.injEq] at h
    obtain ⟨staging, hstaging, rfl, -⟩ := h
    exact .more hkey (foldlM_insert?_rows hstaging) rfl

theorem batch_row_table (hvalid : batch.valid K) {row : MigrationSourceRow} (hrow : row ∈ batch.rows) :
    row.table = batch.table := by
  simp only [MailCutoverBatch.valid, Bool.and_eq_true, List.all_eq_true] at hvalid
  have hchecked := hvalid.2 row hrow
  simp only [validMigrationRow, Bool.and_eq_true, beq_iff_eq] at hchecked
  exact hchecked.1.1.1.1.1.1.1

theorem arrivals_append {d' : Destination} {epochID table epochID' table' : String}
    (hrows : d'.staging.rows = d.staging.rows ++ rows.map fun row =>
      ((epochID, table, row.key), ⟨row.payload, row.sha256⟩)) :
    d'.arrivals epochID' table' = d.arrivals epochID' table' ++
      if epochID = epochID' ∧ table = table' then rows.map fun row => { row with table } else [] := by
  unfold Destination.arrivals
  rw [hrows, List.filter_append, List.map_append, List.filter_map]
  congr 1
  split
  · rename_i heq
    obtain ⟨rfl, rfl⟩ := heq
    simp [Function.comp_def]
  · rename_i hne
    simp [Function.comp_def, hne]

end

/-! ## The import of one table -/

/-- What is staged for a table is a beginning of its rows, and the checkpoint is at its end. -/
structure Imported (K : Codec) (rows : List MigrationSourceRow) (epochID table : String) (d : Destination) : Prop where
  beginning : d.arrivals epochID table <+: rows
  keyed : Keyed (d.arrivals epochID table)
  count : (d.checkpoint K epochID table).rowCount = (d.arrivals epochID table).length
  cursor : (d.checkpoint K epochID table).lastKey.getD "" = lastKey (d.arrivals epochID table)

section

variable {rows front rest : List MigrationSourceRow} {epochID table : String}

/-- A page of an importer that has read `front` brings the staged rows to the end of the page. -/
theorem Imported.stage {d d' : Destination} {limit : ℕ} {actorPrincipalID : String}
    {checkpoint : MailCutoverCheckpoint} (himported : Imported K rows epochID table d) (hasc : Ascending rows)
    (hsplit : rows = front ++ rest) (hkeyed : Keyed front) (page : PageOf limit rest batch)
    (h : stageMailCutoverBatch K d actorPrincipalID ⟨epochID, table, lastKey front, batch.rows, batch.done⟩ =
      .ok (d', checkpoint)) :
    Imported K rows epochID table d' ∧ d'.arrivals epochID table = front ++ batch.rows ∧
      d.arrivals epochID table <+: d'.arrivals epochID table := by
  have hfront : front <+: rows := ⟨rest, hsplit.symm⟩
  have hread : front ++ batch.rows <+: rows := by
    rw [hsplit, page.rows, List.prefix_append_right_inj]
    exact List.take_prefix ..
  have hreadKeyed : Keyed (front ++ batch.rows) := fun row hrow =>
    (List.mem_append.1 hrow).elim (hkeyed row) (page.keyed row)
  obtain ⟨hvalid, hcase⟩ := stageMailCutoverBatch_cases h
  cases hcase with
  | again hkey hne heq =>
    subst heq
    have harrivals := lastKey_inj hasc himported.beginning hread himported.keyed hreadKeyed
      (by rw [← himported.cursor, hkey, lastKey_append hne])
    exact ⟨himported, harrivals, List.prefix_rfl⟩
  | empty hkey hempty heq =>
    subst heq
    have harrivals := lastKey_inj hasc himported.beginning hfront himported.keyed hkeyed
      (by rw [← himported.cursor, hkey])
    change batch.rows = [] at hempty
    exact ⟨himported, by rw [harrivals, hempty, List.append_nil], List.prefix_rfl⟩
  | more hkey hrows hcheckpoints =>
    have harrivals := lastKey_inj hasc himported.beginning hfront himported.keyed hkeyed
      (by rw [← himported.cursor, hkey])
    have htable : batch.rows.map (fun row => { row with table }) = batch.rows := by
      refine (List.map_congr_left fun row hrow => ?_).trans (List.map_id _)
      have heq : row.table = table := batch_row_table hvalid hrow
      rw [← heq]
      rfl
    have happended : d'.arrivals epochID table = front ++ batch.rows := by
      rw [arrivals_append hrows, if_pos ⟨rfl, rfl⟩, harrivals, htable]
    have hlast : (batch.rows.getLast?.map MigrationSourceRow.key).getD (lastKey front) =
        lastKey (front ++ batch.rows) := by
      by_cases hempty : batch.rows = []
      · simp [hempty]
      · rw [lastKey_append hempty]
        unfold lastKey
        rw [List.getLast?_eq_some_getLast hempty]
        rfl
    refine ⟨⟨happended ▸ hread, happended ▸ hreadKeyed, ?_, ?_⟩, happended, ?_⟩
    · rw [happended, Destination.checkpoint, hcheckpoints, Table.find?_put, if_pos rfl]
      simp [himported.count, harrivals]
    · rw [happended, Destination.checkpoint, hcheckpoints, Table.find?_put, if_pos rfl]
      simp only [hlast, Option.getD_some]
      split <;> simp [*]
    · rw [happended, harrivals]
      exact List.prefix_append ..

/-- The importers of one table of a fixed source: they only add to what is staged. -/
def importDiscipline (K : Codec) (source : Source) (rows : List MigrationSourceRow) (epochID table : String) :
    Discipline World Call (Option (Err × Bool)) Empty where
  Inv w := w.source = source ∧ Imported K rows epochID table w.destination
  Rely w w' := w.destination.arrivals epochID table <+: w'.destination.arrivals epochID table
  Guar w w' := w.destination.arrivals epochID table <+: w'.destination.arrivals epochID table
  Pre _ _ := True
  Allows _ _ _ := True
  Moves _ _ := False

variable {source : Source}

/-- A call that only reads, of an importer. -/
theorem importDiscipline_reading {w : World} {c : Call} {wrap : Err → Err} {Q : c.Result → World → Prop}
    (x : World → Except Err c.Result) (hreads : ∀ w : World, w.perform K c = w.reading (x w))
    (h : ∀ w₁ a, w₁.source = source → Imported K rows epochID table w₁.destination → x w₁ = .ok a → Q a w₁) :
    (c.orFail wrap).Safe (World.answer K) (importDiscipline K source rows epochID table) Q w := by
  refine Call.orFail_safe (fun _ => List.prefix_rfl) fun w₁ _ hinv => ⟨trivial, fun w₂ a hperform => ?_⟩
  rw [hreads, World.reading, exceptMap_eq_ok] at hperform
  obtain ⟨b, hb, heq⟩ := hperform
  simp only [Prod.mk.injEq] at heq
  obtain ⟨rfl, rfl⟩ := heq
  exact ⟨List.prefix_rfl, hinv, h w₁ b hinv.1 hinv.2 hb⟩

/-- The loop over the pages stages the rest of the table; it takes at most one page for every row left, and
one more. -/
theorem importPages_safe {i : Import} (hasc : Ascending (source.exported K table)) (fuel : ℕ) :
    ∀ {front rest : List MigrationSourceRow}, source.exported K table = front ++ rest → Keyed front → ∀ w,
      (importPages i table fuel (lastKey front)).Safe (World.answer K)
        (importDiscipline K source (source.exported K table) i.epochID table)
        (fun r w => match r with
          | some _ => source.exported K table <+: w.destination.arrivals i.epochID table
          | none => fuel + front.length ≤ (source.exported K table).length) w := by
  induction fuel with
  | zero =>
    intro front rest hsplit _ w
    simp [importPages, hsplit]
  | succ fuel ih =>
    intro front rest hsplit hkeyed w
    simp only [importPages, safe_bind]
    refine importDiscipline_reading _ (fun _ => rfl) fun w batch hsource himported hread => ?_
    have page := readMigrationSourceBatch_page hasc hsplit hkeyed (hsource ▸ hread)
    refine Call.orFail_safe (fun _ => List.prefix_rfl) fun w₁ _ hinv => ⟨trivial, fun w₂ checkpoint hperform => ?_⟩
    simp only [World.perform, World.onDestination, exceptMap_eq_ok, Prod.mk.injEq] at hperform
    obtain ⟨⟨d', _⟩, hstage, rfl, rfl⟩ := hperform
    obtain ⟨himported', harrivals, hgrown⟩ := hinv.2.stage hasc hsplit hkeyed page hstage
    refine ⟨hgrown, ⟨hinv.1, himported'⟩, ?_⟩
    split
    · -- the last page
      rename_i hdone
      have hall : rest.drop i.batchSize = [] := by simpa [page.done] using hdone
      change source.exported K table <+: d'.arrivals i.epochID table
      rw [harrivals, hsplit, page.rows]
      rw [List.drop_eq_nil_iff] at hall
      rw [List.take_of_length_le hall]
    · rename_i hdone
      have hlt : i.batchSize < rest.length := by simpa [page.done] using hdone
      have hlength : batch.rows.length = i.batchSize := by
        rw [page.rows, List.length_take, min_eq_left hlt.le]
      have hne : batch.rows ≠ [] := List.ne_nil_of_length_pos (hlength ▸ page.positive)
      simp only [safe_bind, Program.check_safe]
      rintro -
      have hsplit' : source.exported K table = (front ++ batch.rows) ++ rest.drop i.batchSize := by
        rw [page.rows, List.append_assoc, List.take_append_drop, hsplit]
      have hkeyed' : Keyed (front ++ batch.rows) := fun row hrow =>
        (List.mem_append.1 hrow).elim (hkeyed row) (page.keyed row)
      rw [page.nextKey, ← lastKey_append hne]
      refine (ih hsplit' hkeyed' _).mono fun r w' hr => ?_
      cases r with
      | some checkpoint => exact hr
      | none =>
        have hspent : fuel + (front ++ batch.rows).length ≤ (source.exported K table).length := hr
        rw [List.length_append, hlength] at hspent
        have := page.positive
        change fuel + 1 + front.length ≤ (source.exported K table).length
        omega

theorem manifest_count {s : Source} (htable : table ∈ tables) :
    (s.manifest K).count table = (s.exported K table).length := by
  have hfind : ∀ {l : List String} {f : String → TableEvidence}, table ∈ l → (∀ t, (f t).table = t) →
      (l.map f).find? (fun e => e.table == table) = some (f table) := by
    intro l f hmem hf
    induction l with
    | nil => cases hmem
    | cons t l ih =>
      by_cases ht : t = table
      · simp [ht, hf]
      · simpa [ht, hf] using ih (List.mem_of_ne_of_mem (Ne.symm ht) hmem)
  unfold Manifest.count
  rw [show (s.manifest K).evidence = s.data.evidence K from rfl, SourceData.evidence, hfind htable fun _ => rfl]
  simp [Source.exported]

/-- An importer that returns has brought the whole table over. -/
theorem importTable_safe {i : Import} {fuel : ℕ} (hasc : Ascending (source.exported K table))
    (hfuel : (source.exported K table).length < fuel) (w : World) :
    (importTable i (source.manifest K).toManifest fuel table).Safe (World.answer K)
      (importDiscipline K source (source.exported K table) i.epochID table)
      (fun _ w => source.exported K table <+: w.destination.arrivals i.epochID table) w := by
  simp only [importTable, safe_bind]
  refine importDiscipline_reading _ (fun _ => rfl) fun w checkpoint _ himported hread => ?_
  simp only [mailCutoverCheckpoint, ok_rules] at hread
  obtain ⟨-, ⟨-, htable⟩, -, -, -, -, rfl⟩ := hread
  simp only [Program.check_safe]
  rintro -
  split
  · -- the table was complete before
    rename_i hcomplete
    have hlength := hcomplete.1
    rw [manifest_count htable, himported.count, Nat.cast_inj] at hlength
    rw [pure_eq_done, safe_done, himported.beginning.eq_of_length hlength]
  · obtain ⟨rest, hrest⟩ := himported.beginning
    rw [himported.cursor, safe_bind]
    refine (importPages_safe hasc fuel hrest.symm himported.keyed w).mono fun r w' hr => ?_
    cases r with
    | none =>
      change fuel + _ ≤ _ at hr
      omega
    | some checkpoint =>
      simp only [safe_bind, Program.check_safe]
      exact fun _ => hr

end

/-! ## Runs -/

/-- Importers of one table under one epoch, each started with a page size. -/
def importers (K : Codec) (actorPrincipalID epochID table : String) (prepared : Manifest) (fuel : ℕ) :
    System World Call Call.Reply Err Bool ℕ (Option (Err × Bool)) Empty where
  main batchSize := importTable ⟨actorPrincipalID, epochID, batchSize⟩ prepared fuel table
  act := World.answer K
  env x := x.elim

section

variable {table : String} {fuel : ℕ} (actorPrincipalID epochID : String)

theorem importers_keeps {source : Source} (hasc : Ascending (source.exported K table))
    (hfuel : (source.exported K table).length < fuel) :
    (importers K actorPrincipalID epochID table (source.manifest K).toManifest fuel).Keeps
      (importDiscipline K source (source.exported K table) epochID table)
      (fun _ w => source.exported K table <+: w.destination.arrivals epochID table) where
  refl _ := List.prefix_rfl
  trans := List.IsPrefix.trans
  stable _ _ _ hgrown hall := hall.trans hgrown
  env x := x.elim
  main batchSize w _ := importTable_safe (i := ⟨actorPrincipalID, epochID, batchSize⟩) hasc hfuel w

theorem importers_considers {source : Source} {prepared : Manifest}
    (cues : List (Cue ℕ ℕ (Option (Err × Bool)) Empty)) (σ : Config ℕ World Call Call.Reply Err Bool) :
    (importers K actorPrincipalID epochID table prepared fuel).Meets
      (System.Considers (importDiscipline K source rows epochID table)) σ cues := by
  refine System.meets_of_forall (fun σ cue => ?_) σ cues
  cases cue with
  | start => trivial
  | call => exact fun _ _ _ => trivial
  | stop i => trivial
  | env x => exact x.elim

/-- What holds whenever importers have run on a table. -/
structure ImportHolds (K : Codec) (actorPrincipalID epochID table : String) (fuel : ℕ) (source : Source)
    (σ : Config ℕ World Call Call.Reply Err Bool) : Prop where
  /-- Once an importer has returned, the staged rows are those of the source and the checkpoint counts them. -/
  complete : ∀ i b, σ.thread i = some (.done b) →
    σ.state.destination.staged epochID table = source.exported K table ∧
      (σ.state.destination.checkpoint K epochID table).rowCount = (source.exported K table).length
  /-- Rows were staged in the order of their keys, none of them twice. -/
  ordered : Ascending (σ.state.destination.arrivals epochID table)
  /-- Whatever comes next only adds rows. -/
  grows : ∀ cue, σ.state.destination.arrivals epochID table <+:
    ((importers K actorPrincipalID epochID table (source.manifest K).toManifest fuel).play σ
      cue).state.destination.arrivals epochID table

variable {actorPrincipalID epochID} in
theorem staged_of_ascending {d : Destination} (h : Ascending (d.arrivals epochID table)) :
    d.staged epochID table = d.arrivals epochID table :=
  List.Pairwise.insertionSort_eq (h.imp fun hlt => hlt.le)

/-- **An import loses and duplicates nothing**: whatever the page sizes, wherever importers are stopped and
whichever calls fail. -/
theorem import_exact (table : String) (fuel : ℕ) (w : World) (hasc : Ascending (w.source.exported K table))
    (hstaged : w.destination.arrivals epochID table = [])
    (hcheckpoint : w.destination.checkpoints.find? (epochID, table) = none)
    (hfuel : (w.source.exported K table).length < fuel)
    (cues : List (Cue ℕ ℕ (Option (Err × Bool)) Empty)) :
    ImportHolds K actorPrincipalID epochID table fuel w.source
      ((importers K actorPrincipalID epochID table (w.source.manifest K).toManifest fuel).run w cues) := by
  have keeps := importers_keeps actorPrincipalID epochID hasc hfuel
  have hstart : Imported K (w.source.exported K table) epochID table w.destination :=
    ⟨by simp [hstaged], by simp [hstaged, Keyed],
      by simp [hstaged, Destination.checkpoint, hcheckpoint, MailCutoverCheckpoint.none],
      by simp [hstaged, Destination.checkpoint, hcheckpoint, MailCutoverCheckpoint.none, lastKey]⟩
  have good := System.safe (ι := ℕ) keeps (.inr fun _ _ => id) ⟨rfl, hstart⟩ 
    (importers_considers actorPrincipalID epochID cues _)
  obtain ⟨hsource, himported⟩ := good.inv
  have hordered := hasc.sublist himported.beginning.sublist
  refine ⟨fun i b hthread => ?_, hordered, fun cue => ?_⟩
  · have hall := himported.beginning.eq_of_length_le (good.ended hthread).length_le
    exact ⟨(staged_of_ascending hordered).trans hall, by rw [himported.count, hall]⟩
  · cases cue with
    | start =>
      unfold System.play
      dsimp only
      split <;> exact List.prefix_rfl
    | call =>
      unfold System.play
      dsimp only
      split
      · rename_i c k hthread
        exact good.guar keeps hthread trivial
      · exact List.prefix_rfl
    | stop i => exact List.prefix_rfl
    | env x => exact x.elim

end

/-- What a program has returned. -/
def returned : Option (Program Bool) → Option Bool
  | some (.done b) => some b
  | _ => none

theorem of_returned {p : Option (Program Bool)} {b : Bool} (h : returned p = some b) : p = some (.done b) := by
  unfold returned at h
  split at h
  · cases h; rfl
  · cases h

/-- Texts stand for their own digests. -/
def plainCodec : Codec where
  endpoint r := r.endpoint
  roleBinding r := r.role
  delivery r := r.id
  sha256 text := text
  tableSHA256 payloads := ",".intercalate payloads
  fingerprint _ sourceID evidence := ",".intercalate (sourceID :: evidence.map TableEvidence.sha256)
  manifestSHA256 manifest := manifest.fingerprint
  manifestSize _ := 0
  uuidValid _ := true
  digestValid _ := true
  payloadValid _ _ := true

/-- A source with three conversations, prepared for an epoch that has just begun. -/
def threeConversations : World where
  source :=
    let data : SourceData := ⟨8, [], [], [], [("mail_conversations", [⟨["a"], "1"⟩, ⟨["b"], "2"⟩, ⟨["c"], "3"⟩])]⟩
    let fingerprint := plainCodec.fingerprint 8 "s" (data.evidence plainCodec)
    ⟨⟨"s", .prepared, "e", "t", some fingerprint, "e", "t", "f", fingerprint, 1, some .prepared⟩, data⟩
  destination := ⟨"t", "owner", true, 0, [], Table.empty.put "e"
    ⟨⟨"e", "s", "t", "f", ⟨8, "s", .prepared, "e", "t", [], "f"⟩, "f"⟩, .importing⟩, .empty, .empty⟩

/-- The first importer dies on a page of two rows that was staged; the second one goes on with single rows. -/
def interruptedImport : List (Cue ℕ ℕ (Option (Err × Bool)) Empty) :=
  [.start 0 2, .call 0 none, .call 0 none, .call 0 (some (.noRows, true)),
    .start 1 1, .call 1 none, .call 1 none, .call 1 none]

theorem import_exact_interruptedImport :
    ((importers plainCodec "owner" "e" "mail_conversations"
      (threeConversations.source.manifest plainCodec).toManifest 4).run threeConversations
        interruptedImport).state.destination.staged "e" "mail_conversations" =
      [⟨"mail_conversations", "a", "1", "1"⟩, ⟨"mail_conversations", "b", "2", "2"⟩,
        ⟨"mail_conversations", "c", "3", "3"⟩] := by
  have hholds := import_exact (K := plainCodec) "owner" "e" "mail_conversations" 4 threeConversations
    (by decide +kernel) (by decide +kernel) (by decide +kernel) (by decide +kernel) interruptedImport
  have hreturned : returned (((importers plainCodec "owner" "e" "mail_conversations"
      (threeConversations.source.manifest plainCodec).toManifest 4).run threeConversations
        interruptedImport).thread 1) = some true := by decide +kernel
  have hrows : threeConversations.source.exported plainCodec "mail_conversations" =
      [⟨"mail_conversations", "a", "1", "1"⟩, ⟨"mail_conversations", "b", "2", "2"⟩,
        ⟨"mail_conversations", "c", "3", "3"⟩] := by decide +kernel
  rw [(hholds.complete 1 true (of_returned hreturned)).1, hrows]

end Punaro.Cutover
