import Punaro.Fleet.Publish

/-!
# Rotating the directories of an apply root

`PublishTree` and `RestoreLastGood` may be stopped at any call. As long as `RemoveAll`
removes whole directories, `current`, `last-good` and `last-good.next` hold complete file
sets at every instant, so that the next call that returns finds and leaves complete ones.
-/

namespace Punaro.Fleet

open Prog

/-- A call of either operation on an apply root. -/
inductive RootOp where
  | publish (files : Table Rel Bytes) (digest : String)
  | restore

def RootOp.program (sha256 : Bytes → String) (root : Path) : RootOp → Program Unit
  | .publish files digest => publishTree sha256 root files digest
  | .restore => restoreLastGood root

def Call.removesSlot : Call → Bool
  | .removeSlot .. => true
  | _ => false

/-- `RemoveAll` removes the whole directory. -/
def removesWhole (o : Fault) (_ : World) (c : Call) : Prop := c.removesSlot → o.failure = none

instance (o : Fault) (w : World) (c : Call) : Decidable (removesWhole o w c) :=
  inferInstanceAs (Decidable (c.removesSlot → o.failure = none))

/-- The same files with the same contents. -/
def SameFiles (files files' : Table Rel Bytes) : Prop := ∀ rel, files.find? rel = files'.find? rel

/-- A directory with a complete file set out of `p`. -/
def Complete (p : Table Rel Bytes → Prop) (entry : Entry) : Prop :=
  ∃ files earlier, entry = .tree files ∧ p earlier ∧ SameFiles files earlier

/-- What is at the place of each directory, apart from the staging one, is as `P` says. -/
def SwapOK (P : Slot → Entry → Prop) (r : Root) : Prop :=
  ∀ slot, slot ≠ .staging → ∀ entry, r.slots slot = some entry → P slot entry

variable {P P' : Slot → Entry → Prop} {root : Path} {w w' : World} {o : Fault} {c : Call}
  {files : Table Rel Bytes} {sha256 : Bytes → String}

theorem SwapOK.mono {r : Root} (h : SwapOK P r) (hP : ∀ slot entry, P slot entry → P' slot entry) : SwapOK P' r :=
  fun slot hslot entry hentry => hP slot entry (h slot hslot entry hentry)

/-- The calls that move no files out of the staging directory. -/
def rotates (P : Slot → Entry → Prop) (root : Path) : Call → Prop
  | .removeSlot r slot => r = root ∧ slot ≠ .staging
  | .renameSlot r slot slot' => r = root ∧ slot ≠ .staging ∧ slot' ≠ .staging ∧ ∀ entry, P slot entry → P slot' entry
  | c => ∀ slot, ¬c.touchesSlot root slot

theorem rotates_reads (h : c.reads) : rotates P root c := by
  cases c <;> first | exact absurd h Bool.false_ne_true | exact fun _ => id

theorem Root.set_slots (r : Root) (slot slot' : Slot) (entry : Option Entry) :
    (r.set slot entry).slots slot' = if slot' = slot then entry else r.slots slot' := by
  unfold Root.set
  exact Function.update_apply ..

/-- A directory that is removed or moved leaves the others as they are. -/
theorem SwapOK.perform {a : c.Result} (h : SwapOK P (w.roots root)) (hc : rotates P root c)
    (hperform : w.perform c = .ok (w', a)) : SwapOK P (w'.roots root) := by
  intro slot hslot entry hentry
  cases c with
  | removeSlot =>
    obtain ⟨rfl, -⟩ := hc
    cases hperform
    rw [World.setRoot_roots, Function.update_self, Root.set_slots] at hentry
    split at hentry
    · cases hentry
    · exact h slot hslot entry hentry
  | renameSlot r source target =>
    obtain ⟨rfl, hsource, -, hP⟩ := hc
    obtain ⟨moved, hmoved, -, rfl⟩ := World.perform_renameSlot hperform
    rw [World.setRoot_roots, Function.update_self, Root.set_slots, Root.set_slots] at hentry
    split at hentry
    · rename_i htarget
      cases hentry
      exact htarget ▸ hP _ (h source hsource _ hmoved)
    · split at hentry
      · cases hentry
      · exact h slot hslot entry hentry
  | _ =>
    rw [(World.perform_frame hperform).slots root slot (hc slot)] at hentry
    exact h slot hslot entry hentry

theorem SwapOK.rotate (h : SwapOK P (w.roots root)) (hc : rotates P root c) (ho : removesWhole o w c) :
    SwapOK P ((w.answer o c).1.roots root) := by
  unfold World.answer
  split
  · split
    · rename_i hperform
      exact h.perform hc hperform
    · exact h
  · exact h
  · rename_i hfailure
    cases c with
    | removeSlot => cases hfailure.symm.trans (ho rfl)
    | renameSlot =>
      simp only [World.broken]
      split
      · rename_i hperform
        exact h.perform hc hperform
      · exact h
    | _ =>
      intro slot hslot entry hentry
      rw [(World.broken_frame (w := w) (o := o)).slots root slot (hc slot)] at hentry
      exact h slot hslot entry hentry

/-- So does what only changes the staging directory. -/
theorem SwapOK.staging (h : SwapOK P (w.roots root)) (hc : ∀ slot, c.touchesSlot root slot → slot = .staging) :
    SwapOK P ((w.answer o c).1.roots root) := by
  intro slot hslot entry hentry
  rw [(World.answer_frame o w c).slots root slot fun htouches => hslot (hc slot htouches)] at hentry
  exact h slot hslot entry hentry

local instance : LawfulBEq Rel := inferInstance

/-- The staging directory holds the files that are not among the remaining ones. -/
def StagedBut (root : Path) (files : Table Rel Bytes) (rest : List (Rel × Bytes)) (w : World) : Prop :=
  ∃ staged, (w.roots root).slots .staging = some (.tree staged) ∧
    ∀ rel, staged.find? rel = if rel ∈ rest.map Prod.fst then none else files.find? rel

theorem writeStaged_staged {rest : List (Rel × Bytes)} {file : Rel × Bytes} {a : Unit}
    (hrows : ∃ written, files.rows = written ++ file :: rest) (h : StagedBut root files (file :: rest) w)
    (hperform : w.perform (.writeStaged root file.1 file.2) = .ok (w', a)) : StagedBut root files rest w' := by
  obtain ⟨staged, hstaged, hfind⟩ := h
  obtain ⟨written, hrows⟩ := hrows
  have hnew : file.1 ∉ rest.map Prod.fst := by
    have hnodup := files.nodup
    rw [hrows, List.map_append, List.map_cons, List.nodup_append] at hnodup
    exact (List.nodup_cons.1 hnodup.2.1).1
  have hmem : files.find? file.1 = some file.2 := by
    rw [Table.find?_eq_some_iff_mem, hrows]
    simp
  simp only [World.perform, hstaged] at hperform
  split at hperform
  · cases hperform
  · cases hperform
    refine ⟨staged.put file.1 file.2, by simp [Root.set_slots], fun rel => ?_⟩
    rw [Table.find?_put]
    split
    · rename_i hrel
      rw [hrel, if_neg hnew, hmem]
    · rename_i hrel
      have hrest : rel ∈ List.map Prod.fst (file :: rest) ↔ rel ∈ List.map Prod.fst rest := by simp [hrel]
      simp only [hfind, hrest]

theorem stageFiles_ensures (h : SwapOK P (w.roots root)) :
    (stageFiles root files).Ensures World.answer removesWhole (fun w => SwapOK P (w.roots root))
      (fun r w => SwapOK P (w.roots root) ∧ (r = .ok () → StagedBut root files [] w)) w := by
  unfold stageFiles
  rw [ensures_bind]
  refine Call.ensures_ignored fun o ho => ?_
  have hok : SwapOK P ((w.answer o (.removeSlot root .staging)).1.roots root) :=
    h.staging fun slot hslot => hslot.2.symm
  refine ⟨hok, ?_⟩
  -- the directory is gone, since `RemoveAll` has removed the whole of it
  have hgone : ((w.answer o (.removeSlot root .staging)).1.roots root).slots .staging = none := by
    simp [World.answer, ho rfl, World.perform, Root.set_slots]
  change Ensures World.answer _ _ _ _ (w.answer o (.removeSlot root .staging)).1
  generalize (w.answer o (.removeSlot root .staging)).1 = w₁ at hok hgone
  rw [ensures_bind]
  refine Call.ensures_orElse (fun o _ => hok.staging fun slot hslot => hslot.2.symm) (fun w₂ a hperform hok₂ => ?_)
    fun o e _ hok₂ => ⟨hok₂, by simp⟩
  have hempty : StagedBut root files files.rows w₂ := by
    simp only [World.perform, hgone] at hperform
    cases hperform
    refine ⟨.empty, by simp [Root.set_slots], fun rel => ?_⟩
    rw [Table.find?_empty]
    split
    · rfl
    · rename_i hrel
      exact (Table.find?_eq_none_iff.2 hrel).symm
  -- one file after the other
  refine (ensures_forM (fun rest w => SwapOK P (w.roots root) ∧ (∃ written, files.rows = written ++ rest) ∧
    StagedBut root files rest w) (E := fun _ w => SwapOK P (w.roots root)) ?_
    ⟨hok₂, ⟨[], rfl⟩, hempty⟩).mono ?_
  · rintro file rest w₃ ⟨hok₃, hrows, hstaged⟩
    refine Call.ensures_orElse (fun o _ => hok₃.staging fun slot hslot => hslot.2.symm)
      (fun w₄ a hperform hok₄ => ⟨hok₄, ?_, writeStaged_staged hrows hstaged hperform⟩) fun o e _ hok₄ => hok₄
    obtain ⟨written, hrows⟩ := hrows
    exact ⟨written ++ [file], by simp [hrows]⟩
  · rintro (e | u) w₃ h₃
    · exact ⟨h₃, by simp⟩
    · exact ⟨h₃.1, fun _ => h₃.2.2⟩

/-! ## The swap -/

/-- The same condition on every directory. -/
abbrev everywhere (p : Entry → Prop) : Slot → Entry → Prop := fun _ => p

variable {p p' : Entry → Prop}

theorem recoverPublishSwap_makes : (recoverPublishSwap root).Makes (rotates (everywhere p) root) := by
  unfold recoverPublishSwap
  refine (makes_perform (rotates_reads rfl)).bind fun live => (makes_perform (rotates_reads rfl)).bind fun next => ?_
  split
  · trivial
  split
  · trivial
  split
  · exact Call.makes_orElse ⟨rfl, nofun, nofun, fun _ => id⟩
  split
  · exact (Call.makes_ignored ⟨rfl, nofun⟩).bind fun _ => Call.makes_orElse ⟨rfl, nofun, nofun, fun _ => id⟩
  · trivial

theorem setAside_makes : (setAside root).Makes (rotates (everywhere p) root) := by
  unfold setAside
  refine (makes_perform (rotates_reads rfl)).bind fun live => ?_
  split
  · split
    · exact Call.makes_orElse ⟨rfl, nofun, nofun, fun _ => id⟩
    · trivial
  · trivial

/-- Calls that rotate leave the staging directory alone. -/
theorem rotates_staging (hc : rotates P root c) : ¬c.touchesSlot root .staging := by
  cases c with
  | removeSlot => exact fun h => hc.2 h.2
  | renameSlot => exact fun h => h.2.elim hc.2.1 hc.2.2.1
  | _ => exact hc .staging

theorem rotate_ensures {α : Type} {q : Program α} (hq : q.Makes (rotates P root)) (h : SwapOK P (w.roots root)) :
    q.Retains World.answer removesWhole (fun w => SwapOK P (w.roots root)) w :=
  hq.ensures (fun _ _ _ ho hc hok => ⟨hok.rotate hc ho, hok.rotate hc ho⟩) h

theorem rotate_ensures_staged {α : Type} {q : Program α} (hq : q.Makes (rotates P root)) (h : SwapOK P (w.roots root))
    (hstaged : StagedBut root files [] w) :
    q.Ensures World.answer removesWhole (fun w => SwapOK P (w.roots root))
      (fun _ w => SwapOK P (w.roots root) ∧ StagedBut root files [] w) w := by
  refine hq.ensures (J := fun w => SwapOK P (w.roots root) ∧ StagedBut root files [] w) ?_ ⟨h, hstaged⟩
  rintro o c w ho hc ⟨hok, staged, hstaging, hfind⟩
  have hok' := hok.rotate hc ho
  refine ⟨hok', hok', staged, ?_, hfind⟩
  rw [(World.answer_frame o w c).slots root .staging (rotates_staging hc), hstaging]

/-- After the swap the staged files are current; the other directories are as before. -/
def afterSwap (p : Entry → Prop) (files : Table Rel Bytes) : Slot → Entry → Prop
  | .current => Complete (· = files)
  | _ => p

theorem afterSwap_mono (hp : ∀ entry, p entry → p' entry) (hfiles : ∀ entry, Complete (· = files) entry → p' entry)
    (slot : Slot) (entry : Entry) (h : afterSwap p files slot entry) : p' entry := by
  cases slot with
  | current => exact hfiles _ h
  | _ => exact hp _ h

theorem swapIn_renamed {a : Unit} (h : SwapOK (everywhere p) (w.roots root)) (hstaged : StagedBut root files [] w)
    (hperform : w.perform (.renameSlot root .staging .current) = .ok (w', a)) :
    SwapOK (afterSwap p files) (w'.roots root) ∧ (w'.roots root).slots .current ≠ none := by
  obtain ⟨staged, hstaging, hfind⟩ := hstaged
  obtain ⟨entry, hentry, -, rfl⟩ := World.perform_renameSlot hperform
  rw [hstaging] at hentry
  cases hentry
  rw [World.setRoot_roots, Function.update_self]
  refine ⟨fun slot hslot entry hentry => ?_, by simp [Root.set_slots]⟩
  rw [Root.set_slots, Root.set_slots] at hentry
  split at hentry
  · rename_i hcurrent
    subst hcurrent
    cases hentry
    exact ⟨staged, files, rfl, rfl, fun rel => by simpa using hfind rel⟩
  · rename_i hcurrent
    have hp := h slot hslot entry hentry
    cases slot with
    | current => exact absurd rfl hcurrent
    | _ => exact hp

/-- Whatever the answer to the swap. -/
theorem swapIn_answer (h : SwapOK (everywhere p) (w.roots root)) (hstaged : StagedBut root files [] w)
    (hmono : ∀ slot entry, afterSwap p files slot entry → p' entry) :
    SwapOK (everywhere p') ((w.answer o (.renameSlot root .staging .current)).1.roots root) := by
  have hbefore : SwapOK (everywhere p') (w.roots root) := h.mono fun _ => hmono .staging
  have hafter : ∀ w' a, w.perform (.renameSlot root .staging .current) = .ok (w', a) →
      SwapOK (everywhere p') (w'.roots root) := fun w' a hperform =>
    (swapIn_renamed h hstaged hperform).1.mono hmono
  unfold World.answer
  split
  · split
    · exact hafter _ _ ‹_›
    · exact hbefore
  · exact hbefore
  · simp only [World.broken]
    split
    · exact hafter _ _ ‹_›
    · exact hbefore

theorem putBack_makes : (putBack root).Makes (rotates (everywhere p) root) := by
  unfold putBack
  refine (makes_perform (rotates_reads rfl)).bind fun next => ?_
  split
  · exact Call.makes_ignored ⟨rfl, nofun, nofun, fun _ => id⟩
  · trivial

theorem keepAside_makes :
    (keepAside root).Makes fun c => rotates (afterSwap p files) root c ∧ ¬c.touchesSlot root .current := by
  unfold keepAside
  refine (makes_perform ⟨rotates_reads rfl, id⟩).bind fun next => ?_
  split
  · refine (Call.makes_ignored ⟨⟨rfl, nofun⟩, nofun⟩).bind fun _ => Call.makes_ignored ⟨⟨rfl, nofun, nofun, ?_⟩, ?_⟩
    · exact fun _ => id
    · rintro ⟨-, h | h⟩ <;> cases h
  · trivial

/-- Once the staged files are current, the rest of the swap only moves what was set aside. -/
theorem keepAside_ensures (h : SwapOK (afterSwap p files) (w.roots root))
    (hcurrent : (w.roots root).slots .current ≠ none) (hmono : ∀ slot entry, afterSwap p files slot entry → p' entry) :
    (keepAside root).Ensures World.answer removesWhole (fun w => SwapOK (everywhere p') (w.roots root))
      (fun _ w => SwapOK (afterSwap p files) (w.roots root) ∧ (w.roots root).slots .current ≠ none) w := by
  have hmakes : (keepAside root).Makes fun c => rotates (afterSwap p files) root c ∧ ¬c.touchesSlot root .current :=
    keepAside_makes
  refine hmakes.ensures (J := fun w : World => SwapOK (afterSwap p files) (w.roots root) ∧
    (w.roots root).slots .current ≠ none) ?_ ⟨h, hcurrent⟩
  rintro o c w ho ⟨hc, hkeep⟩ ⟨hok, hthere⟩
  have hok' := hok.rotate hc ho
  refine ⟨hok'.mono hmono, hok', ?_⟩
  rwa [(World.answer_frame o w c).slots root .current hkeep]

theorem swapIn_ensures (h : SwapOK (everywhere p) (w.roots root)) (hstaged : StagedBut root files [] w)
    (hmono : ∀ slot entry, afterSwap p files slot entry → p' entry) :
    (swapIn root).Ensures World.answer removesWhole (fun w => SwapOK (everywhere p') (w.roots root))
      (fun r w => SwapOK (everywhere p') (w.roots root) ∧ (r = .ok () →
        SwapOK (afterSwap p files) (w.roots root) ∧ (w.roots root).slots .current ≠ none)) w := by
  intro o ho
  have hok := swapIn_answer (o := o) h hstaged hmono
  refine ⟨hok, ?_⟩
  cases hanswer : (w.answer o (.renameSlot root .staging .current)).2 with
  | ok a =>
    obtain ⟨hswapped, hcurrent⟩ := swapIn_renamed h hstaged (World.answer_ok hanswer)
    exact (keepAside_ensures hswapped hcurrent hmono).mono fun r w hw => ⟨hw.1.mono hmono, fun _ => hw⟩
  | failed e took =>
    change (putBack root >>= fun _ => failWith applyFailed).Ensures _ _ _ _ _
    rw [ensures_bind]
    refine (rotate_ensures putBack_makes hok).mono ?_
    rintro (e | u) w hw
    · exact ⟨hw, nofun⟩
    · exact ⟨hw, nofun⟩

theorem publishTree_ensures {digest : String} (h : SwapOK (everywhere p) (w.roots root))
    (hp : ∀ entry, p entry → p' entry)
    (hfiles : ∀ entry, Complete (· = files) entry → p' entry) :
    (publishTree sha256 root files digest).Ensures World.answer removesWhole
      (fun w => SwapOK (everywhere p') (w.roots root))
      (fun r w => SwapOK (everywhere p') (w.roots root) ∧ (r = .ok () →
        SwapOK (afterSwap p files) (w.roots root) ∧ (w.roots root).slots .current ≠ none)) w := by
  have hmono : ∀ w : World, SwapOK (everywhere p) (w.roots root) → SwapOK (everywhere p') (w.roots root) :=
    fun w h => h.mono fun _ => hp
  unfold publishTree
  split
  · exact ⟨hmono w h, nofun⟩
  rw [ensures_bind]
  refine Call.ensures_orElse (fun o ho => hmono _ (h.rotate (rotates_reads rfl) ho)) (fun w₁ a hperform _ => ?_)
    fun o e _ hok => ⟨hok, nofun⟩
  cases hperform
  dsimp only
  rw [ensures_bind]
  refine ((stageFiles_ensures h).weaken hmono).mono ?_
  rintro (e | u) w₁ ⟨h₁, hstaged₁⟩
  · exact ⟨hmono _ h₁, nofun⟩
  dsimp only
  rw [ensures_bind]
  refine ((rotate_ensures_staged recoverPublishSwap_makes h₁ (hstaged₁ rfl)).weaken hmono).mono ?_
  rintro (e | u) w₂ ⟨h₂, hstaged₂⟩
  · exact ⟨hmono _ h₂, nofun⟩
  dsimp only
  rw [ensures_bind]
  refine ((rotate_ensures_staged setAside_makes h₂ hstaged₂).weaken hmono).mono ?_
  rintro (e | u) w₃ ⟨h₃, hstaged₃⟩
  · exact ⟨hmono _ h₃, nofun⟩
  dsimp only
  rw [ensures_bind]
  refine (swapIn_ensures h₃ hstaged₃ (afterSwap_mono hp hfiles)).mono ?_
  rintro (e | u) w₄ ⟨h₄, hswapped⟩
  · exact ⟨h₄, nofun⟩
  -- the record does not touch the directories
  have hrecord : ∀ {P : Slot → Entry → Prop} {state : ApplyState}, rotates P root (.writeState root state) :=
    fun _ => id
  refine Call.ensures_orElse (fun o ho => h₄.rotate hrecord ho) (fun w₅ a hperform hok => ⟨hok, fun _ => ?_⟩)
    fun o e _ hok => ⟨hok, nofun⟩
  obtain ⟨hafter, hcurrent⟩ := hswapped rfl
  refine ⟨hafter.perform hrecord hperform, ?_⟩
  rwa [(World.perform_frame hperform).slots root .current id]

theorem restoreLastGood_ensures (h : SwapOK (everywhere p) (w.roots root)) :
    (restoreLastGood root).Ensures World.answer removesWhole (fun w => SwapOK (everywhere p) (w.roots root))
      (fun r w => SwapOK (everywhere p) (w.roots root) ∧ (r = .ok () → (w.roots root).slots .current ≠ none)) w := by
  unfold restoreLastGood
  rw [ensures_bind]
  refine Call.ensures_orElse (fun o ho => h.rotate (rotates_reads rfl) ho) (fun w₁ a hperform _ => ?_)
    fun o e _ hok => ⟨hok, nofun⟩
  cases hperform
  dsimp only
  rw [ensures_perform_bind]
  intro o₁ ho₁
  have h₁ := h.rotate (c := .lstatSlot root .lastGood) (rotates_reads rfl) ho₁
  refine ⟨h₁, ?_⟩
  split
  · rw [ensures_bind]
    refine Call.ensures_ignored fun o₂ ho₂ => ?_
    have h₂ := h₁.rotate (c := .removeSlot root .current) ⟨rfl, nofun⟩ ho₂
    refine ⟨h₂, Call.ensures_orElse (fun o ho => h₂.rotate ⟨rfl, nofun, nofun, fun _ => id⟩ ho)
      (fun w₃ a hperform hok => ⟨hok, fun _ => ?_⟩) fun o e _ hok => ⟨hok, nofun⟩⟩
    obtain ⟨entry, -, -, rfl⟩ := World.perform_renameSlot hperform
    simp [Root.set_slots]
  · exact ⟨h₁, nofun⟩

/-! ## Whole runs -/

/-- The file sets of the publishing calls of a history. -/
def publishedSets (runs : List (RootOp × List Fault)) : List (Table Rel Bytes) :=
  runs.filterMap fun run => match run.1 with
    | .publish files _ => some files
    | .restore => none

theorem SwapOK.fresh : SwapOK P .fresh := nofun

/-- After any history of calls, each of them complete or stopped somewhere, no directory is torn. -/
theorem history_swapOK {runs : List (RootOp × List Fault)} (hfresh : w.roots root = .fresh)
    (h : HistoryAdmits World.answer removesWhole (RootOp.program sha256 root) runs w) :
    SwapOK (everywhere (Complete (· ∈ publishedSets runs)))
      ((history World.answer (RootOp.program sha256 root) runs w).roots root) := by
  refine history_inv (I := fun w => SwapOK (everywhere (Complete (· ∈ publishedSets runs))) (w.roots root)) ?_
    (by rw [hfresh]; exact .fresh) h
  rintro ⟨op, os⟩ hrun s hs
  cases op with
  | publish files digest =>
    have hmem : files ∈ publishedSets runs := List.mem_filterMap.2 ⟨_, hrun, rfl⟩
    refine (publishTree_ensures hs (fun _ => id) ?_).mono fun _ _ hw => hw.1
    rintro entry ⟨stored, _, rfl, rfl, hsame⟩
    exact ⟨stored, _, rfl, hmem, hsame⟩
  | restore => exact (restoreLastGood_ensures hs).mono fun _ _ hw => hw.1

/-- The directory is there, with a complete file set out of `p`. -/
def Holds (p : Table Rel Bytes → Prop) (entry : Option Entry) : Prop := ∃ e, entry = some e ∧ Complete p e

/-- What a successful call is to leave behind, given the file sets published before: its own file set, or a
complete earlier one. -/
def RootOp.Leaves (earlier : List (Table Rel Bytes)) (r : Root) : RootOp → Prop
  | .publish files _ => Holds (· = files) (r.slots .current) ∧
    (r.slots .lastGood ≠ none → Holds (· ∈ earlier) (r.slots .lastGood))
  | .restore => Holds (· ∈ earlier) (r.slots .current)

theorem SwapOK.holds {q : Table Rel Bytes → Prop} {slot : Slot} {r : Root} (h : SwapOK P r) (hslot : slot ≠ .staging)
    (hP : ∀ entry, P slot entry → Complete q entry) (hne : r.slots slot ≠ none) : Holds q (r.slots slot) := by
  obtain ⟨entry, hentry⟩ := Option.ne_none_iff_exists'.1 hne
  exact ⟨entry, hentry, hP _ (h slot hslot entry hentry)⟩

/-- **Publishing recovers.** After any history of publishing and restoring, each call complete or stopped at any of
its steps, a publishing call that succeeds leaves its file set current and a complete earlier one as the last known
good, and a restoring call that succeeds leaves a complete earlier one current; as long as `RemoveAll` removes
whole directories. -/
theorem publish_recovers {runs : List (RootOp × List Fault)} {op : RootOp} {os : List Fault} {w' : World}
    (hfresh : w.roots root = .fresh)
    (hruns : HistoryAdmits World.answer removesWhole (RootOp.program sha256 root) (runs ++ [(op, os)]) w)
    (hplay : (op.program sha256 root).play World.answer os
      (history World.answer (RootOp.program sha256 root) runs w) = (w', some (.ok ()))) :
    op.Leaves (publishedSets runs) (w'.roots root) := by
  obtain ⟨hbefore, hadmits⟩ := historyAdmits_concat.1 hruns
  have hok := history_swapOK hfresh hbefore
  cases op with
  | publish files digest =>
    have hearlier : ∀ entry, Complete (· ∈ publishedSets runs) entry →
        Complete (· ∈ publishedSets runs) entry ∨ Complete (· = files) entry := fun _ => .inl
    have hend := (publishTree_ensures hok hearlier fun _ => .inr).ended hadmits (hok.mono fun _ => hearlier) hplay
    obtain ⟨hafter, hcurrent⟩ := hend.2 rfl
    exact ⟨hafter.holds nofun (fun _ => id) hcurrent, hafter.holds nofun fun _ => id⟩
  | restore =>
    have hend := (restoreLastGood_ensures hok).ended hadmits hok hplay
    exact hend.1.holds nofun (fun _ => id) (hend.2 rfl)

/-! ## Three file sets -/

/-- One AGENTS.md. -/
def oneFile (text : String) : Table Rel Bytes := Table.empty.put ["AGENTS.md"] (ascii text)

/-- An AGENTS.md and a skill. -/
def twoFiles (text : String) : Table Rel Bytes := (oneFile text).put ["skills", "go", "SKILL.md"] (ascii text)

/-- The answers to a call that runs to its end without a fault. -/
def noFaults : List Fault := List.replicate 20 {}

def emptyWorld : World := ⟨fun _ => none, fun _ => .fresh, fun _ => []⟩

/-- A publishing call that is stopped between its two renames. -/
def stoppedSwap : List (RootOp × List Fault) :=
  [(.publish (oneFile "one") "1", noFaults), (.publish (twoFiles "two") "2", noFaults.take 9)]

/-- The next publishing call finishes the swap. -/
theorem publish_recovers_stoppedSwap :
    (RootOp.publish (oneFile "three") "3").Leaves [oneFile "one", twoFiles "two"]
      (((publishTree (fun _ => "") ["r"] (oneFile "three") "3").play World.answer noFaults
        (history World.answer (RootOp.program (fun _ => "") ["r"]) stoppedSwap emptyWorld)).1.roots ["r"]) := by
  refine @publish_recovers ["r"] emptyWorld (fun _ => "") stoppedSwap _ noFaults _ rfl ?_ (Prod.ext rfl ?_)
  · decide +kernel
  · decide +kernel

/-- Two publishing calls, then a restoring call that is stopped while it removes the current directory: AGENTS.md
is gone, the skill is still there. -/
def tornRemoval : List (RootOp × List Fault) :=
  [(.publish (oneFile "one") "1", noFaults), (.publish (twoFiles "two") "2", noFaults),
    (.restore, [{}, {}, { failure := some true, removed := fun rel => rel == ["AGENTS.md"] }])]

/-- AGENTS.md is missing and the skill is there. -/
def torn : Option Entry → Bool
  | some (.tree files) => (files.find? ["AGENTS.md"]).isNone && (files.find? ["skills", "go", "SKILL.md"]).isSome
  | _ => false

theorem torn_not_holds {entry : Option Entry} (h : torn entry) : ¬Holds (· ∈ publishedSets tornRemoval) entry := by
  rintro ⟨_, rfl, files, earlier, rfl, hearlier, hsame⟩
  simp only [torn, Bool.and_eq_true] at h
  rw [hsame ["AGENTS.md"], hsame ["skills", "go", "SKILL.md"]] at h
  have hsets : earlier = oneFile "one" ∨ earlier = twoFiles "two" := by simpa [publishedSets, tornRemoval] using hearlier
  rcases hsets with rfl | rfl
  · exact absurd h.2 (by decide +kernel)
  · exact absurd h.1 (by decide +kernel)

/-- The world after the next publishing call. -/
def afterTorn : World × Option (Except Err Unit) :=
  (publishTree (fun _ => "") ["r"] (oneFile "three") "3").play World.answer noFaults
    (history World.answer (RootOp.program (fun _ => "") ["r"]) tornRemoval emptyWorld)

/-- What is left of the current directory becomes the last known good one. -/
theorem publish_keeps_torn :
    afterTorn.2 = some (.ok ()) ∧
      ¬(RootOp.publish (oneFile "three") "3").Leaves (publishedSets tornRemoval) (afterTorn.1.roots ["r"]) := by
  have htorn : torn ((afterTorn.1.roots ["r"]).slots .lastGood) = true := by decide +kernel
  refine ⟨by decide +kernel, fun hleaves => ?_⟩
  refine torn_not_holds htorn (hleaves.2 fun hnone => ?_)
  rw [hnone] at htorn
  cases htorn

end Punaro.Fleet
