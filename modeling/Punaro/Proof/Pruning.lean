import Punaro.Proof.Writing

/-!
# Removing what is no longer published

What the pruning passes of `ApplyLive` remove: the directory of a skill only if it is
marked, a file only if it is in such a directory or carries the mark itself. The
candidates are the destinations of the last snapshot and, at the former paths of moved
projects, those that are published now.
-/

namespace Punaro.Fleet

open Prog

/-! ## Apply roots -/

/-- The call leaves the live files alone. -/
def Call.OffDisk (c : Call) : Prop := ∀ path, ¬c.touches path

section

variable {A : Fault → World → Call → Prop} {w w' : World} {o : Fault} {c : Call} {root home : Path} {rel : Rel}
  {files staged : Table Rel Bytes} {present : Table String Path} {sha256 : Bytes → String} {digest : String}

theorem Call.offDisk_of_reads (h : c.reads) : c.OffDisk := fun _ => Call.not_touches_of_reads h

theorem Call.OffDisk.disk (h : c.OffDisk) : (w.answer o c).1.disk = w.disk :=
  funext fun path => (World.answer_frame o w c).disk path (h path)

theorem Call.offDisk_of_publishes (h : c.publishes root files) : c.OffDisk := by
  cases c <;> first | exact fun _ => id | exact h.elim

theorem publishTree_offDisk : (publishTree sha256 root files digest).Makes Call.OffDisk :=
  publishTree_makes.mono fun _ => Call.offDisk_of_publishes

theorem persistDestProjectPaths_offDisk : (persistDestProjectPaths root present).Makes Call.OffDisk :=
  Call.makes_orElse_bind (fun _ => id) fun _ => Call.makes_orElse fun _ => id

/-- Programs that leave the live files alone. -/
theorem offDisk_ensures {α : Type} {q : Program α} (hq : q.Makes Call.OffDisk) :
    q.Retains World.answer A (fun w' => w'.disk = w.disk) w :=
  hq.ensures (J := fun w' : World => w'.disk = w.disk) (fun _ _ _ _ hc h => ⟨hc.disk.trans h, hc.disk.trans h⟩) rfl

/-! ## What is removed -/

/-- The file carries the mark. -/
def Marked (node : Option Node) : Prop := isManagedContent (contents node)

instance (node : Option Node) : Decidable (Marked node) := inferInstanceAs (Decidable (_ = true))

/-- What may be removed for a destination: the directory of its skill if it is marked and no file of the skill is
staged, or the file if it is in a marked directory or carries the mark. -/
def Prunable (d : Disk) (staged : Table Rel Bytes) (rel : Rel) (live : Path) : Path ⊕ Path → Prop
  | .inl dir => skillDirForRel rel live = some dir ∧ d.managed dir ∧
    (skillPrefixForRel rel).any (stagedHasPrefix staged) = false
  | .inr file => file = live ∧ ((∃ dir, skillDirForRel rel live = some dir ∧ d.managed dir) ∨ Marked (d live))

theorem managedSkillDir_ensures {live : Path} :
    (managedSkillDir rel live).Ensures World.answer A (fun w' => w' = w)
      (fun r w' => w' = w ∧ ∀ dir, r = .ok (some dir) → skillDirForRel rel live = some dir ∧ w.disk.managed dir) w := by
  unfold managedSkillDir
  split
  · rename_i dir hdir
    rw [ensures_bind]
    refine isManagedDir_ensures.mono ?_
    rintro (e | managed) w₁ ⟨rfl, hmanaged⟩
    · exact ⟨rfl, nofun⟩
    · refine ⟨rfl, fun dir' h => ?_⟩
      split at h
      · rename_i htrue
        cases h
        exact ⟨hdir, hmanaged (by rw [htrue])⟩
      · cases h
  · exact ⟨rfl, nofun⟩

theorem pruneTarget_ensures :
    (pruneTarget home present staged rel).Ensures World.answer A (fun w' => w' = w)
      (fun r w' => w' = w ∧ ∀ target, r = .ok (some target) →
        ∃ live, liveDestPath home present rel = some live ∧ Prunable w.disk staged rel live target) w := by
  unfold pruneTarget
  split
  · exact ⟨rfl, nofun⟩
  rename_i live hlive
  rw [ensures_bind]
  refine (reads_ensures rejectUnsafeDestAncestors_reads).mono ?_
  rintro (e | u) w₁ rfl
  · exact ⟨rfl, nofun⟩
  dsimp only
  rw [ensures_bind]
  refine managedSkillDir_ensures.mono ?_
  rintro (e | found) w₁' ⟨rfl, hfound⟩
  · exact ⟨rfl, nofun⟩
  cases found with
  | some dir =>
    have hmanaged := hfound dir rfl
    dsimp only
    split
    · rw [ensures_perform_bind]
      intro o _
      rw [World.answer_reads rfl]
      refine ⟨rfl, ?_⟩
      split
      · refine ⟨rfl, fun target h => ?_⟩
        cases h
        exact ⟨live, hlive, rfl, .inl ⟨dir, hmanaged⟩⟩
      · exact ⟨rfl, nofun⟩
    · rename_i hpre
      refine ⟨rfl, fun target h => ?_⟩
      cases h
      exact ⟨live, hlive, hmanaged.1, hmanaged.2, by simpa using hpre⟩
  | none =>
    dsimp only
    rw [ensures_perform_bind]
    intro o _
    cases hanswer : (w₁'.answer o (.readRegularFile live)).2 with
    | ok answer =>
      have hread := World.answer_readRegularFile hanswer
      rw [World.answer_reads rfl]
      refine ⟨rfl, ?_⟩
      cases answer with
      | some body =>
        refine ⟨rfl, fun target h => ?_⟩
        split at h
        · rename_i hbody
          cases h
          refine ⟨live, hlive, rfl, .inr ?_⟩
          unfold Marked
          rw [← hread.1]
          exact hbody
        · cases h
      | none => exact ⟨rfl, nofun⟩
    | failed =>
      rw [World.answer_reads rfl]
      exact ⟨rfl, rfl, nofun⟩

theorem pruneTargets_ensures (rels : List Rel) :
    (pruneTargets home present staged rels).Ensures World.answer A (fun w' => w' = w)
      (fun r w' => w' = w ∧ ∀ targets, r = .ok targets → ∀ target ∈ targets, ∃ rel ∈ rels, ∃ live,
        liveDestPath home present rel = some live ∧ Prunable w.disk staged rel live target) w := by
  induction rels with
  | nil => exact ⟨rfl, fun targets h => by cases h; exact nofun⟩
  | cons rel rels ih =>
    unfold pruneTargets
    rw [ensures_bind]
    refine pruneTarget_ensures.mono ?_
    rintro (e | found) w₁ ⟨rfl, hfound⟩
    · exact ⟨rfl, nofun⟩
    dsimp only
    rw [ensures_bind]
    refine ih.mono ?_
    rintro (e | rest) w₁' ⟨rfl, hrest⟩
    · exact ⟨rfl, nofun⟩
    refine ⟨rfl, fun targets h target htarget => ?_⟩
    cases h
    rcases List.mem_append.1 htarget with hmem | hmem
    · exact ⟨rel, List.mem_cons_self, hfound target (by rw [Option.mem_toList.1 hmem])⟩
    · obtain ⟨rel', hrel', hprunable⟩ := hrest _ rfl target hmem
      exact ⟨rel', List.mem_cons_of_mem _ hrel', hprunable⟩

/-! ## Passes -/

/-- The call that removes a target. -/
def pruneCall : Path ⊕ Path → Call
  | .inl dir => .removeAll dir
  | .inr file => .removeDropped file

theorem removeTargets_calls (targets : List (Path ⊕ Path)) :
    (removeTargets targets).Makes fun c => ∃ target ∈ targets, c = pruneCall target := by
  refine (removeTargets_makes targets).mono fun c hc => ?_
  cases c with
  | removeAll dir => exact ⟨_, hc, rfl⟩
  | removeDropped file => exact ⟨_, hc, rfl⟩
  | _ => exact hc.elim

/-- What is removed is gone; nothing else changes. -/
theorem pruneCall_disk (target : Path ⊕ Path) (path : Path) :
    (w.answer o (pruneCall target)).1.disk path = w.disk path ∨ (w.answer o (pruneCall target)).1.disk path = none := by
  cases target with
  | inl dir =>
    have hremove : ∀ gone, w.disk.removeAll dir gone path = w.disk path ∨ w.disk.removeAll dir gone path = none := by
      intro gone
      unfold Disk.removeAll
      split
      · exact .inr rfl
      · exact .inl rfl
    simp only [pruneCall, World.answer, World.perform, World.broken]
    split
    · exact hremove fun _ => true
    · exact .inl rfl
    · exact hremove o.removed
  | inr file =>
    change (w.answer o (.removeDropped file)).1.disk path = w.disk path ∨
      (w.answer o (.removeDropped file)).1.disk path = none
    rcases World.answer_whole (w := w) (o := o) (c := .removeDropped file) rfl with h | ⟨a, h⟩
    · exact .inl (by rw [h])
    · generalize (w.answer o (.removeDropped file)).1 = w' at h
      simp only [World.perform] at h
      split at h
      · cases h
      · cases h
        by_cases hpath : path = file
        · exact .inr (by simp [hpath])
        · exact .inl (by simp [hpath])

/-- The removals for a destination keep the condition on the live files, wherever it holds. -/
def Spares (J : Disk → Prop) (staged : Table Rel Bytes) (rel : Rel) (live : Path) : Prop :=
  ∀ d, J d → ∀ target, Prunable d staged rel live target → ∀ o (w : World), J w.disk → J (w.answer o (pruneCall target)).1.disk

variable {J : Disk → Prop}

theorem pruneManagedLiveDests_ensures {rels : List Rel} (h : J w.disk)
    (hspares : ∀ rel ∈ rels, ∀ live, liveDestPath home present rel = some live → Spares J staged rel live) :
    (pruneManagedLiveDests home present rels staged).Retains World.answer A (fun w' => J w'.disk) w := by
  unfold pruneManagedLiveDests
  refine ensures_bind.2 ?_
  refine ((pruneTargets_ensures rels).weaken fun w' hw' => ?_).mono ?_
  · rw [hw']
    exact h
  rintro (e | targets) w₁ ⟨rfl, htargets⟩
  · exact h
  refine (removeTargets_calls targets).ensures (J := fun w : World => J w.disk) ?_ h
  rintro o c w' - ⟨target, htarget, rfl⟩ hJ
  obtain ⟨rel, hrel, live, hlive, hprunable⟩ := htargets targets rfl target htarget
  have hkept := hspares rel hrel live hlive _ h target hprunable o w' hJ
  exact ⟨hkept, hkept⟩

theorem pruneMovedProjectDests_ensures {previous : Table String Path} (h : J w.disk)
    (hspares : ∀ project ∈ previous.rows, moved present project → ∀ rel ∈ projectRels staged project.1, ∀ live,
      liveDestPath home (Table.empty.put project.1 project.2) rel = some live → Spares J .empty rel live) :
    (pruneMovedProjectDests home present previous staged).Retains World.answer A (fun w' => J w'.disk) w := by
  unfold pruneMovedProjectDests
  refine (ensures_forM (fun (rest : List (String × Path)) (w : World) =>
    (∀ project ∈ rest, project ∈ previous.rows ∧ moved present project) ∧ J w.disk)
    (E := fun _ (w : World) => J w.disk) ?_ ⟨?_, h⟩).mono ?_
  · rintro project rest w₁ ⟨hrest, hJ⟩
    obtain ⟨hproject, hmoved⟩ := hrest project List.mem_cons_self
    refine (pruneManagedLiveDests_ensures hJ (hspares project hproject hmoved)).mono ?_
    rintro (e | u) w₂ hJ₂
    · exact hJ₂
    · exact ⟨fun project hproject => hrest project (List.mem_cons_of_mem _ hproject), hJ₂⟩
  · exact fun project hproject => List.mem_filter.1 hproject
  · rintro (e | u) w₁ hw₁
    · exact hw₁
    · exact hw₁.2

/-! ## Candidates -/

/-- The project paths of the record. -/
def recordedPaths (r : Root) : Table String Path := (r.applied.map (·.projectPaths)).getD .empty

/-- The paths of the snapshot. -/
def snapshotRels (r : Root) : List Rel :=
  match r.slots .current with
  | some (.tree files) => files.rows.map Prod.fst
  | _ => []

/-- The paths with a destination, with their destinations. -/
def destsOf (home : Path) (present : Table String Path) (rels : List Rel) : List (Rel × Path) :=
  rels.filterMap fun rel => (liveDestPath home present rel).map fun live => (rel, live)

theorem mem_destsOf {rels : List Rel} {dest : Rel × Path} :
    dest ∈ destsOf home present rels ↔ dest.1 ∈ rels ∧ liveDestPath home present dest.1 = some dest.2 := by
  unfold destsOf
  rw [List.mem_filterMap]
  constructor
  · rintro ⟨rel, hrel, hdest⟩
    obtain ⟨live, hlive, rfl⟩ := Option.map_eq_some_iff.1 hdest
    exact ⟨hrel, hlive⟩
  · rintro ⟨hrel, hlive⟩
    exact ⟨dest.1, hrel, by rw [hlive]; rfl⟩

/-- The destinations of the last snapshot. -/
def snapshotDests (request : ApplyLiveRequest) (r : Root) : List (Rel × Path) :=
  destsOf request.home (destPresent (projectPresent request.found) (recordedPaths r)) (snapshotRels r)

/-- The destinations of what is published now, at the former paths of moved projects. -/
def formerDests (request : ApplyLiveRequest) (r : Root) : List (Rel × Path) :=
  ((recordedPaths r).rows.filter (moved (projectPresent request.found))).flatMap fun project =>
    destsOf request.home (Table.empty.put project.1 project.2)
      ((request.published.rows.map Prod.fst).filter fun rel => ["projects", project.1].isPrefixOf rel)

/-- The destinations the pruning passes look at. -/
def pruneCandidates (request : ApplyLiveRequest) (r : Root) : List (Rel × Path) :=
  snapshotDests request r ++ formerDests request r

theorem find?_destPresent {present recorded : Table String Path} {name : String} {path : Path}
    (h : present.find? name = some path) : (destPresent present recorded).find? name = some path := by
  unfold destPresent
  generalize recorded.rows = rows
  induction rows generalizing present with
  | nil => exact h
  | cons project rows ih =>
    refine ih ?_
    dsimp only
    split
    · rename_i hnone
      rw [Table.find?_put, if_neg]
      · exact h
      · rintro rfl
        rw [h] at hnone
        cases hnone.1
    · exact h

theorem liveDestPath_mono {present present' : Table String Path} {live : Path}
    (hsub : ∀ name path, present.find? name = some path → present'.find? name = some path)
    (h : liveDestPath home present rel = some live) : liveDestPath home present' rel = some live := by
  unfold liveDestPath at h
  split at h
  · exact h
  · exact h
  · exact h
  · rename_i name rest
    cases hfind : present.find? name with
    | none =>
      rw [hfind] at h
      cases h
    | some root =>
      rw [hfind] at h
      simp only [liveDestPath, hsub name root hfind]
      exact h
  · cases h

theorem loadDestProjectPaths_ensures :
    (loadDestProjectPaths root).Ensures World.answer A (fun w' => w' = w)
      (fun r w' => w' = w ∧ ∀ previous, r = .ok previous →
        previous = recordedPaths (w.roots root) ∨ previous = .empty) w := by
  refine (reads_ensures loadDestProjectPaths_reads).and (J := fun _ => True) ?_
  unfold loadDestProjectPaths
  rw [ensures_perform_bind]
  intro o _
  refine ⟨trivial, ?_⟩
  cases hanswer : (w.answer o (.readState root)).2 with
  | ok state =>
    rintro _ ⟨⟩
    left
    unfold recordedPaths
    rw [(World.perform_readState (World.answer_ok hanswer)).2]
    rfl
  | failed =>
    rintro _ ⟨⟩
    exact .inr rfl

theorem destSnapshotRels_ensures :
    (destSnapshotRels root).Ensures World.answer A (fun w' => w' = w)
      (fun r w' => w' = w ∧ ∀ rels, r = .ok rels → ∀ rel ∈ rels, rel ∈ snapshotRels (w.roots root)) w := by
  refine (reads_ensures destSnapshotRels_reads).and (J := fun _ => True) ?_
  unfold destSnapshotRels
  rw [ensures_bind]
  refine Call.ensures_orElse (fun _ _ => trivial) (fun w₁ kind hperform _ => ?_) fun _ _ _ _ => nofun
  cases World.perform_reads rfl hperform
  dsimp only
  split
  · rw [ensures_bind]
    refine Call.ensures_orElse (fun _ _ => trivial) (fun w₂ files hwalk _ => ?_) fun _ _ _ _ => nofun
    cases World.perform_reads rfl hwalk
    rintro _ ⟨⟩ rel hrel
    unfold snapshotRels
    unfold World.perform at hwalk
    dsimp only at hwalk
    cases hslot : (w.roots root).slots .current with
    | none =>
      rw [hslot] at hwalk
      cases hwalk
    | some entry =>
      rw [hslot] at hwalk
      cases entry with
      | tree files =>
        cases hwalk
        exact hrel
      | other => cases hwalk
  · rintro _ ⟨⟩
    exact nofun

variable {request : ApplyLiveRequest}

theorem publishStaged_ensures (h : J w.disk)
    (hdropped : ∀ dest ∈ snapshotDests request (w.roots request.root), staged.find? dest.1 = none →
      Spares J staged dest.1 dest.2) :
    (publishStaged sha256 request staged).Retains World.answer A (fun w' => J w'.disk) w := by
  have hsame : ∀ w' : World, w' = w → J w'.disk := fun w' hw' => hw' ▸ h
  unfold publishStaged
  refine ensures_bind.2 ?_
  refine (loadDestProjectPaths_ensures.weaken hsame).mono ?_
  rintro (e | recorded) w₁ ⟨rfl, hrecorded⟩
  · exact h
  dsimp only
  rw [ensures_bind]
  refine (destSnapshotRels_ensures.weaken hsame).mono ?_
  rintro (e | outgoing) w₁' ⟨rfl, houtgoing⟩
  · exact h
  dsimp only
  rw [ensures_bind]
  refine (pruneManagedLiveDests_ensures h fun rel hrel live hlive => ?_).mono ?_
  · -- a path of the last snapshot, at its destination then or now
    refine hdropped (rel, live) (mem_destsOf.2 ⟨?_, ?_⟩) (by simpa using (List.mem_filter.1 hrel).2)
    · exact houtgoing _ rfl rel (List.mem_filter.1 hrel).1
    · rcases hrecorded _ rfl with rfl | rfl
      · exact hlive
      · exact liveDestPath_mono (fun _ _ => find?_destPresent) hlive
  rintro (e | u) w₂ h₂
  · exact h₂
  · refine ((offDisk_ensures publishTree_offDisk).weaken fun w' hw' => ?_).mono fun r w' hw' => ?_
    · rw [hw']
      exact h₂
    · rw [hw']
      exact h₂

/-- **What comes after the loop** keeps every condition that the removal of each candidate keeps. -/
theorem settle_ensures (h : J w.disk) (hstaged : staged.All fun rel _ => ∃ body, request.published.find? rel = some body)
    (hformer : ∀ dest ∈ formerDests request (w.roots request.root), Spares J .empty dest.1 dest.2)
    (hdropped : ∀ dest ∈ snapshotDests request (w.roots request.root), staged.find? dest.1 = none →
      Spares J staged dest.1 dest.2) :
    (settle sha256 request staged).Retains World.answer A (fun w' => J w'.disk) w := by
  have hsame : ∀ w' : World, w' = w → J w'.disk := fun w' hw' => hw' ▸ h
  unfold settle
  refine ensures_bind.2 ?_
  refine ((reads_ensures (Call.makes_orElse rfl)).weaken hsame).mono ?_
  rintro (e | u) w₁ rfl
  · exact h
  dsimp only
  rw [ensures_bind]
  refine (loadDestProjectPaths_ensures.weaken hsame).mono ?_
  rintro (e | previous) w₁' ⟨rfl, hprevious⟩
  · exact h
  have hmoved : (pruneMovedProjectDests request.home (projectPresent request.found) previous staged).Retains
    World.answer A (fun w' => J w'.disk) w₁' := by
    refine pruneMovedProjectDests_ensures h fun project hproject hmoved rel hrel live hlive => ?_
    rcases hprevious _ rfl with rfl | rfl
    · obtain ⟨hrel, hpre⟩ := List.mem_filter.1 hrel
      obtain ⟨row, hrow, rfl⟩ := List.mem_map.1 hrel
      obtain ⟨body, hbody⟩ := hstaged _ _ (Table.find?_eq_some_iff_mem.2 hrow)
      refine hformer (row.1, live) (List.mem_flatMap.2
        ⟨project, List.mem_filter.2 ⟨hproject, hmoved⟩, mem_destsOf.2 ⟨List.mem_filter.2 ⟨?_, hpre⟩, hlive⟩⟩)
      exact List.mem_map.2 ⟨_, Table.find?_eq_some_iff_mem.1 hbody, rfl⟩
    · cases hproject
  dsimp only
  rw [ensures_bind]
  refine (hmoved.and (local_ensures pruneMovedProjectDests_local request.root)).mono ?_
  rintro (e | u) w₂ ⟨h₂, hroots⟩
  · exact h₂
  have hpersist : ∀ w₄ : World, J w₄.disk →
      (persistDestProjectPaths request.root (projectPresent request.found)).Retains World.answer A (fun w' => J
        w'.disk) w₄ := fun w₄ h₄ =>
    ((offDisk_ensures persistDestProjectPaths_offDisk).weaken fun w' hw' => hw' ▸ h₄).mono fun r w' hw' => hw' ▸ h₄
  dsimp only
  rw [ensures_bind]
  refine ((reads_ensures sameDestSnapshot_reads).weaken fun w' hw' => hw' ▸ h₂).mono ?_
  rintro (e | same) w₃ rfl
  · exact h₂
  dsimp only
  split
  · rw [ensures_bind]
    refine (publishStaged_ensures h₂ (by rw [hroots]; exact hdropped)).mono ?_
    rintro (e | u) w₄ h₄
    · exact h₄
    · exact hpersist w₄ h₄
  · exact hpersist w₃ h₂

end

end Punaro.Fleet
