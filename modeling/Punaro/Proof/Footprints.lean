import Punaro.Fleet.Live

/-!
# What applying a configuration touches

The calls each part of `ApplyLive` and `RollbackLive` can make, whatever they are
answered. What is not among them is left alone (`World.answer_frame`).
-/

namespace Punaro.Fleet

open Prog

/-- The program only reads. -/
abbrev Reads {α : Type} (p : Program α) : Prop := p.Makes fun c => c.reads

/-- The calls that write a destination: its ancestors, its temporary sibling and the destination itself. -/
def Call.writesDest (path : Path) : Call → Prop
  | .remove p => p = path ∨ p = tmpOf path
  | .create p => p = tmpOf path
  | .write p _ => p = tmpOf path
  | .rename p p' => p = tmpOf path ∧ p' = path
  | .mkdirAll p => p = path.dropLast
  | c => c.reads

/-- The calls that write the temporary sibling of a destination. -/
def Call.writesTemp (path : Path) : Call → Prop
  | .remove p => p = tmpOf path
  | .create p => p = tmpOf path
  | .write p _ => p = tmpOf path
  | c => c.reads

section

variable {P : Call → Prop} {path live dir home : Path} {rel : Rel} {body : Bytes} {present : Table String Path}
  {published addendums staged : Table Rel Bytes} {applied : Applied} {c : Call}
variable {A : Fault → World → Call → Prop} {w : World} {sha256 : Bytes → String} {request : ApplyLiveRequest}
  {I : World → Prop}

theorem Call.writesDest_of_reads (h : c.reads) : c.writesDest path := by
  cases c <;> first | exact absurd h Bool.false_ne_true | exact rfl

/-! ## Reading -/

theorem isPunaroClaudeAlias_reads : Reads (isPunaroClaudeAlias live) := by
  unfold isPunaroClaudeAlias
  split
  · trivial
  · refine makes_perform_bind rfl fun answer => ?_
    split
    · refine makes_perform_bind rfl fun answer => ?_
      split <;> trivial
    · trivial

theorem rejectUnsafe_reads (dirs : List Path) : Reads (rejectUnsafe dirs) := by
  induction dirs with
  | nil => trivial
  | cons dir dirs ih =>
    refine makes_perform_bind rfl fun answer => ?_
    split
    · exact ih
    · trivial
    · trivial

theorem rejectUnsafeDestAncestors_reads : Reads (rejectUnsafeDestAncestors path) := rejectUnsafe_reads _

theorem isManagedDir_reads : Reads (isManagedDir dir) := by
  refine makes_perform_bind rfl fun answer => ?_
  split <;> trivial

theorem unmanagedSkillDir_reads : Reads (unmanagedSkillDir dir) := by
  refine makes_perform_bind rfl fun answer => ?_
  split
  · trivial
  · exact isManagedDir_reads.bind fun _ => trivial
  · trivial

theorem liveCollision_reads : Reads (liveCollision rel live) := by
  refine makes_perform_bind rfl fun answer => ?_
  split
  · trivial
  · trivial
  · refine isPunaroClaudeAlias_reads.bind fun found => ?_
    split <;> trivial
  · exact Call.makes_orElse_bind rfl fun _ => trivial
  · trivial

theorem destCollision_reads : Reads (destCollision rel live) := by
  unfold destCollision
  split
  · refine unmanagedSkillDir_reads.bind fun unmanaged => ?_
    split
    · trivial
    · exact liveCollision_reads
  · exact liveCollision_reads

theorem readLive_reads : Reads (readLive live) := by
  refine makes_perform_bind rfl fun answer => ?_
  split <;> trivial

theorem managedSkillDir_reads : Reads (managedSkillDir rel live) := by
  unfold managedSkillDir
  split
  · exact isManagedDir_reads.bind fun _ => trivial
  · trivial

theorem pruneTarget_reads : Reads (pruneTarget home present staged rel) := by
  unfold pruneTarget
  split
  · trivial
  · refine rejectUnsafeDestAncestors_reads.bind fun _ => managedSkillDir_reads.bind fun managed => ?_
    split
    · split
      · refine makes_perform_bind rfl fun answer => ?_
        split <;> trivial
      · trivial
    · refine makes_perform_bind rfl fun answer => ?_
      split <;> trivial

theorem pruneTargets_reads (rels : List Rel) : Reads (pruneTargets home present staged rels) := by
  induction rels with
  | nil => trivial
  | cons rel rels ih => exact pruneTarget_reads.bind fun _ => ih.bind fun _ => trivial

theorem loadDestProjectPaths_reads {root : Path} : Reads (loadDestProjectPaths root) := by
  refine makes_perform_bind rfl fun answer => ?_
  split <;> trivial

theorem sameDestSnapshot_reads {root : Path} {digest : String} : Reads (sameDestSnapshot root digest) := by
  refine makes_perform_bind rfl fun answer => ?_
  split <;> trivial

theorem destSnapshotRels_reads {root : Path} : Reads (destSnapshotRels root) := by
  refine Call.makes_orElse_bind rfl fun kind => ?_
  split
  · exact Call.makes_orElse_bind rfl fun _ => trivial
  · trivial

/-! ## Writing -/

theorem clearDest_makes : (clearDest path).Makes fun c => c.reads ∨ c = .remove path := by
  refine makes_perform_bind (.inl rfl) fun answer => ?_
  split
  · refine (isPunaroClaudeAlias_reads.mono fun _ => .inl).bind fun found => ?_
    split
    · exact Call.makes_orElse_bind (.inr rfl) fun _ => trivial
    · trivial
  · trivial
  · trivial

theorem Call.writesDest_of_writesTemp (h : c.writesTemp path) : c.writesDest path := by
  cases c <;> first | exact .inr h | exact h | exact Call.writesDest_of_reads h

theorem writeTemp_makes : (writeTemp path body).Makes (Call.writesTemp path) := by
  refine Call.makes_ignored_bind rfl <| Call.makes_orElse_bind rfl fun _ => makes_perform_bind rfl fun answer => ?_
  split
  · exact Call.makes_ignored_bind rfl (Call.makes_ignored_bind rfl makes_failWith)
  · refine makes_perform_bind rfl fun answer => ?_
    split
    · exact Call.makes_ignored_bind rfl makes_failWith
    · trivial

theorem moveIntoPlace_makes : (moveIntoPlace path).Makes (Call.writesDest path) := by
  refine makes_perform_bind ⟨rfl, rfl⟩ fun answer => ?_
  split
  · exact Call.makes_ignored_bind (.inr rfl) makes_failWith
  · refine makes_perform_bind rfl fun answer => ?_
    split <;> trivial

theorem replaceDest_makes {regular : Bool} : (replaceDest path body regular).Makes (Call.writesDest path) := by
  refine (writeTemp_makes.mono fun _ => Call.writesDest_of_writesTemp).bind fun _ => ?_
  split
  · exact Call.makes_ignored_bind (.inl rfl) moveIntoPlace_makes
  · exact moveIntoPlace_makes

theorem writeRegularDest_makes : (writeRegularDest path body).Makes (Call.writesDest path) :=
  (clearDest_makes.mono fun _ hc => hc.elim Call.writesDest_of_reads fun hc => hc ▸ .inl rfl).bind fun _ => (rejectUnsafeDestAncestors_reads.mono fun _ => Call.writesDest_of_reads).bind fun _ =>
    Call.makes_orElse_bind rfl fun _ => replaceDest_makes

theorem markManagedSkillDir_makes : (markManagedSkillDir dir).Makes (Call.writesDest (dir ++ [managedDirMarker])) := by
  refine (rejectUnsafeDestAncestors_reads.mono fun _ => Call.writesDest_of_reads).bind fun _ =>
    Call.makes_orElse_bind (by simp [Call.writesDest]) fun _ =>
      (isManagedDir_reads.mono fun _ => Call.writesDest_of_reads).bind fun managed => ?_
  split
  · trivial
  · exact writeRegularDest_makes

/-- The calls for one file at its destination: those that write it, and those that mark its skill. -/
def Call.appliesDest (rel : Rel) (live : Path) (c : Call) : Prop :=
  c.writesDest live ∨ ∃ dir, skillDirForRel rel live = some dir ∧ c.writesDest (dir ++ [managedDirMarker])

theorem markSkill_makes : (markSkill rel live).Makes (Call.appliesDest rel live) := by
  unfold markSkill
  split
  · rename_i dir hdir
    exact markManagedSkillDir_makes.mono fun c hc => .inr ⟨dir, hdir, hc⟩
  · trivial

theorem applyDest_makes (hlive : liveDestPath home present rel = some live) :
    (applyDest home present published addendums rel applied).Makes (Call.appliesDest rel live) := by
  have hreads : ∀ {α : Type} {q : Program α}, Reads q → q.Makes (Call.appliesDest rel live) :=
    fun hq => hq.mono fun _ h => .inl (Call.writesDest_of_reads h)
  unfold applyDest
  simp only [hlive]
  refine (hreads destCollision_reads).bind fun collision => ?_
  split
  · trivial
  · exact (hreads readLive_reads).bind fun _ => (writeRegularDest_makes.mono fun _ => .inl).bind fun _ =>
      markSkill_makes.bind fun _ => trivial

theorem applyDest_none (hlive : liveDestPath home present rel = none) :
    applyDest home present published addendums rel applied = return applied := by
  unfold applyDest
  simp only [hlive]

theorem applyDests_makes (rels : List Rel) : (applyDests home present published addendums rels applied).Makes
    fun c => ∃ rel ∈ rels, ∃ live, liveDestPath home present rel = some live ∧ c.appliesDest rel live := by
  induction rels generalizing applied with
  | nil => trivial
  | cons rel rels ih =>
    have hone : (applyDest home present published addendums rel applied).Makes
        fun c => ∃ rel' ∈ rel :: rels, ∃ live, liveDestPath home present rel' = some live ∧ c.appliesDest rel' live := by
      cases hlive : liveDestPath home present rel with
      | none =>
        rw [applyDest_none hlive]
        trivial
      | some live => exact (applyDest_makes hlive).mono fun c hc => ⟨rel, List.mem_cons_self, live, hlive, hc⟩
    refine hone.attempt.bind fun r => ?_
    split
    · exact ih.mono fun c ⟨rel', hrel', hc⟩ => ⟨rel', List.mem_cons_of_mem _ hrel', hc⟩
    · trivial

/-- What has been staged and what was reported come from the given paths. -/
def Applied.Only (P : Rel → Prop) (applied : Applied) : Prop :=
  (applied.staged.All fun rel _ => P rel) ∧ ∀ rel ∈ applied.result.collisions, P rel

theorem Applied.Only.start {P : Rel → Prop} : Applied.Only P ⟨.empty, [], 0⟩ := ⟨.empty, nofun⟩

theorem applyDest_results {P : Rel → Prop} (h : applied.Only P) (hrel : P rel) :
    (applyDest home present published addendums rel applied).Results fun applied => applied.Only P := by
  unfold applyDest
  split
  · exact h
  · refine results_true.bind fun collision _ => ?_
    split
    · refine ⟨h.1, fun rel' hrel' => ?_⟩
      rcases List.mem_append.1 hrel' with hmem | hmem
      · exact h.2 rel' hmem
      · rw [List.mem_singleton.1 hmem]
        exact hrel
    · exact results_true.bind fun _ _ => results_true.bind fun _ _ => results_true.bind fun _ _ =>
        ⟨h.1.put hrel, h.2⟩

theorem applyDests_results {P : Rel → Prop} (rels : List Rel) (hrels : ∀ rel ∈ rels, P rel) (h : applied.Only P) :
    (applyDests home present published addendums rels applied).Results fun r => r.1.Only P := by
  induction rels generalizing applied with
  | nil => exact h
  | cons rel rels ih =>
    refine (applyDest_results h (hrels rel List.mem_cons_self)).attempt.bind fun r hr => ?_
    split
    · exact ih (fun rel' hrel' => hrels rel' (List.mem_cons_of_mem _ hrel')) (hr _ rfl)
    · exact h

/-! ## Removing -/

/-- The calls that remove what is no longer published. -/
def Call.prunes (targets : List (Path ⊕ Path)) : Call → Prop
  | .removeAll p => .inl p ∈ targets
  | .removeDropped p => .inr p ∈ targets
  | _ => False

theorem removeTargets_makes (targets : List (Path ⊕ Path)) : (removeTargets targets).Makes (Call.prunes targets) := by
  refine (makes_forM_of_mem fun dir hdir => ?_).bind fun _ => makes_forM_of_mem fun file hfile => ?_
  · rw [List.mem_eraseDups, List.mem_filterMap] at hdir
    obtain ⟨target, htarget, hleft⟩ := hdir
    rw [Sum.getLeft?_eq_some_iff] at hleft
    subst hleft
    exact Call.makes_orElse htarget
  · rw [List.mem_filterMap] at hfile
    obtain ⟨target, htarget, hright⟩ := hfile
    rw [Sum.getRight?_eq_some_iff] at hright
    subst hright
    exact Call.makes_orElse htarget

/-- The target is the skill of one of the paths, or its destination. -/
def PruneTarget (home : Path) (present : Table String Path) (rels : List Rel) (target : Path ⊕ Path) : Prop :=
  ∃ rel ∈ rels, ∃ live, liveDestPath home present rel = some live ∧
    match target with
    | .inl dir => skillDirForRel rel live = some dir
    | .inr file => file = live

theorem managedSkillDir_results :
    (managedSkillDir rel live).Results fun found => ∀ dir, found = some dir → skillDirForRel rel live = some dir := by
  unfold managedSkillDir
  split
  · rename_i dir hdir
    refine results_true.bind fun managed _ => ?_
    rintro dir' heq
    split at heq
    · rw [hdir, heq]
    · cases heq
  · rintro dir ⟨⟩

theorem pruneTarget_results : (pruneTarget home present staged rel).Results
    fun found => ∀ target, found = some target → PruneTarget home present [rel] target := by
  unfold pruneTarget
  split
  · rintro target ⟨⟩
  · rename_i live hlive
    have hfile : PruneTarget home present [rel] (.inr live) := ⟨rel, by simp, live, hlive, rfl⟩
    refine results_true.bind fun _ _ => managedSkillDir_results.bind fun found hfound => ?_
    split
    · rename_i dir
      split
      · refine results_true.bind fun answer _ => ?_
        split
        · rintro target ⟨⟩
          exact hfile
        · rintro target ⟨⟩
      · rintro target ⟨⟩
        exact ⟨rel, by simp, live, hlive, hfound dir rfl⟩
    · refine results_true.bind fun answer _ => ?_
      split
      · rintro target heq
        split at heq
        · cases heq
          exact hfile
        · cases heq
      · rintro target ⟨⟩

theorem PruneTarget.mono {rels rels' : List Rel} {target : Path ⊕ Path} (h : PruneTarget home present rels target)
    (hsub : ∀ rel ∈ rels, rel ∈ rels') : PruneTarget home present rels' target := by
  obtain ⟨rel, hrel, hlive⟩ := h
  exact ⟨rel, hsub rel hrel, hlive⟩

theorem pruneTargets_results (rels : List Rel) : (pruneTargets home present staged rels).Results
    fun targets => ∀ target ∈ targets, PruneTarget home present rels target := by
  induction rels with
  | nil => rintro target ⟨⟩
  | cons rel rels ih =>
    refine pruneTarget_results.bind fun found hfound => ih.bind fun targets htargets => ?_
    intro target htarget
    rcases List.mem_append.1 htarget with hmem | hmem
    · exact (hfound target (Option.mem_toList.1 hmem)).mono (by simp)
    · exact (htargets target hmem).mono fun rel hrel => List.mem_cons_of_mem _ hrel

/-- The calls that look at dropped destinations and remove them. -/
def Call.prunesRels (home : Path) (present : Table String Path) (rels : List Rel) (c : Call) : Prop :=
  c.reads ∨ ∃ targets, (∀ target ∈ targets, PruneTarget home present rels target) ∧ c.prunes targets

theorem pruneManagedLiveDests_makes (rels : List Rel) :
    (pruneManagedLiveDests home present rels staged).Makes (Call.prunesRels home present rels) :=
  ((pruneTargets_reads rels).mono fun _ => .inl).bind_results (pruneTargets_results rels) fun targets htargets =>
    (removeTargets_makes targets).mono fun _ hc => .inr ⟨targets, htargets, hc⟩

/-! ## Apply roots -/

/-- The calls that publish a file set. -/
def Call.publishes (root : Path) (files : Table Rel Bytes) : Call → Prop
  | .lockReconcile r => r = root
  | .removeSlot r _ => r = root
  | .mkdirSlot r _ => r = root
  | .writeStaged r rel body => r = root ∧ (rel, body) ∈ files.rows
  | .lstatSlot r _ => r = root
  | .renameSlot r _ _ => r = root
  | .writeState r _ => r = root
  | _ => False

theorem publishTree_makes {root : Path} {files : Table Rel Bytes} {digest : String} :
    (publishTree sha256 root files digest).Makes (Call.publishes root files) := by
  have hstage : (stageFiles root files).Makes (Call.publishes root files) :=
    Call.makes_ignored_bind rfl <| Call.makes_orElse_bind rfl fun _ =>
      makes_forM_of_mem fun file hfile => Call.makes_orElse ⟨rfl, hfile⟩
  have hrecover : (recoverPublishSwap root).Makes (Call.publishes root files) := by
    refine makes_perform_bind rfl fun live => makes_perform_bind rfl fun next => ?_
    split
    · trivial
    split
    · trivial
    split
    · exact Call.makes_orElse rfl
    split
    · exact Call.makes_ignored_bind rfl (Call.makes_orElse rfl)
    · trivial
  have haside : (setAside root).Makes (Call.publishes root files) := by
    refine makes_perform_bind rfl fun live => ?_
    split
    · split
      · exact Call.makes_orElse rfl
      · trivial
    · trivial
  have hback : (putBack root).Makes (Call.publishes root files) := by
    refine makes_perform_bind rfl fun next => ?_
    split
    · exact Call.makes_ignored rfl
    · trivial
  have hkeep : (keepAside root).Makes (Call.publishes root files) := by
    refine makes_perform_bind rfl fun next => ?_
    split
    · exact Call.makes_ignored_bind rfl (Call.makes_ignored rfl)
    · trivial
  have hswap : (swapIn root).Makes (Call.publishes root files) := by
    refine makes_perform_bind rfl fun answer => ?_
    split
    · exact hback.bind fun _ => trivial
    · exact hkeep
  unfold publishTree
  split
  · trivial
  · exact Call.makes_orElse_bind rfl fun _ => hstage.bind fun _ => hrecover.bind fun _ =>
      haside.bind fun _ => hswap.bind fun _ => Call.makes_orElse rfl

/-- The call leaves the apply roots alone. -/
def Call.Local (c : Call) : Prop := (∀ root slot, ¬c.touchesSlot root slot) ∧ ∀ root, ¬c.touchesRecord root

theorem Call.local_of_reads (h : c.reads) : c.Local := by
  cases c <;> first | exact absurd h Bool.false_ne_true | exact ⟨fun _ _ => id, fun _ => id⟩

theorem Call.local_of_writesDest (h : c.writesDest path) : c.Local := by
  cases c <;> first | exact Call.local_of_reads h | exact ⟨fun _ _ => id, fun _ => id⟩

theorem Call.local_of_appliesDest (h : c.appliesDest rel live) : c.Local :=
  h.elim Call.local_of_writesDest fun ⟨_, _, hdir⟩ => Call.local_of_writesDest hdir

theorem Call.local_of_prunes {targets : List (Path ⊕ Path)} (h : c.prunes targets) : c.Local := by
  cases c <;> first | exact h.elim | exact ⟨fun _ _ => id, fun _ => id⟩

theorem Call.local_of_prunesRels {rels : List Rel} (h : c.prunesRels home present rels) : c.Local :=
  h.elim Call.local_of_reads fun ⟨_, _, hprunes⟩ => Call.local_of_prunes hprunes

theorem Call.Local.root (h : c.Local) (o : Fault) (w : World) (root : Path) :
    (w.answer o c).1.roots root = w.roots root := by
  have hframe := World.answer_frame o w c
  have hslots := funext fun slot => hframe.slots root slot (h.1 root slot)
  have happlied := hframe.applied root (h.2 root)
  cases hroot : (w.answer o c).1.roots root with
  | mk slots applied =>
    cases hroot' : w.roots root with
    | mk slots' applied' =>
      rw [hroot, hroot'] at hslots happlied
      exact congrArg₂ Root.mk hslots happlied

theorem applyDests_local (rels : List Rel) :
    (applyDests home present published addendums rels applied).Makes Call.Local :=
  (applyDests_makes rels).mono fun _ ⟨_, _, _, _, hc⟩ => Call.local_of_appliesDest hc

theorem pruneMovedProjectDests_local {previous : Table String Path} :
    (pruneMovedProjectDests home present previous staged).Makes Call.Local :=
  makes_forM (fun _ => (pruneManagedLiveDests_makes _).mono fun _ => Call.local_of_prunesRels) _

/-- Programs that leave the apply roots alone. -/
theorem local_ensures {α : Type} {p : Program α} (hp : p.Makes Call.Local) (root : Path) :
    p.Ensures World.answer A (fun _ => True) (fun _ w' => w'.roots root = w.roots root) w :=
  hp.ensures (J := fun w' => w'.roots root = w.roots root)
    (fun o _ w' _ hc hroot => ⟨trivial, (hc.root o w' root).trans hroot⟩) rfl

/-! ## The whole call -/

/-- What is left of `ApplyLive` once the loop has ended. -/
def AfterLoop (A : Fault → World → Call → Prop) (I : World → Prop) (sha256 : Bytes → String)
    (request : ApplyLiveRequest) (Q : Applied × Option Err → World → Prop) :
    Except Err (Applied × Option Err) → World → Prop
  | .error _, _ => True
  | .ok (applied, some e), w => Q (applied, some e) w
  | .ok (applied, none), w =>
    if request.root ≠ [] ∧ applied.staged.rows ≠ [] then
      (settle sha256 request applied.staged).Ensures World.answer A I (fun r w => match r with
        | .ok _ => Q (applied, none) w
        | .error e => Q (applied, some e) w) w
    else Q (applied, none) w

theorem applyDests_total (rels : List Rel) :
    (applyDests home present published addendums rels applied).Ensures World.answer A (fun _ => True)
      (fun r _ => ∃ out, r = .ok out) w := by
  induction rels generalizing applied w with
  | nil => exact ⟨_, rfl⟩
  | cons rel rels ih =>
    unfold applyDests
    rw [ensures_bind, ensures_attempt]
    refine results_true.ensures.mono ?_
    rintro (e | applied') w₁ -
    · exact ⟨_, rfl⟩
    · exact ih

/-- **`ApplyLive`**: a tree that is not valid or addendums that cannot be loaded, or the loop and what comes after
it. -/
theorem stageLive_ensures {Q : Applied × Option Err → World → Prop} (hI : I w)
    (refused : ∀ e, Q (⟨.empty, [], 0⟩, some e) w) (loop : validate request.tree = .ok () → ∀ addendums w₁,
      w.perform (.loadAddendums request.addendums) = .ok (w₁, addendums) →
      (applyDests request.home (projectPresent request.found) request.published addendums
        (destApplyOrder request.published) ⟨.empty, [], 0⟩).Ensures World.answer A I
          (AfterLoop A I sha256 request Q) w) :
    (stageLive sha256 request).Ensures World.answer A I (fun r w => ∃ out, r = .ok out ∧ Q out w) w := by
  unfold stageLive
  split
  · exact ⟨_, rfl, refused _⟩
  rename_i hvalid
  rw [ensures_perform_bind]
  intro o _
  have hload : (w.answer o (.loadAddendums request.addendums)).1 = w := World.answer_reads rfl
  cases hanswer : (w.answer o (.loadAddendums request.addendums)).2 with
  | failed =>
    rw [hload]
    exact ⟨hI, _, rfl, refused _⟩
  | ok addendums =>
    have hperform := World.answer_ok hanswer
    rw [hload] at hperform ⊢
    refine ⟨hI, ?_⟩
    dsimp only
    rw [ensures_bind]
    refine ((loop hvalid addendums w hperform).and (applyDests_total _)).mono ?_
    rintro _ w₁ ⟨hafter, ⟨applied, failure⟩, rfl⟩
    cases failure with
    | some e => exact ⟨_, rfl, hafter⟩
    | none =>
      simp only [AfterLoop] at hafter
      dsimp only
      split
      · rename_i hpublish
        rw [if_pos hpublish] at hafter
        rw [ensures_bind, ensures_attempt]
        refine hafter.mono ?_
        rintro (e | u) w₂ hQ
        · exact ⟨_, rfl, hQ⟩
        · exact ⟨_, rfl, hQ⟩
      · rename_i hskip
        rw [if_neg hskip] at hafter
        exact ⟨_, rfl, hafter⟩

/-- `ApplyLive` as it is called, without what it has staged. -/
theorem applyLive_ensures {Q : ApplyLiveResult × Option Err → World → Prop}
    (h : (stageLive sha256 request).Ensures World.answer A I
      (fun r w => ∃ out, r = .ok out ∧ Q (out.1.result, out.2) w) w) :
    (applyLive sha256 request).Ensures World.answer A I (fun r w => ∃ out, r = .ok out ∧ Q out w) w := by
  unfold applyLive
  rw [ensures_bind]
  refine h.mono ?_
  rintro _ w₁ ⟨⟨applied, failure⟩, rfl, hQ⟩
  exact ⟨_, rfl, hQ⟩

/-- **`ApplyLive`** keeps what its loop keeps and what comes after it keeps. -/
theorem applyLive_retains {P : Rel → Prop} (h : I w)
    (hrels : validate request.tree = .ok () → ∀ rel ∈ destApplyOrder request.published, P rel)
    (loop : validate request.tree = .ok () → ∀ addendums w₁,
      w.perform (.loadAddendums request.addendums) = .ok (w₁, addendums) →
      (applyDests request.home (projectPresent request.found) request.published addendums
        (destApplyOrder request.published) ⟨.empty, [], 0⟩).Retains World.answer A I w)
    (settled : ∀ {staged : Table Rel Bytes} {w'}, I w' → (staged.All fun rel _ => P rel) →
      (settle sha256 request staged).Retains World.answer A I w') :
    (applyLive sha256 request).Retains World.answer A I w := by
  refine (applyLive_ensures (Q := fun _ w' => I w') <| stageLive_ensures h (fun _ => h)
    fun hvalid addendums w₁ hload => ?_).mono fun _ _ hw => hw.choose_spec.2
  refine ((loop hvalid addendums w₁ hload).and (applyDests_results _ (hrels hvalid) .start).ensures).mono ?_
  rintro (e | ⟨applied, _ | e⟩) w₂ ⟨h₂, hstaged⟩
  · trivial
  · simp only [AfterLoop]
    split
    · refine (settled h₂ (hstaged _ rfl).1).mono ?_
      rintro (e | u) w₃ h₃
      · exact h₃
      · exact h₃
    · exact h₂
  · exact h₂

/-- The calls of `ApplyLive`: those that only read, those of the loop and those that come after it. -/
theorem applyLive_guards {G : World → Call → Prop} (reads : ∀ w c, c.reads → G w c)
    (loop : validate request.tree = .ok () → ∀ addendums,
      (applyDests request.home (projectPresent request.found) request.published addendums
        (destApplyOrder request.published) ⟨.empty, [], 0⟩).Guards World.answer A G w)
    (after : validate request.tree = .ok () → ∀ addendums,
      (applyDests request.home (projectPresent request.found) request.published addendums
        (destApplyOrder request.published) ⟨.empty, [], 0⟩).Ensures World.answer A (fun _ => True)
          (fun r w => ∀ applied, r = .ok (applied, none) →
            (settle sha256 request applied.staged).Guards World.answer A G w) w) :
    (applyLive sha256 request).Guards World.answer A G w := by
  have hstage : (stageLive sha256 request).Guards World.answer A G w := by
    unfold stageLive
    split
    · trivial
    rename_i hvalid
    rw [guards_perform_bind]
    refine ⟨reads _ _ rfl, fun o _ => ?_⟩
    rw [World.answer_reads rfl]
    cases (w.answer o (.loadAddendums request.addendums)).2 with
    | failed => trivial
    | ok addendums =>
      refine guards_bind (loop hvalid addendums) ((after hvalid addendums).mono ?_)
      rintro r w₁ hsettle ⟨applied, failure⟩ rfl
      cases failure with
      | some e => trivial
      | none =>
        dsimp only
        split
        · refine guards_bind (hsettle applied rfl).attempt (results_true.ensures.mono ?_)
          rintro r w₂ - a rfl
          cases a <;> trivial
        · trivial
  exact guards_bind hstage (results_true.ensures.mono fun _ _ _ _ _ => trivial)

end

end Punaro.Fleet
