import Punaro.Proof.Pruning
import Punaro.Proof.Snapshot

/-!
# Collisions

A path that `ApplyLive` reports as a collision is not written. Pruning then treats it
like a path that is no longer published, and may remove it if it was in the last
snapshot: it is left alone only if its skill has no marker and the file no mark.
-/

namespace Punaro.Fleet

open Prog

variable {A : Fault → World → Call → Prop} {w w' : World} {o : Fault} {c : Call} {rel : Rel} {live path dir : Path}

/-! ## Footprints of other destinations -/

/-- The paths of the files that are written for a destination. -/
def destPaths (rel : Rel) (live : Path) : List Path :=
  [live, tmpOf live] ++ (skillDirForRel rel live).toList.flatMap fun dir =>
    [dir ++ [managedDirMarker], tmpOf (dir ++ [managedDirMarker])]

/-- Nothing is written, and no directory created, at the path when the destination is written. -/
def Apart (rel : Rel) (live path : Path) : Prop :=
  path ∉ destPaths rel live ∧ ¬path <+: live.dropLast ∧ ∀ dir ∈ skillDirForRel rel live, ¬path <+: dir

instance : Decidable (Apart rel live path) := inferInstanceAs (Decidable (_ ∧ _ ∧ _))

/-- Besides the destination and its sibling, only missing directories change. -/
theorem writesDest_cases (hc : c.writesDest path) {p : Path} (hne : p ≠ path) (htmp : p ≠ tmpOf path) :
    (w.answer o c).1.disk p = w.disk p ∨
      p <+: path.dropLast ∧ w.disk p = none ∧ (w.answer o c).1.disk p = some .dir := by
  by_cases htouches : c.touches p
  · have hpre : p <+: path.dropLast :=
      ((Call.touches_of_writesDest hc htouches).resolve_left hne).resolve_left htmp
    cases c with
    | mkdirAll p' =>
      cases hc
      rcases World.answer_whole (w := w) (o := o) (c := .mkdirAll path.dropLast) rfl with h | ⟨a, h⟩
      · exact .inl (by rw [h])
      · simp only [World.perform] at h
        split at h
        · simp only [Except.ok.injEq, Prod.mk.injEq] at h
          rw [← h.1]
          -- a directory is only created where nothing is
          by_cases hnone : w.disk p = none
          · exact .inr ⟨hpre, hnone, by simp [Disk.mkdirAll, hpre, hnone]⟩
          · exact .inl (Disk.mkdirAll_of_some hnone)
        · cases h
    | remove p' => exact (hc.elim (fun h => hne (htouches.symm.trans h)) fun h => htmp (htouches.symm.trans h)).elim
    | create p' => exact absurd (htouches.symm.trans hc) htmp
    | write => exact absurd (htouches.symm.trans hc) htmp
    | rename =>
      exact (htouches.elim (fun h => htmp (h.symm.trans hc.1)) fun h => hne (h.symm.trans hc.2)).elim
    | _ => exact absurd htouches (Call.not_touches_of_reads hc)
  · exact .inl ((World.answer_frame o w c).disk p htouches)

theorem appliesDest_cases (hc : c.appliesDest rel live) (hpath : path ∉ destPaths rel live) :
    (w.answer o c).1.disk path = w.disk path ∨
      (path <+: live.dropLast ∨ ∃ dir ∈ skillDirForRel rel live, path <+: dir) ∧ w.disk path = none ∧
        (w.answer o c).1.disk path = some .dir := by
  simp only [destPaths, List.mem_append, List.mem_cons, List.not_mem_nil, or_false, List.mem_flatMap,
    Option.mem_toList, not_or, not_exists, not_and] at hpath
  rcases hc with hc | ⟨dir, hdir, hc⟩
  · exact (writesDest_cases hc hpath.1.1 hpath.1.2).imp id fun h => ⟨.inl h.1, h.2⟩
  · refine (writesDest_cases hc (hpath.2 dir hdir).1 (hpath.2 dir hdir).2).imp id fun h => ⟨.inr ⟨dir, hdir, ?_⟩, h.2⟩
    simpa using h.1

theorem appliesDest_disk (hc : c.appliesDest rel live) (hpath : path ∉ destPaths rel live)
    (h : w.disk path ≠ none ∨ ¬path <+: live.dropLast ∧ ∀ dir ∈ skillDirForRel rel live, ¬path <+: dir) :
    (w.answer o c).1.disk path = w.disk path := by
  refine (appliesDest_cases hc hpath).resolve_right fun hnew => ?_
  obtain ⟨hpre, hnone, -⟩ := hnew
  rcases h with h | ⟨hlive, hdirs⟩
  · exact h hnone
  · exact hpre.elim hlive fun ⟨dir, hdir, hpre⟩ => hdirs dir hdir hpre

/-- The turn of a destination leaves alone what is apart from it. -/
theorem applyDest_apart {home : Path} {present : Table String Path} {published addendums : Table Rel Bytes}
    {applied : Applied} {P : Path → Prop} (hlive : liveDestPath home present rel = some live)
    (hapart : ∀ path, P path → Apart rel live path) :
    (applyDest home present published addendums rel applied).Retains World.answer A (fun w' => ∀ path, P path → w'.disk
      path = w.disk path) w := by
  refine (applyDest_makes hlive).ensures (J := fun w' : World => ∀ path, P path → w'.disk path = w.disk path) ?_
    fun _ _ => rfl
  intro o c w' _ hc hsame
  have hnext : ∀ path, P path → (w'.answer o c).1.disk path = w.disk path := fun path hpath =>
    (appliesDest_disk hc (hapart path hpath).1 (.inr (hapart path hpath).2)).trans (hsame path hpath)
  exact ⟨hnext, hnext⟩

/-! ## What is reported -/

theorem liveCollision_ensures :
    (liveCollision rel live).Ensures World.answer A (fun w' => w' = w)
      (fun r w' => w' = w ∧ (r = .ok true → rehydrateRel rel → ¬Marked (w.disk live))) w := by
  refine (reads_ensures liveCollision_reads).and (J := fun _ => True) ?_
  unfold liveCollision
  rw [ensures_perform_bind]
  intro o _
  refine ⟨trivial, ?_⟩
  cases hanswer : (w.answer o (.lstat live)).2 with
  | failed => exact nofun
  | ok kind =>
    have hkind := World.answer_lstat hanswer
    rw [World.answer_reads rfl]
    split
    · exact nofun
    · exact nofun
    · rw [ensures_bind]
      refine results_true.ensures.mono ?_
      rintro (e | found) w₁ -
      · exact nofun
      · dsimp only
        split <;> exact nofun
    · rw [ensures_bind]
      refine Call.ensures_orElse (fun _ _ => trivial) (fun w₁ body hread _ => ?_) fun _ _ _ _ => nofun
      intro hr hrel hmarked
      unfold Marked at hmarked
      rw [World.perform_readFile hread] at hmarked
      simp only [contents] at hmarked
      simp [hrel, hmarked] at hr
    · rename_i hregular heq
      cases heq
      intro _ _ hmarked
      -- only a file has contents
      unfold Marked contents at hmarked
      split at hmarked
      · rename_i hnode
        rw [hnode] at hkind
        exact hregular (Option.some.inj hkind)
      · exact absurd hmarked (by decide)

theorem destCollision_ensures :
    (destCollision rel live).Ensures World.answer A (fun w' => w' = w)
      (fun r w' => w' = w ∧ (r = .ok true → skillDirForRel rel live = none → rehydrateRel rel →
        ¬Marked (w.disk live))) w := by
  refine (reads_ensures destCollision_reads).and (J := fun _ => True) ?_
  unfold destCollision
  split
  · rename_i dir hdir
    refine results_true.ensures.mono fun r w' _ _ hnone => ?_
    cases hdir.symm.trans hnone
  · exact (liveCollision_ensures.weaken fun _ _ => trivial).mono fun r w' h hr _ => h.2 hr

/-- A directory without a marker makes every file of its skill collide. -/
theorem destCollision_unmanaged (hdir : skillDirForRel rel live = some dir) (hthere : w.disk dir ≠ none)
    (hmarker : ¬w.disk.managed dir) :
    (destCollision rel live).Ensures World.answer A (fun w' => w' = w) (fun r w' => w' = w ∧ r ≠ .ok false) w := by
  refine (reads_ensures destCollision_reads).and (J := fun _ => True) ?_
  have hunmanaged : (unmanagedSkillDir dir).Ensures World.answer A (fun _ => True) (fun r _ => r ≠ .ok false) w := by
    unfold unmanagedSkillDir
    rw [ensures_perform_bind]
    intro o _
    refine ⟨trivial, ?_⟩
    split
    · rename_i hanswer
      have hkind := World.answer_lstat hanswer
      rw [eq_comm, Option.map_eq_none_iff] at hkind
      exact absurd hkind hthere
    · rw [ensures_bind, World.answer_reads rfl]
      refine (isManagedDir_ensures.weaken fun _ _ => trivial).mono ?_
      rintro (e | managed) w₁ ⟨-, hmanaged⟩
      · exact nofun
      · intro hr
        simp only [Except.ok.injEq, Bool.not_eq_false'] at hr
        exact hmarker (hmanaged (by rw [hr]))
    · exact nofun
  unfold destCollision
  simp only [hdir]
  rw [ensures_bind]
  refine hunmanaged.mono ?_
  rintro (e | unmanaged) w₁ h
  · exact nofun
  · cases unmanaged with
    | true => exact nofun
    | false => exact absurd rfl h

variable {home : Path} {present : Table String Path} {published addendums : Table Rel Bytes} {applied : Applied}

/-- A turn reports or stages at most its own destination. -/
theorem applyDest_others : (applyDest home present published addendums rel applied).Results fun applied' =>
    ∀ rel' ≠ rel, (rel' ∈ applied'.result.collisions ↔ rel' ∈ applied.result.collisions) ∧
      applied'.staged.find? rel' = applied.staged.find? rel' := by
  unfold applyDest
  split
  · exact fun _ _ => ⟨Iff.rfl, rfl⟩
  · refine results_true.bind fun collision _ => ?_
    split
    · intro rel' hne
      simp [hne]
    · refine results_true.bind fun _ _ => results_true.bind fun _ _ => results_true.bind fun _ _ => ?_
      intro rel' hne
      exact ⟨Iff.rfl, by simp [Table.find?_put, hne]⟩

/-- The turn of a destination reports it, and leaves the world as it is, or reports nothing. -/
theorem applyDest_reported {P : Prop} (hlive : liveDestPath home present rel = some live)
    (h : (destCollision rel live).Ensures World.answer A (fun w' => w' = w) (fun r w' => w' = w ∧ (r = .ok true → P)) w) :
    (applyDest home present published addendums rel applied).Ensures World.answer A (fun _ => True)
      (fun r w' => ∀ applied', r = .ok applied' →
        (applied'.result.collisions = applied.result.collisions ++ [rel] ∧ w' = w ∧ P) ∨
        applied'.result.collisions = applied.result.collisions) w := by
  unfold applyDest
  simp only [hlive]
  rw [ensures_bind]
  refine (h.weaken fun _ _ => trivial).mono ?_
  rintro (e | collision) w₁ ⟨rfl, hcollision⟩
  · simp
  dsimp only
  split
  · rename_i htrue
    rintro _ ⟨⟩
    exact .inl ⟨rfl, rfl, hcollision (by rw [htrue])⟩
  · have hresults : (do
        let existing ← readLive live
        let next := composeDest rel ((published.find? rel).getD []) published addendums existing
        writeRegularDest live next
        markSkill rel live
        return ⟨applied.staged.put rel next, { applied.result with written := applied.result.written + 1 }⟩ :
          Program Applied).Results fun applied' => applied'.result.collisions = applied.result.collisions :=
      results_true.bind fun _ _ => results_true.bind fun _ _ => results_true.bind fun _ _ => rfl
    exact hresults.ensures.mono fun r w' h applied' hr => .inr (h applied' hr)

theorem applyDest_unmanaged (hlive : liveDestPath home present rel = some live)
    (hdir : skillDirForRel rel live = some dir) (hthere : w.disk dir ≠ none) (hmarker : ¬w.disk.managed dir) :
    (applyDest home present published addendums rel applied).Retains World.answer A (fun w' => w' = w) w := by
  unfold applyDest
  simp only [hlive]
  refine ensures_bind.2 ?_
  refine (destCollision_unmanaged hdir hthere hmarker).mono ?_
  rintro (e | collision) w₁ ⟨rfl, hne⟩
  · rfl
  · cases collision with
    | true => rfl
    | false => exact absurd rfl hne

/-! ## The condition -/

/-- Removing what belongs to the destination may remove what is at the path. -/
def Covers (dest : Rel × Path) (path : Path) : Prop :=
  dest.2 = path ∨ ∃ dir ∈ skillDirForRel dest.1 dest.2, dir <+: path

/-- The destinations of a request. -/
def ApplyLiveRequest.dests (request : ApplyLiveRequest) : List (Rel × Path) :=
  destsOf request.home (projectPresent request.found) (request.published.rows.map Prod.fst)

/-- The condition on a reported path: no other file is written there, and if the pruning passes look at it, then as
a file outside of skills or as a file of the same skill; in the latter case the skill exists without a marker, the
file does not carry the mark, and no file of another skill is written in the way. -/
structure Shielded (request : ApplyLiveRequest) (w : World) (rel : Rel) (live : Path) : Prop where
  apart : ∀ dest ∈ request.dests, dest.1 ≠ rel → Apart dest.1 dest.2 live
  alike : ∀ dest ∈ pruneCandidates request (w.roots request.root), Covers dest live →
    skillDirForRel dest.1 dest.2 = skillDirForRel rel live
  unmanaged : ∀ dir ∈ skillDirForRel rel live,
    (∃ dest ∈ pruneCandidates request (w.roots request.root), Covers dest live) →
    w.disk dir ≠ none ∧ ¬w.disk.managed dir ∧ ¬Marked (w.disk live) ∧
      ∀ dest ∈ request.dests, skillDirForRel dest.1 dest.2 ≠ some dir →
        dir ∉ destPaths dest.1 dest.2 ∧ Apart dest.1 dest.2 (dir ++ [managedDirMarker])

variable {request : ApplyLiveRequest} {w₀ : World} {sha256 : Bytes → String}

/-- While destinations are written: the file, and the skill if the pruning passes look at the file, are as they
were. -/
def Untouched (request : ApplyLiveRequest) (w₀ : World) (rel : Rel) (live : Path) (w : World) : Prop :=
  w.disk live = w₀.disk live ∧ ∀ dir ∈ skillDirForRel rel live,
    (∃ dest ∈ pruneCandidates request (w₀.roots request.root), Covers dest live) →
    w.disk dir = w₀.disk dir ∧ w.disk (dir ++ [managedDirMarker]) = w₀.disk (dir ++ [managedDirMarker])

/-- The turn of another destination. -/
theorem Untouched.applyDest {rel' : Rel} (hshield : Shielded request w₀ rel live) (h : Untouched request w₀ rel live w)
    (hne : rel' ≠ rel) (hpublished : rel' ∈ request.published.rows.map Prod.fst) :
    (applyDest request.home (projectPresent request.found) published addendums rel' applied).Ensures World.answer A
      (Untouched request w₀ rel live) (fun _ => Untouched request w₀ rel live) w := by
  cases hlive' : liveDestPath request.home (projectPresent request.found) rel' with
  | none =>
    rw [applyDest_none hlive']
    exact h
  | some live' =>
    have hdest : (rel', live') ∈ request.dests := mem_destsOf.2 ⟨hpublished, hlive'⟩
    by_cases hskill : ∃ dir, skillDirForRel rel live = some dir ∧ skillDirForRel rel' live' = some dir ∧
        ∃ dest ∈ pruneCandidates request (w₀.roots request.root), Covers dest live
    · -- a file of the same skill collides as well
      obtain ⟨dir, hdir, hdir', hcovers⟩ := hskill
      obtain ⟨hthere, hmarker, -⟩ := hshield.unmanaged dir hdir hcovers
      obtain ⟨hsame, hsame'⟩ := h.2 dir hdir hcovers
      refine ((applyDest_unmanaged hlive' hdir' (by rwa [hsame]) ?_).weaken fun w' hw' => hw' ▸ h).mono
        fun r w' hw' => hw' ▸ h
      unfold Disk.managed
      rwa [hsame']
    · refine (applyDest_makes hlive').ensures (J := Untouched request w₀ rel live) ?_ h
      rintro o c w' - hc ⟨hfile, hmark⟩
      have hlive := hshield.apart _ hdest hne
      have hnext : Untouched request w₀ rel live (w'.answer o c).1 := by
        refine ⟨(appliesDest_disk hc hlive.1 (.inr hlive.2)).trans hfile, fun dir hdir hcovers => ?_⟩
        obtain ⟨hthere, -, -, hapart⟩ := hshield.unmanaged dir hdir hcovers
        obtain ⟨hdirs, hmarker⟩ := hapart _ hdest fun hdir' => hskill ⟨dir, hdir, hdir', hcovers⟩
        obtain ⟨hsame, hsame'⟩ := hmark dir hdir hcovers
        exact ⟨(appliesDest_disk hc hdirs (.inl (by rwa [hsame]))).trans hsame,
          (appliesDest_disk hc hmarker.1 (.inr hmarker.2)).trans hsame'⟩
      exact ⟨hnext, hnext⟩

/-- What the loop knows of a path it has reported. -/
def Reported (request : ApplyLiveRequest) (w₀ : World) (rel : Rel) (live : Path) (w : World) : Prop :=
  Untouched request w₀ rel live w ∧
    (skillDirForRel rel live = none → rehydrateRel rel → ¬Marked (w₀.disk live))

/-- **The loop.** A path that is still to come has not been touched, and neither has one that was reported. -/
theorem applyDests_reported (hshield : Shielded request w₀ rel live)
    (hlive : liveDestPath request.home (projectPresent request.found) rel = some live) (rels : List Rel)
    (hnodup : rels.Nodup) (hpublished : ∀ rel' ∈ rels, rel' ∈ request.published.rows.map Prod.fst)
    (hahead : rel ∈ rels → rel ∉ applied.result.collisions ∧ Untouched request w₀ rel live w)
    (hbehind : rel ∈ applied.result.collisions → Reported request w₀ rel live w) :
    (applyDests request.home (projectPresent request.found) published addendums rels applied).Ensures World.answer A
      (fun _ => True) (fun r w' => ∀ out, r = .ok out → rel ∈ out.1.result.collisions →
        Reported request w₀ rel live w') w := by
  induction rels generalizing applied w with
  | nil =>
    rintro _ ⟨⟩
    exact hbehind
  | cons next rels ih =>
    obtain ⟨hnext, hnodup⟩ := List.nodup_cons.1 hnodup
    have hrest := fun rel' hrel' => hpublished rel' (List.mem_cons_of_mem _ hrel')
    unfold applyDests
    rw [ensures_bind, ensures_attempt]
    by_cases heq : next = rel
    · -- its own turn
      subst heq
      obtain ⟨hnew, hsame⟩ := hahead List.mem_cons_self
      refine (applyDest_reported hlive destCollision_ensures).mono ?_
      rintro (e | applied') w₁ hresult
      · rintro _ ⟨⟩
        exact fun h => absurd h hnew
      · refine ih hnodup hrest (fun h => absurd h hnext) fun h => ?_
        rcases hresult _ rfl with ⟨-, rfl, hunmarked⟩ | hcollisions
        · refine ⟨hsame, fun hnone hrel => ?_⟩
          rw [← hsame.1]
          exact hunmarked hnone hrel
        · rw [hcollisions] at h
          exact absurd h hnew
    · -- the turn of another one
      have hkeep : (applyDest request.home (projectPresent request.found) published addendums next applied).Ensures
          World.answer A (fun _ => True) (fun _ w' => rel ∈ rels ∨ rel ∈ applied.result.collisions →
            Untouched request w₀ rel live w') w := by
        by_cases h : rel ∈ rels ∨ rel ∈ applied.result.collisions
        · have hsame := h.elim (fun h => (hahead (List.mem_cons_of_mem _ h)).2) fun h => (hbehind h).1
          exact ((hsame.applyDest hshield heq (hpublished _ List.mem_cons_self)).weaken fun _ _ => trivial).mono
            fun _ _ hw' _ => hw'
        · exact results_true.ensures.mono fun _ _ _ h' => absurd h' h
      refine (hkeep.and applyDest_others.ensures).mono ?_
      rintro (e | applied') w₁ ⟨hsame, hcollisions⟩
      · rintro _ ⟨⟩
        exact fun h => ⟨hsame (.inr h), (hbehind h).2⟩
      · have hiff := (hcollisions _ rfl rel (Ne.symm heq)).1
        refine ih hnodup hrest (fun h => ⟨?_, hsame (.inl h)⟩) fun h => ?_
        · rw [hiff]
          exact (hahead (List.mem_cons_of_mem _ h)).1
        · rw [hiff] at h
          exact ⟨hsame (.inr h), (hbehind h).2⟩

theorem skillDirForRel_skill_ne_none {scope : Scope} {skill : String} {file : Rel} (hfile : file ≠ []) :
    skillDirForRel (scope.rels ++ "skills" :: skill :: file) live ≠ none := by
  cases scope with
  | home => simp [skillDirForRel, Scope.rels, hfile]
  | project name =>
    by_cases hname : name = "skills"
    · simp [skillDirForRel, Scope.rels, afterSkills, hname]
    · simp [skillDirForRel, Scope.rels, afterSkills, hname, hfile]

/-- Outside of skills only AGENTS.md and CLAUDE.md are published. -/
theorem rehydrateRel_of_skillDirForRel_none (h : Dest rel) (hnone : skillDirForRel rel live = none) :
    rehydrateRel rel := by
  cases h with
  | agents scope => simp [rehydrateRel]; decide
  | claude scope => simp [rehydrateRel]; decide
  | skill scope skill file _ _ hfile => exact absurd hnone (skillDirForRel_skill_ne_none hfile)

/-! ## Pruning -/

/-- While destinations are removed: the file is as it was, and its skill has no marker if the pruning passes look at
the file. -/
def Spared (request : ApplyLiveRequest) (w₀ : World) (rel : Rel) (live : Path) (d : Disk) : Prop :=
  d live = w₀.disk live ∧ ∀ dir ∈ skillDirForRel rel live,
    (∃ dest ∈ pruneCandidates request (w₀.roots request.root), Covers dest live) → ¬d.managed dir

theorem spares_spared (hshield : Shielded request w₀ rel live)
    (hunmarked : skillDirForRel rel live = none → ¬Marked (w₀.disk live)) {dest : Rel × Path}
    (hdest : dest ∈ pruneCandidates request (w₀.roots request.root)) {staged : Table Rel Bytes} :
    Spares (Spared request w₀ rel live) staged dest.1 dest.2 := by
  intro d hd target hprunable o w hw
  have hcovered : Covers dest live → ∀ dir, skillDirForRel dest.1 dest.2 = some dir → ¬d.managed dir :=
    fun hcovers dir hdir => hd.2 dir ((hshield.alike dest hdest hcovers).symm.trans hdir) ⟨dest, hdest, hcovers⟩
  -- the file is not among what is removed
  have hlive : ¬(pruneCall target).touches live := by
    cases target with
    | inl dir =>
      intro hpre
      exact hcovered (.inr ⟨dir, hprunable.1, hpre⟩) dir hprunable.1 hprunable.2.1
    | inr file =>
      rintro (rfl : file = live)
      obtain ⟨hfile, hmarked⟩ := hprunable
      have hcovers : Covers dest file := .inl hfile.symm
      rcases hmarked with ⟨dir, hdir, hmanaged⟩ | hmarked
      · exact hcovered hcovers dir hdir hmanaged
      · rw [← hfile, hd.1] at hmarked
        cases hdir : skillDirForRel rel file with
        | none => exact hunmarked hdir hmarked
        | some dir => exact (hshield.unmanaged dir hdir ⟨dest, hdest, hcovers⟩).2.2.1 hmarked
  refine ⟨((World.answer_frame o w _).disk live hlive).trans hw.1, fun dir hdir hcovers => ?_⟩
  have hmarker := hw.2 dir hdir hcovers
  unfold Disk.managed at hmarker ⊢
  rcases pruneCall_disk (w := w) (o := o) target (dir ++ [managedDirMarker]) with h | h
  · rwa [h]
  · rw [h]
    exact nofun

instance (dest : Rel × Path) (path : Path) : Decidable (Covers dest path) := inferInstanceAs (Decidable (_ ∨ _))

/-! ## The whole call -/

theorem destApplyOrder_nodup {files : Table Rel Bytes} : (destApplyOrder files).Nodup := by
  unfold destApplyOrder
  exact (List.perm_insertionSort ..).nodup_iff.2 files.nodup

theorem stageLive_spares (hlive : liveDestPath request.home (projectPresent request.found) rel = some live)
    (hshield : Shielded request w rel live) :
    (stageLive sha256 request).Ensures World.answer A (fun _ => True)
      (fun r w' => ∃ out, r = .ok out ∧ (rel ∈ out.1.result.collisions → w'.disk live = w.disk live)) w := by
  refine stageLive_ensures trivial (fun _ => nofun) fun hvalid addendums w₁ _ => ?_
  have hkeys : ∀ rel' ∈ destApplyOrder request.published, rel' ∈ request.published.rows.map Prod.fst := by
    intro rel' hrel'
    obtain ⟨body, hbody⟩ := mem_destApplyOrder.1 hrel'
    exact List.mem_map.2 ⟨_, Table.find?_eq_some_iff_mem.1 hbody, rfl⟩
  have huntouched : Untouched request w rel live w := ⟨rfl, fun _ _ _ => ⟨rfl, rfl⟩⟩
  refine (((applyDests_reported hshield hlive _ destApplyOrder_nodup hkeys
    (fun _ => ⟨List.not_mem_nil, huntouched⟩) fun h => absurd h List.not_mem_nil).and
    (applyDests_results _ (fun _ => mem_destApplyOrder.1) .start).ensures).and (local_ensures (applyDests_local _) request.root)).mono ?_
  rintro (e | ⟨applied, _ | e⟩) w₁ ⟨⟨hreported, hpublished⟩, hroots⟩
  · trivial
  · obtain ⟨hstaged, hcollisions⟩ := hpublished _ rfl
    simp only [AfterLoop]
    split
    · by_cases hrel : rel ∈ applied.result.collisions
      · obtain ⟨⟨hsame, hskill⟩, hunmarked⟩ := hreported _ rfl hrel
        obtain ⟨body, hbody⟩ := hcollisions rel hrel
        have hspared : Spared request w rel live w₁.disk := by
          refine ⟨hsame, fun dir hdir hcovers => ?_⟩
          unfold Disk.managed
          rw [(hskill dir hdir hcovers).2]
          exact (hshield.unmanaged dir hdir hcovers).2.1
        have hmark : skillDirForRel rel live = none → ¬Marked (w.disk live) := fun hnone =>
          hunmarked hnone (rehydrateRel_of_skillDirForRel_none (published_dest hvalid rel body hbody).1 hnone)
        refine ((settle_ensures hspared hstaged
          (fun dest hdest => spares_spared hshield hmark (List.mem_append_right _ (by rwa [hroots] at hdest)))
          fun dest hdest _ => spares_spared hshield hmark (List.mem_append_left _ (by rwa [hroots] at hdest))).weaken
          fun _ _ => trivial).mono ?_
        rintro (e | u) w₂ hw₂
        · exact fun _ => hw₂.1
        · exact fun _ => hw₂.1
      · refine results_true.ensures.mono ?_
        rintro (e | u) w₂ -
        · exact fun h => absurd h hrel
        · exact fun h => absurd h hrel
    · exact fun hrel => (hreported _ rfl hrel).1.1
  · exact fun hrel => (hreported _ rfl hrel).1.1

/-- AGENTS.md after the user has replaced it. -/
def rewrittenAgents : World :=
  ((applyLive textDigest (agentsRequest "one")).play World.answer steady emptyWorld).1.setDisk ["h", "AGENTS.md"]
    (some (.file (ascii "mine")))

/-- The paths a successful call has reported. -/
def reportedBy : Option (Except Err (ApplyLiveResult × Option Err)) → List Rel
  | some (.ok (result, none)) => result.collisions
  | _ => []

/-- The call that follows. -/
def afterRewritten : World × Option (Except Err (ApplyLiveResult × Option Err)) :=
  (applyLive textDigest (agentsRequest "two")).play World.answer steady rewrittenAgents

theorem exists_of_mem_reportedBy {r : Option (Except Err (ApplyLiveResult × Option Err))} (h : rel ∈ reportedBy r) :
    ∃ result, r = some (.ok (result, none)) ∧ rel ∈ result.collisions := by
  unfold reportedBy at h
  split at h
  · exact ⟨_, rfl, h⟩
  · cases h

/-! ## A skill without its marker -/

def skillText : String := "---\nname: go\ndescription: d\n---\n"

/-- The configuration with one AGENTS.md and one skill. -/
def skillRequest : ApplyLiveRequest :=
  ⟨[⟨["AGENTS.md"], ascii "one"⟩, ⟨["skills", "go", "SKILL.md"], ascii skillText⟩], ["r"], ["h"], [], []⟩

/-- The skill after the user has taken it over by deleting its marker. -/
def takenOver : World :=
  ((applyLive textDigest skillRequest).play World.answer steady emptyWorld).1.setDisk
    ["h", ".agents", "skills", "go", managedDirMarker] none

/-- The next call, with the same configuration. -/
def afterTakenOver : World × Option (Except Err (ApplyLiveResult × Option Err)) :=
  (applyLive textDigest skillRequest).play World.answer steady takenOver

end Punaro.Fleet
