import Punaro.Proof.UserKept

/-!
# Interrupted installs

A skill that was not there is installed by a run of `ApplyLive` that may stop at any
point. Whatever of it is on the disk then, a later run takes it for its own if the
directory of the skill is not there or has its marker. The marker comes last, so a run
that stops between the first file and the marker leaves a directory that every later run
takes for a directory of the user.
-/

namespace Punaro.Fleet

open Prog Search

variable {A : Fault → World → Call → Prop} {w w' w₀ : World} {o : Fault} {c : Call} {rel : Rel} {live dir : Path}
  {body : Bytes} {published addendums staged : Table Rel Bytes} {applied : Applied} {request : ApplyLiveRequest}
  {sha256 : Bytes → String} {file dest : Rel × Path}

/-! ## What is written -/

theorem nextBody_nextBody (hpublished : published.All fun rel body => rehydrateRel rel → Free body)
    (haddendums : addendums.All fun _ body => Free body) :
    nextBody published addendums rel (nextBody published addendums rel body) = nextBody published addendums rel body := by
  unfold nextBody composeDest
  split
  · rfl
  · rename_i hrel
    have hrel : rehydrateRel rel := by simpa using hrel
    split
    · exact rehydrate_rehydrate (free_agents hpublished hrel)
        ((free_resolveAddendum haddendums).block_append (free_resolveAddendum haddendums).block) _
    · exact rehydrate_rehydrate (free_published hpublished hrel) (free_resolveAddendum haddendums) _

/-- What a first run writes is written over itself unchanged. -/
def Steady (request : ApplyLiveRequest) (addendums : Table Rel Bytes) : Prop :=
  ∀ rel, nextBody request.published addendums rel (nextBody request.published addendums rel []) =
    nextBody request.published addendums rel []

theorem isManagedContent_rehydrate {addendum : Bytes} (existing : Bytes) :
    isManagedContent (rehydrate body addendum existing) := by
  rw [isManagedContent, ← Bool.not_eq_false, contains_eq_false, not_not]
  refine ⟨block body, [newline] ++ addendumStart ++ [newline] ++ block addendum ++ addendumEnd ++ [newline] ++
    userStart ++ pad (carriedUser existing) ++ userEnd ++ [newline], ?_⟩
  simp [rehydrate, composeManaged]

theorem isManagedContent_nextBody (hrel : rehydrateRel rel) :
    isManagedContent (nextBody published addendums rel body) := by
  unfold nextBody composeDest
  rw [if_neg (by simp [hrel])]
  split
  · exact isManagedContent_rehydrate _
  · exact isManagedContent_rehydrate _

/-! ## A skill that is being installed -/

/-- The files of a skill, by its directory. -/
def ApplyLiveRequest.skillFiles (request : ApplyLiveRequest) (dir : Path) : List (Rel × Path) :=
  request.dests.filter fun dest => skillDirForRel dest.1 dest.2 = some dir

theorem mem_skillFiles : file ∈ request.skillFiles dir ↔
    file ∈ request.dests ∧ skillDirForRel file.1 file.2 = some dir := by
  simp [ApplyLiveRequest.skillFiles]

/-- A file has one destination. -/
theorem eq_of_dests {other : Path} (h : (rel, live) ∈ request.dests) (h' : (rel, other) ∈ request.dests) : other = live := by
  have hlive := (mem_destsOf.1 h).2
  rw [(mem_destsOf.1 h').2, Option.some.injEq] at hlive
  exact hlive

/-- The paths of a skill: its marker, its directory and its files. -/
def ApplyLiveRequest.OfSkill (request : ApplyLiveRequest) (dir path : Path) : Prop :=
  path = dir ++ [managedDirMarker] ∨ path = dir ∨ ∃ file ∈ request.skillFiles dir, path = file.2

/-- The condition on the paths of a request: the files of the skill are not in each other's way, and no other
destination is in the way of the files, of the directory or of the marker. -/
structure Separate (request : ApplyLiveRequest) (dir : Path) : Prop where
  marker : ∀ file ∈ request.skillFiles dir, MarkerApart file.1 file.2
  files : ∀ file ∈ request.skillFiles dir, ∀ dest ∈ request.dests, dest.1 ≠ file.1 → Apart dest.1 dest.2 file.2
  others : ∀ dest ∈ request.dests, skillDirForRel dest.1 dest.2 ≠ some dir →
    Apart dest.1 dest.2 dir ∧ Apart dest.1 dest.2 (dir ++ [managedDirMarker])

/-- Every file of the skill is missing or complete, and the directory is missing or a directory. -/
structure Installing (request : ApplyLiveRequest) (addendums : Table Rel Bytes) (dir : Path) (d : Disk) : Prop where
  files : ∀ file ∈ request.skillFiles dir,
    d file.2 = none ∨ d file.2 = some (.file (nextBody request.published addendums file.1 []))
  dir : d dir = none ∨ d dir = some .dir

/-- The directory is missing or has its marker. -/
def Owned (dir : Path) (d : Disk) : Prop := d dir = none ∨ d.managed dir

instance (d : Disk) : Decidable (Owned dir d) :=
  @instDecidableOr _ _ (decidable_of_iff ((d dir).isNone = true) Option.isNone_iff_eq_none) inferInstance

theorem Installing.congr {d d' : Disk} (h : Installing request addendums dir d)
    (hsame : ∀ path, request.OfSkill dir path → d' path = d path) : Installing request addendums dir d' := by
  refine ⟨fun file hfile => ?_, ?_⟩
  · rw [hsame _ (.inr (.inr ⟨file, hfile, rfl⟩))]
    exact h.files file hfile
  · rw [hsame _ (.inr (.inl rfl))]
    exact h.dir

/-- The turn of one file of the skill: its other files are as before, and there is at most a directory. -/
structure Beside (request : ApplyLiveRequest) (dir : Path) (rel : Rel) (d d' : Disk) : Prop where
  files : ∀ file ∈ request.skillFiles dir, file.1 ≠ rel → d' file.2 = d file.2
  dir : d' dir = none ∨ d' dir = some .dir

/-- What is written over a file of the skill is the same file. -/
theorem Installing.nextBody_eq (h : Installing request addendums dir w.disk) (hfile : file ∈ request.skillFiles dir)
    (hsteady : Steady request addendums) {existing : Bytes} (hread : ReadAs A w file.2 existing) :
    nextBody request.published addendums file.1 existing = nextBody request.published addendums file.1 [] := by
  rcases hread with rfl | ⟨rfl, -⟩
  · rcases h.files file hfile with hnode | hnode
    · rw [hnode]
      rfl
    · rw [hnode]
      exact hsteady file.1
  · rfl

/-! ## One turn -/

section

variable (hsep : Separate request dir) (hsteady : Steady request addendums)

include hsep

/-- The turn of another destination. -/
theorem applyDest_separate (hdest : (rel, live) ∈ request.dests) (hdir : skillDirForRel rel live ≠ some dir) :
    (applyDest request.home (projectPresent request.found) published addendums rel applied).Retains World.answer A
      (fun w' => ∀ path, request.OfSkill dir path → w'.disk path = w.disk path) w := by
  refine applyDest_apart (mem_destsOf.1 hdest).2 ?_
  rintro path (rfl | rfl | ⟨file, hfile, rfl⟩)
  · exact (hsep.others _ hdest hdir).2
  · exact (hsep.others _ hdest hdir).1
  · refine hsep.files file hfile _ hdest fun heq => hdir ?_
    obtain ⟨hmem, hskill⟩ := mem_skillFiles.1 hfile
    obtain rfl : rel = file.1 := heq
    rwa [eq_of_dests hmem hdest]

/-- The turn of a file of the skill leaves its other files alone, and creates at most the directory. -/
theorem applyDest_siblings (hfile : (rel, live) ∈ request.skillFiles dir) (h : w.disk dir = none ∨ w.disk dir = some .dir) :
    (applyDest request.home (projectPresent request.found) published addendums rel applied).Retains World.answer A
      (fun w' => Beside request dir rel w.disk w'.disk) w := by
  obtain ⟨hdest, hskill⟩ := mem_skillFiles.1 hfile
  have hlive := (mem_destsOf.1 hdest).2
  have hpaths : dir ∉ destPaths rel live := by
    have hlength := skillDirForRel_length (liveDestPath_ne_nil hlive) hskill
    have htmp : ∀ path : Path, path ≠ [] → (tmpOf path).length = path.length := by
      intro path hpath
      simp only [tmpOf, List.length_append, List.length_dropLast, List.length_singleton]
      have := List.length_pos_of_ne_nil hpath
      omega
    have hne : ∀ path : Path, dir.length < path.length → dir ≠ path := by
      rintro path hlt rfl
      exact lt_irrefl _ hlt
    simp only [destPaths, hskill, Option.toList_some, List.flatMap_cons, List.flatMap_nil, List.append_nil,
      List.mem_append, List.mem_cons, List.not_mem_nil, or_false, not_or]
    exact ⟨⟨hne _ hlength, hne _ (by rw [htmp live (liveDestPath_ne_nil hlive)]; exact hlength)⟩,
      hne _ (by simp), hne _ (by rw [htmp _ (by simp)]; simp)⟩
  refine (applyDest_makes hlive).ensures (J := fun w' : World => Beside request dir rel w.disk w'.disk) ?_
    ⟨fun _ _ _ => rfl, h⟩
  rintro o c w' - hc ⟨hfiles, hdir⟩
  have hnext : Beside request dir rel w.disk (w'.answer o c).1.disk := by
    refine ⟨fun file hfile' hne => ?_, ?_⟩
    · have hapart := hsep.files file hfile' _ hdest (Ne.symm hne)
      exact (appliesDest_disk hc hapart.1 (.inr hapart.2)).trans (hfiles file hfile' hne)
    · rcases appliesDest_cases (w := w') (o := o) hc hpaths with hsame | ⟨-, -, hnew⟩
      · rwa [hsame]
      · exact .inr hnew
  exact ⟨hnext, hnext⟩

include hsteady

/-- **A turn keeps the skill as it is being installed**, whatever its calls are answered; if it ends without an error
the directory has its marker, or is still missing. -/
theorem applyDest_installing (hrel : rel ∈ request.published.rows.map Prod.fst)
    (h : Installing request addendums dir w.disk) :
    (applyDest request.home (projectPresent request.found) request.published addendums rel applied).Ensures World.answer
      A (fun w' => Installing request addendums dir w'.disk)
      (fun r w' => Installing request addendums dir w'.disk ∧ ∀ applied', r = .ok applied' →
        Owned dir w.disk → Owned dir w'.disk) w := by
  cases hlive : liveDestPath request.home (projectPresent request.found) rel with
  | none =>
    rw [applyDest_none hlive]
    exact ⟨h, fun _ _ howned => howned⟩
  | some live =>
    have hdest : (rel, live) ∈ request.dests := mem_destsOf.2 ⟨hrel, hlive⟩
    by_cases hdir : skillDirForRel rel live = some dir
    · -- a file of the skill: it is complete or missing at any moment of its own turn
      have hfile : (rel, live) ∈ request.skillFiles dir := mem_skillFiles.2 ⟨hdest, hdir⟩
      have hnext : ∀ w' : World, Turn A request.published addendums rel live w w' →
          Beside request dir rel w.disk w'.disk → Installing request addendums dir w'.disk := by
        rintro w' ⟨existing, hread, hnode⟩ ⟨hfiles, hdir'⟩
        refine ⟨fun file hfile' => ?_, hdir'⟩
        by_cases heq : file.1 = rel
        · subst heq
          rw [h.nextBody_eq hfile hsteady hread] at hnode
          rw [eq_of_dests hdest (mem_skillFiles.1 hfile').1]
          rcases hnode with hnode | hnode | hnode
          · rw [hnode]
            exact h.files _ hfile
          · exact .inl hnode
          · exact .inr hnode
        · rw [hfiles file hfile' heq]
          exact h.files file hfile'
      refine (((applyDest_ensures hlive (hsep.marker _ hfile)).both (applyDest_siblings hsep hfile h.dir)).weaken
        fun w' hw' => hnext w' hw'.1 hw'.2).mono ?_
      rintro r w' ⟨⟨hturn, hresult⟩, hsiblings⟩
      refine ⟨hnext w' hturn hsiblings, fun applied' hr howned => ?_⟩
      rcases hresult applied' hr with ⟨-, rfl⟩ | ⟨next, -, hwritten⟩
      · exact howned
      · exact .inr (hwritten.marked dir hdir)
    · refine ((applyDest_separate hsep hdest hdir).weaken fun w' hsame => ?_).mono fun r w' hsame => ⟨?_, ?_⟩
      · exact h.congr hsame
      · exact h.congr hsame
      · intro applied' _ howned
        unfold Owned Disk.managed
        rwa [hsame _ (.inr (.inl rfl)), hsame _ (.inl rfl)]

end

/-! ## A turn without faults -/

/-- The call does not fail for a reason of its own. -/
def answered (o : Fault) (_ : World) (_ : Call) : Prop := o.failure = none

instance (o : Fault) (w : World) (c : Call) : Decidable (answered o w c) := inferInstanceAs (Decidable (_ = _))

theorem World.answer_of_perform {a : c.Result} (ho : o.failure = none) (h : w.perform c = .ok (w', a)) :
    w.answer o c = (w', .ok a) := by
  simp [World.answer, ho, h]

theorem isManagedDir_answered (h : w.disk.managed dir) :
    (isManagedDir dir).Ensures World.answer answered (fun _ => True) (fun r w' => w' = w ∧ r = .ok true) w := by
  unfold isManagedDir
  rw [ensures_perform_bind]
  intro o ho
  rw [World.answer_of_perform ho rfl, h]
  exact ⟨trivial, rfl, rfl⟩

/-- The skill does not collide. -/
theorem unmanagedSkillDir_answered (hdir : w.disk dir = none ∨ w.disk dir = some .dir) (howned : Owned dir w.disk) :
    (unmanagedSkillDir dir).Ensures World.answer answered (fun _ => True) (fun r w' => w' = w ∧ r = .ok false) w := by
  unfold unmanagedSkillDir
  rw [ensures_perform_bind]
  intro o ho
  rw [World.answer_of_perform ho rfl]
  refine ⟨trivial, ?_⟩
  rcases hdir with hdir | hdir
  · rw [hdir]
    exact ⟨rfl, rfl⟩
  · have hmanaged : w.disk.managed dir := howned.resolve_left (by rw [hdir]; exact nofun)
    rw [hdir]
    change (isManagedDir dir >>= _).Ensures World.answer answered _ _ w
    rw [ensures_bind]
    refine (isManagedDir_answered hmanaged).mono ?_
    rintro r w' ⟨rfl, rfl⟩
    exact ⟨rfl, rfl⟩

/-- A file that is missing, or that has the mark if it needs one, does not collide. -/
theorem liveCollision_answered (h : w.disk live = none ∨ ∃ body, w.disk live = some (.file body) ∧
    (rehydrateRel rel → isManagedContent body)) :
    (liveCollision rel live).Ensures World.answer answered (fun _ => True) (fun r _ => r ≠ .ok true) w := by
  unfold liveCollision
  rw [ensures_perform_bind]
  intro o ho
  rw [World.answer_of_perform ho rfl]
  refine ⟨trivial, ?_⟩
  rcases h with h | ⟨body, h, hmarked⟩
  · rw [h]
    exact nofun
  · rw [h]
    change (Call.orFail (.readFile live) unsafeTree >>= _).Ensures World.answer answered _ _ w
    rw [ensures_bind]
    refine Call.ensures_orElse (fun _ _ => trivial) (fun w₁ found hread _ => ?_) fun _ _ _ _ => nofun
    have hfound := World.perform_readFile hread
    rw [h] at hfound
    cases hfound
    intro hr
    simp only [Except.ok.injEq, Bool.and_eq_true, Bool.not_eq_true'] at hr
    exact absurd (hmarked hr.1) (by simp [hr.2])

/-- **The turn of a file of the skill**, without faults: the file is written as by a first run. -/
theorem applyDest_installed (hsep : Separate request dir)
    (hsteady : Steady request addendums) (hfile : (rel, live) ∈ request.skillFiles dir) (h : Installing request addendums dir w.disk) (howned : Owned dir w.disk) :
    (applyDest request.home (projectPresent request.found) request.published addendums rel applied).Ensures World.answer
      answered (fun _ => True) (fun r w' => ∀ applied', r = .ok applied' →
        applied'.result.collisions = applied.result.collisions ∧
        applied'.staged = applied.staged.put rel (nextBody request.published addendums rel []) ∧
        w'.disk live = some (.file (nextBody request.published addendums rel []))) w := by
  obtain ⟨hdest, hdir⟩ := mem_skillFiles.1 hfile
  have hlive := (mem_destsOf.1 hdest).2
  have hcollision : (destCollision rel live).Ensures World.answer answered (fun w' => w' = w)
      (fun r w' => w' = w ∧ (r = .ok true → False)) w := by
    refine (reads_ensures destCollision_reads).and (J := fun _ => True) ?_
    unfold destCollision
    simp only [hdir]
    rw [ensures_bind]
    refine (unmanagedSkillDir_answered h.dir howned).mono ?_
    rintro r w₁ ⟨rfl, rfl⟩
    exact liveCollision_answered ((h.files _ hfile).imp id fun hnode => ⟨_, hnode, isManagedContent_nextBody⟩)
  refine (((applyDest_ensures hlive (hsep.marker _ hfile)).weaken fun _ _ => trivial).and
    (applyDest_reported hlive hcollision)).mono ?_
  rintro r w' ⟨⟨-, hresult⟩, hcollisions⟩ applied' hr
  have hsame := (hcollisions applied' hr).resolve_left fun h => h.2.2
  rcases hresult applied' hr with ⟨hreported, -⟩ | ⟨next, rfl, hwritten⟩
  · rw [hreported] at hsame
    exact absurd hsame (by simp)
  · obtain ⟨existing, hread, rfl⟩ := hwritten.composed
    have hbody := h.nextBody_eq hfile hsteady hread
    rw [← hbody]
    exact ⟨rfl, rfl, hwritten.file⟩

/-! ## The loop -/

/-- The file was written as by a first run, and not reported. -/
structure Installed (request : ApplyLiveRequest) (addendums : Table Rel Bytes) (applied : Applied) (w : World)
    (file : Rel × Path) : Prop where
  unreported : file.1 ∉ applied.result.collisions
  staged : applied.staged.find? file.1 ≠ none
  file : w.disk file.2 = some (.file (nextBody request.published addendums file.1 []))

section

variable (hsep : Separate request dir) (hsteady : Steady request addendums)

include hsep hsteady

theorem applyDests_installing (rels : List Rel) (hrels : ∀ rel ∈ rels, rel ∈ request.published.rows.map Prod.fst)
    (h : Installing request addendums dir w.disk) :
    (applyDests request.home (projectPresent request.found) request.published addendums rels applied).Retains
      World.answer A (fun w' => Installing request addendums dir w'.disk) w := by
  induction rels generalizing applied w with
  | nil => exact h
  | cons rel rels ih =>
    unfold applyDests
    refine ensures_bind.2 (ensures_attempt.2 ?_)
    refine (applyDest_installing hsep hsteady (hrels rel List.mem_cons_self) h).mono ?_
    rintro (e | applied') w₁ ⟨h₁, -⟩
    · exact h₁
    · exact ih (fun rel' hrel' => hrels rel' (List.mem_cons_of_mem _ hrel')) h₁

/-- The loop without faults: what is behind it is installed, what is ahead is not reported. -/
theorem applyDests_installed (rels : List Rel) (hnodup : rels.Nodup)
    (hrels : ∀ rel ∈ rels, rel ∈ request.published.rows.map Prod.fst)
    (h : Installing request addendums dir w.disk) (howned : Owned dir w.disk)
    (hahead : ∀ file ∈ request.skillFiles dir, file.1 ∈ rels → file.1 ∉ applied.result.collisions)
    (hbehind : ∀ file ∈ request.skillFiles dir, file.1 ∉ rels → Installed request addendums applied w file) :
    (applyDests request.home (projectPresent request.found) request.published addendums rels applied).Ensures
      World.answer answered (fun _ => True) (fun r w' => ∀ applied', r = .ok (applied', none) →
        ∀ file ∈ request.skillFiles dir, Installed request addendums applied' w' file) w := by
  induction rels generalizing applied w with
  | nil =>
    rintro _ ⟨⟩ file hfile
    exact hbehind file hfile List.not_mem_nil
  | cons rel rels ih =>
    obtain ⟨hnext, hnodup⟩ := List.nodup_cons.1 hnodup
    have hrel := hrels rel List.mem_cons_self
    have hrest := fun rel' hrel' => hrels rel' (List.mem_cons_of_mem _ hrel')
    -- what one turn does to the files of the skill
    have hturn : (applyDest request.home (projectPresent request.found) request.published addendums rel applied).Ensures
        World.answer answered (fun _ => True) (fun r w' => ∀ applied', r = .ok applied' →
          ∀ file ∈ request.skillFiles dir, if file.1 = rel then Installed request addendums applied' w' file
            else w'.disk file.2 = w.disk file.2) w := by
      cases hlive : liveDestPath request.home (projectPresent request.found) rel with
      | none =>
        rw [applyDest_none hlive]
        rintro _ ⟨⟩ file hfile
        split
        · rename_i heq
          have hsome := (mem_destsOf.1 (mem_skillFiles.1 hfile).1).2
          rw [heq, hlive] at hsome
          cases hsome
        · rfl
      | some live =>
        have hdest : (rel, live) ∈ request.dests := mem_destsOf.2 ⟨hrel, hlive⟩
        by_cases hdir : skillDirForRel rel live = some dir
        · have hfile : (rel, live) ∈ request.skillFiles dir := mem_skillFiles.2 ⟨hdest, hdir⟩
          refine ((applyDest_installed hsep hsteady hfile h howned).and (applyDest_siblings hsep hfile h.dir)).mono ?_
          rintro r w' ⟨hown, hsiblings, -⟩ applied' hr file hfile'
          obtain ⟨hcollisions, hstaged, hdisk⟩ := hown applied' hr
          split
          · rename_i heq
            subst heq
            refine ⟨?_, ?_, ?_⟩
            · rw [hcollisions]
              exact hahead file hfile' List.mem_cons_self
            · rw [hstaged, Table.find?_put, if_pos rfl]
              simp
            · rwa [eq_of_dests hdest (mem_skillFiles.1 hfile').1]
          · exact hsiblings file hfile' ‹_›
        · refine ((applyDest_separate hsep hdest hdir).weaken fun _ _ => trivial).mono ?_
          intro r w' hsame applied' _ file hfile
          rw [if_neg]
          · exact hsame _ (.inr (.inr ⟨file, hfile, rfl⟩))
          · rintro rfl
            obtain ⟨hmem, hskill⟩ := mem_skillFiles.1 hfile
            exact hdir (eq_of_dests hdest hmem ▸ hskill)
    unfold applyDests
    rw [ensures_bind, ensures_attempt]
    refine ((((applyDest_installing hsep hsteady hrel h).weaken fun _ _ => trivial).and hturn).and
      applyDest_others.ensures).mono ?_
    rintro (e | applied') w₁ ⟨⟨⟨h₁, howned₁⟩, hfiles⟩, hothers⟩
    · simp
    · refine ih hnodup hrest h₁ (howned₁ _ rfl howned) (fun file hfile hmem => ?_) fun file hfile hnot => ?_
      · have hne : file.1 ≠ rel := fun heq => hnext (heq ▸ hmem)
        rw [(hothers _ rfl _ hne).1]
        exact hahead file hfile (List.mem_cons_of_mem _ hmem)
      · have hfile₁ := hfiles _ rfl file hfile
        split at hfile₁
        · exact hfile₁
        · rename_i hne
          obtain ⟨hunreported, hstaged, hdisk⟩ := hbehind file hfile (by simp [hne, hnot])
          obtain ⟨hiff, hfind⟩ := hothers _ rfl _ hne
          exact ⟨by rwa [hiff], by rwa [hfind], hfile₁.trans hdisk⟩

end

/-! ## The whole call -/

/-- The addendums below a root. -/
def World.loads (w : World) (root : Path) : Except Err (Table Rel Bytes) :=
  loadAddendums (if root = [] then [] else w.addendums root)

theorem World.perform_loadAddendums {root : Path} (h : w.perform (.loadAddendums root) = .ok (w', addendums)) :
    w.loads root = .ok addendums := by
  simp only [World.perform] at h
  unfold World.loads
  split at h
  · rename_i hload
    cases h
    exact hload
  · cases h

/-- No addendum of the request opens a region of the user. -/
def FreeAddendums (request : ApplyLiveRequest) (w : World) : Prop :=
  ∀ addendums, w.loads request.addendums = .ok addendums → addendums.All fun _ body => Free body

theorem nextBody_steady (hvalid : validate request.tree = .ok ()) (hfree : FreeAddendums request w)
    (hload : w.loads request.addendums = .ok addendums) : Steady request addendums :=
  fun _ => nextBody_nextBody (published_free hvalid) (hfree addendums hload)

theorem mem_published_of_order : ∀ rel ∈ destApplyOrder request.published, rel ∈ request.published.rows.map Prod.fst := by
  intro rel hrel
  obtain ⟨body, hbody⟩ := mem_destApplyOrder.1 hrel
  exact List.mem_map.2 ⟨_, Table.find?_eq_some_iff_mem.1 hbody, rfl⟩

/-- What is removed after the loop is missing; nothing else happens to the skill. -/
theorem spares_installing : Spares (Installing request addendums dir) staged dest.1 dest.2 := by
  rintro d - target - o w h
  refine ⟨fun file hfile => ?_, ?_⟩
  · rcases pruneCall_disk (w := w) (o := o) target file.2 with hsame | hgone
    · rw [hsame]
      exact h.files file hfile
    · exact .inl hgone
  · rcases pruneCall_disk (w := w) (o := o) target dir with hsame | hgone
    · rw [hsame]
      exact h.dir
    · exact .inl hgone

/-- **Any call**, at any moment: every file of the skill is missing or complete. -/
theorem applyLive_installing (hsep : Separate request dir) (hfree : FreeAddendums request w)
    (hload : w.loads request.addendums = .ok addendums) (h : Installing request addendums dir w.disk) :
    (applyLive sha256 request).Retains World.answer A (fun w' => Installing request addendums dir w'.disk) w := by
  refine applyLive_retains (I := fun w' => Installing request addendums dir w'.disk) h
    (fun _ _ => mem_destApplyOrder.1) (fun hvalid addendums' w₁ hperform => ?_)
    fun h hstaged => settle_ensures h hstaged (fun _ _ => spares_installing) fun _ _ _ => spares_installing
  have hload' := World.perform_loadAddendums hperform
  rw [hload, Except.ok.injEq] at hload'
  subst hload'
  exact applyDests_installing hsep (nextBody_steady hvalid hfree hload) _ mem_published_of_order h

/-- The condition on the pruning passes: at the former paths of moved projects they do not look at the skill, and of
the last snapshot at most at other files of the same skill. -/
structure Kept (request : ApplyLiveRequest) (dir : Path) (w : World) : Prop where
  former : ∀ dest ∈ formerDests request (w.roots request.root), ∀ file ∈ request.skillFiles dir, ¬Covers dest file.2
  dropped : ∀ dest ∈ snapshotDests request (w.roots request.root), ∀ file ∈ request.skillFiles dir,
    dest.1 ≠ file.1 → Covers dest file.2 →
      dest.2 ≠ file.2 ∧ (skillPrefixForRel dest.1).any (·.isPrefixOf file.1)

/-- What a removal for a destination touches is covered by it. -/
theorem Prunable.covers {d : Disk} {target : Path ⊕ Path} {path : Path} (h : Prunable d staged dest.1 dest.2 target)
    (htouches : (pruneCall target).touches path) : Covers dest path := by
  cases target with
  | inl dir => exact .inr ⟨dir, h.1, htouches⟩
  | inr file => exact .inl (h.1.symm.trans htouches)

/-- **A call without faults** that ends without an error has installed the skill. -/
theorem applyLive_installed (hsep : Separate request dir) (hfree : FreeAddendums request w)
    (hkept : Kept request dir w) (howned : Owned dir w.disk)
    (h : ∀ addendums, w.loads request.addendums = .ok addendums → Installing request addendums dir w.disk) :
    (applyLive sha256 request).Ensures World.answer answered (fun _ => True) (fun r w' => ∃ out, r = .ok out ∧
      (out.2 = none → ∃ addendums, w.loads request.addendums = .ok addendums ∧
        ∀ file ∈ request.skillFiles dir, file.1 ∉ out.1.collisions ∧
          w'.disk file.2 = some (.file (nextBody request.published addendums file.1 [])))) w := by
  refine applyLive_ensures <| stageLive_ensures trivial (by simp) fun hvalid addendums w₁ hperform => ?_
  have hload := World.perform_loadAddendums hperform
  have hordered : ∀ file ∈ request.skillFiles dir, file.1 ∈ destApplyOrder request.published := by
    intro file hfile
    obtain ⟨hmem, -⟩ := mem_destsOf.1 (mem_skillFiles.1 hfile).1
    obtain ⟨row, hrow, heq⟩ := List.mem_map.1 hmem
    exact mem_destApplyOrder.2 ⟨row.2, heq ▸ Table.find?_eq_some_iff_mem.2 hrow⟩
  refine (((applyDests_installed hsep (nextBody_steady hvalid hfree hload) _ destApplyOrder_nodup mem_published_of_order
    (h addendums hload) howned (fun _ _ _ => List.not_mem_nil)
    fun file hfile hnot => absurd (hordered file hfile) hnot).and (applyDests_results _ (fun _ => mem_destApplyOrder.1) .start).ensures).and
    (local_ensures (applyDests_local _) request.root)).mono ?_
  rintro (e | ⟨applied, _ | e⟩) w₂ ⟨⟨hinstalled, hstaged⟩, hroots⟩
  · trivial
  · have hfiles := hinstalled _ rfl
    simp only [AfterLoop]
    split
    · refine ((settle_ensures (J := fun d => ∀ file ∈ request.skillFiles dir,
          d file.2 = some (.file (nextBody request.published addendums file.1 [])))
        (fun file hfile => (hfiles file hfile).file) (hstaged _ rfl).1
        (fun dest hdest d _ target hprunable o w' hw' file hfile => ?_)
        fun dest hdest hnone d _ target hprunable o w' hw' file hfile => ?_).weaken fun _ _ => trivial).mono ?_
      rotate_left 2
      · rintro (e | u) w₃ h₃
        · simp
        · exact fun _ => ⟨addendums, hload, fun file hfile => ⟨(hfiles file hfile).unreported, h₃ file hfile⟩⟩
      · rw [hroots] at hdest
        rw [(World.answer_frame o w' _).disk _ fun htouches =>
          hkept.former dest hdest file hfile (hprunable.covers htouches)]
        exact hw' file hfile
      · rw [hroots] at hdest
        have hne : dest.1 ≠ file.1 := by
          intro heq
          rw [heq] at hnone
          exact (hfiles file hfile).staged hnone
        rw [(World.answer_frame o w' _).disk _ fun htouches => ?_]
        · exact hw' file hfile
        -- other files of the skill are removed one by one while this one is staged
        obtain ⟨hpath, hskill⟩ := hkept.dropped dest hdest file hfile hne (hprunable.covers htouches)
        cases target with
        | inl dir' =>
          obtain ⟨start, hstart, hpre⟩ := (Option.any_eq_true _ _).1 hskill
          have hunstaged := hprunable.2.2
          rw [hstart, Option.any_some] at hunstaged
          obtain ⟨body, hbody⟩ := Option.ne_none_iff_exists'.1 (hfiles file hfile).staged
          have hstaged' : stagedHasPrefix applied.staged start = true :=
            List.any_eq_true.2 ⟨_, Table.find?_eq_some_iff_mem.1 hbody, hpre⟩
          rw [hstaged'] at hunstaged
          cases hunstaged
        | inr path => exact hpath (hprunable.1.symm.trans htouches)
    · exact fun _ => ⟨addendums, hload, fun file hfile => ⟨(hfiles file hfile).unreported, (hfiles file hfile).file⟩⟩
  · rintro ⟨⟩

/-! ## Runs -/

/-- A run of the request, complete, failing or stopped anywhere, that does not end while the directory of the skill
is there without its marker. -/
def Interrupted (sha256 : Bytes → String) (request : ApplyLiveRequest) (dir : Path) (run : ApplyLiveRequest)
    (os : List Fault) (w : World) : Prop :=
  run = request ∧ Owned dir ((applyLive sha256 run).play World.answer os w).1.disk

/-- What holds of the skill between the runs. -/
structure Adoptable (request : ApplyLiveRequest) (dir : Path) (w₀ w : World) : Prop where
  addendums : w.addendums = w₀.addendums
  owned : Owned dir w.disk
  installing : ∀ addendums, w₀.loads request.addendums = .ok addendums → Installing request addendums dir w.disk

theorem adoptable_of_fresh (h : ∀ path, dir <+: path → w.disk path = none) : Adoptable request dir w w := by
  have hdir := h dir List.prefix_rfl
  refine ⟨rfl, .inl hdir, fun addendums _ => ⟨fun file hfile => .inl (h _ ?_), .inl hdir⟩⟩
  exact skillDirForRel_prefix (mem_skillFiles.1 hfile).2

theorem Adoptable.loads (h : Adoptable request dir w₀ w) (root : Path) : w.loads root = w₀.loads root := by
  unfold World.loads
  rw [h.addendums]

theorem Adoptable.run (h : Adoptable request dir w₀ w) (hsep : Separate request dir)
    (hfree : FreeAddendums request w₀) {os : List Fault}
    (howned : Owned dir ((applyLive sha256 request).play World.answer os w).1.disk) :
    Adoptable request dir w₀ ((applyLive sha256 request).play World.answer os w).1 := by
  have hframe : (applyLive sha256 request).Retains World.answer (fun _ _ _ => True) (fun w' => w'.addendums =
    w.addendums) w :=
    makes_true.ensures (J := fun w' : World => w'.addendums = w.addendums) (fun o c w' _ _ hw' =>
      ⟨(World.answer_frame o w' c).addendums.trans hw', (World.answer_frame o w' c).addendums.trans hw'⟩) rfl
  refine ⟨(hframe.left admits_true rfl).trans h.addendums, howned, fun addendums hload => ?_⟩
  have hfree' : FreeAddendums request w := by
    unfold FreeAddendums
    rwa [h.loads]
  have hload' : w.loads request.addendums = .ok addendums := by rwa [h.loads]
  exact (applyLive_installing hsep hfree' hload' (h.installing addendums hload)).left admits_true
    (h.installing addendums hload)

theorem Adoptable.history (h : Adoptable request dir w₀ w) (hsep : Separate request dir)
    (hfree : FreeAddendums request w₀) {runs : List (ApplyLiveRequest × List Fault)}
    (hruns : Throughout World.answer (applyLive sha256) (Interrupted sha256 request dir) runs w) :
    Adoptable request dir w₀ (history World.answer (applyLive sha256) runs w) := by
  induction runs generalizing w with
  | nil => exact h
  | cons run runs ih =>
    obtain ⟨run, os⟩ := run
    obtain ⟨⟨rfl, howned⟩, hrest⟩ := hruns
    exact ih (h.run hsep hfree howned) hrest

/-- What a call without faults that ended without an error has installed. -/
theorem Adoptable.installed (h : Adoptable request dir w₀ w) (hsep : Separate request dir)
    (hfree : FreeAddendums request w₀) (hkept : Kept request dir w) {os : List Fault} {result : ApplyLiveResult}
    (hos : (applyLive sha256 request).Admits World.answer answered os w)
    (hplay : (applyLive sha256 request).play World.answer os w = (w', some (.ok (result, none)))) :
    ∃ addendums, w₀.loads request.addendums = .ok addendums ∧ ∀ file ∈ request.skillFiles dir,
      file.1 ∉ result.collisions ∧ w'.disk file.2 = some (.file (nextBody request.published addendums file.1 [])) := by
  have hfree' : FreeAddendums request w := by
    unfold FreeAddendums
    rwa [h.loads]
  have hinstalling : ∀ addendums, w.loads request.addendums = .ok addendums →
      Installing request addendums dir w.disk := by
    rw [h.loads]
    exact h.installing
  obtain ⟨_, ⟨⟩, hinstalled⟩ :=
    (applyLive_installed hsep hfree' hkept h.owned hinstalling).ended hos trivial hplay
  rw [h.loads] at hinstalled
  exact hinstalled rfl

/-- Whether a run has ended without an error. -/
def completed : Option (Except Err (ApplyLiveResult × Option Err)) → Bool
  | some (.ok (_, none)) => true
  | _ => false

theorem exists_of_completed {r : Option (Except Err (ApplyLiveResult × Option Err))} (h : completed r) :
    ∃ result, r = some (.ok (result, none)) := by
  unfold completed at h
  split at h
  · exact ⟨_, rfl⟩
  · cases h

def goDir : Path := ["h", ".agents", "skills", "go"]

/-- A run that is stopped once the skill has its marker. -/
def stoppedMarked : List (ApplyLiveRequest × List Fault) := [(skillRequest, steady.take 30)]

/-- The next run. -/
def afterStopped : World × Option (Except Err (ApplyLiveResult × Option Err)) :=
  (applyLive textDigest skillRequest).play World.answer steady
    (history World.answer (applyLive textDigest) stoppedMarked emptyWorld)

/-- A run that is not interrupted. -/
def uninterrupted : World × Option (Except Err (ApplyLiveResult × Option Err)) :=
  (applyLive textDigest skillRequest).play World.answer steady emptyWorld

/-- A run that is stopped between the first file and the marker. -/
def stoppedUnmarked : List (ApplyLiveRequest × List Fault) := [(skillRequest, steady.take 20)]

end Punaro.Fleet
