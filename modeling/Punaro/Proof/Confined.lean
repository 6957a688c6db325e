import Punaro.Proof.Collisions

/-!
# Confined removals

The directories that `ApplyLive` removes, and those that it marks, are the directories of
skills: marked ones were named by the tree that is applied, removed ones were in the last
snapshot. This rests on the way back from a path to the directory of its skill, which
goes wrong for a project called `skills`.
-/

namespace Punaro.Fleet

open Prog

/-! ## The paths in an apply root -/

/-- Every path in a directory of the apply root meets `N`. -/
def Root.Names (N : Rel → Prop) (r : Root) : Prop :=
  ∀ slot files, r.slots slot = some (.tree files) → files.All fun rel _ => N rel

/-- A path that the call stages meets `N`. -/
def Call.stages (N : Rel → Prop) (root : Path) : Call → Prop
  | .writeStaged r rel _ => r = root → N rel
  | _ => True

variable {A : Fault → World → Call → Prop} {N : Rel → Prop} {r : Root} {root : Path} {w : World} {o : Fault} {c : Call}
  {rel : Rel} {files : Table Rel Bytes}

theorem Root.Names.fresh : Root.Names N .fresh := nofun

theorem Root.Names.set {slot : Slot} {entry : Option Entry} (h : r.Names N)
    (hentry : ∀ files, entry = some (.tree files) → files.All fun rel _ => N rel) : (r.set slot entry).Names N := by
  intro slot' files hfiles
  unfold Root.set at hfiles
  simp only [Function.update_apply] at hfiles
  split at hfiles
  · exact hentry files hfiles
  · exact h slot' files hfiles

/-- The directories of the root after one of them has changed, in this root or another one. -/
theorem Root.Names.setRoot {p : Path} {r : Root} (h : (w.roots root).Names N) (hr : p = root → r.Names N) :
    ((w.setRoot p r).roots root).Names N := by
  rw [World.setRoot_roots, Function.update_apply]
  split
  · rename_i heq
    exact hr heq.symm
  · exact h

theorem Root.Names.perform {w' : World} {a : c.Result} (h : (w.roots root).Names N) (hc : c.stages N root)
    (hperform : w.perform c = .ok (w', a)) : (w'.roots root).Names N := by
  cases c with
  | removeSlot =>
    cases hperform
    exact h.setRoot fun heq => (heq ▸ h).set nofun
  | mkdirSlot =>
    simp only [World.perform] at hperform
    split at hperform <;> cases hperform
    · refine h.setRoot fun heq => (heq ▸ h).set fun files hfiles => ?_
      cases hfiles
      exact .empty
    · exact h
  | writeStaged =>
    simp only [World.perform] at hperform
    split at hperform
    · rename_i hslot
      split at hperform <;> cases hperform
      refine h.setRoot fun heq => (heq ▸ h).set fun files hfiles => ?_
      cases hfiles
      subst heq
      exact (h _ _ hslot).put (hc rfl)
    · cases hperform
  | renameSlot p slot slot' =>
    obtain ⟨entry, hentry, -, rfl⟩ := World.perform_renameSlot hperform
    refine h.setRoot fun heq => ?_
    subst heq
    have hgone : ((w.roots p).set slot none).Names N := h.set nofun
    exact hgone.set fun files hfiles => h slot files (by rw [hentry, hfiles])
  | writeState =>
    cases hperform
    exact h.setRoot fun heq => heq ▸ h
  | _ =>
    intro slot files hfiles
    rw [(World.perform_frame hperform).slots root slot id] at hfiles
    exact h slot files hfiles

theorem Root.Names.answer (h : (w.roots root).Names N) (hc : c.stages N root) :
    ((w.answer o c).1.roots root).Names N := by
  have hbroken : ((w.broken o c).roots root).Names N := by
    cases c with
    | removeSlot =>
      simp only [World.broken]
      split
      · rename_i hslot
        refine h.setRoot fun heq => (heq ▸ h).set fun files hfiles => ?_
        cases hfiles
        subst heq
        intro rel body hbody
        exact h _ _ hslot rel body (Table.find?_deleteWhere_eq_some.1 hbody).1
      · exact h
    | writeStaged =>
      simp only [World.broken]
      split
      · rename_i hslot
        refine h.setRoot fun heq => (heq ▸ h).set fun files hfiles => ?_
        cases hfiles
        subst heq
        exact (h _ _ hslot).put (hc rfl)
      · exact h
    | renameSlot | mkdirSlot =>
      simp only [World.broken]
      split
      · rename_i hperform
        exact h.perform hc hperform
      · exact h
    | _ =>
      intro slot files hfiles
      rw [(World.broken_frame (w := w) (o := o)).slots root slot id] at hfiles
      exact h slot files hfiles
  unfold World.answer
  split
  · split
    · rename_i hperform
      exact h.perform hc hperform
    · exact h
  · exact h
  · exact hbroken

theorem Call.stages_of_publishes (hfiles : files.All fun rel _ => N rel) {p : Path} (hc : c.publishes p files) :
    c.stages N root := by
  cases c with
  | writeStaged r rel body => exact fun _ => hfiles rel body (Table.find?_eq_some_iff_mem.2 hc.2)
  | _ => trivial

theorem Call.stages_of_local (hc : c.Local) : c.stages N root := by
  cases c with
  | writeStaged => exact fun heq => (hc.1 root .staging ⟨heq, rfl⟩).elim
  | _ => trivial

theorem mem_snapshotRels_names (h : r.Names N) (hrel : rel ∈ snapshotRels r) : N rel := by
  unfold snapshotRels at hrel
  split at hrel
  · rename_i files hfiles
    obtain ⟨row, hrow, rfl⟩ := List.mem_map.1 hrel
    exact h _ files hfiles row.1 row.2 (Table.find?_eq_some_iff_mem.2 hrow)
  · cases hrel

variable {sha256 : Bytes → String} {request : ApplyLiveRequest} {staged : Table Rel Bytes}

theorem settle_names (h : (w.roots root).Names N) (hstaged : staged.All fun rel _ => N rel) :
    (settle sha256 request staged).Retains World.answer A (fun w => (w.roots root).Names N) w := by
  have hreads : ∀ {α : Type} {q : Program α}, Reads q → q.Makes (Call.stages N root) :=
    fun hq => hq.mono fun _ hc => Call.stages_of_local (Call.local_of_reads hc)
  have hprune : ∀ {home : Path} {present : Table String Path} {staged : Table Rel Bytes} (rels : List Rel),
      (pruneManagedLiveDests home present rels staged).Makes (Call.stages N root) := fun rels =>
    (pruneManagedLiveDests_makes rels).mono fun _ hc => Call.stages_of_local (Call.local_of_prunesRels hc)
  have hpublish : (publishStaged sha256 request staged).Makes (Call.stages N root) :=
    (hreads loadDestProjectPaths_reads).bind fun _ => (hreads destSnapshotRels_reads).bind fun _ =>
      (hprune _).bind fun _ => publishTree_makes.mono fun _ => Call.stages_of_publishes hstaged
  have hpersist : (persistDestProjectPaths request.root (projectPresent request.found)).Makes (Call.stages N root) :=
    Call.makes_orElse_bind trivial fun _ => Call.makes_orElse trivial
  have hmakes : (settle sha256 request staged).Makes (Call.stages N root) := by
    refine Call.makes_orElse_bind trivial fun _ => (hreads loadDestProjectPaths_reads).bind fun _ =>
      (pruneMovedProjectDests_local.mono fun _ => Call.stages_of_local).bind fun _ =>
      (hreads sameDestSnapshot_reads).bind fun same => ?_
    split
    · exact hpublish.bind fun _ => hpersist
    · exact hpersist
  exact hmakes.ensures (J := fun w : World => (w.roots root).Names N) (fun _ _ _ _ hc h => ⟨h.answer hc, h.answer hc⟩) h

/-- A whole call keeps the paths in an apply root among those that meet `N`, if all that is published does. -/
theorem applyLive_names (h : (w.roots root).Names N)
    (hpublished : validate request.tree = .ok () → request.published.All fun rel _ => N rel) :
    (applyLive sha256 request).Retains World.answer A (fun w => (w.roots root).Names N) w := by
  refine applyLive_retains h (fun hvalid rel hrel => ?_) (fun _ addendums w₁ _ => ?_) settle_names
  · obtain ⟨body, hbody⟩ := mem_destApplyOrder.1 hrel
    exact hpublished hvalid rel body hbody
  exact (applyDests_local _).ensures (J := fun w : World => (w.roots root).Names N)
    (fun _ _ _ _ hc h => ⟨h.answer (Call.stages_of_local hc), h.answer (Call.stages_of_local hc)⟩) h

/-! ## The calls -/

/-- The tree of the request has a file of the skill for this machine. -/
def ApplyLiveRequest.Names (request : ApplyLiveRequest) (scope : Scope) (skill : String) : Prop :=
  ∃ file, file ≠ [] ∧ scope.rels ++ "skills" :: skill :: file ∈ request.published.rows.map Prod.fst

/-- What is required of a call: a directory that is removed is that of a skill of the snapshot, in the home directory
or in a project, and an earlier request has named the skill; a marker that is written is that of a skill that the
request names. -/
def Confines (earlier : List ApplyLiveRequest) (request : ApplyLiveRequest) (r : Root) : Call → Prop
  | .removeAll dir => ∃ scope skill file base, file ≠ [] ∧
      Scope.rels scope ++ "skills" :: skill :: file ∈ snapshotRels r ∧
      (∃ before ∈ earlier, before.Names scope skill) ∧
      scope.base request.home (destPresent (projectPresent request.found) (recordedPaths r)) = some base ∧
      dir = base ++ [".agents", "skills", skill]
  | .rename _ path => path.getLast? = some managedDirMarker → ∃ scope skill base, request.Names scope skill ∧
      Scope.base request.home (projectPresent request.found) scope = some base ∧
      path = base ++ [".agents", "skills", skill, managedDirMarker]
  | .create path => path.getLast? ≠ some managedDirMarker
  | _ => True

/-- The condition on a request: no project is called `skills`, no project has moved since the last apply, and no file
is called like the marker. -/
structure Orderly (request : ApplyLiveRequest) (w : World) : Prop where
  names : ∀ project ∈ request.found, project.name ≠ "skills"
  unmoved : ∀ project ∈ (recordedPaths (w.roots request.root)).rows, ¬moved (projectPresent request.found) project
  files : ∀ rel ∈ request.published.rows.map Prod.fst, rel.getLast? ≠ some managedDirMarker

/-- What is known of a published path. -/
structure PublishedBy (request : ApplyLiveRequest) (rel : Rel) : Prop where
  dest : Dest rel
  apart : ¬["projects", "skills"] <+: rel
  mem : rel ∈ request.published.rows.map Prod.fst

variable {earlier : List ApplyLiveRequest} {live dir : Path} {present : Table String Path}

theorem projectPresent_mem {found : List ProjectMatch} {name : String} (h : (projectPresent found).find? name ≠ none) :
    ∃ project ∈ found, project.name = name := by
  unfold projectPresent at h
  have hall : (found.foldl (fun (present : Table String Path) project =>
      if project.name ≠ "" ∧ project.path ≠ [] then present.put project.name project.path else present) .empty).All
      fun name _ => ∃ project ∈ found, project.name = name := by
    refine Table.All.empty.foldl fun present project hproject hpresent => ?_
    split
    · exact hpresent.put ⟨project, hproject, rfl⟩
    · exact hpresent
  obtain ⟨path, hpath⟩ := Option.ne_none_iff_exists'.1 h
  exact hall name path hpath

theorem Orderly.published (h : Orderly request w) (hvalid : validate request.tree = .ok ()) :
    request.published.All fun rel _ => PublishedBy request rel := by
  intro rel body hbody
  obtain ⟨hdest, hpresent⟩ := published_dest hvalid rel body hbody
  refine ⟨hdest, ?_, List.mem_map.2 ⟨_, Table.find?_eq_some_iff_mem.1 hbody, rfl⟩⟩
  rintro ⟨rest, rfl⟩
  obtain ⟨project, hproject, hname⟩ := projectPresent_mem (Option.isSome_iff_ne_none.1 (hpresent "skills" rest rfl))
  exact h.names project hproject hname

/-- The skill of a published file. -/
theorem PublishedBy.skillDir {home : Path} (h : PublishedBy request rel) (hlive : liveDestPath home present rel = some live)
    (hdir : skillDirForRel rel live = some dir) :
    ∃ scope skill file base, rel = Scope.rels scope ++ "skills" :: skill :: file ∧ file ≠ [] ∧
      request.Names scope skill ∧ scope.base home present = some base ∧ dir = base ++ [".agents", "skills", skill] := by
  obtain ⟨scope, skill, file, base, rfl, hfile, hbase, rfl⟩ := h.dest.skillDir h.apart hlive hdir
  exact ⟨scope, skill, file, base, rfl, hfile, ⟨file, hfile, h.mem⟩, hbase, rfl⟩

theorem tmpOf_getLast? (path : Path) : (tmpOf path).getLast? ≠ some managedDirMarker := by
  unfold tmpOf
  rw [List.getLast?_concat]
  intro h
  have hlist := congrArg String.toList (Option.some.inj h)
  rw [String.toList_append] at hlist
  have hlast := congrArg List.getLast? hlist
  rw [List.getLast?_append_of_ne_nil _ (by decide)] at hlast
  exact absurd hlast (by decide)

theorem confines_writesDest {path : Path} (hc : c.writesDest path)
    (hmarker : path.getLast? = some managedDirMarker → ∃ scope skill base, request.Names scope skill ∧
      Scope.base request.home (projectPresent request.found) scope = some base ∧
      path = base ++ [".agents", "skills", skill, managedDirMarker]) : Confines earlier request r c := by
  cases c with
  | rename =>
    obtain ⟨-, rfl⟩ := hc
    exact hmarker
  | create p =>
    rw [show p = tmpOf path from hc]
    exact tmpOf_getLast? path
  | removeAll p => exact absurd hc Bool.false_ne_true
  | _ => trivial

theorem confines_appliesDest (h : PublishedBy request rel) (hlast : rel.getLast? ≠ some managedDirMarker)
    (hlive : liveDestPath request.home (projectPresent request.found) rel = some live) (hc : c.appliesDest rel live) :
    Confines earlier request r c := by
  rcases hc with hc | ⟨dir, hdir, hc⟩
  · refine confines_writesDest hc fun hmarker => absurd ?_ hlast
    rwa [h.dest.getLast? hlive] at hmarker
  · refine confines_writesDest hc fun _ => ?_
    obtain ⟨scope, skill, file, base, rfl, -, hnames, hbase, rfl⟩ := h.skillDir hlive hdir
    exact ⟨scope, skill, base, hnames, hbase, by simp⟩

theorem confines_reads (hc : c.reads) : Confines earlier request r c := by
  cases c <;> first | exact absurd hc Bool.false_ne_true | trivial

theorem confines_offDisk (hc : c.OffDisk) : Confines earlier request r c := by
  cases c with
  | removeAll p => exact absurd List.prefix_rfl (hc p)
  | rename p p' => exact absurd (.inl rfl) (hc p)
  | create p => exact absurd rfl (hc p)
  | _ => trivial

theorem confines_prunesRels {rels : List Rel} (hrels : ∀ rel ∈ rels, rel ∈ snapshotRels r)
    (hnames : r.Names fun rel => ∃ before ∈ earlier, PublishedBy before rel)
    (hpresent : ∀ name path, present.find? name = some path →
      (destPresent (projectPresent request.found) (recordedPaths r)).find? name = some path)
    (hc : c.prunesRels request.home present rels) : Confines earlier request r c := by
  rcases hc with hc | ⟨targets, htargets, hc⟩
  · exact confines_reads hc
  · cases c with
    | removeAll dir =>
      obtain ⟨rel, hrel, live, hlive, hdir⟩ := htargets _ hc
      obtain ⟨before, hbefore, hpublished⟩ := mem_snapshotRels_names hnames (hrels rel hrel)
      obtain ⟨scope, skill, file, base, rfl, hfile, hnamed, hbase, rfl⟩ :=
        hpublished.skillDir (liveDestPath_mono hpresent hlive) hdir
      exact ⟨scope, skill, file, base, hfile, hrels _ hrel, ⟨before, hbefore, hnamed⟩, hbase, rfl⟩
    | removeDropped file => trivial
    | _ => exact hc.elim

theorem publishStaged_guards (hnames : (w.roots request.root).Names fun rel => ∃ before ∈ earlier, PublishedBy before rel) :
    (publishStaged sha256 request staged).Guards World.answer A
      (fun _ => Confines earlier request (w.roots request.root)) w := by
  refine guards_bind (loadDestProjectPaths_reads.guards fun _ _ => confines_reads)
    (loadDestProjectPaths_ensures.mono ?_)
  rintro r w₁ ⟨rfl, hrecorded⟩ recorded rfl
  refine guards_bind (destSnapshotRels_reads.guards fun _ _ => confines_reads) (destSnapshotRels_ensures.mono ?_)
  rintro r w₁' ⟨rfl, houtgoing⟩ outgoing rfl
  refine guards_bind ((pruneManagedLiveDests_makes _).guards fun _ c hc => ?_) (results_true.ensures.mono ?_)
  · refine confines_prunesRels (fun rel hrel => houtgoing _ rfl rel (List.mem_filter.1 hrel).1) hnames ?_ hc
    rcases hrecorded _ rfl with rfl | rfl
    · exact fun _ _ h => h
    · exact fun _ _ => find?_destPresent
  · exact fun _ _ _ _ _ => publishTree_offDisk.guards fun _ _ => confines_offDisk

theorem settle_guards (hnames : (w.roots request.root).Names fun rel => ∃ before ∈ earlier, PublishedBy before rel)
    (hunmoved : ∀ project ∈ (recordedPaths (w.roots request.root)).rows,
      ¬moved (projectPresent request.found) project) :
    (settle sha256 request staged).Guards World.answer A
      (fun _ => Confines earlier request (w.roots request.root)) w := by
  have hreads : ∀ {α : Type} {q : Program α} {w₁ : World}, Reads q →
      q.Guards World.answer A (fun _ => Confines earlier request (w.roots request.root)) w₁ :=
    fun hq => hq.guards fun _ _ => confines_reads
  refine guards_bind (hreads (Call.makes_orElse rfl)) ((reads_ensures (Call.makes_orElse rfl)).mono ?_)
  rintro r w₁ rfl _ rfl
  refine guards_bind (hreads loadDestProjectPaths_reads) (loadDestProjectPaths_ensures.mono ?_)
  rintro r w₁' ⟨rfl, hprevious⟩ previous rfl
  -- no project has moved, so there is nothing to do at former paths
  have hnone : previous.rows.filter (moved (projectPresent request.found)) = [] := by
    rw [List.filter_eq_nil_iff]
    rcases hprevious _ rfl with rfl | rfl
    · exact fun project hproject => by simpa using hunmoved project hproject
    · exact nofun
  have hmoved : pruneMovedProjectDests request.home (projectPresent request.found) previous staged = .done () := by
    unfold pruneMovedProjectDests
    rw [hnone]
    rfl
  rw [hmoved, done_bind]
  refine guards_bind (hreads sameDestSnapshot_reads) ((reads_ensures sameDestSnapshot_reads).mono ?_)
  rintro r w₁'' rfl same rfl
  have hpersist : ∀ w₂ : World, (persistDestProjectPaths request.root (projectPresent request.found)).Guards
      World.answer A (fun _ => Confines earlier request (w₁''.roots request.root)) w₂ :=
    fun _ => persistDestProjectPaths_offDisk.guards fun _ _ => confines_offDisk
  dsimp only
  split
  · exact guards_bind (publishStaged_guards hnames) (results_true.ensures.mono fun _ w₂ _ _ _ => hpersist w₂)
  · exact hpersist _

/-! ## Whole runs -/

/-- A configuration with a skill. -/
def skillRun : List (ApplyLiveRequest × List Fault) := [(skillRequest, steady)]

/-! ## A project called `skills` -/

/-- A skill for a project called `skills`. -/
def skillsRequest : ApplyLiveRequest :=
  ⟨[⟨["AGENTS.md"], ascii "one"⟩, ⟨["projects", "skills", "skills", "go", "SKILL.md"], ascii skillText⟩], ["r"], ["h"],
    [], [⟨"skills", ["p"]⟩]⟩

/-- The next configuration, without the skill. -/
def withoutSkill : ApplyLiveRequest := { skillsRequest with tree := [⟨["AGENTS.md"], ascii "one"⟩] }

/-- A skill of the user, beside the one of the configuration. -/
def ownSkill : Path := ["p", ".agents", "skills", "mine"]

/-- The project after the first configuration, with a skill of the user. -/
def beforeRemoval : World :=
  (history World.answer (applyLive textDigest) [(skillsRequest, steady)] emptyWorld).setDisk ownSkill (some .dir)

def removesAll (dir : Path) : Call → Bool
  | .removeAll p => p == dir
  | _ => false

end Punaro.Fleet
