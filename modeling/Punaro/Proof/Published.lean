import Punaro.Fleet.Tree

/-!
# What is published

The files that a validated tree publishes to a machine, and where they go. Every
published path is that of an AGENTS.md or CLAUDE.md or of a file of a skill, in the home
directory or in a project (`Dest`); its destination and the directory of its skill follow
from that.
-/

namespace Punaro.Fleet

open Outcome Search

variable {tree : Tree} {present : Table String Path} {home live : Path} {rel : Rel} {body : Bytes}
variable {kind : ClassifiedPath} {F : Rel → Bytes → Prop} {dir : Path} {files : Table Rel Bytes}
  {opted : String × String}

theorem mem_destApplyOrder : rel ∈ destApplyOrder files ↔ ∃ body, files.find? rel = some body := by
  unfold destApplyOrder
  rw [List.mem_insertionSort]
  simp [Table.find?_eq_some_iff_mem]

/-! ## Classes -/

/-- The home directory, or a project. -/
inductive Scope where
  | home
  | project (name : String)

/-- How the paths of a scope begin in a tree. -/
def Scope.rels : Scope → Rel
  | .home => []
  | .project name => ["projects", name]

def Scope.Named : Scope → Prop
  | .home => True
  | .project name => entryName name

/-- Whose a skill is. -/
inductive Owner where
  | global
  | common
  | project (name : String)

/-- The directory of its skills. -/
def Owner.root : Owner → Rel
  | .global => ["skills"]
  | .common => ["common"]
  | .project name => ["projects", name, "skills"]

def Owner.scope : Owner → SkillScope
  | .global => .global
  | .common => .common
  | .project _ => .project

def Owner.projectName : Owner → String
  | .project name => name
  | _ => ""

/-- What the keys of its skills begin with. -/
def Owner.key (owner : Owner) : String := if owner.scope = .project then owner.projectName else owner.scope.text

def Owner.Named (owner : Owner) : Prop := owner.scope = .project → entryName owner.projectName

/-- The class of a file of a skill. -/
def Owner.classified (owner : Owner) (skill : String) (name : Rel) : ClassifiedPath :=
  ⟨if name = ["SKILL.md"] then .skillMarkdown else if name = ["COMMON"] then .commonOptIn else .skillData, skill,
    owner.key ++ "/" ++ skill, owner.projectName, some owner.scope⟩

/-- A path below the directory of a skill, and its class. -/
structure OfSkill (rel : Rel) (kind : ClassifiedPath) (owner : Owner) (skill : String) (name : Rel) : Prop where
  path : rel = owner.root ++ skill :: name
  classified : kind = owner.classified skill name
  owned : owner.Named
  entry : entryName skill
  nonempty : name ≠ []
  optIn : name = ["COMMON"] → owner.scope = .project

theorem classifySkillPath_eq_ok (owner : Owner) {rest : Rel} (howned : owner.Named)
    (h : classifySkillPath owner.scope owner.projectName rest = .ok kind) :
    ∃ skill name, OfSkill (owner.root ++ rest) kind owner skill name := by
  unfold classifySkillPath at h
  split at h
  · rename_i skill name rest
    simp only [ok_rules] at h
    obtain ⟨-, hskill, h⟩ := h
    refine ⟨skill, name :: rest, rfl, ?_, howned, hskill, by simp, ?_⟩
    all_goals
      split at h
      · rename_i hmarkdown
        cases h
        simp [Owner.classified, Owner.key, hmarkdown]
      · rename_i hmarkdown
        split at h
        all_goals
          rename_i hcommon
          simp only [ok_rules] at h
          obtain ⟨-, hchecked, h⟩ := h
          cases h
          simp [Owner.classified, Owner.key, hmarkdown, hcommon, hchecked]
  · cases h

/-- **A classified path** is that of an AGENTS.md or below the directory of a skill. -/
theorem classifyPath_eq_ok (h : classifyPath rel = .ok kind) :
    (∃ scope : Scope, scope.Named ∧ rel = scope.rels ++ ["AGENTS.md"] ∧ kind.skill = "" ∧
      (kind.kind = .globalAgents ∨ kind.kind = .projectAgents)) ∨
    ∃ owner skill name, OfSkill rel kind owner skill name := by
  unfold classifyPath at h
  split at h
  · cases h
    exact .inl ⟨.home, trivial, rfl, rfl, .inl rfl⟩
  · exact .inr ⟨.global, classifySkillPath_eq_ok .global nofun h⟩
  · exact .inr ⟨.common, classifySkillPath_eq_ok .common nofun h⟩
  · rename_i project name rest
    simp only [ok_rules] at h
    obtain ⟨-, hproject, h⟩ := h
    split at h
    · rename_i hagents
      cases h
      exact .inl ⟨.project project, hproject, by rw [hagents]; rfl, rfl, .inr rfl⟩
    · split at h
      · rename_i hskills
        rw [hskills]
        exact .inr ⟨.project project, classifySkillPath_eq_ok (.project project) (fun _ => hproject) h⟩
      · cases h
  · cases h
  · cases h

/-- The place of a file of a skill determines whose it is. -/
theorem root_inj {owner owner' : Owner} {skill skill' : String} {name name' : Rel}
    (h : owner.root ++ skill :: name = owner'.root ++ skill' :: name') :
    owner = owner' ∧ skill = skill' ∧ name = name' := by
  cases owner <;> cases owner' <;> simp_all [Owner.root]

theorem ofSkill_of_path {owner : Owner} {skill : String} {name : Rel} (h : classifyPath rel = .ok kind)
    (hpath : rel = owner.root ++ skill :: name) : OfSkill rel kind owner skill name := by
  rcases classifyPath_eq_ok h with ⟨scope, -, hagents, -⟩ | ⟨owner', skill', name', hskill⟩
  · rw [hagents] at hpath
    cases scope <;> cases owner <;> simp [Scope.rels, Owner.root] at hpath
  · obtain ⟨rfl, rfl, rfl⟩ := root_inj (hpath.symm.trans hskill.path)
    exact hskill

theorem classifyPath_commonOptIn (h : classifyPath rel = .ok kind) (hkind : kind.kind = .commonOptIn) :
    rel.getLast? = some "COMMON" := by
  rcases classifyPath_eq_ok h with ⟨-, -, -, -, hagents⟩ | ⟨owner, skill, name, hskill⟩
  · rw [hkind] at hagents
    simp at hagents
  · rw [hskill.classified] at hkind
    unfold Owner.classified at hkind
    dsimp only at hkind
    split at hkind
    · cases hkind
    · split at hkind
      · rename_i hcommon
        rw [hskill.path, hcommon]
        simp
      · cases hkind

/-! ## Validated trees -/

/-- What `Validate` has checked of a file. -/
structure FileOK (file : File) : Prop where
  canonical : canonicalPath file.path
  classified : ∃ kind, classifyPath file.path = .ok kind
  unreserved : rehydrateRel file.path → containsReservedLiveMarkers file.data = false

theorem validateAgents_unreserved (h : validateAgents body = .ok ()) : containsReservedLiveMarkers body = false := by
  simp only [validateAgents, ok_rules] at h
  obtain ⟨-, -, h⟩ := h
  exact h

theorem isTextPath_of_rehydrateRel (h : rehydrateRel rel) : isTextPath rel := by
  unfold isTextPath
  rw [Bool.or_eq_true]
  exact .inl h

theorem validateContent_unreserved {seen seen' : Seen} {file : File} (hkind : classifyPath file.path = .ok kind)
    (h : validateContent seen file kind = .ok seen') (hmd : rehydrateRel file.path) :
    containsReservedLiveMarkers file.data = false := by
  unfold validateContent at h
  split at h
  · simp only [bind_eq_ok] at h
    obtain ⟨_, hagents, -⟩ := h
    exact validateAgents_unreserved hagents
  · simp only [bind_eq_ok] at h
    obtain ⟨_, hagents, -⟩ := h
    exact validateAgents_unreserved hagents
  · simp only [bind_eq_ok, validateSkillMarkdown] at h
    obtain ⟨_, ⟨_, hagents, -⟩, -⟩ := h
    exact validateAgents_unreserved hagents
  · simp only [ok_rules] at h
    obtain ⟨-, -, -, hfree, -⟩ := h
    simpa [isTextPath_of_rehydrateRel hmd] using hfree
  · rename_i hcommon
    rw [rehydrateRel, classifyPath_commonOptIn hkind hcommon] at hmd
    exact absurd hmd (by decide +kernel)

theorem validate_fileOK (h : validate tree = .ok ()) : ∀ file ∈ tree, FileOK file := by
  intro file hfile
  simp only [validate, ok_rules] at h
  obtain ⟨-, -, seen, hseen, -⟩ := h
  obtain ⟨before, after, hfile⟩ := foldlM_mem hseen file hfile
  simp only [validateFile, ok_rules] at hfile
  obtain ⟨-, hcanonical, -, -, -, -, -, -, -, -, kind, hkind, hcontent⟩ := hfile
  exact ⟨hcanonical, ⟨kind, hkind⟩, validateContent_unreserved hkind hcontent⟩

/-! ## Published files -/

theorem ownFiles_all
    (hown : ∀ file ∈ tree, optIn file.path = none → ownDest present file.path → F file.path file.data) :
    (ownFiles tree present).All F := by
  refine Table.All.empty.foldl fun files file hfile hfiles => ?_
  split
  · rename_i hdest
    rw [Bool.and_eq_true, Option.isNone_iff_eq_none] at hdest
    exact hfiles.put (hown file hfile hdest.1 hdest.2)
  · exact hfiles

theorem commonFiles_all (hfiles : files.All F)
    (hcommon : ∀ file ∈ tree, ∀ opted, (∃ marker ∈ tree, optIn marker.path = some opted) →
      (present.find? opted.1).isSome → ∀ rel, commonDest opted file.path = some rel → F rel file.data) :
    (commonFiles tree present files).All F := by
  refine hfiles.foldl fun files opted hopted hfiles => hfiles.foldl fun files file hfile hfiles => ?_
  rw [List.mem_filter, List.mem_filterMap] at hopted
  split
  · rename_i rel hrel
    exact hfiles.put (hcommon file hfile opted hopted.1 hopted.2 rel hrel)
  · exact hfiles

theorem claudeFile_all {dir : Rel} (hfiles : files.All F)
    (hclaude : ∀ body, F (dir ++ ["AGENTS.md"]) body → F (dir ++ ["CLAUDE.md"]) body) :
    (claudeFile files dir).All F := by
  unfold claudeFile
  split
  · rename_i body hbody
    exact hfiles.put (hclaude body (hfiles _ _ hbody))
  · exact hfiles

/-- What holds of the files of a tree and of the copies that are made of them holds of what is published. -/
theorem expandDestFiles_all
    (hown : ∀ file ∈ tree, optIn file.path = none → ownDest present file.path → F file.path file.data)
    (hcommon : ∀ file ∈ tree, ∀ opted, (∃ marker ∈ tree, optIn marker.path = some opted) →
      (present.find? opted.1).isSome → ∀ rel, commonDest opted file.path = some rel → F rel file.data)
    (hclaude : ∀ dir body, F (dir ++ ["AGENTS.md"]) body → F (dir ++ ["CLAUDE.md"]) body) :
    (expandDestFiles tree present).All F :=
  (claudeFile_all (commonFiles_all (ownFiles_all hown) hcommon) (hclaude _)).foldl
    fun _ _ _ hfiles => claudeFile_all hfiles (hclaude _)

/-- The components of a path: ASCII characters, no slash and no zero. -/
def Clean (rel : Rel) : Prop := rel ≠ [] ∧ ∀ part ∈ rel, ∀ c ∈ part.toList, 0 < c.toNat ∧ c.toNat ≤ 127 ∧ c ≠ '/'

theorem clean_of_canonicalPath (h : canonicalPath rel) : Clean rel := by
  simp only [canonicalPath, Bool.and_eq_true, decide_eq_true_eq, List.all_eq_true] at h
  refine ⟨h.1.1, fun part hpart c hc => ?_⟩
  have hpart := h.2 part hpart
  simp only [canonicalPart, windowsSafeName, Bool.and_eq_true, List.all_eq_true, decide_eq_true_eq] at hpart
  have hsafe := (hpart.1.2.1.2 c hc).1
  have hascii := hpart.2 c hc
  exact ⟨by omega, hascii.1.1, hascii.2⟩

theorem optIn_eq_some (h : optIn rel = some opted) : rel = ["projects", opted.1, "skills", opted.2, "COMMON"] := by
  unfold optIn at h
  split at h
  · cases h
    rfl
  · cases h

theorem commonDest_eq_some {dest : Rel} (h : commonDest opted rel = some dest) :
    ∃ file, rel = "common" :: opted.2 :: file ∧ dest = "projects" :: opted.1 :: "skills" :: opted.2 :: file := by
  unfold commonDest at h
  split at h
  · rename_i skill file
    split at h
    · rename_i hskill
      cases h
      exact ⟨file, by rw [hskill], by rw [hskill]⟩
    · cases h
  · cases h

theorem published_clean (h : validate tree = .ok ()) : (expandDestFiles tree present).All fun rel _ => Clean rel := by
  have hclean : ∀ file ∈ tree, Clean file.path := fun file hfile =>
    clean_of_canonicalPath (validate_fileOK h file hfile).canonical
  refine expandDestFiles_all (fun file hfile _ _ => hclean file hfile) ?_ ?_
  · rintro file hfile opted ⟨marker, hmarker, hopted⟩ - dest hdest
    obtain ⟨name, hpath, rfl⟩ := commonDest_eq_some hdest
    have hown := hclean file hfile
    have hopt := hclean marker hmarker
    rw [hpath] at hown
    rw [optIn_eq_some hopted] at hopt
    refine ⟨by simp, fun part hpart => ?_⟩
    simp only [List.mem_cons] at hpart
    rcases hpart with rfl | rfl | rfl | rfl | hpart
    · exact hopt.2 _ (by simp)
    · exact hopt.2 _ (by simp)
    · exact hopt.2 _ (by simp)
    · exact hopt.2 _ (by simp)
    · exact hown.2 part (by simp [hpart])
  · rintro dir - hagents
    refine ⟨by simp, fun part hpart => ?_⟩
    rcases List.mem_append.1 hpart with hpart | hpart
    · exact hagents.2 part (by simp [hpart])
    · rw [List.mem_singleton] at hpart
      subst hpart
      simp

theorem free_of_unreserved (h : containsReservedLiveMarkers body = false) : Free body := by
  have hall := List.any_eq_false.1 h userStart (by simp [reservedLiveMarkers])
  exact contains_eq_false.1 (by simpa using hall)

/-- The published text of a file with a region of the user does not open one. -/
theorem published_free (h : validate tree = .ok ()) :
    (expandDestFiles tree present).All fun rel body => rehydrateRel rel → Free body := by
  have hfree : ∀ file ∈ tree, rehydrateRel file.path → Free file.data := fun file hfile hmd =>
    free_of_unreserved ((validate_fileOK h file hfile).unreserved hmd)
  refine expandDestFiles_all (fun file hfile _ _ => hfree file hfile) ?_ ?_
  · rintro file hfile opted - - dest hdest hmd
    obtain ⟨name, hpath, rfl⟩ := commonDest_eq_some hdest
    refine hfree file hfile ?_
    -- a copy has the name of the file it is made of
    have hlast : file.path.getLast? = ("projects" :: opted.1 :: "skills" :: opted.2 :: name).getLast? := by
      rw [hpath]
      simp [List.getLast?_cons]
    rwa [rehydrateRel, hlast]
  · rintro dir body hagents -
    exact hagents (by rw [rehydrateRel, List.getLast?_concat]; decide +kernel)

/-! ## Destinations -/

/-- Where a scope is on the machine. -/
def Scope.base (home : Path) (present : Table String Path) : Scope → Option Path
  | .home => if home = [] then none else some home
  | .project name => present.find? name

/-- The paths that are published: AGENTS.md, CLAUDE.md and the files of skills. -/
inductive Dest : Rel → Prop
  | agents (scope : Scope) : scope.Named → Dest (scope.rels ++ ["AGENTS.md"])
  | claude (scope : Scope) : scope.Named → Dest (scope.rels ++ ["CLAUDE.md"])
  | skill (scope : Scope) (skill : String) (file : Rel) : scope.Named → entryName skill → file ≠ [] →
    Dest (scope.rels ++ "skills" :: skill :: file)

section

variable {scope : Scope} {skill : String} {file : Rel}

theorem liveDestPath_doc {doc : String} (h : doc = "AGENTS.md" ∨ doc = "CLAUDE.md") :
    liveDestPath home present (scope.rels ++ [doc]) = (scope.base home present).map (· ++ [doc]) := by
  rcases h with rfl | rfl
  all_goals
    cases scope with
    | home => simp only [liveDestPath, Scope.rels, Scope.base, List.nil_append]; split <;> rfl
    | project name =>
      simp only [liveDestPath, Scope.rels, Scope.base, List.cons_append, List.nil_append]
      cases present.find? name <;> rfl

theorem liveDestPath_skill :
    liveDestPath home present (scope.rels ++ "skills" :: skill :: file) =
      (scope.base home present).map (· ++ ".agents" :: "skills" :: skill :: file) := by
  cases scope with
  | home =>
    simp only [liveDestPath, Scope.rels, Scope.base, List.nil_append]
    split
    · rename_i hhome
      simp [hhome.resolve_right (by simp)]
    · rename_i hhome
      simp [not_or.1 hhome]
  | project name =>
    simp only [liveDestPath, Scope.rels, Scope.base, List.cons_append, List.nil_append]
    cases present.find? name <;> simp

theorem skillDirForRel_doc {doc : String} (h : doc ≠ "skills") : skillDirForRel (scope.rels ++ [doc]) live = none := by
  cases scope with
  | home => simp [skillDirForRel, Scope.rels, afterSkills, h]
  | project name => by_cases hname : name = "skills" <;> simp [skillDirForRel, Scope.rels, afterSkills, hname, h]

/-- The directory of a skill, in a scope that is not a project called `skills`. -/
theorem skillDirForRel_skill {base : Path} (hscope : scope ≠ .project "skills") (hfile : file ≠ []) :
    skillDirForRel (scope.rels ++ "skills" :: skill :: file) (base ++ ".agents" :: "skills" :: skill :: file) =
      some (base ++ [".agents", "skills", skill]) := by
  have htake : (base ++ ".agents" :: "skills" :: skill :: file).take
      ((base ++ ".agents" :: "skills" :: skill :: file).length - file.length) =
      base ++ [".agents", "skills", skill] := by
    have hsplit : base ++ ".agents" :: "skills" :: skill :: file = (base ++ [".agents", "skills", skill]) ++ file := by
      simp
    rw [hsplit, List.length_append, Nat.add_sub_cancel, List.take_left]
  cases scope with
  | home =>
    rw [← htake]
    simp [skillDirForRel, Scope.rels, hfile]
  | project name =>
    have hname : name ≠ "skills" := fun h => hscope (by rw [h])
    rw [← htake]
    simp [skillDirForRel, Scope.rels, afterSkills, hname, hfile]

end

/-- The directory of a skill is above its files. -/
theorem skillDirForRel_length (hlive : live ≠ []) (h : skillDirForRel rel live = some dir) :
    dir.length < live.length := by
  simp only [skillDirForRel] at h
  have hpos := List.length_pos_of_ne_nil hlive
  have hdir : ∃ file : Rel, file ≠ [] ∧ dir = live.take (live.length - file.length) := by
    split at h
    · split at h <;> cases h
      exact ⟨_, ‹_›, rfl⟩
    · cases h
  obtain ⟨file, hfile, rfl⟩ := hdir
  have hfilepos := List.length_pos_of_ne_nil hfile
  rw [List.length_take]
  omega

theorem skillDirForRel_prefix (h : skillDirForRel rel live = some dir) : dir <+: live := by
  simp only [skillDirForRel] at h
  split at h
  · split at h <;> cases h
    exact List.take_prefix _ _
  · cases h

theorem skillDirForRel_not_prefix (hlive : live ≠ []) (h : skillDirForRel rel live = some dir) :
    ¬live <+: dir := fun hpre => absurd hpre.length_le (Nat.not_le_of_lt (skillDirForRel_length hlive h))

/-- The skill of a published file, outside of a project called `skills`. -/
theorem Dest.skillDir (h : Dest rel) (hname : ¬["projects", "skills"] <+: rel)
    (hlive : liveDestPath home present rel = some live) (hdir : skillDirForRel rel live = some dir) :
    ∃ scope skill file base, rel = Scope.rels scope ++ "skills" :: skill :: file ∧ file ≠ [] ∧
      scope.base home present = some base ∧ dir = base ++ [".agents", "skills", skill] := by
  cases h with
  | agents scope => cases (skillDirForRel_doc (by decide)).symm.trans hdir
  | claude scope => cases (skillDirForRel_doc (by decide)).symm.trans hdir
  | skill scope skill file _ _ hfile =>
    rw [liveDestPath_skill, Option.map_eq_some_iff] at hlive
    obtain ⟨base, hbase, rfl⟩ := hlive
    have hscope : scope ≠ .project "skills" := by
      rintro rfl
      exact hname ⟨_, rfl⟩
    rw [skillDirForRel_skill hscope hfile, Option.some.injEq] at hdir
    exact ⟨scope, skill, file, base, rfl, hfile, hbase, hdir.symm⟩

/-- The last component of a destination is that of the path. -/
theorem Dest.getLast? (h : Dest rel) (hlive : liveDestPath home present rel = some live) :
    live.getLast? = rel.getLast? := by
  cases h with
  | agents scope =>
    rw [liveDestPath_doc (.inl rfl), Option.map_eq_some_iff] at hlive
    obtain ⟨base, -, rfl⟩ := hlive
    simp
  | claude scope =>
    rw [liveDestPath_doc (.inr rfl), Option.map_eq_some_iff] at hlive
    obtain ⟨base, -, rfl⟩ := hlive
    simp
  | skill =>
    rw [liveDestPath_skill, Option.map_eq_some_iff] at hlive
    obtain ⟨base, -, rfl⟩ := hlive
    simp [List.getLast?_append, List.getLast?_cons]

theorem dest_of_classifyPath (h : classifyPath rel = .ok kind) (hown : ownDest present rel) : Dest rel := by
  rcases classifyPath_eq_ok h with ⟨scope, hscope, rfl, -⟩ | ⟨owner, skill, name, hskill⟩
  · exact .agents scope hscope
  · have hpath := hskill.path
    subst hpath
    cases owner with
    | global => exact .skill .home skill name trivial hskill.entry hskill.nonempty
    | common => cases hown
    | project project => exact .skill (.project project) skill name (hskill.owned rfl) hskill.entry hskill.nonempty

theorem Dest.claude_of_agents {dir : Rel} (h : Dest (dir ++ ["AGENTS.md"])) : Dest (dir ++ ["CLAUDE.md"]) := by
  generalize hrel : dir ++ ["AGENTS.md"] = rel at h
  cases h with
  | agents scope hscope =>
    obtain rfl := (List.append_inj' hrel rfl).1
    exact .claude scope hscope
  | claude => simpa using (List.append_inj' hrel rfl).2
  | skill scope skill file hscope hskill hfile =>
    obtain ⟨file, name, rfl⟩ := List.eq_nil_or_concat' file |>.resolve_left hfile
    have hdir : dir = scope.rels ++ "skills" :: skill :: file := by
      have heq : dir ++ ["AGENTS.md"] = (scope.rels ++ "skills" :: skill :: file) ++ [name] := by simp [hrel]
      exact (List.append_inj' heq rfl).1
    rw [hdir]
    have hclaude := Dest.skill scope skill (file ++ ["CLAUDE.md"]) hscope hskill (by simp)
    simpa using hclaude

/-- The project of the path, if it has one, is on the machine. -/
def OnMachine (present : Table String Path) (rel : Rel) : Prop :=
  ∀ name rest, rel = "projects" :: name :: rest → (present.find? name).isSome

theorem not_dest_projects {name : String} : ¬Dest ["projects", name] := by
  intro h
  generalize hrel : ["projects", name] = rel at h
  cases h with
  | agents scope => cases scope <;> simp [Scope.rels] at hrel
  | claude scope => cases scope <;> simp [Scope.rels] at hrel
  | skill scope => cases scope <;> simp [Scope.rels] at hrel

/-- **Every published path is one of these**, and its project is on the machine. -/
theorem published_dest (h : validate tree = .ok ()) :
    (expandDestFiles tree present).All fun rel _ => Dest rel ∧ OnMachine present rel := by
  refine expandDestFiles_all ?_ ?_ ?_
  · intro file hfile _ hown
    obtain ⟨kind, hkind⟩ := (validate_fileOK h file hfile).classified
    refine ⟨dest_of_classifyPath hkind hown, fun name rest hpath => ?_⟩
    rw [hpath] at hown
    exact hown
  · rintro file hfile opted ⟨marker, hmarker, hopted⟩ hpresent dest hdest
    obtain ⟨name, hpath, rfl⟩ := commonDest_eq_some hdest
    obtain ⟨kind, hkind⟩ := (validate_fileOK h file hfile).classified
    obtain ⟨kind', hkind'⟩ := (validate_fileOK h marker hmarker).classified
    have hskill : OfSkill _ _ .common opted.2 name := ofSkill_of_path hkind hpath
    have hmarked : OfSkill _ _ (.project opted.1) opted.2 ["COMMON"] := ofSkill_of_path hkind' (optIn_eq_some hopted)
    refine ⟨.skill (.project opted.1) opted.2 _ (hmarked.owned rfl) hskill.entry hskill.nonempty, fun name rest hrel => ?_⟩
    cases hrel
    exact hpresent
  · rintro dir - ⟨hdest, hpresent⟩
    refine ⟨hdest.claude_of_agents, fun name rest hdir => ?_⟩
    rcases dir with _ | ⟨first, _ | ⟨second, dir⟩⟩
    · simp at hdir
    · simp only [List.cons_append, List.nil_append, List.cons.injEq] at hdir
      rw [hdir.1] at hdest
      exact absurd hdest not_dest_projects
    · simp only [List.cons_append, List.cons.injEq] at hdir
      exact hpresent name (dir ++ ["AGENTS.md"]) (by rw [hdir.1, hdir.2.1]; rfl)

end Punaro.Fleet
