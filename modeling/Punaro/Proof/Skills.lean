import Punaro.Proof.Published

/-!
# Skills of a validated tree

`Validate` notes every skill under a key, `global/<skill>`, `common/<skill>` or
`<project>/<skill>`, and asks that the key of a data file is also that of a SKILL.md. The
key is that of the directory unless a project is named `global` or `common`: then a
SKILL.md elsewhere vouches for the files of the project, and two skills count as one.
-/

namespace Punaro.Fleet

open Outcome Search

variable {tree : Tree} {rel rel' name name' : Rel} {kind kind' : ClassifiedPath} {seen seen' : Seen} {file : File}
  {owner owner' : Owner} {skill skill' : String}

theorem slash_of_entryName (h : entryName skill) : '/' ∉ skill.toList ∧ skill ≠ "" := by
  simp only [entryName, Bool.and_eq_true, List.all_eq_true] at h
  refine ⟨fun hslash => absurd (h.2 _ hslash) (by decide), ?_⟩
  rintro rfl
  exact absurd h.1.1.1 (by decide)

/-- No other owner has its name. -/
def Owner.Own (owner : Owner) : Prop := owner ≠ .project "global" ∧ owner ≠ .project "common"

/-- A key belongs to one directory. -/
theorem OfSkill.key_inj (h : OfSkill rel kind owner skill name) (h' : OfSkill rel' kind' owner' skill' name')
    (hown : owner.Own) (hown' : owner'.Own) (hkey : kind.skillKey = kind'.skillKey) :
    owner = owner' ∧ skill = skill' := by
  have hslash : ∀ {owner : Owner}, owner.Named → '/' ∉ owner.key.toList := by
    intro owner hnamed
    cases owner with
    | project name => exact (slash_of_entryName (hnamed rfl)).1
    | global => exact (by decide : '/' ∉ "global".toList)
    | common => exact (by decide : '/' ∉ "common".toList)
  have hparts : owner.key.toList ++ '/' :: skill.toList = owner'.key.toList ++ '/' :: skill'.toList := by
    have hlist := congrArg String.toList hkey
    rw [h.classified, h'.classified] at hlist
    simpa [Owner.classified] using hlist
  obtain ⟨howner, hskill⟩ := append_cons_inj (hslash h.owned) (hslash h'.owned) hparts
  have howner := String.toList_injective howner
  refine ⟨?_, String.toList_injective hskill⟩
  cases owner <;> cases owner' <;> simp_all [Owner.Own, Owner.key, Owner.scope, Owner.projectName, SkillScope.text]

/-! ## What is noted -/

/-- What a file adds to a list, by its class. -/
def noted {α : Type} (p : ClassifiedPath → Option α) (file : File) : Option α :=
  (classifyPath file.path).toOption.bind p

def keyOf (sort : PathClass) (kind : ClassifiedPath) : Option String :=
  if kind.kind = sort then some kind.skillKey else none

def commonSkill (kind : ClassifiedPath) : Option String :=
  if kind.kind = .skillMarkdown ∧ kind.scope = some .common then some kind.skill else none

def projectSkill (kind : ClassifiedPath) : Option ((String × String) × Bool) :=
  if kind.project = "" ∨ kind.skill = "" then none else some ((kind.project, kind.skill), kind.kind = .commonOptIn)

def optInSkill (kind : ClassifiedPath) : Option String :=
  if kind.kind = .commonOptIn then some kind.skill else none

/-- What `Validate` has seen of the files, the last of them first. -/
structure Collected (files : List File) (seen : Seen) : Prop where
  paths : seen.paths = files.map File.path
  nodup : seen.paths.Nodup
  skills : seen.skills = files.filterMap (noted (keyOf .skillMarkdown))
  dataSkills : seen.dataSkills = files.filterMap (noted (keyOf .skillData))
  commonDefined : seen.commonDefined = files.filterMap (noted commonSkill)
  projectSkills : seen.projectSkills = files.filterMap (noted projectSkill)
  optIns : seen.optIns = files.filterMap (noted optInSkill)

theorem noted_eq_some {α : Type} {p : ClassifiedPath → Option α} {a : α} :
    noted p file = some a ↔ ∃ kind, classifyPath file.path = .ok kind ∧ p kind = some a := by
  unfold noted
  cases classifyPath file.path <;> simp [Except.toOption]

theorem keyOf_eq_some {sort : PathClass} {key : String} :
    keyOf sort kind = some key ↔ kind.kind = sort ∧ kind.skillKey = key := by
  simp [keyOf]

theorem filterMap_noted {α : Type} {p : ClassifiedPath → Option α} {files : List File}
    (hkind : classifyPath file.path = .ok kind) :
    (file :: files).filterMap (noted p) = (p kind).toList ++ files.filterMap (noted p) := by
  have hnoted : noted p file = p kind := by
    rw [noted, hkind]
    rfl
  rw [List.filterMap_cons, hnoted]
  cases p kind <;> rfl

/-- What the contents of one file add. -/
theorem validateContent_noted (h : validateContent seen file kind = .ok seen')
    (hagents : kind.kind = .globalAgents ∨ kind.kind = .projectAgents → kind.skill = "") :
    seen'.paths = seen.paths ∧ seen'.skills = (keyOf .skillMarkdown kind).toList ++ seen.skills ∧
      seen'.dataSkills = (keyOf .skillData kind).toList ++ seen.dataSkills ∧
      seen'.commonDefined = (commonSkill kind).toList ++ seen.commonDefined ∧
      seen'.projectSkills = (projectSkill kind).toList ++ seen.projectSkills ∧
      seen'.optIns = (optInSkill kind).toList ++ seen.optIns := by
  unfold keyOf commonSkill projectSkill optInSkill
  unfold validateContent noteProjectSkillFile at h
  split at h
  all_goals
    rename_i hsort
    simp only [ok_rules] at h
  · obtain ⟨-, -, rfl⟩ := h
    simp [hsort, hagents]
  · obtain ⟨-, -, rfl⟩ := h
    simp [hsort, hagents]
  · obtain ⟨-, -, rfl⟩ := h
    by_cases hnone : kind.project = "" ∨ kind.skill = "" <;> by_cases hcommon : kind.scope = some .common <;>
      simp [hsort, hnone, hcommon]
  · obtain ⟨-, -, -, -, rfl⟩ := h
    by_cases hnone : kind.project = "" ∨ kind.skill = "" <;> simp [hsort, hnone]
  · obtain ⟨-, -, rfl⟩ := h
    by_cases hnone : kind.project = "" ∨ kind.skill = "" <;> simp [hsort, hnone]

theorem Collected.validateFile {files : List File} (h : Collected files seen)
    (hfile : validateFile seen file = .ok seen') : Collected (file :: files) seen' := by
  simp only [Fleet.validateFile, ok_rules] at hfile
  obtain ⟨-, -, -, hnew, -, -, -, -, -, -, kind, hkind, hcontent⟩ := hfile
  have hagents : kind.kind = .globalAgents ∨ kind.kind = .projectAgents → kind.skill = "" := by
    intro hsort
    rcases classifyPath_eq_ok hkind with ⟨-, -, -, hskill, -⟩ | ⟨owner, skill, name, hskill⟩
    · exact hskill
    · rw [hskill.classified, Owner.classified] at hsort
      grind
  obtain ⟨hpaths, hskills, hdata, hcommon, hproject, hoptIns⟩ := validateContent_noted hcontent hagents
  refine ⟨?_, ?_, ?_, ?_, ?_, ?_, ?_⟩
  · rw [hpaths, h.paths]
    rfl
  · rw [hpaths]
    exact List.nodup_cons.2 ⟨hnew, h.nodup⟩
  · rw [hskills, h.skills, filterMap_noted hkind]
  · rw [hdata, h.dataSkills, filterMap_noted hkind]
  · rw [hcommon, h.commonDefined, filterMap_noted hkind]
  · rw [hproject, h.projectSkills, filterMap_noted hkind]
  · rw [hoptIns, h.optIns, filterMap_noted hkind]

theorem validate_collected (h : tree.foldlM validateFile {} = .ok seen) : Collected tree.reverse seen := by
  have hstart : Collected [] {} := ⟨rfl, .nil, rfl, rfl, rfl, rfl, rfl⟩
  have hrun := foldlM_rule (fun rest seen => ∃ files, tree = files.reverse ++ rest ∧ Collected files seen) ?_
    ⟨[], rfl, hstart⟩ h
  · obtain ⟨files, htree, hfiles⟩ := hrun
    rw [htree, List.append_nil, List.reverse_reverse]
    exact hfiles
  · rintro file rest seen seen' ⟨files, htree, hfiles⟩ hfile
    exact ⟨file :: files, by rw [htree]; simp, hfiles.validateFile hfile⟩

/-! ## Sound skills -/

/-- The name that a SKILL.md gives. -/
def skillName (data : Bytes) : Option String :=
  ((utf8 data).bind fun text => parseSkillFrontmatter text.toList).map Prod.fst

/-- Skills as they should be: where there is a data file there is a SKILL.md that names the directory; who opts in
to a common skill finds it, and has no other file there; and there are not too many. -/
structure SkillsSound (tree : Tree) : Prop where
  own : ∀ file ∈ tree, ∀ (owner : Owner) skill name, file.path = owner.root ++ skill :: name →
    name ≠ ["SKILL.md"] → optIn file.path = none →
    ∃ own ∈ tree, own.path = owner.root ++ [skill, "SKILL.md"] ∧ skillName own.data = some skill
  optIns : ∀ file ∈ tree, ∀ project skill, optIn file.path = some (project, skill) →
    (∃ own ∈ tree, own.path = ["common", skill, "SKILL.md"]) ∧
      ∀ other ∈ tree, ∀ name, other.path = "projects" :: project :: "skills" :: skill :: name → name = ["COMMON"]
  count : skillCount tree ≤ maxSkills

/-- No project with skills has the name of another owner. -/
def NamesApart (tree : Tree) : Prop :=
  ∀ file ∈ tree, ∀ (owner : Owner) skill name, file.path = owner.root ++ skill :: name → owner.Own

/-- A SKILL.md of a validated tree names its directory. -/
theorem validate_skillName (h : tree.foldlM validateFile {} = .ok seen) (hfile : file ∈ tree)
    (hkind : classifyPath file.path = .ok kind) (hsort : kind.kind = .skillMarkdown) :
    skillName file.data = some kind.skill := by
  obtain ⟨before, after, hpass⟩ := foldlM_mem h file hfile
  simp only [validateFile, hkind, ok_rules] at hpass
  obtain ⟨-, -, -, -, -, -, -, -, -, -, _, ⟨⟩, hcontent⟩ := hpass
  unfold validateContent at hcontent
  simp only [hsort, validateSkillMarkdown, ok_rules] at hcontent
  obtain ⟨-, ⟨-, -, hname⟩, -⟩ := hcontent
  obtain ⟨found, hfound, hdir⟩ := (Option.any_eq_true _ _).1 hname
  rw [skillName, hfound, Option.map_some, of_decide_eq_true hdir]

/-- A file that is classified as a SKILL.md is one. -/
theorem markdown_path (hkind : classifyPath file.path = .ok kind) (hsort : kind.kind = .skillMarkdown) :
    ∃ owner, OfSkill file.path kind owner kind.skill ["SKILL.md"] := by
  rcases classifyPath_eq_ok hkind with ⟨-, -, -, -, hagents⟩ | ⟨owner, skill, name, hskill⟩
  · rw [hsort] at hagents
    simp at hagents
  · have hclass := hskill.classified
    subst hclass
    have hname : name = ["SKILL.md"] := by
      unfold Owner.classified at hsort
      grind
    exact ⟨owner, hname ▸ hskill⟩

/-- The SKILL.md that was noted under the key of a file is in the directory of the file. -/
theorem NamesApart.markdown (h : NamesApart tree) (hfile : file ∈ tree) (hskill : OfSkill file.path kind owner skill name)
    {own : File} (hown : own ∈ tree) (hkind : classifyPath own.path = .ok kind')
    (hkey : keyOf .skillMarkdown kind' = some kind.skillKey) :
    own.path = owner.root ++ [skill, "SKILL.md"] ∧ kind'.kind = .skillMarkdown ∧ kind'.skill = skill := by
  obtain ⟨hsort, hkey⟩ := keyOf_eq_some.1 hkey
  obtain ⟨owner', hmarkdown⟩ := markdown_path hkind hsort
  obtain ⟨rfl, rfl⟩ := hskill.key_inj hmarkdown (h _ hfile _ _ _ hskill.path) (h _ hown _ _ _ hmarkdown.path) hkey.symm
  exact ⟨hmarkdown.path, hsort, rfl⟩

/-- A file of a project's skill is noted for its directory. -/
theorem OfSkill.projectSkill {project : String} (h : OfSkill rel kind (.project project) skill name) :
    projectSkill kind = some ((project, skill), decide (name = ["COMMON"])) := by
  have hproject := (slash_of_entryName (h.owned rfl)).2
  have hskill := (slash_of_entryName h.entry).2
  rw [h.classified, Owner.classified, Fleet.projectSkill, if_neg (not_or.2 ⟨hproject, hskill⟩)]
  by_cases hmarkdown : name = ["SKILL.md"]
  · simp [hmarkdown, Owner.projectName]
  · by_cases hcommon : name = ["COMMON"] <;> simp [hmarkdown, hcommon, Owner.projectName]

/-- A tree of an AGENTS.md, a skill and a data file. -/
def noteTree (note : Rel) : Tree :=
  [⟨["AGENTS.md"], ascii "hi"⟩, ⟨["skills", "go", "SKILL.md"], ascii "---\nname: go\ndescription: go\n---\n"⟩,
    ⟨note, ascii "hi"⟩]

end Punaro.Fleet
