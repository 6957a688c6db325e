import Mathlib.Data.List.Sort
import Mathlib.Data.String.Basic
import Punaro.Fleet.Region
import Punaro.Relay.State

/-!
# Trees and their destinations

A fleet configuration is a tree of files (`internal/fleetconfig/tree.go`). `Validate`
(`validate.go`) accepts it, and `apply_live.go` maps each of its files to the place on
the machine where it belongs.

* Paths are lists of components, as `strings.Split` at the slashes gives them.
* The file system is in `Punaro.Fleet.Disk`.
-/

namespace Punaro.Fleet

open Outcome Search

/-- An absolute path, by components. -/
abbrev Path := List String

/-- A path within a tree, by components. -/
abbrev Rel := List String

structure File where
  path : Rel
  data : Bytes

abbrev Tree := List File

/-- The path as text. -/
def Rel.text (rel : Rel) : String := "/".intercalate rel

def hasSuffix (text suffix : String) : Bool := suffix.toList.isSuffixOf text.toList

/-! ## Paths -/

def windowsReserved : List String :=
  ["CON", "PRN", "AUX", "NUL", "COM1", "COM2", "COM3", "COM4", "COM5", "COM6", "COM7", "COM8", "COM9",
    "LPT1", "LPT2", "LPT3", "LPT4", "LPT5", "LPT6", "LPT7", "LPT8", "LPT9"]

def windowsSafeName (part : String) : Bool :=
  !hasSuffix part " " && !hasSuffix part "." &&
    part.toList.all (fun c => 32 ≤ c.toNat && !"<>:\"|?*".toList.contains c) &&
    !windowsReserved.contains (String.ofList ((part.toList.map Char.toUpper).takeWhile (· ≠ '.')))

/-- `ustarRepresentable`: the last slash within the first 156 bytes leaves two parts of bounded length. -/
def ustarRepresentable (path : List Char) : Bool :=
  path ≠ [] && path.length ≤ 255 && path.getLast? ≠ some '/' &&
    (path.length ≤ 100 ||
      match lastIndex ['/'] (path.take 156) with
      | some i => 0 < i && i ≤ 155 && i + 1 < path.length && path.length ≤ i + 101
      | none => false)

/-- One component of a canonical path. -/
def canonicalPart (part : String) : Bool :=
  part ≠ "" && part ≠ "." && part ≠ ".." && windowsSafeName part &&
    part.toList.all fun c => c.toNat ≤ 127 && c ≠ '\\' && c ≠ '/'

/-- `canonicalPath`. -/
def canonicalPath (rel : Rel) : Bool :=
  rel ≠ [] && ustarRepresentable rel.text.toList && rel.all canonicalPart

/-- `entryNamePattern`: `^[a-z0-9]([a-z0-9._-]{0,62}[a-z0-9])?$`. -/
def entryName (name : String) : Bool :=
  let alnum := fun c : Char => c.isLower || c.isDigit
  let chars := name.toList
  (chars.head?.any alnum) && (chars.getLast?.any alnum) && chars.length ≤ 64 &&
    chars.all fun c => alnum c || c == '.' || c == '_' || c == '-'

inductive PathClass where
  | globalAgents
  | projectAgents
  | skillMarkdown
  | skillData
  | commonOptIn
deriving DecidableEq

inductive SkillScope where
  | global
  | common
  | project
deriving DecidableEq

def SkillScope.text : SkillScope → String
  | .global => "global"
  | .common => "common"
  | .project => "project"

/-- `classifiedPath`. -/
structure ClassifiedPath where
  kind : PathClass
  skill : String
  skillKey : String
  project : String
  scope : Option SkillScope

def skillPathInvalid : Err := .message "fleet-config skill path is invalid"

def classifySkillPath (scope : SkillScope) (project : String) : Rel → Except Err ClassifiedPath
  | skill :: name :: rest => do
    require (entryName skill) skillPathInvalid
    let key := (if scope = .project then project else scope.text) ++ "/" ++ skill
    let classified := fun kind => ClassifiedPath.mk kind skill key project (some scope)
    if name :: rest = ["SKILL.md"] then return classified .skillMarkdown
    if name :: rest = ["COMMON"] then
      require (scope = .project) skillPathInvalid
      return classified .commonOptIn
    require (canonicalPath (name :: rest)) (.message "fleet-config path is invalid")
    return classified .skillData
  | _ => .error skillPathInvalid

def classifyPath : Rel → Except Err ClassifiedPath
  | ["AGENTS.md"] => .ok ⟨.globalAgents, "", "", "", none⟩
  | "skills" :: rest => classifySkillPath .global "" rest
  | "common" :: rest => classifySkillPath .common "" rest
  | "projects" :: project :: name :: rest => do
    require (entryName project) (.message "fleet-config project path is invalid")
    if name :: rest = ["AGENTS.md"] then return ⟨.projectAgents, "", "", project, none⟩
    if name = "skills" then classifySkillPath .project project rest
    else .error (.message "fleet-config source layout is invalid")
  | ["projects", _] => .error (.message "fleet-config project path is invalid")
  | _ => .error (.message "fleet-config source layout is invalid")

/-! ## Contents -/

/-- The text of a file, if it is UTF-8. -/
def utf8 (data : Bytes) : Option String := String.fromUTF8? ⟨data.toArray⟩

def isTextPath (rel : Rel) : Bool :=
  hasSuffix (rel.getLast?.getD "") ".md" || hasSuffix (rel.getLast?.getD "") ".txt"

def reservedLiveMarkers : List Bytes :=
  [trailerStart, trailerEnd, userStart, userEnd, addendumStart, addendumEnd, managedMark]

def containsReservedLiveMarkers (data : Bytes) : Bool := reservedLiveMarkers.any fun marker => contains marker data

def textInvalid : Err := .message "fleet-config text file is invalid"

def hasReservedMarkers : Err := .message "fleet-config source must not contain reserved live markers"

def validateAgents (data : Bytes) : Except Err Unit := do
  require ((utf8 data).isSome ∧ 0 ∉ data) textInvalid
  require (containsReservedLiveMarkers data = false) hasReservedMarkers

def unclosedScalar (value : List Char) : Bool :=
  [('[', ']'), ('\x7b', '\x7d'), ('\x22', '\x22'), ('\x27', '\x27')].any fun quote =>
    value.head? == some quote.1 && value.getLast? != some quote.2

/-- One line of the front matter: the name and the description found so far. -/
def frontmatterLine (found : String × String) (line : List Char) : Option (String × String) :=
  let line := line.rdropWhile (· == '\r')
  let trimmed := trimSpace (String.ofList line)
  if trimmed = "" ∨ trimmed.toList.head? = some '#' then some found
  else
    match index [':'] line with
    | none => none
    | some i =>
      let key := trimSpace (String.ofList (line.take i))
      let value := trimSpace (String.ofList (line.drop (i + 1)))
      if key = "" ∨ ' ' ∈ key.toList ∨ '\t' ∈ key.toList ∨ unclosedScalar value.toList then none
      else if key = "name" then some (value, found.2)
      else if key = "description" then some (found.1, value)
      else some found

/-- `parseSkillFrontmatter`: the name and the description. -/
def parseSkillFrontmatter (text : List Char) : Option (String × String) := do
  let rest ← if "---\n".toList.isPrefixOf text then some (text.drop 4)
    else if "---\r\n".toList.isPrefixOf text then some (text.drop 5) else none
  let stop ← index "\n---".toList rest
  let found ← ((rest.take stop).splitOn '\n').foldlM frontmatterLine ("", "")
  if found.1 = "" ∨ found.2 = "" then none else some found

def validateSkillMarkdown (directory : String) (data : Bytes) : Except Err Unit := do
  validateAgents data
  require (((utf8 data).bind fun text => parseSkillFrontmatter text.toList).any fun found => found.1 = directory)
    (.message "fleet-config skill metadata is invalid")

def validateCOMMON (skill : String) (data : Bytes) : Except Err Unit := do
  require ((utf8 data).isSome ∧ 0 ∉ data) textInvalid
  let text := trimSpace ((utf8 data).getD "")
  require (text = "" ∨ text = skill) (.message "fleet-config COMMON file is invalid")

/-! ## Validate -/

def maxFileBytes : Nat := 256 * 1024
def maxSkills : Nat := 64
def maxFiles : Nat := 512
def maxTotalBytes : Nat := 4 * 1024 * 1024

/-- What `Validate` has seen of a tree so far. -/
structure Seen where
  paths : List Rel := []
  folded : List (List Char) := []
  total : Nat := 0
  hasGlobalAgents : Bool := false
  skills : List String := []
  dataSkills : List String := []
  commonDefined : List String := []
  /-- The project and the skill of every file of a project's skill, and whether it is its COMMON file. -/
  projectSkills : List ((String × String) × Bool) := []
  optIns : List String := []

def noteProjectSkillFile (seen : Seen) (kind : ClassifiedPath) (optIn : Bool) : Seen :=
  if kind.project = "" ∨ kind.skill = "" then seen
  else { seen with projectSkills := ((kind.project, kind.skill), optIn) :: seen.projectSkills }

/-- The check of the contents, by the class of the path. -/
def validateContent (seen : Seen) (file : File) (kind : ClassifiedPath) : Except Err Seen :=
  match kind.kind with
  | .globalAgents => do
    validateAgents file.data
    return { seen with hasGlobalAgents := true }
  | .projectAgents => do
    validateAgents file.data
    return seen
  | .skillMarkdown => do
    validateSkillMarkdown kind.skill file.data
    return noteProjectSkillFile { seen with
      skills := kind.skillKey :: seen.skills
      commonDefined := if kind.scope = some .common then kind.skill :: seen.commonDefined else seen.commonDefined }
      kind false
  | .skillData => do
    require (¬(0 ∈ file.data ∧ isTextPath file.path)) textInvalid
    require (¬(isTextPath file.path ∧ containsReservedLiveMarkers file.data)) hasReservedMarkers
    return noteProjectSkillFile { seen with dataSkills := kind.skillKey :: seen.dataSkills } kind false
  | .commonOptIn => do
    validateCOMMON kind.skill file.data
    return { noteProjectSkillFile seen kind true with optIns := kind.skill :: seen.optIns }

def validateFile (seen : Seen) (file : File) : Except Err Seen := do
  require (canonicalPath file.path) (.message "fleet-config path is invalid")
  require (file.path ∉ seen.paths) (.message "fleet-config source contains a duplicate path")
  let lower := file.path.text.toList.map Char.toLower
  require (lower ∉ seen.folded) (.message "fleet-config source contains a case-colliding path")
  require (file.data.length ≤ maxFileBytes) (.message "fleet-config file is too large")
  require (seen.total + file.data.length ≤ maxTotalBytes) (.message "fleet-config source is too large")
  let kind ← classifyPath file.path
  validateContent { seen with
    paths := file.path :: seen.paths
    folded := lower :: seen.folded
    total := seen.total + file.data.length } file kind

/-- `Validate`. -/
def validate (tree : Tree) : Except Err Unit := do
  let layoutInvalid := Err.message "fleet-config source layout is invalid"
  require (tree ≠ [] ∧ tree.length ≤ maxFiles) layoutInvalid
  let seen ← tree.foldlM validateFile {}
  require seen.hasGlobalAgents (.message "fleet-config source requires AGENTS.md")
  require (1 ≤ seen.total) layoutInvalid
  require (∀ key ∈ seen.dataSkills, key ∈ seen.skills) skillPathInvalid
  require (seen.skills.dedup.length ≤ maxSkills) (.message "fleet-config source has too many skills")
  require (∀ entry ∈ seen.projectSkills, entry.2 → (entry.1, false) ∉ seen.projectSkills)
    (.message "fleet-config COMMON cannot mix with a private skill tree")
  require (∀ skill ∈ seen.optIns, skill ∈ seen.commonDefined)
    (.message "fleet-config COMMON does not name a common skill")

/-- `SkillCount`. -/
def skillCount (tree : Tree) : Nat :=
  tree.countP fun file => (classifyPath file.path).toOption.any fun kind => kind.kind = .skillMarkdown

/-! ## Addendums -/

def classifyAddendumPath (rel : Rel) : Except Err Unit :=
  match rel, classifyPath rel with
  | ["CLAUDE.md"], _ => .ok ()
  | _, .ok _ => .ok ()
  | ["projects", project, "CLAUDE.md"], _ =>
    require (entryName project) (.message "fleet-config addendum layout is invalid")
  | _, _ => .error (.message "fleet-config addendum layout is invalid")

/-- A file below the addendum root, as the walk finds it. Directories are passed over. -/
inductive AddendumEntry where
  | file (rel : Rel) (body : Bytes)
  | link (rel : Rel)
  | special (rel : Rel)

/-- `LoadAddendums`, given what is below the root. -/
def loadAddendums (entries : List AddendumEntry) : Except Err (Table Rel Bytes) :=
  entries.foldlM (fun (files : Table Rel Bytes) entry =>
    match entry with
    | .link _ => .error (.message "fleet-config addendum must not contain links")
    | .special _ => .error (.message "fleet-config addendum contains a special file")
    | .file rel body => do
      require (canonicalPath rel) (.message "fleet-config path is invalid")
      classifyAddendumPath rel
      require (body.length ≤ maxFileBytes) (.message "fleet-config file is too large")
      return files.put rel body) .empty

/-- `ResolveAddendum`: an addendum of the project comes before a global one. -/
def resolveAddendum (addendums : Table Rel Bytes) (rel : Rel) : Bytes :=
  match addendums.find? rel, rel with
  | some body, _ => body
  | none, "projects" :: _ :: rest =>
    match rest with
    | ["AGENTS.md"] => (addendums.find? rest).getD []
    | ["CLAUDE.md"] => (addendums.find? rest).getD []
    | "skills" :: skill :: file =>
      match addendums.find? ("common" :: skill :: file) with
      | some body => body
      | none => (addendums.find? ("skills" :: skill :: file)).getD []
    | _ => []
  | none, _ => []

/-! ## Destinations -/

/-- `rehydrateRel`: the files that have a region of the user. -/
def rehydrateRel (rel : Rel) : Bool := hasSuffix (rel.getLast?.getD "") ".md"

/-- A project of the machine. -/
structure ProjectMatch where
  name : String
  path : Path

def projectPresent (found : List ProjectMatch) : Table String Path :=
  found.foldl (fun present project =>
    if project.name ≠ "" ∧ project.path ≠ [] then present.put project.name project.path else present) .empty

/-- The skills a project takes from the common ones (`projects/<project>/skills/<skill>/COMMON`). -/
def optIn : Rel → Option (String × String)
  | ["projects", project, "skills", skill, "COMMON"] => some (project, skill)
  | _ => none

/-- Where a file of the tree goes by itself; the files of common skills go nowhere. -/
def ownDest (present : Table String Path) : Rel → Bool
  | "common" :: _ => false
  | "projects" :: project :: _ => (present.find? project).isSome
  | ["AGENTS.md"] => true
  | "skills" :: _ :: _ => true
  | _ => false

/-- The files of the tree that are published by themselves. -/
def ownFiles (tree : Tree) (present : Table String Path) : Table Rel Bytes :=
  tree.foldl (fun (files : Table Rel Bytes) file =>
    if (optIn file.path).isNone && ownDest present file.path then files.put file.path file.data else files) .empty

/-- A file of a common skill, as a file of a project that takes the skill. -/
def commonDest (opted : String × String) : Rel → Option Rel
  | "common" :: skill :: rest =>
    if skill = opted.2 then some ("projects" :: opted.1 :: "skills" :: skill :: rest) else none
  | _ => none

/-- The files of the common skills that present projects take. -/
def commonFiles (tree : Tree) (present : Table String Path) (files : Table Rel Bytes) : Table Rel Bytes :=
  ((tree.filterMap fun file => optIn file.path).filter fun opted => (present.find? opted.1).isSome).foldl
    (fun (files : Table Rel Bytes) opted => tree.foldl (fun (files : Table Rel Bytes) file =>
      match commonDest opted file.path with
      | some rel => files.put rel file.data
      | none => files) files) files

/-- CLAUDE.md beside AGENTS.md. -/
def claudeFile (files : Table Rel Bytes) (dir : Rel) : Table Rel Bytes :=
  match files.find? (dir ++ ["AGENTS.md"]) with
  | some body => files.put (dir ++ ["CLAUDE.md"]) body
  | none => files

/-- `expandDestFiles`: the files that are published to this machine. -/
def expandDestFiles (tree : Tree) (present : Table String Path) : Table Rel Bytes :=
  let files := claudeFile (commonFiles tree present (ownFiles tree present)) []
  present.rows.foldl (fun files project => claudeFile files ["projects", project.1]) files

/-- `destApplyOrder`: deeper files first. -/
def destApplyOrder (files : Table Rel Bytes) : List Rel :=
  (files.rows.map Prod.fst).insertionSort fun a b =>
    b.length < a.length ∨ a.length = b.length ∧ Rel.text a ≤ Rel.text b

/-- `liveDestPath`; `none` for no destination. An empty `home` is a missing one. -/
def liveDestPath (home : Path) (present : Table String Path) : Rel → Option Path
  | ["AGENTS.md"] => if home = [] then none else some (home ++ ["AGENTS.md"])
  | ["CLAUDE.md"] => if home = [] then none else some (home ++ ["CLAUDE.md"])
  | "skills" :: rest => if home = [] ∨ rest = [] then none else some (home ++ ".agents" :: "skills" :: rest)
  | "projects" :: name :: rest =>
    match present.find? name, rest with
    | some root, ["AGENTS.md"] => some (root ++ ["AGENTS.md"])
    | some root, ["CLAUDE.md"] => some (root ++ ["CLAUDE.md"])
    | some root, "skills" :: skillRest =>
      if skillRest = [] then none else some (root ++ ".agents" :: "skills" :: skillRest)
    | _, _ => none
  | _ => none

/-- What follows the first component `skills` behind another one. -/
def afterSkills : Rel → Option Rel
  | _ :: "skills" :: rest => some rest
  | _ :: rel => afterSkills rel
  | [] => none

/-- `skillDirForRel`: the directory of the skill a file belongs to. -/
def skillDirForRel (rel : Rel) (live : Path) : Option Path :=
  let rest := match rel with
    | "skills" :: rest => some rest
    | rel => afterSkills rel
  match rest with
  | some (_ :: file) => if file = [] then none else some (live.take (live.length - file.length))
  | _ => none

/-- The part of a path that names a skill (`skillPrefixForRel`). -/
def skillPrefixForRel : Rel → Option Rel
  | "skills" :: skill :: _ :: _ => some ["skills", skill]
  | "projects" :: name :: "skills" :: skill :: _ :: _ => some ["projects", name, "skills", skill]
  | _ => none

/-- `stagedHasPrefix`. -/
def stagedHasPrefix (staged : Table Rel Bytes) (start : Rel) : Bool :=
  staged.rows.any fun row => start.isPrefixOf row.1

/-- `composeDest`, given what the live file was read as. -/
def composeDest (rel : Rel) (published : Bytes) (destFiles addendums : Table Rel Bytes) (existing : Bytes) : Bytes :=
  if !rehydrateRel rel then published
  else if rel.getLast? = some "CLAUDE.md" then
    let agentsRel := rel.dropLast ++ ["AGENTS.md"]
    let agentsPublished := (destFiles.find? agentsRel).getD []
    composeClaudeFile (if agentsPublished = [] then published else agentsPublished)
      (resolveAddendum addendums agentsRel) (resolveAddendum addendums rel) existing
  else rehydrate published (resolveAddendum addendums rel) existing

/-- `droppedDestRels`. -/
def droppedDestRels (outgoing : List Rel) (staged : Table Rel Bytes) : List Rel :=
  outgoing.filter fun rel => (staged.find? rel).isNone

/-- `destPresent`: the projects of the machine, with the paths recorded by the last apply for those that are
missing now. -/
def destPresent (present recorded : Table String Path) : Table String Path :=
  recorded.rows.foldl (fun (present : Table String Path) project =>
    if (present.find? project.1).isNone ∧ project.2 ≠ [] then present.put project.1 project.2 else present) present

def sortedKeys (files : Table Rel Bytes) : List Rel :=
  (files.rows.map Prod.fst).insertionSort fun a b => Rel.text a ≤ Rel.text b

/-- What the digest of a snapshot is taken of. -/
def snapshotText (files : Table Rel Bytes) : Bytes :=
  (sortedKeys files).flatMap fun rel => ascii rel.text ++ 0 :: ((files.find? rel).getD [] ++ [0])

/-- `destSnapshotDigest`; `sha256` is `DigestBytes`. -/
def destSnapshotDigest (sha256 : Bytes → String) (files : Table Rel Bytes) : String :=
  let text := snapshotText files
  sha256 (if text = [] then ascii "fleet-config-dest" else text)

/-- `stitchUser`: what comes before the region of the user, and the region. -/
def stitchUser (before user : Bytes) : Bytes := block before ++ userStart ++ pad user ++ userEnd ++ [newline]

/-- `restoreDestBody`: the snapshot of a file with the text of the user as it is now. -/
def restoreDestBody (rel : Rel) (snapshot live : Bytes) : Bytes :=
  if !rehydrateRel rel then snapshot
  else
    match splitUser snapshot with
    | none => snapshot
    | some (before, _) => stitchUser before (carriedUser live)

end Punaro.Fleet
