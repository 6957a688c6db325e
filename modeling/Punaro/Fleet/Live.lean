import Punaro.Fleet.Publish

/-!
# Applying a fleet configuration

`ApplyLive` (`internal/fleetconfig/apply_live.go`) writes the files of a published tree
to their live destinations, removes what is no longer published and keeps a snapshot of
what it wrote. `RollbackLive` goes back to the snapshot before.
-/

namespace Punaro.Fleet

open Outcome Prog Search

/-! ## Writing a destination -/

/-- The name of the temporary sibling of a destination. -/
def tmpOf (path : Path) : Path := path.dropLast ++ [path.getLast?.getD "" ++ ".punaro-tmp"]

/-- `isPunaroClaudeAlias`: CLAUDE.md as a link to its AGENTS.md. -/
def isPunaroClaudeAlias (live : Path) : Program Bool := do
  if live.getLast? ≠ some "CLAUDE.md" then return false
  else
    match ← (Call.lstat live).tried with
    | .ok (some .link) =>
      match ← (Call.readlink live).tried with
      | .ok target => return target == live.dropLast ++ ["AGENTS.md"]
      | .failed _ _ => return false
    | _ => return false

/-- `rejectUnsafeDestAncestors`, given the ancestors from the nearest one upwards: the first one that exists must
be a directory. -/
def rejectUnsafe : List Path → Program Unit
  | [] => return ()
  | dir :: dirs => do
    match ← (Call.lstat dir).tried with
    | .ok none => rejectUnsafe dirs
    | .ok (some .dir) => return ()
    | _ => failWith unsafeTree

def rejectUnsafeDestAncestors (path : Path) : Program Unit := rejectUnsafe path.dropLast.inits.reverse

/-- The body goes to a temporary sibling of the destination. -/
def writeTemp (path : Path) (body : Bytes) : Program Unit := do
  (Call.remove (tmpOf path)).ignored
  (Call.create (tmpOf path)).orFail applyFailed
  match ← (Call.write (tmpOf path) body).tried with
  | .failed _ _ =>
    (Call.close (tmpOf path)).ignored
    (Call.remove (tmpOf path)).ignored
    failWith applyFailed
  | .ok _ =>
    match ← (Call.close (tmpOf path)).tried with
    | .failed _ _ =>
      (Call.remove (tmpOf path)).ignored
      failWith applyFailed
    | .ok _ => return ()

/-- The temporary sibling takes the place of the destination. -/
def moveIntoPlace (path : Path) : Program Unit := do
  match ← (Call.rename (tmpOf path) path).tried with
  | .failed _ _ =>
    (Call.remove (tmpOf path)).ignored
    failWith applyFailed
  | .ok _ =>
    match ← (Call.lstat path).tried with
    | .ok (some .regular) => return ()
    | _ => failWith unsafeTree

/-- The steps of `writeRegularDest` once the destination is known to be safe. -/
def replaceDest (path : Path) (body : Bytes) (regular : Bool) : Program Unit := do
  writeTemp path body
  if regular then (Call.remove path).ignored
  moveIntoPlace path

/-- The first steps of `writeRegularDest`: whether a regular file is there. A link is refused, unless it is
CLAUDE.md as an alias, which is removed. -/
def clearDest (path : Path) : Program Bool := do
  match ← (Call.lstat path).tried with
  | .ok (some .link) => do
    if ← isPunaroClaudeAlias path then
      (Call.remove path).orFail unsafeTree
      return false
    else failWith unsafeTree
  | .ok (some .regular) => return true
  | _ => return false

def writeRegularDest (path : Path) (body : Bytes) : Program Unit := do
  let regular ← clearDest path
  rejectUnsafeDestAncestors path
  (Call.mkdirAll path.dropLast).orFail applyFailed
  replaceDest path body regular

/-! ## Collisions -/

def managedDirMarker : String := ".punaro-managed"

def isManagedDir (dir : Path) : Program Bool := do
  match ← (Call.lstat (dir ++ [managedDirMarker])).tried with
  | .ok (some .regular) => return true
  | _ => return false

def unmanagedSkillDir (dir : Path) : Program Bool := do
  match ← (Call.lstat dir).tried with
  | .ok none => return false
  | .ok (some .dir) => do
    let managed ← isManagedDir dir
    return !managed
  | _ => return true

/-- Whether something that is not managed stands at a destination. -/
def liveCollision (rel : Rel) (live : Path) : Program Bool := do
  match ← (Call.lstat live).tried with
  | .failed _ _ => failWith unsafeTree
  | .ok none => return false
  | .ok (some .link) =>
    if ← isPunaroClaudeAlias live then return false else failWith unsafeTree
  | .ok (some .regular) => do
    let body ← (Call.readFile live).orFail unsafeTree
    return rehydrateRel rel && !isManagedContent body
  | .ok (some _) => return true

def destCollision (rel : Rel) (live : Path) : Program Bool := do
  match skillDirForRel rel live with
  | some dir => if ← unmanagedSkillDir dir then return true else liveCollision rel live
  | none => liveCollision rel live

def markManagedSkillDir (dir : Path) : Program Unit := do
  rejectUnsafeDestAncestors (dir ++ [managedDirMarker])
  (Call.mkdirAll dir).orFail applyFailed
  if ← isManagedDir dir then return () else writeRegularDest (dir ++ [managedDirMarker]) []

/-! ## Pruning -/

/-- The directory of the skill a path belongs to, if it is managed. -/
def managedSkillDir (rel : Rel) (live : Path) : Program (Option Path) :=
  match skillDirForRel rel live with
  | some dir => do
    let managed ← isManagedDir dir
    return if managed then some dir else none
  | none => return none

/-- What is to be removed for one dropped destination: the directory of a skill, or a file. -/
def pruneTarget (home : Path) (present : Table String Path) (staged : Table Rel Bytes) (rel : Rel) :
    Program (Option (Path ⊕ Path)) :=
  match liveDestPath home present rel with
  | none => return none
  | some live => do
    rejectUnsafeDestAncestors live
    match ← managedSkillDir rel live with
    | some dir =>
      if (skillPrefixForRel rel).any (stagedHasPrefix staged) then
        match ← (Call.lstat live).tried with
        | .ok (some .regular) => return some (.inr live)
        | _ => return none
      else return some (.inl dir)
    | none =>
      match ← (Call.readRegularFile live).tried with
      | .ok (some body) => return if isManagedContent body then some (.inr live) else none
      | _ => return none

def pruneTargets (home : Path) (present : Table String Path) (staged : Table Rel Bytes) :
    List Rel → Program (List (Path ⊕ Path))
  | [] => return []
  | rel :: rels => do
    let target ← pruneTarget home present staged rel
    let targets ← pruneTargets home present staged rels
    return target.toList ++ targets

/-- Directories are removed before files. -/
def removeTargets (targets : List (Path ⊕ Path)) : Program Unit := do
  (targets.filterMap Sum.getLeft?).eraseDups.forM fun dir => (Call.removeAll dir).orReturn
  (targets.filterMap Sum.getRight?).forM fun file => (Call.removeDropped file).orReturn

def pruneManagedLiveDests (home : Path) (present : Table String Path) (dropped : List Rel)
    (staged : Table Rel Bytes) : Program Unit := do
  let targets ← pruneTargets home present staged dropped
  removeTargets targets

/-- The files of a project among those written. -/
def projectRels (staged : Table Rel Bytes) (name : String) : List Rel :=
  (staged.rows.map Prod.fst).filter fun rel => ["projects", name].isPrefixOf rel

/-- Whether a project has been found at another path than the recorded one. -/
def moved (current : Table String Path) (project : String × Path) : Bool :=
  match current.find? project.1 with
  | some path => project.1 ≠ "" && project.2 ≠ [] && path ≠ [] && project.2 ≠ path
  | none => false

/-- `pruneMovedProjectDests`: what was written below the former path of a project. -/
def pruneMovedProjectDests (home : Path) (current previous : Table String Path) (staged : Table Rel Bytes) :
    Program Unit :=
  (previous.rows.filter (moved current)).forM fun project =>
    pruneManagedLiveDests home (Table.empty.put project.1 project.2) (projectRels staged project.1) .empty

/-! ## The snapshot -/

/-- `loadDestProjectPaths`. -/
def loadDestProjectPaths (root : Path) : Program (Table String Path) := do
  match ← (Call.readState root).tried with
  | .ok state => return state.projectPaths
  | .failed _ _ => return .empty

/-- `sameDestSnapshot`. -/
def sameDestSnapshot (root : Path) (digest : String) : Program Bool := do
  match ← (Call.readState root).tried with
  | .ok state => return digest ≠ "" && state.digest = digest
  | .failed _ _ => return false

/-- `destSnapshotRels`. -/
def destSnapshotRels (root : Path) : Program (List Rel) := do
  match ← (Call.lstatSlot root .current).orReturn with
  | some .dir => do
    let files ← (Call.walkSlot root .current).orReturn
    return files.rows.map Prod.fst
  | _ => return []

/-- `persistDestProjectPaths`. -/
def persistDestProjectPaths (root : Path) (present : Table String Path) : Program Unit := do
  let state ← (Call.readState root).orFail stateFailed
  (Call.writeState root { state with
    projectPaths := present.deleteWhere fun name dest => name = "" || dest = [] }).orFail stateFailed

/-! ## ApplyLive -/

structure ApplyLiveRequest where
  tree : Tree
  root : Path
  home : Path
  addendumRoot : Path
  found : List ProjectMatch

structure ApplyLiveResult where
  collisions : List Rel
  written : Nat

def ApplyLiveResult.drift (r : ApplyLiveResult) : Bool := !r.collisions.isEmpty

/-- The files written so far, and the result. -/
structure Applied where
  staged : Table Rel Bytes
  result : ApplyLiveResult

/-- The content of a live file, nothing if it cannot be read. -/
def readLive (live : Path) : Program Bytes := do
  match ← (Call.readRegularFile live).tried with
  | .ok (some body) => return body
  | _ => return []

/-- The directory of a skill is marked once a file has been written to it. -/
def markSkill (rel : Rel) (live : Path) : Program Unit :=
  match skillDirForRel rel live with
  | some dir => markManagedSkillDir dir
  | none => return ()

/-- One destination of the loop of `ApplyLive`. -/
def applyDest (home : Path) (present : Table String Path) (published addendums : Table Rel Bytes) (rel : Rel)
    (applied : Applied) : Program Applied :=
  match liveDestPath home present rel with
  | none => return applied
  | some live => do
    if ← destCollision rel live then
      return { applied with result := { applied.result with collisions := applied.result.collisions ++ [rel] } }
    else
      let existing ← readLive live
      let next := composeDest rel ((published.find? rel).getD []) published addendums existing
      writeRegularDest live next
      markSkill rel live
      return ⟨applied.staged.put rel next, { applied.result with written := applied.result.written + 1 }⟩

/-- The loop; an error comes with what was done before. -/
def applyDests (home : Path) (present : Table String Path) (published addendums : Table Rel Bytes) :
    List Rel → Applied → Program (Applied × Option Err)
  | [], applied => return (applied, none)
  | rel :: rels, applied => do
    match ← (applyDest home present published addendums rel applied).attempt with
    | .ok applied => applyDests home present published addendums rels applied
    | .error e => return (applied, some e)

/-- The destinations that are no longer published are removed, and what was written becomes the snapshot. -/
def publishStaged (sha256 : Bytes → String) (request : ApplyLiveRequest) (staged : Table Rel Bytes) :
    Program Unit := do
  let recorded ← loadDestProjectPaths request.root
  let outgoing ← destSnapshotRels request.root
  pruneManagedLiveDests request.home (destPresent (projectPresent request.found) recorded)
    (droppedDestRels outgoing staged) staged
  publishTree sha256 request.root staged (destSnapshotDigest sha256 staged)

/-- What comes after the loop. -/
def settle (sha256 : Bytes → String) (request : ApplyLiveRequest) (staged : Table Rel Bytes) : Program Unit := do
  let present := projectPresent request.found
  (Call.mkdirRoot request.root).orFail applyFailed
  let previous ← loadDestProjectPaths request.root
  pruneMovedProjectDests request.home present previous staged
  let same ← sameDestSnapshot request.root (destSnapshotDigest sha256 staged)
  if !same then publishStaged sha256 request staged
  persistDestProjectPaths request.root present

/-- The addendum tree of a request; by default that of the home directory. -/
def ApplyLiveRequest.addendums (request : ApplyLiveRequest) : Path :=
  if request.addendumRoot = [] ∧ request.home ≠ [] then request.home ++ ["punaro", "addendums"]
  else request.addendumRoot

/-- The files that a request publishes to the machine. -/
def ApplyLiveRequest.published (request : ApplyLiveRequest) : Table Rel Bytes :=
  expandDestFiles request.tree (projectPresent request.found)

/-- The body of `ApplyLive`: what it has staged and its result, with an error if there was one. -/
def stageLive (sha256 : Bytes → String) (request : ApplyLiveRequest) : Program (Applied × Option Err) :=
  match validate request.tree with
  | .error e => return (⟨.empty, [], 0⟩, some e)
  | .ok () => do
    match ← (Call.loadAddendums request.addendums).tried with
    | .failed e _ => return (⟨.empty, [], 0⟩, some e)
    | .ok addendums => do
      let (applied, failure) ← applyDests request.home (projectPresent request.found) request.published addendums
        (destApplyOrder request.published) ⟨.empty, [], 0⟩
      match failure with
      | some e => return (applied, some e)
      | none =>
        if request.root ≠ [] ∧ applied.staged.rows ≠ [] then
          match ← (settle sha256 request applied.staged).attempt with
          | .ok _ => return (applied, none)
          | .error e => return (applied, some e)
        else return (applied, none)

/-- `ApplyLive`. -/
def applyLive (sha256 : Bytes → String) (request : ApplyLiveRequest) : Program (ApplyLiveResult × Option Err) := do
  let (applied, failure) ← stageLive sha256 request
  return (applied.result, failure)

/-! ## RollbackLive -/

/-- One file of the restored snapshot. -/
def restoreDest (home : Path) (present : Table String Path) (file : Rel × Bytes) : Program Unit :=
  match liveDestPath home present file.1 with
  | none => return ()
  | some live => do
    let existing ← readLive live
    writeRegularDest live (restoreDestBody file.1 file.2 existing)
    markSkill file.1 live

/-- `RollbackLive`. -/
def rollbackLive (request : ApplyLiveRequest) : Program Unit :=
  if request.root = [] then failWith "fleet-config last-known-good is unavailable"
  else do
    let recorded ← loadDestProjectPaths request.root
    let present := destPresent (projectPresent request.found) recorded
    let outgoing ← destSnapshotRels request.root
    restoreLastGood request.root
    let restored ← (Call.walkSlot request.root .current).orFail "fleet-config last-known-good restore failed"
    restored.rows.forM (restoreDest request.home present)
    pruneManagedLiveDests request.home present (droppedDestRels outgoing restored) restored

end Punaro.Fleet
