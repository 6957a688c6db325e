import Punaro.Fleet.Disk

/-!
# Publishing a tree

`PublishTree` (`internal/fleetconfig/apply.go`) writes a file set beside the current one
and rotates the directories: what was current becomes the last known good one.
`RestoreLastGood` goes back. Both are programs over calls of the file system.
-/

namespace Punaro.Fleet

open Prog Search

/-! ## Trailers -/

/-- `SplitAgents`: the part of an AGENTS.md before its local trailer, and the trailer. -/
def splitAgents (content : Bytes) : Option (Bytes × Bytes) :=
  match index trailerStart content, lastIndex trailerEnd content with
  | some start, some stop =>
    if stop < start then none
    else if (content.drop (stop + trailerEnd.length)).all (· == newline) then
      some (trimNewlines (content.take start), (content.take stop).drop (start + trailerStart.length))
    else none
  | _, _ => none

/-- `stringsHasSuffixAgents`. -/
def isAgents (rel : Rel) : Bool := rel.getLast? == some "AGENTS.md"

/-- The digests of the published parts of the AGENTS.md files of a file set. -/
def agentsDigests (sha256 : Bytes → String) (files : Table Rel Bytes) : Table Rel String :=
  files.rows.foldl (fun (digests : Table Rel String) file =>
    match splitAgents file.2 with
    | some (before, _) => if isAgents file.1 then digests.put file.1 (sha256 before) else digests
    | none => digests) .empty

/-! ## PublishTree -/

def lastGoodFailed : String := "fleet-config last-known-good failed"

def unsafeTree : String := "fleet-config live tree is unsafe"

def applyFailed : String := "fleet-config apply failed"

def stateFailed : String := "fleet-config apply state failed"

/-- `Lstat` found a directory. -/
def isDir : Answer Err (Option Kind) → Bool
  | .ok (some .dir) => true
  | _ => false

/-- `Lstat` found something. -/
def isThere : Answer Err (Option Kind) → Bool
  | .ok (some _) => true
  | _ => false

/-- `recoverPublishSwap`: finish a swap that was interrupted. -/
def recoverPublishSwap (root : Path) : Program Unit := do
  let live ← (Call.lstatSlot root .current).tried
  let next ← (Call.lstatSlot root .nextGood).tried
  if isThere live && !isDir live then failWith unsafeTree
  else if isThere next && !isDir next then failWith lastGoodFailed
  else if !isThere live && isDir next then (Call.renameSlot root .nextGood .current).orFail lastGoodFailed
  else if isDir live && isDir next then do
    (Call.removeSlot root .lastGood).ignored
    (Call.renameSlot root .nextGood .lastGood).orFail lastGoodFailed
  else return ()

/-- The new file set, beside the current one. -/
def stageFiles (root : Path) (files : Table Rel Bytes) : Program Unit := do
  (Call.removeSlot root .staging).ignored
  (Call.mkdirSlot root .staging).orFail "fleet-config staging failed"
  files.rows.forM fun file => (Call.writeStaged root file.1 file.2).orFail "fleet-config staging failed"

/-- What was current is set aside. -/
def setAside (root : Path) : Program Unit := do
  let live ← (Call.lstatSlot root .current).tried
  if isThere live then
    if isDir live then (Call.renameSlot root .current .nextGood).orFail lastGoodFailed
    else failWith unsafeTree
  else return ()

/-- What was set aside becomes current again. -/
def putBack (root : Path) : Program Unit := do
  let next ← (Call.lstatSlot root .nextGood).tried
  if isThere next then (Call.renameSlot root .nextGood .current).ignored

/-- What was set aside becomes the last known good one. -/
def keepAside (root : Path) : Program Unit := do
  let next ← (Call.lstatSlot root .nextGood).tried
  if isThere next then
    (Call.removeSlot root .lastGood).ignored
    (Call.renameSlot root .nextGood .lastGood).ignored

/-- What was staged becomes current. -/
def swapIn (root : Path) : Program Unit := do
  match ← (Call.renameSlot root .staging .current).tried with
  | .failed _ _ => do
    putBack root
    failWith applyFailed
  | .ok _ => keepAside root

/-- `PublishTree`. -/
def publishTree (sha256 : Bytes → String) (root : Path) (files : Table Rel Bytes) (digest : String) : Program Unit :=
  if root = [] ∨ digest = "" ∨ files.rows = [] then failWith "fleet-config apply input is invalid"
  else do
    (Call.lockReconcile root).orWrap "fleet-config reconcile lock failed"
    stageFiles root files
    recoverPublishSwap root
    setAside root
    swapIn root
    (Call.writeState root { digest, lastGoodDigest := digest, prefixDigests := agentsDigests sha256 files }).orFail
      stateFailed

/-- `RestoreLastGood`. -/
def restoreLastGood (root : Path) : Program Unit := do
  (Call.lockReconcile root).orWrap "fleet-config reconcile lock failed"
  let last ← (Call.lstatSlot root .lastGood).tried
  if isThere last then
    (Call.removeSlot root .current).ignored
    (Call.renameSlot root .lastGood .current).orFail "fleet-config last-known-good restore failed"
  else failWith "fleet-config last-known-good is unavailable"

end Punaro.Fleet
