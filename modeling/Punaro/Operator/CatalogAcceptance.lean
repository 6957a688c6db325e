import Punaro.Lib.Files
import Punaro.Lib.JsonRecord

/-!
# The accepted server catalog

The highest catalog sequence an installation has accepted, in three files of its
directory: the accepted state, a pending state that is about to replace it, and a
marker that says that there must be one (`internal/operator/catalog_acceptance.go`).

The calls of all processes are serialised by a lock, so that one call runs at a time;
it may stop between any two steps. `writeExclusive` creates a file complete.
-/

namespace Punaro.Operator

open Prog

abbrev Text := List Char

/-- The files of the installation directory, by `acceptedCatalogName`, `acceptedCatalogPendingName` and
`acceptedCatalogRequiredName`. -/
inductive CatalogFile where
  | accepted
  | pending
  | required
deriving DecidableEq

def acceptedCatalogMaximum : Nat := 1024

def acceptedCatalogRequiredBody : Text := "\x7b\"version\":1\x7d\n".toList

inductive CatalogFailure where
  /-- `ErrCatalogSequenceDowngrade`. -/
  | sequenceDowngrade
  /-- `ErrCatalogAcceptanceMissing`. -/
  | acceptanceMissing
  | failed (message : String)
deriving DecidableEq

/-! ## The state -/

structure AcceptedCatalogState where
  version : Int64
  sequence : Int64
deriving DecidableEq

/-- `json.Marshal` of the state, with a newline. -/
def AcceptedCatalogState.body (state : AcceptedCatalogState) : Text :=
  Json.write true (.object [("version", .number (Json.integer state.version.toInt)),
    ("sequence", .number (Json.integer state.sequence.toInt))]) ++ ['\n']

/-- The decoding of a state, which must be the only value and have no other fields, and its check. -/
def decodeAcceptedCatalogState (body : Text) : Option AcceptedCatalogState :=
  match Json.parse body with
  | some (.object members) =>
    if members.all fun m => ["version", "sequence"].contains m.1 then do
      let version ← Json.readInt64 (members.reverse.lookup "version")
      let sequence ← Json.readInt64 (members.reverse.lookup "sequence")
      if version ≠ 1 ∨ sequence < 1 then none else some ⟨version, sequence⟩
    else none
  | _ => none

/-! ## Calls -/

def catalogVolume : Files.Volume CatalogFile Text where
  parents _ := []
  origin _ _ q := q
  size := Json.bytes

abbrev CatalogDisk := Files.Disk CatalogFile Text

abbrev CatalogCall := Files.Call CatalogFile Text

abbrev CatalogAct := Files.Act CatalogFile Text CatalogFailure

abbrev catalogAnswer := catalogVolume.answer

/-- A call whose error ends the function with a message. -/
abbrev orFail (c : CatalogCall) (message : String) : CatalogAct c.Result := Files.orFail c (.failed message)

/-! ## Functions -/

def readAcceptedCatalogState (file : CatalogFile) : CatalogAct (Option AcceptedCatalogState) := do
  let unavailable := "release catalog acceptance is unavailable"
  match ← orFail (.lstat file) unavailable with
  | none => pure none
  | some .dir => .fail (.failed unavailable)
  | some (.file size) =>
    if size > acceptedCatalogMaximum then .fail (.failed unavailable)
    else
      let body ← orFail (.readFile file) unavailable
      if body = [] ∨ Json.bytes body > acceptedCatalogMaximum then .fail (.failed unavailable)
      else
        match decodeAcceptedCatalogState body with
        | none => .fail (.failed "release catalog acceptance is invalid")
        | some state => pure (some state)

def recoverAcceptedCatalogState : CatalogAct (Option AcceptedCatalogState) := do
  let unavailable := "release catalog acceptance recovery is unavailable"
  let accepted ← readAcceptedCatalogState .accepted
  let pending ← readAcceptedCatalogState .pending
  match pending with
  | none => pure accepted
  | some pending =>
    if accepted.any fun accepted => pending.sequence < accepted.sequence then
      orFail (.remove .pending) unavailable
      orFail (.sync .accepted) unavailable
      pure accepted
    else
      orFail (.rename .pending .accepted) unavailable
      orFail (.sync .accepted) unavailable
      pure (some pending)

def readCatalogAcceptanceRequirement : CatalogAct Bool := do
  let unavailable := "release catalog acceptance requirement is unavailable"
  match ← orFail (.lstat .required) unavailable with
  | none => pure false
  | some .dir => .fail (.failed unavailable)
  | some (.file size) =>
    if size > acceptedCatalogMaximum then .fail (.failed unavailable)
    else
      let body ← orFail (.readFile .required) "release catalog acceptance requirement is invalid"
      if body ≠ acceptedCatalogRequiredBody then .fail (.failed "release catalog acceptance requirement is invalid")
      else pure true

def publishCatalogAcceptanceRequirement : CatalogAct Unit := do
  let unpublished := "release catalog acceptance requirement could not be published"
  if ← readCatalogAcceptanceRequirement then pure ()
  else
    orFail (.create .required acceptedCatalogRequiredBody) unpublished
    orFail (.sync .required) unpublished

/-- What is checked about the directory before its files are looked at. -/
structure CatalogDirectory where
  /-- The path is absolute and clean. -/
  canonical : Bool
  /-- The directory is private and trusted, and the lock is acquired. -/
  trusted : Bool

variable (directory : CatalogDirectory)

/-- The high-water mark, as it is when the lock is returned. -/
def beginServerCatalogSnapshot : CatalogAct Int64 := do
  if !directory.canonical || !directory.trusted then .fail (.failed "release catalog acceptance is unavailable")
  else
    let state ← recoverAcceptedCatalogState
    let required ← readCatalogAcceptanceRequirement
    match state with
    | none => if required then .fail .acceptanceMissing else pure 0
    | some state =>
      if required then pure state.sequence
      else
        publishCatalogAcceptanceRequirement
        pure state.sequence

def beginServerCatalogAcceptance (sequence embeddedMinimum : Int64) : CatalogAct Unit := do
  let unavailable := "release catalog acceptance is unavailable"
  if !directory.canonical ∨ sequence < 1 ∨ embeddedMinimum < 0 ∨ sequence < embeddedMinimum then
    .fail .sequenceDowngrade
  else if !directory.trusted then .fail (.failed unavailable)
  else
    let accepted ← recoverAcceptedCatalogState
    let required ← readCatalogAcceptanceRequirement
    if required ∧ accepted = none then .fail .acceptanceMissing
    else if accepted.any fun accepted => sequence < accepted.sequence then .fail .sequenceDowngrade
    else if accepted.any fun accepted => sequence = accepted.sequence then
      if required then pure () else publishCatalogAcceptanceRequirement
    else
      orFail (.create .pending (AcceptedCatalogState.body ⟨1, sequence⟩)) unavailable
      orFail (.sync .pending) unavailable
      orFail (.rename .pending .accepted) unavailable
      orFail (.sync .accepted) unavailable
      if required then pure () else publishCatalogAcceptanceRequirement

/-- The two calls. -/
inductive CatalogRequest where
  | acceptance (sequence embeddedMinimum : Int64)
  | snapshot

/-- A call, with the sequence it accepted or found. -/
def catalogCall : CatalogRequest → CatalogAct Int64
  | .acceptance sequence embeddedMinimum => do
    beginServerCatalogAcceptance directory sequence embeddedMinimum
    pure sequence
  | .snapshot => beginServerCatalogSnapshot directory

end Punaro.Operator
