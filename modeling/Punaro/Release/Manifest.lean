import Punaro.Lib.Json
import Punaro.Release.Names

/-!
# Release manifests

The public document of one release (`internal/release/manifest.go`), its validation and
its text (`decode.go`). Times are read and written by the `time` package (`TimeFormat`).
-/

namespace Punaro.Release

open Outcome

/-- The part of the `time` package that release documents use: `time.Parse(time.RFC3339, …)` as an instant, with
whether its location is UTC, and the layout `2006-01-02T15:04:05Z` in UTC. -/
structure TimeFormat where
  parse : String → Option (Int × Bool)
  format : Int → String

def canonicalUTCTime (F : TimeFormat) (value : String) : Bool :=
  match F.parse value with
  | some (instant, true) => F.format instant == value
  | _ => false

structure ProtocolRange where
  min : Int
  max : Int

structure SchemaRange where
  min : Int
  max : Int
  target : Int
  rollbackFloor : Int

structure Artifact where
  component : String
  os : String
  arch : String
  path : String
  length : Int
  mode : Int
  sha256 : String

structure ReleaseManifest where
  schema : Int
  sequence : Int
  release : String
  publishedAt : String
  gatewayProtocol : ProtocolRange
  clientProtocol : ProtocolRange
  minimumRecoveryProtocol : Int
  minimumBootstrapRelease : String
  database : SchemaRange
  postgreSQLMajor : Int
  image : String
  releaseSHA256 : String
  composeSHA256 : String
  migrationManifestSHA256 : String
  artifacts : List Artifact
  supportedFrom : List String
  steppingStones : List String

def releaseDocumentSchema : Int := 1
def maximumManifestBytes : Nat := 65536
def maxArtifacts : Nat := 64
def maxSteppingStones : Nat := 16
def maxSupportedFrom : Nat := 32
def artifactModeExecutable : Int := 493
def maxArtifactBytes : Int := 268435456

/-! ## Validation -/

def validProtocolRange (value : ProtocolRange) : Bool := 1 ≤ value.min && value.min ≤ value.max

def validReleaseNameList (names : List String) (limit : Nat) : Except Err Unit := do
  let invalid := Err.message "invalid release list"
  require (names.length ≤ limit) invalid
  require (names.all validProductReleaseName ∧ names.Nodup) invalid

def validateReleasePolicy (release minimumBootstrapRelease : String) (supportedFrom : List String) :
    Except Err Unit := do
  let invalid := Err.message "invalid release policy"
  require (validProductReleaseName release ∧ validProductReleaseName minimumBootstrapRelease) invalid
  validReleaseNameList supportedFrom maxSupportedFrom
  require (release ∉ supportedFrom) invalid

def validPublishedDatabase (schema : SchemaRange) (postgresMajor : Int) : Except Err Unit := do
  require (1 ≤ schema.min ∧ schema.min ≤ schema.max ∧ schema.min ≤ schema.target ∧ schema.target ≤ schema.max ∧
    schema.min ≤ schema.rollbackFloor ∧ schema.rollbackFloor ≤ schema.target) (.message "invalid schema boundary")
  require (1 ≤ postgresMajor) (.message "invalid PostgreSQL major")

def Artifact.validate (artifact : Artifact) (release : String) : Except Err Unit := do
  require (knownComponents.contains artifact.component ∧ knownOperatingSystems.contains artifact.os ∧
    knownArchitectures.contains artifact.arch) (.message "invalid artifact identity")
  require (1 ≤ artifact.length ∧ artifact.length ≤ maxArtifactBytes ∧ artifact.mode = artifactModeExecutable ∧
    validSHA256 artifact.sha256) (.message "invalid artifact binding")
  validateArtifactPath release artifact.path
  let parsed := parseArtifactFilename (String.ofList (artifact.path.toList.drop (release.toList.length + 1)))
  require (parsed = .ok (artifact.component, artifact.os, artifact.arch)) (.message "invalid artifact path")

/-- The component and the platform of an artifact. -/
def Artifact.identity (artifact : Artifact) : String := artifact.component ++ "/" ++ artifact.os ++ "/" ++ artifact.arch

/-- The artifacts in turn: each is valid, and none has the identity or the path of an earlier one. -/
def validateArtifacts (release : String) (artifacts : List Artifact) : Except Err Unit := do
  let _ ← artifacts.foldlM (fun (seen : List Artifact) artifact => do
    artifact.validate release
    require (∀ earlier ∈ seen, earlier.identity ≠ artifact.identity ∧ earlier.path ≠ artifact.path)
      (.message "duplicate artifact")
    return artifact :: seen) []

def ReleaseManifest.validate (F : TimeFormat) (manifest : ReleaseManifest) : Except Err Unit := do
  require (manifest.schema = releaseDocumentSchema ∧ 1 ≤ manifest.sequence ∧
    validProductReleaseName manifest.release ∧ canonicalUTCTime F manifest.publishedAt)
    (.message "invalid release identity")
  require (validProtocolRange manifest.gatewayProtocol ∧ validProtocolRange manifest.clientProtocol ∧
    1 ≤ manifest.minimumRecoveryProtocol) (.message "invalid protocol bound")
  validateReleasePolicy manifest.release manifest.minimumBootstrapRelease manifest.supportedFrom
  validPublishedDatabase manifest.database manifest.postgreSQLMajor
  require ((manifest.image = "") = (manifest.releaseSHA256 = "")) (.message "invalid image binding")
  require (manifest.image ≠ "" → validImageDigest manifest.image ∧ validSHA256 manifest.releaseSHA256 ∧
    imageDigestEquals manifest.image manifest.releaseSHA256) (.message "invalid image binding")
  require (validSHA256 manifest.composeSHA256 ∧ validSHA256 manifest.migrationManifestSHA256)
    (.message "invalid source digest")
  require (manifest.artifacts ≠ [] ∧ manifest.artifacts.length ≤ maxArtifacts) (.message "invalid artifacts")
  validateArtifacts manifest.release manifest.artifacts
  validReleaseNameList manifest.steppingStones maxSteppingStones

/-! ## Text -/

open Json

/-- A number as `strconv` writes it. -/
def integer (n : Int) : Value := .number (toString n).toList

def strings (values : List String) : Value := .array (values.map .string)

def ProtocolRange.json (range : ProtocolRange) : Value := .object [("min", integer range.min), ("max", integer range.max)]

def SchemaRange.json (range : SchemaRange) : Value :=
  .object [("min", integer range.min), ("max", integer range.max), ("target", integer range.target),
    ("rollback_floor", integer range.rollbackFloor)]

def Artifact.json (artifact : Artifact) : Value :=
  .object [("component", .string artifact.component), ("os", .string artifact.os), ("arch", .string artifact.arch),
    ("path", .string artifact.path), ("length", integer artifact.length), ("mode", integer artifact.mode),
    ("sha256", .string artifact.sha256)]

/-- A member that is left out if it is empty. -/
def omitEmpty (name value : String) : List (String × Value) := if value = "" then [] else [(name, .string value)]

def ReleaseManifest.json (manifest : ReleaseManifest) : Value :=
  .object ([("schema", integer manifest.schema), ("sequence", integer manifest.sequence),
    ("release", .string manifest.release), ("published_at", .string manifest.publishedAt),
    ("gateway_protocol", manifest.gatewayProtocol.json), ("client_protocol", manifest.clientProtocol.json),
    ("minimum_recovery_protocol", integer manifest.minimumRecoveryProtocol),
    ("minimum_bootstrap_release", .string manifest.minimumBootstrapRelease), ("database", manifest.database.json),
    ("postgres_major", integer manifest.postgreSQLMajor)] ++ omitEmpty "image" manifest.image ++
    omitEmpty "release_sha256" manifest.releaseSHA256 ++ [("compose_sha256", .string manifest.composeSHA256),
    ("migration_manifest_sha256", .string manifest.migrationManifestSHA256),
    ("artifacts", .array (manifest.artifacts.map Artifact.json)), ("supported_from", strings manifest.supportedFrom),
    ("stepping_stones", strings manifest.steppingStones)])

/-- `encodeDocument`: the text without its newline; characters special in HTML stay as they are. -/
def encodeDocument (document : Value) : List Char := write false document

end Punaro.Release
