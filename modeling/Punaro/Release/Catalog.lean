import Mathlib.Data.List.Sort
import Punaro.Release.Manifest

/-!
# Release catalogs

The list of the releases that may be used (`internal/release/catalog.go`), and how each
catalog is assembled from the one before it (`assemble.go`).
-/

namespace Punaro.Release

open Outcome

structure CatalogRelease where
  release : String
  sequence : Int
  manifestPath : String
  manifestLength : Int
  manifestSHA256 : String
deriving DecidableEq

structure Catalog where
  schema : Int
  sequence : Int
  publishedAt : String
  expiresAt : String
  currentRelease : String
  minimumSafeSequence : Int
  releases : List CatalogRelease
  criticalBlocks : List Int
deriving DecidableEq

def maxCatalogReleases : Nat := 32
def maxCatalogCriticalBlocks : Nat := 32

/-- Thirty days, in nanoseconds. -/
def maxCatalogLifetime : Int := 30 * 24 * 3600 * 1000000000

/-- `parseCanonicalUTC`. -/
def parseCanonicalUTC (F : TimeFormat) (value : String) : Option Int :=
  if canonicalUTCTime F value then (F.parse value).map Prod.fst else none

def CatalogRelease.validate (entry : CatalogRelease) : Except Err Unit := do
  require (validProductReleaseName entry.release ∧ 1 ≤ entry.sequence ∧ 1 ≤ entry.manifestLength ∧
    entry.manifestLength ≤ maximumManifestBytes ∧ validSHA256 entry.manifestSHA256) (.message "invalid catalog release")
  validateManifestPath entry.release entry.manifestPath

/-- What the loop of `validate` over the releases keeps: the releases seen, the lowest and the highest sequence, and
the sequence of the current release once it is found. -/
structure CatalogScan where
  seen : List CatalogRelease
  lowest : Int
  highest : Int
  current : Option Int

def CatalogScan.entry (currentRelease : String) (scan : CatalogScan) (entry : CatalogRelease) :
    Except Err CatalogScan := do
  entry.validate
  require (∀ earlier ∈ scan.seen, earlier.release ≠ entry.release ∧ earlier.sequence ≠ entry.sequence)
    (.message "duplicate catalog release")
  return ⟨entry :: scan.seen, if entry.sequence < scan.lowest then entry.sequence else scan.lowest,
    if scan.highest < entry.sequence then entry.sequence else scan.highest,
    if entry.release = currentRelease then some entry.sequence else scan.current⟩

/-- `Catalog.validate`. -/
def Catalog.validate (F : TimeFormat) (catalog : Catalog) : Except Err Unit := do
  require (catalog.schema = releaseDocumentSchema ∧ 1 ≤ catalog.sequence ∧
    validProductReleaseName catalog.currentRelease ∧ 1 ≤ catalog.minimumSafeSequence)
    (.message "invalid catalog identity")
  let lifetimeInvalid := Err.message "invalid catalog lifetime"
  let published ← ofOption (parseCanonicalUTC F catalog.publishedAt) lifetimeInvalid
  let expires ← ofOption (parseCanonicalUTC F catalog.expiresAt) lifetimeInvalid
  require (published < expires ∧ expires - published ≤ maxCatalogLifetime) lifetimeInvalid
  match catalog.releases with
  | [] => .error (.message "invalid catalog releases")
  | first :: rest => do
    require ((first :: rest).length ≤ maxCatalogReleases) (.message "invalid catalog releases")
    let scan ← (first :: rest).foldlM (CatalogScan.entry catalog.currentRelease)
      ⟨[], first.sequence, first.sequence, none⟩
    let coverageInvalid := Err.message "invalid catalog coverage"
    let current ← ofOption scan.current coverageInvalid
    require (current = scan.highest ∧ catalog.minimumSafeSequence ≤ scan.lowest) coverageInvalid
    require (catalog.criticalBlocks.length ≤ maxCatalogCriticalBlocks) (.message "invalid critical blocks")
    require ((∀ sequence ∈ catalog.criticalBlocks, 1 ≤ sequence ∧ sequence < current) ∧ catalog.criticalBlocks.Nodup)
      (.message "invalid critical block")

/-- `Catalog.Allows`. -/
def Catalog.allows (catalog : Catalog) (release : String) (sequence : Int) (manifestSHA256 : String) : Bool :=
  if sequence < catalog.minimumSafeSequence then false
  else if sequence ∈ catalog.criticalBlocks then false
  else catalog.releases.any fun entry =>
    entry.release = release && entry.sequence = sequence && entry.manifestSHA256 = manifestSHA256

/-! ## Assembly -/

/-- A file of the release directory. -/
structure DirEntry where
  name : String
  dir : Bool
  /-- The contents of a regular file, `none` if there are none to read. -/
  contents : Option (List UInt8)

/-- What assembly takes from its environment. -/
structure Env where
  time : TimeFormat
  /-- The digest of a file, as hexadecimal text. -/
  sha256 : List UInt8 → String
  /-- The digest of a document. -/
  digest : List Char → String

/-- The artifact in a file of the release directory. -/
def scanArtifact (E : Env) (release : String) (entry : DirEntry) : Except Err Artifact := do
  let (component, osName, arch) ← (parseArtifactFilename entry.name).mapError fun _ =>
    .message "release assembly is invalid"
  let contents ← ofOption entry.contents (.message "release assembly is invalid")
  return ⟨component, osName, arch, release ++ "/" ++ entry.name, contents.length, artifactModeExecutable,
    E.sha256 contents⟩

/-- `scanArtifacts`. -/
def scanArtifacts (E : Env) (entries : List DirEntry) (release : String) : Except Err (List Artifact) := do
  let invalid := Err.message "release assembly is invalid"
  require (∀ entry ∈ entries, entry.dir = false) invalid
  let artifacts ← (entries.filter fun entry => entry.name ∉ [releaseManifestFile, releaseSignatureFile, catalogFile,
    catalogSignatureFile]).mapM (scanArtifact E release)
  require (artifacts ≠ []) invalid
  return artifacts.insertionSort fun a b => a.path ≤ b.path

structure AssembleRequest where
  /-- What is in the release directory. -/
  directory : List DirEntry
  release : String
  sequence : Int
  publishedAt : Int
  expiresAt : Int
  minimumSafeSequence : Int
  catalogSequence : Int
  image : String
  composeSHA256 : String
  migrationManifestSHA256 : String
  database : SchemaRange
  postgreSQLMajor : Int
  gatewayProtocol : ProtocolRange
  clientProtocol : ProtocolRange
  minimumRecoveryProtocol : Int
  minimumBootstrapRelease : String
  supportedFrom : List String
  steppingStones : List String
  criticalBlocks : List Int
  previousCatalog : Option Catalog

/-- The blocks of a request: those below the minimum safe sequence are noted, but not kept. -/
def requestedBlocks (sequence : Int) (requested : List Int) : Except Err Unit := do
  require ((∀ value ∈ requested, 1 ≤ value ∧ value < sequence) ∧ requested.Nodup) (.message "invalid critical blocks")

/-- `replacementCatalogEntries`: the blocks and the releases of the next catalog. -/
def replacementCatalogEntries (F : TimeFormat) (previous : Option Catalog) (release : String)
    (sequence catalogSequence minimumSafe : Int) (requested : List Int) (manifestLength : Int)
    (manifestSHA256 : String) : Except Err (List Int × List CatalogRelease) := do
  requestedBlocks sequence requested
  let (carried, earlier) ← match previous with
    | none => pure ([], [])
    | some previous => do
      require (previous.validate F = .ok () ∧ previous.sequence < catalogSequence ∧
        previous.minimumSafeSequence ≤ minimumSafe) (.message "invalid previous catalog")
      require (∀ value ∈ previous.criticalBlocks, value < sequence) (.message "current release is critically blocked")
      pure (previous.criticalBlocks, previous.releases)
  let kept := requested.filter (minimumSafe ≤ ·)
  let blocks := kept ++ (carried.filter fun value => minimumSafe ≤ value ∧ value ∉ requested).dedup
  require (blocks.length ≤ maxCatalogCriticalBlocks) (.message "too many critical blocks")
  require (∀ entry ∈ earlier, entry.sequence < sequence ∧ entry.release ≠ release)
    (.message "release sequence does not advance")
  let retained := earlier.filter fun entry => minimumSafe ≤ entry.sequence ∧ entry.sequence ∉ requested ∧
    ¬(entry.sequence ∈ carried ∧ minimumSafe ≤ entry.sequence)
  let releases := retained ++
    [⟨release, sequence, release ++ "/" ++ releaseManifestFile, manifestLength, manifestSHA256⟩]
  require (releases.length ≤ maxCatalogReleases) (.message "too many retained releases")
  return (blocks.insertionSort (· ≤ ·), releases.insertionSort fun a b => a.sequence ≤ b.sequence)

/-- The manifest of a request. -/
def AssembleRequest.manifest (F : TimeFormat) (request : AssembleRequest) (artifacts : List Artifact)
    (releaseSHA256 : String) : ReleaseManifest where
  schema := releaseDocumentSchema
  sequence := request.sequence
  release := request.release
  publishedAt := F.format request.publishedAt
  gatewayProtocol := request.gatewayProtocol
  clientProtocol := request.clientProtocol
  minimumRecoveryProtocol := request.minimumRecoveryProtocol
  minimumBootstrapRelease := request.minimumBootstrapRelease
  database := request.database
  postgreSQLMajor := request.postgreSQLMajor
  image := request.image
  releaseSHA256 := releaseSHA256
  composeSHA256 := request.composeSHA256
  migrationManifestSHA256 := request.migrationManifestSHA256
  artifacts := artifacts
  supportedFrom := request.supportedFrom
  steppingStones := request.steppingStones

/-- The digest of the image of a request, if it names one. -/
def AssembleRequest.imageSHA256 (request : AssembleRequest) : Except Err String :=
  if request.image = "" then .ok ""
  else (ofOption (imageDigest request.image) (.message "release assembly is invalid")).map fun parts =>
    String.ofList parts.2

/-- The minimum safe sequence of a request; by default that of the previous catalog. -/
def AssembleRequest.minimumSafe (request : AssembleRequest) : Int :=
  if request.minimumSafeSequence = 0 then
    match request.previousCatalog with
    | some previous => previous.minimumSafeSequence
    | none => request.sequence
  else request.minimumSafeSequence

/-- The catalog of a request. -/
def AssembleRequest.catalog (F : TimeFormat) (request : AssembleRequest) (blocks : List Int)
    (releases : List CatalogRelease) : Catalog where
  schema := releaseDocumentSchema
  sequence := request.catalogSequence
  publishedAt := F.format request.publishedAt
  expiresAt := F.format request.expiresAt
  currentRelease := request.release
  minimumSafeSequence := request.minimumSafe
  releases := releases
  criticalBlocks := blocks

/-- The length of a text in bytes. -/
def utf8Length (text : List Char) : Nat := (text.map Char.utf8Size).sum

/-- `Assemble`: the manifest and the catalog. `written` tells whether the two documents could be written. -/
def assemble (E : Env) (request : AssembleRequest) (written : Bool) : Except Err (ReleaseManifest × Catalog) := do
  let invalid := Err.message "release assembly is invalid"
  require (validProductReleaseName request.release ∧ 1 ≤ request.sequence ∧ 1 ≤ request.catalogSequence) invalid
  let artifacts ← scanArtifacts E request.directory request.release
  let imageSHA256 ← request.imageSHA256
  let manifest := request.manifest E.time artifacts imageSHA256
  (manifest.validate E.time).mapError fun _ => invalid
  let text := encodeDocument manifest.json
  let (blocks, releases) ← (replacementCatalogEntries E.time request.previousCatalog request.release request.sequence
    request.catalogSequence request.minimumSafe request.criticalBlocks (utf8Length text) (E.digest text)).mapError
      fun _ => invalid
  let catalog := request.catalog E.time blocks releases
  (catalog.validate E.time).mapError fun _ => invalid
  require written (.message "input/output error")
  return (manifest, catalog)

end Punaro.Release
