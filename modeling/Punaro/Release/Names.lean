import Mathlib.Computability.RegularExpressions
import Punaro.Lib.Search
import Punaro.Relay.State

/-!
# Names in release documents

Release names, digests, image references, paths and artifact file names
(`internal/release/metadata.go`, `manifest.go`, `paths.go`, `artifacts.go`).
-/

namespace Punaro.Release

open Outcome Search

/-- `strings.Cut`. -/
def cut (sep text : List Char) : Option (List Char × List Char) :=
  (index sep text).map fun i => (text.take i, text.drop (i + sep.length))

def digit (c : Char) : Bool := '0' ≤ c && c ≤ '9'

def alphanumeric (c : Char) : Bool := digit c || ('A' ≤ c && c ≤ 'Z') || ('a' ≤ c && c ≤ 'z')

/-- `releaseNamePattern`: `^[A-Za-z0-9][A-Za-z0-9._+-]{0,127}$`. -/
def releaseName : List Char → Bool
  | [] => false
  | c :: rest => alphanumeric c && rest.length ≤ 127 && rest.all fun c => alphanumeric c || "._+-".toList.contains c

def latestReleaseName : String := "latest"
def catalogReleaseName : String := "catalog"
def localCheckoutRelease : String := "v0.0.0-local"

def reservedReleaseNames : List String := [latestReleaseName, catalogReleaseName, localCheckoutRelease]

def validSemverNumericIdentifier (value : List Char) : Bool :=
  !value.isEmpty && !(1 < value.length && value.head? == some '0') && value.all digit

def validSemverIdentifiers (value : List Char) (rejectNumericLeadingZero : Bool) : Bool :=
  (value.splitOn '.').all fun identifier => !identifier.isEmpty &&
    identifier.all (fun c => c == '-' || alphanumeric c) &&
    !(rejectNumericLeadingZero && identifier.all digit && !validSemverNumericIdentifier identifier)

/-- The part before a separator, and whether the part behind it, if there is one, is valid. -/
def cutValid (sep : Char) (valid : List Char → Bool) (text : List Char) : List Char × Bool :=
  match cut [sep] text with
  | some (before, after) => (before, valid after)
  | none => (text, true)

/-- `ValidProductReleaseName`. -/
def validProductReleaseName (name : String) : Bool :=
  match name.toList with
  | 'v' :: version =>
    releaseName name.toList && !reservedReleaseNames.contains name &&
      let (version, build) := cutValid '+' (validSemverIdentifiers · false) version
      let (version, prerelease) := cutValid '-' (validSemverIdentifiers · true) version
      build && prerelease && (version.splitOn '.').length == 3 &&
        (version.splitOn '.').all validSemverNumericIdentifier
  | _ => false

def validSHA256 (value : String) : Bool :=
  value.toList.length == 64 && value.toList.all fun c => digit c || ('a' ≤ c && c ≤ 'f')

/-! ## Images -/

section

open RegularExpression

def anyOf (cs : List Char) : RegularExpression Char := cs.foldr (fun c r => char c + r) 0

def optional (r : RegularExpression Char) : RegularExpression Char := 1 + r

def some1 (r : RegularExpression Char) : RegularExpression Char := r * r.star

def lowerAlnum : RegularExpression Char := anyOf "abcdefghijklmnopqrstuvwxyz0123456789".toList

/-- `imageRepositoryPattern`: an optional registry, and the components of a repository. -/
def imageRepositoryPattern : RegularExpression Char :=
  let label := lowerAlnum * optional ((lowerAlnum + char '-').star * lowerAlnum)
  let port := char ':' * some1 (anyOf "0123456789".toList)
  let registry := label * (char '.' * label).star * optional port * char '/'
  let separator := char '.' + char '_' + char '_' * char '_' + some1 (char '-')
  let component := some1 lowerAlnum * (separator * some1 lowerAlnum).star
  optional registry * component * (char '/' * component).star

end

def imageDigest (image : String) : Option (List Char × List Char) := cut "@sha256:".toList image.toList

def validImageDigest (value : String) : Bool :=
  (imageDigest value).any fun parts => imageRepositoryPattern.rmatch parts.1 && validSHA256 (String.ofList parts.2)

def imageDigestEquals (image digest : String) : Bool := (imageDigest image).any fun parts => String.ofList parts.2 = digest

/-! ## Paths -/

def releaseManifestFile : String := "punaro-release.json"
def releaseSignatureFile : String := "punaro-release.sig"
def catalogFile : String := "punaro-catalog.json"
def catalogSignatureFile : String := "punaro-catalog.sig"

def pathInvalid : Err := .message "release path is invalid"

/-- `ValidateRelativePath`. -/
def validateRelativePath (path : String) : Except Err Unit := do
  let parts := path.toList.splitOn '/'
  require (path ≠ "" ∧ path.toList.all (fun c => !":?#@\\".toList.contains c) ∧ path.toList.head? ≠ some '/') pathInvalid
  require (parts.length = 2) pathInvalid
  require (parts.all fun part => part ≠ [] && part ≠ ['.'] && part ≠ ['.', '.'] && part.length ≤ 128 &&
    releaseName part) pathInvalid
  require (parts.head? ≠ some latestReleaseName.toList) pathInvalid

def validateManifestPath (release path : String) : Except Err Unit := do
  validateRelativePath path
  require (path = release ++ "/" ++ releaseManifestFile) pathInvalid

def knownComponents : List String :=
  ["punaro-trusted-attachment", "punaro-bootstrap", "punaro-telegram", "punaro-relay-adopt-prepare", "punaro-adapter",
    "punaro-memory", "punaro-enroll", "punaro"]

def knownOperatingSystems : List String := ["darwin", "linux", "windows"]

def knownArchitectures : List String := ["amd64", "arm64"]

/-- The operating system and the architecture that follow the name of a component. -/
def parsePlatform (component : String) (base : List Char) : Option (String × String) := do
  let start := component.toList ++ ['-']
  if start.isPrefixOf base then
    let (osName, arch) ← cut ['-'] (base.drop start.length)
    if knownOperatingSystems.contains (String.ofList osName) && knownArchitectures.contains (String.ofList arch) then
      some (String.ofList osName, String.ofList arch)
    else none
  else none

/-- `parseArtifactFilename`: the component, the operating system and the architecture. -/
def parseArtifactFilename (name : String) : Except Err (String × String × String) := do
  let invalid := Err.message "invalid artifact filename"
  require (name ≠ "" ∧ '/' ∉ name.toList ∧ '\\' ∉ name.toList) invalid
  let exe := ".exe".toList.isSuffixOf name.toList
  let base := if exe then name.toList.take (name.toList.length - 4) else name.toList
  let (component, osName, arch) ← ofOption (knownComponents.findSome? fun component =>
    (parsePlatform component base).map fun platform => (component, platform)) invalid
  require ((osName = "windows") = exe) invalid
  return (component, osName, arch)

def validateArtifactPath (release path : String) : Except Err Unit := do
  validateRelativePath path
  let start := (release ++ "/").toList
  require (start.isPrefixOf path.toList) pathInvalid
  let _ ← parseArtifactFilename (String.ofList (path.toList.drop start.length))

end Punaro.Release
