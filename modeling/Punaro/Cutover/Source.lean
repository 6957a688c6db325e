import Mathlib.Data.List.Lex
import Mathlib.Data.List.Sort
import Mathlib.Data.String.Basic
import Punaro.Relay.State

/-!
# The SQLite source of a cutover

The relay's SQLite database carries one control row that says whether the relay may
write (`internal/relay/migration_source.go`). Preparing a cutover fences every write
and advances all lease fences; from there the source is either reopened or retired,
for good. A prepared source is read page by page (`migration_batch.go`).
-/

namespace Punaro.Cutover

open Outcome

/-- Where the authority of the SQLite database stands. -/
inductive SourcePhase where
  | active
  | prepared
  | retired
deriving DecidableEq

/-- The last change of phase, as journaled in the control row. -/
inductive Transition where
  | prepared
  | aborted
  | retired
deriving DecidableEq

/-! ## Rows -/

/-- The columns of `endpoints`. -/
structure SourceEndpoint where
  endpoint : String
  machineID : String
  leaseUntil : Int
  ownershipGeneration : Int
  consumerID : Option String
  consumerGeneration : Int
  consumerLeaseUntil : Option Int
deriving DecidableEq

/-- The columns of `role_bindings`. -/
structure SourceRoleBinding where
  role : String
  sessionEndpoint : String
  machineID : String
  ownershipGeneration : Int
  leaseUntil : Int
deriving DecidableEq

/-- The columns of `deliveries`. -/
structure SourceDelivery where
  id : String
  messageID : String
  recipientEndpoint : String
  leaseMachineID : Option String
  leaseToken : Option String
  leaseGeneration : Int
  ownershipGeneration : Option Int
  consumerGeneration : Option Int
  leaseUntil : Option Int
  ackedAt : Option Int
deriving DecidableEq

/-- A row of any table: its primary key, and all its columns as `json.Marshal` writes them. -/
structure SourceRow where
  key : List String
  payload : String
deriving DecidableEq

/-- The tables of a source, under the names they get at the destination. The three tables that preparing a
cutover writes are kept by column. -/
structure SourceData where
  version : Nat
  endpoints : List SourceEndpoint
  roleBindings : List SourceRoleBinding
  deliveries : List SourceDelivery
  others : List (String × List SourceRow)
deriving DecidableEq

/-- The number of rows of a table and their digest. -/
structure TableEvidence where
  table : String
  count : Nat
  sha256 : String
deriving DecidableEq

/-- What a manifest says in JSON. -/
structure Manifest where
  version : Nat
  sourceID : String
  phase : SourcePhase
  epochID : String
  targetIdentity : String
  evidence : List TableEvidence
  fingerprint : String
deriving DecidableEq

/-- Third-party code the cutover calls: how rows are marshalled, the digests of a text, of the rows of a table
(given by their payloads), of a whole source and of a manifest, and the formats of identifiers and digests. -/
structure Codec where
  endpoint : SourceEndpoint → String
  roleBinding : SourceRoleBinding → String
  delivery : SourceDelivery → String
  sha256 : String → String
  tableSHA256 : List String → String
  fingerprint : Nat → String → List TableEvidence → String
  manifestSHA256 : Manifest → String
  /-- The length of a manifest in JSON. -/
  manifestSize : Manifest → Nat
  uuidValid : String → Bool
  digestValid : String → Bool
  /-- The payload has exactly the columns of the table, with values of the right kinds. -/
  payloadValid : String → String → Bool

variable (K : Codec)

/-! ## Tables -/

def tables : List String :=
  ["mail_endpoints", "mail_conversations", "mail_telegram_claims", "mail_telegram_participants",
    "mail_telegram_claim_events", "mail_telegram_claim_idempotency", "mail_memberships", "mail_roles",
    "mail_role_memberships", "mail_role_bindings", "mail_messages", "mail_deliveries", "mail_recipient_cursors",
    "mail_message_idempotency", "mail_conversation_idempotency", "mail_conversation_display_name_idempotency",
    "mail_conversation_controls", "mail_conversation_control_idempotency", "mail_request_nonces",
    "mail_role_profiles", "mail_role_profile_idempotency", "mail_rate_buckets", "mail_direct_conversations",
    "mail_message_from_roles", "mail_direct_message_idempotency"]

/-- The schema of the version has the table. -/
def migrationSourceTablePresent (version : Nat) (table : String) : Bool :=
  !(version == 1 && ["mail_roles", "mail_role_memberships", "mail_role_bindings"].contains table) &&
  !(version ≤ 2 && ["mail_conversation_controls", "mail_conversation_control_idempotency"].contains table) &&
  !(version < 4 && ["mail_role_profiles", "mail_role_profile_idempotency"].contains table) &&
  !(version < 5 && table == "mail_rate_buckets") &&
  !(version < 6 && ["mail_direct_conversations", "mail_message_from_roles",
    "mail_direct_message_idempotency"].contains table) &&
  !(version < 7 && ["mail_telegram_claims", "mail_telegram_participants", "mail_telegram_claim_events",
    "mail_conversation_display_name_idempotency"].contains table) &&
  (8 ≤ version || table != "mail_telegram_claim_idempotency")

/-- The columns of a table's primary key, which its rows are ordered by. -/
def keyColumns (table : String) : Nat :=
  if ["mail_conversation_display_name_idempotency", "mail_telegram_claim_idempotency", "mail_memberships",
    "mail_role_memberships", "mail_recipient_cursors", "mail_message_idempotency", "mail_conversation_idempotency",
    "mail_conversation_control_idempotency", "mail_request_nonces", "mail_role_profile_idempotency",
    "mail_rate_buckets", "mail_direct_conversations", "mail_direct_message_idempotency"].contains table then 2
  else 1

def SourceData.table (d : SourceData) (table : String) : List SourceRow :=
  if !migrationSourceTablePresent d.version table then []
  else if table == "mail_endpoints" then d.endpoints.map fun r => ⟨[r.endpoint], K.endpoint r⟩
  else if table == "mail_role_bindings" then d.roleBindings.map fun r => ⟨[r.role], K.roleBinding r⟩
  else if table == "mail_deliveries" then d.deliveries.map fun r => ⟨[r.id], K.delivery r⟩
  else (d.others.lookup table).getD []

/-- The rows of a table, `SELECT … ORDER BY` the columns of its key. -/
def SourceData.rows (d : SourceData) (table : String) : List SourceRow :=
  (d.table K table).insertionSort fun a b => a.key ≤ b.key

/-! ## Manifests -/

/-- A manifest with the journal of the control row. -/
structure MigrationSourceManifest extends Manifest where
  expectedFingerprint : String
  lastEpochID : String
  lastTargetIdentity : String
  lastResultFingerprint : String
  lastCutoff : Int
  lastTransition : Option Transition
deriving DecidableEq

/-- `tableEvidence`: the number of rows of a table, if the manifest has it. -/
def Manifest.count (m : Manifest) (table : String) : Int :=
  match m.evidence.find? fun e => e.table == table with
  | some e => e.count
  | none => -1

/-- The control row. -/
structure SourceControl where
  sourceID : String
  phase : SourcePhase
  epochID : String
  targetIdentity : String
  fingerprint : Option String
  lastEpochID : String
  lastTargetIdentity : String
  lastExpectedFingerprint : String
  lastResultFingerprint : String
  lastCutoff : Int
  lastTransition : Option Transition
deriving DecidableEq

structure Source where
  control : SourceControl
  data : SourceData
deriving DecidableEq

def SourceData.evidence (d : SourceData) : List TableEvidence :=
  tables.map fun table =>
    ⟨table, (d.rows K table).length,
      if migrationSourceTablePresent d.version table then K.tableSHA256 ((d.rows K table).map SourceRow.payload)
      else ""⟩

/-- The digest of the whole source. -/
def Source.fingerprint (s : Source) : String :=
  K.fingerprint s.data.version s.control.sourceID (s.data.evidence K)

/-- The manifest of the source as it stands. -/
def Source.manifest (s : Source) : MigrationSourceManifest where
  version := s.data.version
  sourceID := s.control.sourceID
  phase := s.control.phase
  epochID := s.control.epochID
  targetIdentity := s.control.targetIdentity
  evidence := s.data.evidence K
  fingerprint := s.fingerprint K
  expectedFingerprint := s.control.lastExpectedFingerprint
  lastEpochID := s.control.lastEpochID
  lastTargetIdentity := s.control.lastTargetIdentity
  lastResultFingerprint := s.control.lastResultFingerprint
  lastCutoff := s.control.lastCutoff
  lastTransition := s.control.lastTransition

def inspectMigrationSource (s : Source) : Except Err MigrationSourceManifest := do
  require (K.uuidValid s.control.sourceID) (.message "relay migration source control is unavailable")
  match s.control.phase with
  | .active =>
    require (s.control.epochID = "" ∧ s.control.targetIdentity = "" ∧ s.control.fingerprint = none)
      (.message "relay migration active binding is invalid")
  | _ =>
    require (K.uuidValid s.control.epochID ∧ K.digestValid s.control.targetIdentity ∧
      s.control.fingerprint.any K.digestValid) (.message "relay migration durable binding is invalid")
    require (s.control.fingerprint = some (s.fingerprint K))
      (.message "relay migration source fingerprint does not match its durable barrier")
  return s.manifest K

variable {K} in
theorem inspectMigrationSource_eq_ok {s : Source} {manifest : MigrationSourceManifest}
    (h : inspectMigrationSource K s = .ok manifest) :
    manifest = s.manifest K ∧ (s.control.phase ≠ .active → s.control.fingerprint = some (s.fingerprint K)) := by
  unfold inspectMigrationSource at h
  simp only [ok_rules] at h
  obtain ⟨_, -, h⟩ := h
  split at h
  · rename_i hactive
    simp only [ok_rules] at h
    obtain ⟨_, -, rfl⟩ := h
    exact ⟨rfl, fun hne => absurd hactive hne⟩
  · simp only [ok_rules] at h
    obtain ⟨_, -, _, hfingerprint, rfl⟩ := h
    exact ⟨rfl, fun _ => hfingerprint⟩

/-! ## Changes of phase -/

/-- What preparing a cutover does to the rows: every lease is ended and its fence advanced. -/
def SourceData.fence (d : SourceData) (now : Int) : Except Err SourceData := do
  let endpoints := d.endpoints.map fun r =>
    { r with
      leaseUntil := unixMilli now
      ownershipGeneration := r.ownershipGeneration + 1
      consumerID := none
      consumerGeneration := r.consumerGeneration + if r.consumerID.isNone then 0 else 1
      consumerLeaseUntil := none }
  let roleBindings ← if 2 ≤ d.version then
      d.roleBindings.mapM fun r => do
        let endpoint ← ofOption (endpoints.find? fun e => e.endpoint == r.sessionEndpoint)
          (.message "relay migration role binding fencing failed")
        return { r with leaseUntil := unixMilli now, ownershipGeneration := endpoint.ownershipGeneration }
    else pure d.roleBindings
  return { d with
    endpoints
    roleBindings
    deliveries := d.deliveries.map fun r =>
      { r with
        leaseMachineID := none
        leaseToken := none
        leaseGeneration := r.leaseGeneration + if r.leaseToken.isNone then 0 else 1
        ownershipGeneration := none
        consumerGeneration := none
        leaseUntil := none } }

/-- `PrepareMigrationSource`: the exact preparation may be repeated. -/
def prepareMigrationSource (s : Source) (epochID targetIdentity expectedFingerprint : String) (now : Int) :
    Except Err (Source × MigrationSourceManifest) := do
  require (K.uuidValid epochID ∧ K.digestValid targetIdentity ∧ K.digestValid expectedFingerprint ∧ now ≠ zeroTime)
    (.message "invalid relay migration preparation")
  let current ← inspectMigrationSource K s
  let cutoff := if current.version = 2 then -unixMilli now else unixMilli now
  if current.phase = .prepared ∧ current.epochID = epochID ∧ current.targetIdentity = targetIdentity ∧
      current.lastEpochID = epochID ∧ current.lastTargetIdentity = targetIdentity ∧
      current.expectedFingerprint = expectedFingerprint ∧ current.lastResultFingerprint = current.fingerprint ∧
      current.lastCutoff = cutoff ∧ current.lastTransition = some .prepared then
    return (s, current)
  else
    require (current.phase = .active ∧ current.fingerprint = expectedFingerprint)
      (.message "relay migration source changed before preparation")
    let data ← s.data.fence now
    let fingerprint := ({ s with data } : Source).fingerprint K
    let s := { control := { s.control with
                phase := .prepared
                epochID
                targetIdentity
                fingerprint := some fingerprint
                lastEpochID := epochID
                lastTargetIdentity := targetIdentity
                lastExpectedFingerprint := expectedFingerprint
                lastResultFingerprint := fingerprint
                lastCutoff := cutoff
                lastTransition := some .prepared }
               data : Source }
    return (s, s.manifest K)

/-- `transitionPreparedMigrationSource`: reopens (`retire = false`) or retires a prepared source, under its exact
binding; both may be repeated. -/
def transitionPreparedMigrationSource (s : Source) (epochID targetIdentity fingerprint : String) (retire : Bool) :
    Except Err (Source × MigrationSourceManifest) := do
  require (K.uuidValid epochID ∧ K.digestValid targetIdentity ∧ K.digestValid fingerprint)
    (.message "invalid relay migration transition")
  let current ← inspectMigrationSource K s
  if current.phase = .retired then
    require (retire ∧ current.epochID = epochID ∧ current.targetIdentity = targetIdentity ∧
      current.fingerprint = fingerprint ∧ current.lastEpochID = epochID ∧ current.lastTargetIdentity = targetIdentity ∧
      current.lastResultFingerprint = fingerprint ∧ current.lastTransition = some .retired)
      (.message "relay migration source is retired")
    return (s, current)
  else if current.phase = .active ∧ !retire ∧ current.lastEpochID = epochID ∧
      current.lastTargetIdentity = targetIdentity ∧ current.lastResultFingerprint = fingerprint ∧
      current.lastTransition = some .aborted then
    return (s, current)
  else
    require (current.phase = .prepared ∧ current.epochID = epochID ∧ current.targetIdentity = targetIdentity ∧
      current.fingerprint = fingerprint) (.message "relay migration source binding does not match")
    let s := if retire then
        { s with control := { s.control with phase := .retired, lastTransition := some .retired } }
      else
        { s with control := { s.control with
            phase := .active, epochID := "", targetIdentity := "", fingerprint := none,
            lastTransition := some .aborted } }
    return (s, s.manifest K)

def abortPreparedMigrationSource (s : Source) (epochID targetIdentity fingerprint : String) :
    Except Err (Source × MigrationSourceManifest) :=
  transitionPreparedMigrationSource K s epochID targetIdentity fingerprint false

def retirePreparedMigrationSource (s : Source) (epochID targetIdentity fingerprint : String) :
    Except Err (Source × MigrationSourceManifest) :=
  transitionPreparedMigrationSource K s epochID targetIdentity fingerprint true

/-! ## Pages -/

/-- A row as it is handed over; its key is the key columns joined. -/
structure MigrationSourceRow where
  table : String
  key : String
  payload : String
  sha256 : String
deriving DecidableEq

structure MigrationSourceBatch where
  rows : List MigrationSourceRow
  nextKey : String
  done : Bool
deriving DecidableEq

def maxMigrationBatchRows : Nat := 256

def maxMigrationSourcePayloadBytes : Nat := 256 * 1024

def encodeMigrationRowKey (values : List String) : String := "\x1f".intercalate values

/-- `strings.Split` of an encoded key. -/
def splitMigrationRowKey (key : String) : List String := (key.toList.splitOn '\x1f').map String.ofList

def validKeyPart (value : String) : Bool :=
  value != "" && value.toList.all fun c => c != '\x00' && c != '\x1f'

def SourceRow.exported (table : String) (row : SourceRow) : MigrationSourceRow :=
  ⟨table, encodeMigrationRowKey row.key, row.payload, K.sha256 row.payload⟩

/-- The key of a row that is read, also of the one behind the page. -/
def SourceRow.checkKey (row : SourceRow) : Except Err Unit :=
  require (row.key.all validKeyPart ∧ encodeMigrationRowKey row.key ≠ "" ∧
    (encodeMigrationRowKey row.key).utf8ByteSize ≤ 4096) (.message "relay migration batch key is invalid")

/-- The rows behind a cursor, which is the key of one of them. -/
def resumeAfter (table afterKey : String) (rows : List SourceRow) : Except Err (List SourceRow) :=
  if afterKey = "" then return rows
  else do
    let parts := splitMigrationRowKey afterKey
    require (parts.length = keyColumns table ∧ parts.all validKeyPart)
      (.message "relay migration resume key is invalid")
    require (rows.any fun row => row.key == parts) (.message "relay migration resume key is unavailable")
    return rows.filter fun row => parts < row.key

/-- One page of a prepared source. The query asks for one row more than the page has, which tells whether the
page is the last one. -/
def readMigrationSourceBatch (s : Source) (table afterKey : String) (limit : Nat) :
    Except Err MigrationSourceBatch := do
  require (1 ≤ limit ∧ limit ≤ maxMigrationBatchRows ∧ table ∈ tables) (.message "invalid relay migration batch")
  let manifest ← inspectMigrationSource K s
  require (manifest.phase = .prepared) (.message "relay migration source is not prepared")
  if !migrationSourceTablePresent manifest.version table then return ⟨[], "", true⟩
  else
    let found ← resumeAfter table afterKey (s.data.rows K table)
    (found.take limit).forM fun row => do
      row.checkKey
      require (row.payload ≠ "" ∧ row.payload.utf8ByteSize ≤ maxMigrationSourcePayloadBytes)
        (.message "relay migration batch payload is invalid")
    ((found.drop limit).take 1).forM SourceRow.checkKey
    let rows := (found.take limit).map (SourceRow.exported K table)
    return ⟨rows, (rows.getLast?.map MigrationSourceRow.key).getD "", (found.drop limit).isEmpty⟩

end Punaro.Cutover
