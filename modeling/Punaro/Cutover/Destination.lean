import Punaro.Cutover.Source

/-!
# The PostgreSQL destination of a cutover

The destination keeps one epoch per cutover attempt (`internal/postgres/mail_cutover.go`).
While an epoch is importing, pages of the source are staged under it; a checkpoint per
table says how far (`mail_cutover_import.go`). Verifying compares what is staged with the
manifest and fills the mail tables; activating makes them the authority.
-/

namespace Punaro.Cutover

open Outcome

inductive MailCutoverPhase where
  | importing
  | verified
  | active
  | aborted
deriving DecidableEq

/-- Binds the manifest of a source to a target. The manifest is kept as decoded. -/
structure MailCutoverRequest where
  epochID : String
  sourceID : String
  targetIdentity : String
  sourceFingerprint : String
  manifest : Manifest
  manifestSHA256 : String
deriving DecidableEq

structure MailCutoverEpoch extends MailCutoverRequest where
  phase : MailCutoverPhase
deriving DecidableEq

/-- How far a table is staged. `updated` tells whether the row exists, by its `UpdatedAt`. -/
structure MailCutoverCheckpoint where
  lastKey : Option String
  rowCount : Nat
  rollingSHA256 : String
  updated : Bool
deriving DecidableEq

/-- The columns of `mail_cutover_staging` apart from its key. -/
structure StagedRow where
  payload : String
  sha256 : String
deriving DecidableEq

structure MailCutoverBatch where
  epochID : String
  table : String
  afterKey : String
  rows : List MigrationSourceRow
  done : Bool
deriving DecidableEq

structure MailCutoverPreflight where
  targetRows : Nat
  legacyPending : Nat
  incompleteEpochs : Nat
deriving DecidableEq

/-- The database: who it is and who owns it, the machines still on legacy authentication, the rows of the mail
tables, and the tables of the cutover. Staged rows are keyed by epoch, table and row key, checkpoints by epoch
and table. -/
structure Destination where
  identity : String
  owner : String
  schemaReady : Bool
  legacyPending : Nat
  mail : List MigrationSourceRow
  epochs : Table String MailCutoverEpoch
  staging : Table (String × String × String) StagedRow
  checkpoints : Table (String × String) MailCutoverCheckpoint

variable (K : Codec)

/-! ## Epochs -/

/-- `MailCutoverRequest.Validate`: the manifest is that of a prepared source bound to this epoch and target. -/
def MailCutoverRequest.valid (request : MailCutoverRequest) : Bool :=
  K.uuidValid request.epochID && K.uuidValid request.sourceID && K.digestValid request.targetIdentity &&
  K.digestValid request.sourceFingerprint && K.digestValid request.manifestSHA256 &&
  K.manifestSize request.manifest ≤ 8192 &&
  (1 ≤ request.manifest.version && request.manifest.version ≤ 8) &&
  request.manifest.sourceID == request.sourceID && request.manifest.phase == .prepared &&
  request.manifest.epochID == request.epochID && request.manifest.targetIdentity == request.targetIdentity &&
  request.manifest.fingerprint == request.sourceFingerprint &&
  (request.manifest.evidence.all fun e =>
    if migrationSourceTablePresent request.manifest.version e.table then K.digestValid e.sha256
    else e.sha256 == "" && e.count == 0) &&
  K.manifestSHA256 request.manifest == request.manifestSHA256

/-- `sameMailCutoverRequest`: the manifests are compared by their digests. -/
def sameMailCutoverRequest (left right : MailCutoverRequest) : Bool :=
  left.epochID == right.epochID && left.sourceID == right.sourceID &&
  left.targetIdentity == right.targetIdentity && left.sourceFingerprint == right.sourceFingerprint &&
  left.manifestSHA256 == right.manifestSHA256

/-- An epoch that fences the writers of the mail tables or has opened them. -/
def MailCutoverPhase.authority : MailCutoverPhase → Bool
  | .aborted => false
  | _ => true

/-- `INSERT INTO mail_cutover_epochs`: at most one epoch is not aborted (`mail_cutover_epochs_one_authority`). -/
def Destination.insertEpoch (d : Destination) (epoch : MailCutoverEpoch) : Option Destination :=
  if epoch.phase.authority && d.epochs.rows.any fun row => row.2.phase.authority then none
  else (d.epochs.insert? epoch.epochID epoch).map fun epochs => { d with epochs }

def Destination.setPhase (d : Destination) (epochID : String) (phase : MailCutoverPhase) : Destination :=
  { d with epochs := d.epochs.updateAt epochID fun epoch => { epoch with phase } }

def inspectMailCutoverPreflight (d : Destination) : MailCutoverPreflight where
  targetRows := d.mail.length
  legacyPending := d.legacyPending
  incompleteEpochs :=
    (d.epochs.rows.filter fun row => row.2.phase == .importing || row.2.phase == .verified).length

/-- Creates an importing epoch, or returns the epoch of the same request. -/
def beginMailCutover (d : Destination) (actorPrincipalID : String) (request : MailCutoverRequest) :
    Except Err (Destination × MailCutoverEpoch) := do
  require (request.valid K) (.message "invalid mail cutover request")
  require (actorPrincipalID = d.owner) (.message "mail cutover is not authorized")
  require (d.identity = request.targetIdentity) (.message "mail cutover target identity does not match")
  match d.epochs.find? request.epochID with
  | some existing =>
    require (sameMailCutoverRequest existing.toMailCutoverRequest request) .conflict
    return (d, existing)
  | none =>
    require (d.mail = []) (.message "mail cutover target is not empty")
    let epoch : MailCutoverEpoch := ⟨request, .importing⟩
    let d ← ofOption (d.insertEpoch epoch) (.message "mail cutover cannot be recorded")
    return (d, epoch)

/-- The epoch, or `none` for `ErrNotFound`. -/
def mailCutoverStatus (d : Destination) (actorPrincipalID epochID : String) :
    Except Err (Option MailCutoverEpoch) := do
  require (K.uuidValid epochID) (.message "invalid mail cutover status request")
  require (actorPrincipalID = d.owner) (.message "mail cutover status is not authorized")
  return d.epochs.find? epochID

/-- Leaves an aborted epoch in the place of one that was never begun. -/
def reserveMailCutoverAbort (d : Destination) (actorPrincipalID : String) (request : MailCutoverRequest) :
    Except Err (Destination × MailCutoverEpoch) := do
  require (request.valid K) (.message "invalid mail cutover abort reservation")
  require (actorPrincipalID = d.owner) (.message "mail cutover abort reservation is not authorized")
  require (d.identity = request.targetIdentity) (.message "mail cutover target identity does not match")
  match d.epochs.find? request.epochID with
  | some epoch =>
    require (sameMailCutoverRequest epoch.toMailCutoverRequest request) .conflict
    require (epoch.phase = .aborted) (.message "mail cutover epoch already exists")
    return (d, epoch)
  | none =>
    let epoch : MailCutoverEpoch := ⟨request, .aborted⟩
    let d ← ofOption (d.insertEpoch epoch) (.message "mail cutover abort reservation cannot be recorded")
    return (d, epoch)

/-- Gives up an epoch that is not active: the mail tables and what was staged are emptied. -/
def abortMailCutover (d : Destination) (actorPrincipalID epochID sourceFingerprint : String) :
    Except Err Destination := do
  require (K.uuidValid epochID ∧ K.digestValid sourceFingerprint) (.message "invalid mail cutover abort request")
  require (actorPrincipalID = d.owner) (.message "mail cutover abort is not authorized")
  let epoch ← ofOption (d.epochs.find? epochID) (.message "mail cutover epoch is unavailable")
  require (epoch.sourceFingerprint = sourceFingerprint) .conflict
  require (epoch.phase ≠ .active) (.message "active mail cutover cannot be aborted")
  if epoch.phase = .aborted then return d
  else
    return { d.setPhase epochID .aborted with
      mail := []
      staging := d.staging.deleteWhere fun key _ => key.1 == epochID
      checkpoints := d.checkpoints.deleteWhere fun key _ => key.1 == epochID }

/-! ## Staging -/

def emptyMailCutoverDigest : String := K.tableSHA256 []

def MailCutoverCheckpoint.none : MailCutoverCheckpoint := ⟨.none, 0, emptyMailCutoverDigest K, false⟩

/-- `MigrationTableHasher.Add`: what is checked of a row. -/
def validMigrationRow (table : String) (row : MigrationSourceRow) : Bool :=
  row.table == table && row.key != "" && row.key.utf8ByteSize ≤ 4096 && row.payload != "" &&
  row.payload.utf8ByteSize ≤ maxMigrationSourcePayloadBytes && K.digestValid row.sha256 &&
  K.sha256 row.payload == row.sha256 && K.payloadValid table row.payload

/-- The rows are in the order of their keys, behind the cursor. -/
def ascendingAfter (previous : String) : List MigrationSourceRow → Bool
  | [] => true
  | row :: rows => (previous == "" || previous < row.key) && ascendingAfter row.key rows

/-- `MailCutoverBatch.Validate`. -/
def MailCutoverBatch.valid (batch : MailCutoverBatch) : Bool :=
  K.uuidValid batch.epochID && batch.afterKey.utf8ByteSize ≤ 4096 && batch.rows.length ≤ 256 &&
  !(batch.rows.isEmpty && (!batch.done || batch.afterKey != "")) && tables.contains batch.table &&
  ascendingAfter batch.afterKey batch.rows && batch.rows.all (validMigrationRow K batch.table)

/-- The position of a table; without a row, the zero position with the empty digest. -/
def Destination.checkpoint (d : Destination) (epochID table : String) : MailCutoverCheckpoint :=
  (d.checkpoints.find? (epochID, table)).getD (.none K)

def mailCutoverCheckpoint (d : Destination) (actorPrincipalID epochID table : String) :
    Except Err MailCutoverCheckpoint := do
  require (K.uuidValid epochID ∧ table ∈ tables) (.message "invalid mail cutover checkpoint request")
  require (actorPrincipalID = d.owner) (.message "mail cutover checkpoint is not authorized")
  require ((d.epochs.find? epochID).any fun epoch => epoch.phase != .aborted)
    (.message "mail cutover checkpoint is unavailable")
  return d.checkpoint K epochID table

/-- `nextMailCutoverDigest`; an empty page keeps the digest. -/
def nextMailCutoverDigest (previous : String) (rows : List MigrationSourceRow) : String :=
  if rows.isEmpty then previous
  else K.tableSHA256 (previous :: rows.map MigrationSourceRow.sha256)

/-- `verifyStagedMailRows`: the page is staged already. -/
def verifyStagedMailRows (d : Destination) (batch : MailCutoverBatch) : Bool :=
  batch.rows.all fun row =>
    d.staging.find? (batch.epochID, batch.table, row.key) == some ⟨row.payload, row.sha256⟩

/-- Stages a page behind the checkpoint and moves the checkpoint on; the page that was staged last may be
repeated. -/
def stageMailCutoverBatch (d : Destination) (actorPrincipalID : String) (batch : MailCutoverBatch) :
    Except Err (Destination × MailCutoverCheckpoint) := do
  require (batch.valid K) (.message "invalid mail cutover batch")
  require (actorPrincipalID = d.owner) (.message "mail cutover batch is not authorized")
  require ((d.epochs.find? batch.epochID).any fun epoch => epoch.phase == .importing)
    (.message "mail cutover is not importing")
  let checkpoint := d.checkpoint K batch.epochID batch.table
  let currentKey := checkpoint.lastKey.getD ""
  let lastKey := (batch.rows.getLast?.map MigrationSourceRow.key).getD batch.afterKey
  if currentKey ≠ batch.afterKey then
    require (currentKey = lastKey ∧ batch.rows ≠ []) .conflict
    require (verifyStagedMailRows d batch) .conflict
    return (d, checkpoint)
  else if checkpoint.updated ∧ batch.rows = [] then return (d, checkpoint)
  else
    let staging ← batch.rows.foldlM (fun (staging : Table _ _) row =>
      ofOption (staging.insert? (batch.epochID, batch.table, row.key) ⟨row.payload, row.sha256⟩) .conflict) d.staging
    let checkpoint : MailCutoverCheckpoint :=
      ⟨if lastKey = "" then .none else some lastKey, checkpoint.rowCount + batch.rows.length,
        nextMailCutoverDigest K checkpoint.rollingSHA256 batch.rows, true⟩
    return ({ d with staging, checkpoints := d.checkpoints.put (batch.epochID, batch.table) checkpoint }, checkpoint)

/-! ## Verification and activation -/

/-- The staged rows of a table, in the order they were staged in. -/
def Destination.arrivals (d : Destination) (epochID table : String) : List MigrationSourceRow :=
  (d.staging.rows.filter fun row => row.1.1 == epochID && row.1.2.1 == table).map fun row =>
    ⟨table, row.1.2.2, row.2.payload, row.2.sha256⟩

/-- The staged rows of a table, `ORDER BY row_key COLLATE "C"`. -/
def Destination.staged (d : Destination) (epochID table : String) : List MigrationSourceRow :=
  (d.arrivals epochID table).insertionSort fun a b => a.key ≤ b.key

/-- The tables whose missing digest stands for an empty table. -/
def laterTables : List String :=
  ["mail_conversation_controls", "mail_conversation_control_idempotency", "mail_role_profiles",
    "mail_role_profile_idempotency", "mail_rate_buckets", "mail_direct_conversations", "mail_message_from_roles",
    "mail_direct_message_idempotency", "mail_telegram_claims", "mail_telegram_participants",
    "mail_telegram_claim_events", "mail_conversation_display_name_idempotency", "mail_telegram_claim_idempotency"]

/-- `mailCutoverTableEvidence`: absent tables count as empty ones. -/
def mailCutoverTableEvidence (manifest : Manifest) (table : String) : Int × String :=
  if !migrationSourceTablePresent manifest.version table then (0, emptyMailCutoverDigest K)
  else match manifest.evidence.find? fun e => e.table == table with
    | some e =>
      (e.count, if laterTables.contains table && e.sha256 == "" && e.count == 0 then emptyMailCutoverDigest K
        else e.sha256)
    | .none => (-1, "")

/-- What is staged for a table is what the manifest says. -/
def verifyMailCutoverTable (d : Destination) (epoch : MailCutoverEpoch) (table : String) : Except Err Unit := do
  let (expectedCount, expectedDigest) := mailCutoverTableEvidence K epoch.manifest table
  require ((d.checkpoints.find? (epoch.epochID, table)).any fun checkpoint =>
    (checkpoint.rowCount : Int) == expectedCount)
    (.message "mail cutover checkpoint does not match the source manifest")
  let rows := d.staged epoch.epochID table
  require (rows.all (validMigrationRow K table)) (.message "mail cutover staged row is invalid")
  require ((rows.length : Int) = expectedCount ∧ K.tableSHA256 (rows.map MigrationSourceRow.payload) = expectedDigest)
    (.message "mail cutover staging does not match the source manifest")

def verifyMailCutover (d : Destination) (actorPrincipalID epochID sourceFingerprint : String) :
    Except Err (Destination × MailCutoverEpoch) := do
  require (K.uuidValid epochID ∧ K.digestValid sourceFingerprint) (.message "invalid mail cutover verification")
  require (actorPrincipalID = d.owner) (.message "mail cutover verification is not authorized")
  let epoch ← ofOption (d.epochs.find? epochID) (.message "mail cutover epoch is unavailable")
  require (epoch.sourceFingerprint = sourceFingerprint) (.message "mail cutover epoch is unavailable")
  if epoch.phase = .verified then return (d, epoch)
  else
    require (epoch.phase = .importing) (.message "mail cutover is not importing")
    tables.forM (verifyMailCutoverTable K d epoch)
    let mail := d.mail ++ tables.flatMap (d.staged epochID)
    require (∀ table ∈ tables, ((mail.filter fun row => row.table == table).length : Int) =
      (mailCutoverTableEvidence K epoch.manifest table).1) (.message "mail cutover materialized count does not match")
    return ({ d.setPhase epochID .verified with mail }, { epoch with phase := .verified })

def checkMailCutoverActivationReadiness (d : Destination) (actorPrincipalID epochID sourceFingerprint : String) :
    Except Err Unit := do
  require (K.uuidValid epochID ∧ K.digestValid sourceFingerprint)
    (.message "invalid mail cutover activation readiness check")
  require (actorPrincipalID = d.owner) (.message "mail cutover activation readiness is not authorized")
  require ((d.epochs.find? epochID).any fun epoch =>
    epoch.sourceFingerprint == sourceFingerprint && epoch.phase == .verified) (.message "mail cutover is not verified")
  require (d.legacyPending = 0) (.message "legacy authentication still has pending machines")

/-- `sameMailCutoverSource`: the manifests differ in the phase alone. -/
def sameMailCutoverSource (prepared retired : Manifest) : Bool :=
  prepared.version == retired.version && prepared.sourceID == retired.sourceID &&
  prepared.epochID == retired.epochID && prepared.targetIdentity == retired.targetIdentity &&
  prepared.fingerprint == retired.fingerprint && prepared.evidence == retired.evidence &&
  prepared.phase == .prepared && retired.phase == .retired

def activateMailCutover (d : Destination) (actorPrincipalID epochID sourceFingerprint : String)
    (retired : Manifest) : Except Err (Destination × MailCutoverEpoch) := do
  require (K.uuidValid epochID ∧ K.digestValid sourceFingerprint ∧ retired.phase = .retired ∧
    retired.epochID = epochID ∧ retired.fingerprint = sourceFingerprint) (.message "invalid mail cutover activation")
  require (actorPrincipalID = d.owner) (.message "mail cutover activation is not authorized")
  let epoch ← ofOption (d.epochs.find? epochID) (.message "mail cutover epoch is unavailable")
  require (epoch.sourceFingerprint = sourceFingerprint) (.message "mail cutover epoch is unavailable")
  require (sameMailCutoverSource epoch.manifest retired)
    (.message "retired mail source does not match the verified epoch")
  if epoch.phase = .active then return (d, epoch)
  else
    require (epoch.phase = .verified) (.message "mail cutover is not verified")
    require (d.legacyPending = 0) (.message "legacy authentication still has pending machines")
    return (d.setPhase epochID .active, { epoch with phase := .active })

end Punaro.Cutover
