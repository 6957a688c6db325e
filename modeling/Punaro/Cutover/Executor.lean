import Punaro.Cutover.Destination
import Punaro.Lib.Program

/-!
# The cutover executor

`Executor` (`internal/cutover/executor.go`) moves the mail authority from SQLite to
PostgreSQL. It is a program over the calls of a source, a destination and a publisher:
each call is one transaction and durable on its own, so that an execution may be
interrupted between any two calls and another one, or an abort, may run meanwhile.
-/

namespace Punaro.Cutover

open Prog

structure MailCutoverPublication where
  epochID : String
  targetIdentity : String
  sourceFingerprint : String
deriving DecidableEq

/-! ## Calls -/

/-- The calls of the interfaces `Source` and `Destination`, and `Publish`. -/
inductive Call where
  | checkMailCutoverSchemaReadiness
  | inspectMailCutoverPreflight
  | identity
  | inspect
  | checkEnrollmentCoverage (enrollment : String)
  | prepare (epochID targetIdentity expectedFingerprint : String) (cutoff : Int)
  | readBatch (table afterKey : String) (limit : Nat)
  | abort (epochID targetIdentity fingerprint : String)
  | retire (epochID targetIdentity fingerprint : String)
  | beginMailCutover (actorPrincipalID : String) (request : MailCutoverRequest)
  | mailCutoverStatus (actorPrincipalID epochID : String)
  | reserveMailCutoverAbort (actorPrincipalID : String) (request : MailCutoverRequest)
  | mailCutoverCheckpoint (actorPrincipalID epochID table : String)
  | stageMailCutoverBatch (actorPrincipalID : String) (batch : MailCutoverBatch)
  | verifyMailCutover (actorPrincipalID epochID sourceFingerprint : String)
  | checkMailCutoverActivationReadiness (actorPrincipalID epochID sourceFingerprint enrollment : String)
  | activateMailCutover (actorPrincipalID epochID sourceFingerprint : String) (retired : Manifest)
  | abortMailCutover (actorPrincipalID epochID sourceFingerprint : String)
  | publish (publication : MailCutoverPublication)

abbrev Call.Result : Call → Type
  | .inspectMailCutoverPreflight => MailCutoverPreflight
  | .identity => String
  | .inspect => MigrationSourceManifest
  | .prepare .. => MigrationSourceManifest
  | .readBatch .. => MigrationSourceBatch
  | .abort .. => MigrationSourceManifest
  | .retire .. => MigrationSourceManifest
  | .beginMailCutover .. => MailCutoverEpoch
  | .mailCutoverStatus .. => Option MailCutoverEpoch
  | .reserveMailCutoverAbort .. => MailCutoverEpoch
  | .mailCutoverCheckpoint .. => MailCutoverCheckpoint
  | .stageMailCutoverBatch .. => MailCutoverCheckpoint
  | .verifyMailCutover .. => MailCutoverEpoch
  | .activateMailCutover .. => MailCutoverEpoch
  | _ => Unit

abbrev Call.Reply (c : Call) : Type := Answer Err c.Result

abbrev Program (α : Type) : Type := Prog Call Call.Reply Err α

/-- A call whose error ends the program. -/
def Call.orFail (c : Call) (wrap : Err → Err) : Program c.Result := do
  let answer ← perform c
  result wrap answer

/-- A call whose error is returned as it is. -/
abbrev Call.orReturn (c : Call) : Program c.Result := c.orFail id

/-- `if !c { return errors.New(…) }`. -/
def Program.check (c : Prop) [Decidable c] (text : String) : Program Unit :=
  if c then .done () else .fail (.message text)

variable (K : Codec)

/-! ## Import -/

/-- What is imported, for whom and under which epoch. -/
structure Import where
  actorPrincipalID : String
  epochID : String
  batchSize : Nat

/-- The loop over the pages of a table, from the cursor `after`. It ends without a checkpoint when `fuel` pages
were not enough. -/
def importPages (i : Import) (table : String) : Nat → String → Program (Option MailCutoverCheckpoint)
  | 0, _ => .done none
  | fuel + 1, after => do
    let batch ← (Call.readBatch table after i.batchSize).orReturn
    let checkpoint ← (Call.stageMailCutoverBatch i.actorPrincipalID
      ⟨i.epochID, table, after, batch.rows, batch.done⟩).orReturn
    if batch.done then return some checkpoint
    else
      Program.check (batch.nextKey ≠ "" ∧ batch.nextKey ≠ after) "mail cutover source pagination did not advance"
      importPages i table fuel batch.nextKey

/-- Brings one table to the number of rows its manifest has; `false` when the fuel was not enough. -/
def importTable (i : Import) (prepared : Manifest) (fuel : Nat) (table : String) : Program Bool := do
  let checkpoint ← (Call.mailCutoverCheckpoint i.actorPrincipalID i.epochID table).orReturn
  let expected := prepared.count table
  Program.check ((checkpoint.rowCount : Int) ≤ expected) "mail cutover checkpoint exceeds the source manifest"
  if (checkpoint.rowCount : Int) = expected ∧ (0 < expected ∨ checkpoint.updated) then return true
  else
    match ← importPages i table fuel (checkpoint.lastKey.getD "") with
    | none => return false
    | some checkpoint =>
      Program.check ((checkpoint.rowCount : Int) = expected)
        "mail cutover checkpoint does not reach the source manifest"
      return true

/-- The loop over the tables. -/
def importTables (i : Import) (prepared : Manifest) (fuel : Nat) : List String → Program Bool
  | [] => return true
  | table :: tables => do
    if ← importTable i prepared fuel table then importTables i prepared fuel tables else return false

/-! ## Execute and Abort -/

structure Request where
  actorPrincipalID : String
  epochID : String
  expectedSourceFingerprint : String
  cutoff : Int

structure Result where
  epochID : String
  sourceFingerprint : String
  sourcePhase : SourcePhase
  phase : MailCutoverPhase

def destinationRequest (manifest : Manifest) (epochID target : String) : MailCutoverRequest :=
  let prepared := { manifest with phase := .prepared, epochID, targetIdentity := target }
  ⟨epochID, prepared.sourceID, target, prepared.fingerprint, prepared, K.manifestSHA256 prepared⟩

/-- The manifest an execution goes on with: an active source is prepared, any other one must be bound to this
very execution. -/
def bindSource (enrollment target : String) (request : Request) (manifest : MigrationSourceManifest) :
    Program MigrationSourceManifest :=
  match manifest.phase with
  | .active => do
    Program.check (manifest.fingerprint = request.expectedSourceFingerprint)
      "mail cutover source changed after dry-run"
    let manifest ← (Call.prepare request.epochID target request.expectedSourceFingerprint request.cutoff).orReturn
    (Call.checkEnrollmentCoverage enrollment).orReturn
    return manifest
  | _ => do
    Program.check (manifest.epochID = request.epochID ∧ manifest.targetIdentity = target ∧
      manifest.expectedFingerprint = request.expectedSourceFingerprint)
      "mail cutover source is bound to another execution"
    return manifest

/-- An importing epoch is filled and verified; without enough fuel the execution stops. -/
def importEpoch (i : Import) (fuel : Nat) (manifest prepared : Manifest) (epoch : MailCutoverEpoch) :
    Program MailCutoverEpoch :=
  if epoch.phase = .importing then do
    Program.check (manifest.phase = .prepared) "retired source has an incomplete destination import"
    let complete ← importTables i prepared fuel tables
    Program.check complete "interrupted"
    (Call.verifyMailCutover i.actorPrincipalID i.epochID prepared.fingerprint).orReturn
  else return epoch

/-- A verified epoch is activated, after the source is retired. -/
def activateEpoch (enrollment target : String) (request : Request) (manifest : Manifest)
    (epoch : MailCutoverEpoch) : Program (Manifest × MailCutoverEpoch) :=
  if epoch.phase = .verified then do
    let fingerprint := manifest.fingerprint
    let manifest ← if manifest.phase = .prepared then do
        (Call.checkMailCutoverActivationReadiness request.actorPrincipalID request.epochID fingerprint
          enrollment).orReturn
        let retired ← (Call.retire request.epochID target fingerprint).orReturn
        pure retired.toManifest
      else pure manifest
    Program.check (manifest.phase = .retired) "mail cutover source is not retired"
    let epoch ← (Call.activateMailCutover request.actorPrincipalID request.epochID fingerprint manifest).orReturn
    return (manifest, epoch)
  else return (manifest, epoch)

/-- `Executor.Execute`, for an executor with the given enrollment and batch size. -/
def execute (enrollment : String) (batchSize fuel : Nat) (request : Request) : Program Result := do
  Program.check (enrollment ≠ "" ∧ K.uuidValid request.actorPrincipalID ∧ K.uuidValid request.epochID ∧
    K.digestValid request.expectedSourceFingerprint ∧ request.cutoff ≠ zeroTime)
    "mail cutover execution request is invalid"
  Call.checkMailCutoverSchemaReadiness.orReturn
  let batchSize := if batchSize < 1 ∨ 256 < batchSize then 128 else batchSize
  let target ← Call.identity.orFail fun _ => .message "mail cutover target identity is unavailable"
  let manifest ← Call.inspect.orReturn
  if manifest.phase = .active then
    let preflight ← Call.inspectMailCutoverPreflight.orReturn
    Program.check (preflight.incompleteEpochs = 0) "mail cutover recovery is required"
    Program.check (preflight.targetRows = 0) "mail cutover target is not empty"
    Program.check (preflight.legacyPending = 0) "legacy authentication still has pending machines"
  (Call.checkEnrollmentCoverage enrollment).orReturn
  let manifest ← bindSource enrollment target request manifest
  let prepared := { manifest.toManifest with phase := .prepared }
  let epoch ← (Call.beginMailCutover request.actorPrincipalID
    (destinationRequest K prepared request.epochID target)).orReturn
  let epoch ← importEpoch ⟨request.actorPrincipalID, request.epochID, batchSize⟩ fuel manifest.toManifest prepared epoch
  let (manifest, epoch) ← activateEpoch enrollment target request manifest.toManifest epoch
  Program.check (epoch.phase = .active ∧ manifest.phase = .retired)
    "mail cutover did not reach the active authority boundary"
  (Call.publish ⟨request.epochID, target, prepared.fingerprint⟩).orReturn
  return ⟨request.epochID, prepared.fingerprint, manifest.phase, epoch.phase⟩

/-- The fingerprint an abort is about: that of the epoch, or that of the prepared source of an epoch that was
never begun, which is then reserved as aborted. -/
def abortFingerprint (target actorPrincipalID epochID : String) (manifest : Manifest) :
    Option MailCutoverEpoch → Program String
  | some status => do
    Program.check (status.phase ≠ .active) "active mail cutover cannot be aborted"
    return status.sourceFingerprint
  | none => do
    Program.check (manifest.phase = .prepared ∧ manifest.epochID = epochID ∧ manifest.targetIdentity = target)
      "mail cutover source cannot prove an abort binding"
    let status ← (Call.reserveMailCutoverAbort actorPrincipalID (destinationRequest K manifest epochID target)).orReturn
    Program.check (status.phase = .aborted ∧ status.sourceFingerprint = manifest.fingerprint)
      "mail cutover abort reservation is unavailable"
    return manifest.fingerprint

/-- `Executor.Abort`. -/
def abort (actorPrincipalID epochID : String) : Program Result := do
  Program.check (K.uuidValid actorPrincipalID ∧ K.uuidValid epochID) "mail cutover abort request is invalid"
  let target ← Call.identity.orFail fun _ => .message "mail cutover target identity is unavailable"
  let manifest ← Call.inspect.orReturn
  Program.check (manifest.phase ≠ .retired) "retired mail cutover cannot be aborted"
  let status ← (Call.mailCutoverStatus actorPrincipalID epochID).orReturn
  let fingerprint ← abortFingerprint K target actorPrincipalID epochID manifest.toManifest status
  Program.check (manifest.phase = .prepared → manifest.epochID = epochID ∧ manifest.targetIdentity = target ∧
    manifest.fingerprint = fingerprint) "mail cutover source binding does not match"
  let reopened ← (Call.abort epochID target fingerprint).orReturn
  (Call.abortMailCutover actorPrincipalID epochID fingerprint).orReturn
  return ⟨epochID, fingerprint, reopened.phase, .aborted⟩

/-! ## The world of a cutover -/

/-- The two databases. -/
structure World where
  source : Source
  destination : Destination

/-- How a call that may change a database ends: `some (e, took)` makes it fail with `e`, before or after it has
been committed. -/
def World.attempt {α : Type} (w : World) (x : Except Err (World × α)) : Option (Err × Bool) → World × Answer Err α
  | some (e, false) => (w, .failed e false)
  | some (e, true) =>
    match x with
    | .ok (w', _) => (w', .failed e true)
    | .error _ => (w, .failed e false)
  | none =>
    match x with
    | .ok (w', a) => (w', .ok a)
    | .error e => (w, .failed e false)

/-- A transaction of the source. -/
def World.onSource {α : Type} (w : World) (x : Except Err (Source × α)) : Except Err (World × α) :=
  x.map fun r => ({ w with source := r.1 }, r.2)

/-- A transaction of the destination. -/
def World.onDestination {α : Type} (w : World) (x : Except Err (Destination × α)) : Except Err (World × α) :=
  x.map fun r => ({ w with destination := r.1 }, r.2)

/-- A call that only reads. -/
def World.reading {α : Type} (w : World) (x : Except Err α) : Except Err (World × α) := x.map fun a => (w, a)

/-- What a call does when it does not fail. Whether the enrollment covers the machines of the source and of the
legacy inventory is left to the failures of the calls that ask for it. -/
def World.perform (w : World) : (c : Call) → Except Err (World × c.Result)
  | .checkMailCutoverSchemaReadiness =>
    w.reading (Outcome.require w.destination.schemaReady
      (.message "mail cutover requires the current PostgreSQL schema"))
  | .inspectMailCutoverPreflight => w.reading (.ok (inspectMailCutoverPreflight w.destination))
  | .identity => w.reading (.ok w.destination.identity)
  | .inspect => w.reading (inspectMigrationSource K w.source)
  | .checkEnrollmentCoverage _ => w.reading (.ok ())
  | .prepare epochID targetIdentity expectedFingerprint cutoff =>
    w.onSource (prepareMigrationSource K w.source epochID targetIdentity expectedFingerprint cutoff)
  | .readBatch table afterKey limit => w.reading (readMigrationSourceBatch K w.source table afterKey limit)
  | .abort epochID targetIdentity fingerprint =>
    w.onSource (abortPreparedMigrationSource K w.source epochID targetIdentity fingerprint)
  | .retire epochID targetIdentity fingerprint =>
    w.onSource (retirePreparedMigrationSource K w.source epochID targetIdentity fingerprint)
  | .beginMailCutover actorPrincipalID request =>
    w.onDestination (beginMailCutover K w.destination actorPrincipalID request)
  | .mailCutoverStatus actorPrincipalID epochID =>
    w.reading (mailCutoverStatus K w.destination actorPrincipalID epochID)
  | .reserveMailCutoverAbort actorPrincipalID request =>
    w.onDestination (reserveMailCutoverAbort K w.destination actorPrincipalID request)
  | .mailCutoverCheckpoint actorPrincipalID epochID table =>
    w.reading (mailCutoverCheckpoint K w.destination actorPrincipalID epochID table)
  | .stageMailCutoverBatch actorPrincipalID batch =>
    w.onDestination (stageMailCutoverBatch K w.destination actorPrincipalID batch)
  | .verifyMailCutover actorPrincipalID epochID sourceFingerprint =>
    w.onDestination (verifyMailCutover K w.destination actorPrincipalID epochID sourceFingerprint)
  | .checkMailCutoverActivationReadiness actorPrincipalID epochID sourceFingerprint _ =>
    w.reading (checkMailCutoverActivationReadiness K w.destination actorPrincipalID epochID sourceFingerprint)
  | .activateMailCutover actorPrincipalID epochID sourceFingerprint retired =>
    w.onDestination (activateMailCutover K w.destination actorPrincipalID epochID sourceFingerprint retired)
  | .abortMailCutover actorPrincipalID epochID sourceFingerprint =>
    w.onDestination ((abortMailCutover K w.destination actorPrincipalID epochID sourceFingerprint).map fun d => (d, ()))
  | .publish _ => w.reading (.ok ())

/-- The answer to a call, given whether it fails. -/
def World.answer (failure : Option (Err × Bool)) (w : World) (c : Call) : World × c.Reply :=
  w.attempt (w.perform K c) failure

/-! ## Rules for calls -/

section

variable {K} {w : World} {c : Call}

/-- A call that fails changes nothing, or what it would have changed. -/
theorem World.answer_cases (failure : Option (Err × Bool)) :
    (w.answer K failure c).1 = w ∧ (∀ a, (w.answer K failure c).2 ≠ .ok a) ∨
      ∃ a, w.perform K c = .ok ((w.answer K failure c).1, a) ∧ ∀ b, (w.answer K failure c).2 = .ok b → b = a := by
  unfold World.answer World.attempt
  rcases failure with _ | ⟨e, _ | _⟩
  all_goals dsimp only
  · rcases hperform : w.perform K c with e | ⟨w', a⟩
    · exact .inl ⟨rfl, fun a h => by cases h⟩
    · exact .inr ⟨a, rfl, fun b h => by cases h; rfl⟩
  · exact .inl ⟨rfl, fun a h => by cases h⟩
  · rcases hperform : w.perform K c with e | ⟨w', a⟩
    · exact .inl ⟨rfl, fun a h => by cases h⟩
    · exact .inr ⟨a, rfl, fun b h => by cases h⟩

variable {X : Type} {D : Discipline World Call (Option (Err × Bool)) X}

theorem Call.orFail_safe {wrap : Err → Err} {Q : c.Result → World → Prop} (refl : ∀ w, D.Guar w w)
    (h : ∀ w₁, D.Rely w w₁ → D.Inv w₁ → D.Pre c w₁ ∧ ∀ w₂ a, w₁.perform K c = .ok (w₂, a) →
      D.Guar w₁ w₂ ∧ D.Inv w₂ ∧ Q a w₂) :
    (c.orFail wrap).Safe (World.answer K) D Q w := by
  unfold Call.orFail
  simp only [safe_bind, safe_result, safe_perform]
  intro w₁ hrely hinv
  obtain ⟨hpre, hstep⟩ := h w₁ hrely hinv
  refine ⟨hpre, fun failure _ => ?_⟩
  rcases World.answer_cases failure with ⟨hw, hfailed⟩ | ⟨a, hperform, hok⟩
  · rw [hw]
    exact ⟨refl w₁, hinv, fun a ha => absurd ha (hfailed a)⟩
  · obtain ⟨hguar, hinv', hQ⟩ := hstep _ a hperform
    exact ⟨hguar, hinv', fun b hb => hok b hb ▸ hQ⟩

@[simp] theorem Program.check_safe {condition : Prop} [Decidable condition] {text : String} {Q : Unit → World → Prop} :
    (Program.check condition text).Safe (World.answer K) D Q w ↔ (condition → Q () w) := by
  unfold Program.check
  split <;> simp [*]

end

end Punaro.Cutover
