import Mathlib.Data.Finset.Dedup
import Mathlib.Data.Finset.SDiff
import Mathlib.Data.List.Sort
import Punaro.Canopi.Event
import Punaro.Lib.Table

/-!
# The state of the Canopi collector

The records of the live agents with the ids of the events seen, and the file they are
kept in (`internal/canopi/store.go`, `store_pinned_unix.go`).
-/

namespace Punaro.Canopi

open Json Outcome

/-! ## Configuration -/

/-- Durations are in nanoseconds. -/
structure Config where
  workingTTL : Int
  doneRetention : Int
  maxLiveRecords : Int
  maxStateBytes : Int
  maxFutureSkew : Int

def maxRememberedEventIDs : ℕ := 50000
def minMaxStateBytes : Int := 2048
def maxMaxStateBytes : Int := 67108864
def persistedStateEnvelopeBytes : ℕ := 512

def hour : Int := 3600000000000

def defaultConfig : Config where
  workingTTL := 1800000000000
  doneRetention := 2 * hour
  maxLiveRecords := 2048
  maxStateBytes := 8388608
  maxFutureSkew := 300000000000

def Config.normalized (c : Config) : Except Failure Config := do
  let c := { c with
    maxLiveRecords := if c.maxLiveRecords = 0 then defaultConfig.maxLiveRecords else c.maxLiveRecords
    maxFutureSkew := if c.maxFutureSkew = 0 then defaultConfig.maxFutureSkew else c.maxFutureSkew
    maxStateBytes := if c.maxStateBytes = 0 then defaultConfig.maxStateBytes else c.maxStateBytes }
  require (0 < c.workingTTL) (.message "working TTL must be positive")
  require (0 < c.doneRetention) (.message "done retention must be positive")
  require (0 < c.maxLiveRecords ∧ c.maxLiveRecords ≤ 100000)
    (.message "max live records must be between 1 and 100000")
  require (minMaxStateBytes ≤ c.maxStateBytes ∧ c.maxStateBytes ≤ maxMaxStateBytes)
    (.message s!"max state bytes must be between {minMaxStateBytes} and {maxMaxStateBytes}")
  require (0 < c.maxFutureSkew ∧ c.maxFutureSkew ≤ hour)
    (.message "max future skew must be between zero and one hour")
  return c

/-! ## Order and expiry -/

def stateRank : AgentState → ℕ
  | .waitingForUser => 0
  | .done => 1
  | _ => 2

/-- The order of `SortEvents`: by rank of the state, then the latest activity first. -/
def displayedBefore (e e' : Event) : Bool :=
  if stateRank e.state ≠ stateRank e'.state then stateRank e.state < stateRank e'.state
  else if e.activityAt.instant ≠ e'.activityAt.instant then e'.activityAt.instant < e.activityAt.instant
  else e'.eventID.toList < e.eventID.toList

/-- `SortEvents`, which is stable. -/
def sortEvents (events : List Event) : List Event := events.insertionSort fun e e' => ¬displayedBefore e' e

/-- `Time.Sub`, which saturates. -/
def Time.sub (t t' : Time) : Int := max (-2 ^ 63) (min (2 ^ 63 - 1) (t.instant - t'.instant))

def expired (config : Config) (now : Time) (e : Event) : Bool :=
  let age := now.sub e.activityAt
  if e.state = .done then config.doneRetention < age else config.workingTTL < age

/-! ## The stored state -/

structure Store where
  records : Table String Event
  seen : Finset String
  seenOrder : List String
  revision : ℕ

def Store.empty : Store := ⟨Table.empty, ∅, [], 0⟩

structure PersistedStore where
  revision : ℕ
  records : List Event
  seenOrder : List String

/-- The order in which a map is iterated. -/
structure Iteration where
  order : List Event → List Event
  perm : ∀ events, (order events).Perm events

/-- `persistedState`. -/
def Store.persistedState (s : Store) (iteration : Iteration) : PersistedStore :=
  ⟨s.revision, sortEvents (iteration.order (s.records.rows.map Prod.snd)), s.seenOrder⟩

/-- The ids that were seen; a nil slice is written as null. -/
def seenJson (ids : List String) : Value := if ids = [] then .null else .array (ids.map .string)

section

variable (T : TimeText)

def PersistedStore.json (state : PersistedStore) : Option Value := do
  let records ← state.records.mapM (Event.json T)
  return .object [("revision", .number (numeral state.revision)), ("records", .array records),
    ("seen_event_ids", seenJson state.seenOrder)]

/-! ## The byte budget -/

def serializedRecordStateBytes (records : List Event) : Except Failure ℕ :=
  records.foldlM (fun used event => do
    let value ← ofOption (event.json T) .json
    return used + (bytes (write true value) + 1)) persistedStateEnvelopeBytes

/-- What one id takes in the state. -/
def idBytes (id : String) : ℕ := bytes (write true (.string id)) + 1

def ensurePersistedStateWithinBudget (state : PersistedStore) (maxBytes : Int) : Except Failure Unit := do
  let used ← serializedRecordStateBytes T state.records
  require (used ≤ maxBytes) .stateByteLimit
  let _ ← state.seenOrder.foldlM (fun (used : ℕ) id => do
    require ((used + idBytes id : ℕ) ≤ maxBytes) .stateByteLimit
    return used + idBytes id) used

/-- The ids that still fit, the newest first. -/
def retained (maxBytes : Int) : ℕ → List String → List String
  | _, [] => []
  | used, id :: older =>
    if (used + idBytes id : ℕ) ≤ maxBytes then id :: retained maxBytes (used + idBytes id) older else []

def trimSeenOrderToBudget (records : List Event) (seen : Finset String) (order : List String) (maxBytes : Int) :
    Except Failure (Finset String × List String) := do
  let used ← serializedRecordStateBytes T records
  require (used ≤ maxBytes) .stateByteLimit
  match order.reverse with
  | [] => return (seen, order)
  | latest :: older =>
    require ((used + idBytes latest : ℕ) ≤ maxBytes) .stateByteLimit
    let kept := latest :: retained maxBytes (used + idBytes latest) older
    return (seen \ (order.take (order.length - kept.length)).toFinset, kept.reverse)

/-- `rememberEventID`. -/
def rememberEventID (seen : Finset String) (order : List String) (id : String) : Finset String × List String :=
  if order.length = maxRememberedEventIDs then
    (insert id (seen \ (order.take 1).toFinset), order.drop 1 ++ [id])
  else (insert id seen, order ++ [id])

/-! ## Persistence -/

/-- How writing the state file ends: done, failed before the rename that replaces the file, or failed after it, when
the directory is synced. -/
inductive WriteOutcome where
  | written
  | refused
  | unsynced

/-- The store in memory, its file, and every state file written so far with the state it was to hold, the latest
first. -/
structure Site where
  store : Store
  file : Option (List Char)
  written : List (PersistedStore × List Char)

/-- The text of the state file, within the limit. -/
def statePayload (config : Config) (state : PersistedStore) : Except Failure (List Char) := do
  ensurePersistedStateWithinBudget T state config.maxStateBytes
  let value ← ofOption (state.json T) .json
  require (bytes (write true value) ≤ config.maxStateBytes) .stateByteLimit
  return write true value

/-- `persistStoreInPinnedDirectory`. -/
def persist (config : Config) (outcome : WriteOutcome) (state : PersistedStore) (site : Site) :
    Site × Except Failure Unit :=
  match statePayload T config state with
  | .error e => (site, .error e)
  | .ok payload =>
    let replaced := { site with file := some payload, written := (state, payload) :: site.written }
    match outcome with
    | .written => (replaced, .ok ())
    | .refused => (site, .error .disk)
    | .unsynced => (replaced, .error .disk)

/-- Persist a state, and make it the one in memory if that succeeds. -/
def commit (config : Config) (outcome : WriteOutcome) (iteration : Iteration) (next : Store) (site : Site) :
    Site × Except Failure Unit :=
  match persist T config outcome (next.persistedState iteration) site with
  | (site, .ok ()) => ({ site with store := next }, .ok ())
  | (site, .error e) => (site, .error e)

/-! ## Loading -/

def readStrings (values : List Value) : Option (List String) := values.mapM fun value => readText (some value)

def readRevision : Option Value → Option ℕ
  | none | some .null => some 0
  | some (.number text) => (readNumeral text).filter (· < 2 ^ 64)
  | _ => none

def readState (value : Value) : Option PersistedStore := do
  let members ← readStruct ["revision", "records", "seen_event_ids"] (some value)
  let revision ← readRevision (members.lookup "revision")
  let records ← itemsOf (members.lookup "records")
  let records ← records.mapM (readEvent T)
  let seenOrder ← itemsOf (members.lookup "seen_event_ids")
  let seenOrder ← readStrings seenOrder
  return ⟨revision, records, seenOrder⟩

def loadRecord (records : Table String Event) (event : Event) : Except Failure (Table String Event) := do
  event.validate
  ofOption (records.insert? event.key event) (.message s!"duplicate persisted Canopi agent {event.key.quote}")

def loadID (ids : Finset String × List String) (id : String) : Except Failure (Finset String × List String) := do
  require (id ∉ ids.1) (.message s!"duplicate persisted Canopi event ID {id.quote}")
  return (insert id ids.1, ids.2 ++ [id])

/-- The store of a state file. -/
def loadStore (config : Config) : Option (List Char) → Except Failure Store
  | none => return .empty
  | some payload => do
    require (bytes payload ≤ config.maxStateBytes) (.message "persisted Canopi state exceeds limit")
    let value ← validateJSONEncoding payload
    let state ← ofOption (readState T value) .json
    require (state.seenOrder.length ≤ maxRememberedEventIDs) (.message "persisted Canopi dedupe set exceeds limit")
    require (state.records.length ≤ config.maxLiveRecords) (.message "persisted Canopi live record set exceeds limit")
    ensurePersistedStateWithinBudget T state config.maxStateBytes
    let records ← state.records.foldlM loadRecord Table.empty
    let (seen, seenOrder) ← state.seenOrder.foldlM loadID (∅, [])
    return ⟨records, seen, seenOrder, state.revision⟩

def openStore (config : Config) (file : Option (List Char)) : Except Failure Store := do
  let config ← config.normalized
  loadStore T config file

/-! ## Apply and Snapshot -/

structure ApplyResult where
  applied : Bool
  duplicate : Bool
  stale : Bool
deriving DecidableEq

/-- What a call meets: the clock, and for each of its writes the order of the records and how it ends. -/
structure Turn where
  now : Time
  expiryOrder : Iteration
  expiry : WriteOutcome
  order : Iteration
  outcome : WriteOutcome

/-- The store without its expired records, at the next revision. -/
def Store.expire (s : Store) (config : Config) (now : Time) : Store :=
  { s with
    records := s.records.deleteWhere fun _ event => expired config now event
    revision := (s.revision + 1) % 2 ^ 64 }

def Store.hasExpired (s : Store) (config : Config) (now : Time) : Bool :=
  s.records.rows.any fun row => expired config now row.2

def expireLocked (config : Config) (turn : Turn) (site : Site) : Site × Except Failure Unit :=
  if site.store.hasExpired config turn.now then
    commit T config turn.expiry turn.expiryOrder (site.store.expire config turn.now) site
  else (site, .ok ())

/-- The event is not later than the record of its agent. -/
def staleFor (event existing : Event) : Bool :=
  event.activityAt.instant < existing.activityAt.instant ∨
    event.activityAt.instant = existing.activityAt.instant ∧ event.eventID.toList ≤ existing.eventID.toList

/-- The records and the revision after an event. -/
def Store.record (s : Store) (event : Event) : Store × ApplyResult :=
  if ((s.records.find? event.key).map (staleFor event)).getD false then (s, ⟨false, false, true⟩)
  else ({ s with records := s.records.put event.key event, revision := (s.revision + 1) % 2 ^ 64 },
    ⟨true, false, false⟩)

/-- The state that `Apply` is to commit for an event that is neither a duplicate nor refused. -/
def Store.next (config : Config) (iteration : Iteration) (event : Event) (s : Store) :
    Except Failure (Store × ApplyResult) := do
  require (s.records.find? event.key = none → (s.records.rows.length : Int) < config.maxLiveRecords) .liveRecordLimit
  let (seen, order) := rememberEventID s.seen s.seenOrder event.eventID
  let (recorded, result) := s.record event
  let records := (recorded.persistedState iteration).records
  let (seen, order) ← trimSeenOrderToBudget T records seen order config.maxStateBytes
  let next := { recorded with seen := seen, seenOrder := order }
  ensurePersistedStateWithinBudget T (next.persistedState iteration) config.maxStateBytes
  return (next, result)

def apply (config : Config) (turn : Turn) (event : Event) (site : Site) : Site × Except Failure ApplyResult :=
  match event.validate with
  | .error e => (site, .error e)
  | .ok () =>
    if event.eventID ∈ site.store.seen then (site, .ok ⟨false, true, false⟩)
    else if turn.now.instant + config.maxFutureSkew < event.activityAt.instant then (site, .error .futureActivity)
    else
      match expireLocked T config turn site with
      | (site, .error e) => (site, .error e)
      | (site, .ok ()) =>
        match site.store.next T config turn.order event with
        | .error e => (site, .error e)
        | .ok (next, result) =>
          match commit T config turn.outcome turn.order next site with
          | (site, .error e) => (site, .error e)
          | (site, .ok ()) => (site, .ok result)

structure Totals where
  waiting : ℕ
  done : ℕ
  working : ℕ

structure Snapshot where
  generatedAt : Int
  revision : ℕ
  totals : Totals
  agents : List Event

def Totals.count (agents : List Event) : Totals where
  waiting := agents.countP fun e => e.state = .waitingForUser
  done := agents.countP fun e => e.state = .done
  working := agents.countP fun e => e.state = .working

/-- `Snapshot`: if the expiry cannot be written, the agents stay as they are. -/
def snapshot (config : Config) (turn : Turn) (site : Site) : Site × Snapshot :=
  let site := (expireLocked T config turn site).1
  let agents := sortEvents (turn.order.order (site.store.records.rows.map Prod.snd))
  (site, ⟨turn.now.instant, site.store.revision, Totals.count agents, agents⟩)

end

end Punaro.Canopi
