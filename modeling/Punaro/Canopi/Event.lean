import Punaro.Lib.JsonRecord
import Punaro.Lib.Outcome

/-!
# Lifecycle events of coding agents

The events that agents report to Canopi, their validation and their strict decoding
(`canopi/protocol/event.go`). Times are read and written by the `time` package
(`TimeText`).
-/

namespace Punaro.Canopi

open Json Outcome

inductive Failure where
  | message (text : String)
  /-- An error of `encoding/json`. -/
  | json
  | liveRecordLimit
  | futureActivity
  | stateByteLimit
  /-- A step of the file system that failed. -/
  | disk
deriving DecidableEq

/-! ## Times -/

/-- A `time.Time`: its instant in nanoseconds since 1970, and the offset of its zone in seconds. -/
structure Time where
  instant : Int
  offset : Int
deriving DecidableEq

/-- The zero `time.Time`: the first of January of the year one. -/
def Time.zero : Time := ⟨-62135596800000000000, 0⟩

def Time.isZero (t : Time) : Bool := t.instant == Time.zero.instant

/-- `Time.UnmarshalJSON` and `Time.MarshalJSON`. Some times that are read cannot be written, such as one in a zone
24 hours ahead; what is written of a time that was read is read as that time. -/
structure TimeText where
  unmarshal : String → Option Time
  marshal : Time → Option String
  unmarshal_marshal : ∀ text t text', unmarshal text = some t → marshal t = some text' → unmarshal text' = some t

/-! ## Events -/

inductive Source where
  | pi
  | claudeCode
  | codex
  | grokBuild
  | other
  | unsupported (text : String)
deriving DecidableEq

def Source.text : Source → String
  | .pi => "pi"
  | .claudeCode => "claude_code"
  | .codex => "codex"
  | .grokBuild => "grok_build"
  | .other => "other"
  | .unsupported text => text

def Source.ofText (text : String) : Source :=
  ([.pi, .claudeCode, .codex, .grokBuild, .other].find? fun source => Source.text source == text).getD (.unsupported text)

inductive AgentState where
  | working
  | waitingForUser
  | done
  | unsupported (text : String)
deriving DecidableEq

def AgentState.text : AgentState → String
  | .working => "working"
  | .waitingForUser => "waiting_for_user"
  | .done => "done"
  | .unsupported text => text

def AgentState.ofText (text : String) : AgentState :=
  ([.working, .waitingForUser, .done].find? fun state => AgentState.text state == text).getD (.unsupported text)

inductive WaitingReason where
  | none
  | permission
  | question
  | elicitation
  | approval
  | other
  | unsupported (text : String)
deriving DecidableEq

def WaitingReason.text : WaitingReason → String
  | .none => ""
  | .permission => "permission"
  | .question => "question"
  | .elicitation => "elicitation"
  | .approval => "approval"
  | .other => "other"
  | .unsupported text => text

def WaitingReason.ofText (text : String) : WaitingReason :=
  ([.none, .permission, .question, .elicitation, .approval, .other].find? fun reason =>
    WaitingReason.text reason == text).getD (.unsupported text)

structure Machine where
  id : String
  label : String

structure Task where
  title : String
  repository : String
  workingDirectory : String

structure Event where
  specVersion : Int
  eventID : String
  source : Source
  machine : Machine
  sessionID : String
  agentInstanceID : String
  parentAgentInstanceID : String
  state : AgentState
  waitingReason : WaitingReason
  activityAt : Time
  emittedAt : Time
  task : Task
  metadata : Dict

/-- The identity under which an agent is tracked. -/
def Event.key (e : Event) : String := e.source.text ++ "\x00" ++ e.machine.id ++ "\x00" ++ e.agentInstanceID

/-! ## Validation -/

def specVersion : Int := 1

def bounded (name value : String) (minLength maxLength : ℕ) : Except Failure Unit :=
  require (minLength ≤ value.length ∧ value.length ≤ maxLength)
    (.message s!"{name} length must be between {minLength} and {maxLength}")

/-- `machineIDPattern`: `^[A-Za-z0-9._-]+$`. -/
def machineIDPattern (id : String) : Bool :=
  id ≠ "" && id.toList.all fun c => c.isAlphanum || c == '.' || c == '_' || c == '-'

def allowedMetadataKeys : List String :=
  ["agent_type", "hook", "simulated", "fleet_digest", "fleet_state", "fleet_generation"]

def isPrimitiveMetadata : Value → Bool
  | .null | .string _ | .bool _ => true
  | .number text => validNumber text
  | _ => false

def validateMetadata (member : String × Value) : Except Failure Unit := do
  require (member.1 ∈ allowedMetadataKeys) (.message s!"metadata key {member.1.quote} is not allowed")
  if member.1 = "agent_type" then
    require (member.2 matches .string _ | .null) (.message "metadata agent_type must be a string or null")
  else
    require (isPrimitiveMetadata member.2) (.message s!"metadata {member.1.quote} must contain a primitive value")

def Event.validate (e : Event) : Except Failure Unit := do
  require (e.specVersion = Canopi.specVersion) (.message s!"spec_version must be {Canopi.specVersion}")
  bounded "event_id" e.eventID 1 200
  require (¬e.source matches .unsupported _) (.message s!"unsupported source {e.source.text.quote}")
  bounded "machine.id" e.machine.id 1 100
  require (machineIDPattern e.machine.id) (.message "machine.id contains unsupported characters")
  bounded "machine.label" e.machine.label 1 40
  bounded "session_id" e.sessionID 1 300
  bounded "agent_instance_id" e.agentInstanceID 1 300
  if e.parentAgentInstanceID ≠ "" then
    bounded "parent_agent_instance_id" e.parentAgentInstanceID 1 300
  require (¬e.state matches .unsupported _) (.message s!"unsupported state {e.state.text.quote}")
  require (¬e.waitingReason matches .unsupported _)
    (.message s!"unsupported waiting_reason {e.waitingReason.text.quote}")
  require (e.state ≠ .waitingForUser → e.waitingReason = .none)
    (.message "waiting_reason is only valid for waiting_for_user")
  require (¬e.activityAt.isZero ∧ ¬e.emittedAt.isZero) (.message "activity_at and emitted_at are required")
  bounded "task.title" e.task.title 1 80
  require (e.task.repository.length ≤ 300) (.message "task.repository exceeds 300 characters")
  require (e.task.workingDirectory.length ≤ 1000) (.message "task.working_directory exceeds 1000 characters")
  e.metadata.members.forM validateMetadata

/-! ## JSON -/

section

variable (T : TimeText)

def Machine.json (machine : Machine) : Value :=
  .object [("id", .string machine.id), ("label", .string machine.label)]

def Task.members (task : Task) : Members :=
  [("title", .string task.title)] ++ unlessEmpty "repository" task.repository ++
    unlessEmpty "working_directory" task.workingDirectory

def Task.json (task : Task) : Value := .object task.members

/-- The field of the metadata, which is left out if there are none. -/
def metadataMember (metadata : Dict) : Members :=
  if metadata.members = [] then [] else [("metadata", .object metadata.members)]

def Event.members (e : Event) (activityAt emittedAt : String) : Members :=
  [("spec_version", .number (toString e.specVersion).toList), ("event_id", .string e.eventID),
    ("source", .string e.source.text), ("machine", e.machine.json), ("session_id", .string e.sessionID),
    ("agent_instance_id", .string e.agentInstanceID)] ++
    unlessEmpty "parent_agent_instance_id" e.parentAgentInstanceID ++ [("state", .string e.state.text)] ++
    unlessEmpty "waiting_reason" e.waitingReason.text ++ [("activity_at", .string activityAt),
    ("emitted_at", .string emittedAt), ("task", e.task.json)] ++ metadataMember e.metadata

/-- `json.Marshal` of an event. -/
def Event.json (e : Event) : Option Value := do
  let activityAt ← T.marshal e.activityAt
  let emittedAt ← T.marshal e.emittedAt
  return .object (e.members activityAt emittedAt)

/-- How `encoding/json` compares the names of members and fields: without regard to case. -/
def foldName (name : String) : List Char :=
  name.toList.map fun c => if c = '\u017f' then 's' else if c = '\u212a' then 'k' else c.toLower

/-- The field that a member sets. -/
def fieldOf (fields : List String) (name : String) : Option String :=
  fields.find? fun field => foldName field = foldName name

/-- The fields of a struct with the last member that sets each (`DisallowUnknownFields`); a missing or null struct is
the zero one. -/
def readStruct (fields : List String) : Option Value → Option Members
  | none | some .null => some []
  | some (.object members) =>
    if members.all fun m => (fieldOf fields m.1).isSome then
      some ((members.map fun m => ((fieldOf fields m.1).getD m.1, m.2)).pwFilter fun m m' => m.1 ≠ m'.1)
    else none
  | _ => none

def readInt : Option Value → Option Int
  | none | some .null => some 0
  | some (.number ('-' :: text)) => (readNumeral text).map fun n => -(n : Int)
  | some (.number text) => (readNumeral text).map fun n => (n : Int)
  | _ => none

def readTime : Option Value → Option Time
  | none | some .null => some Time.zero
  | some (.string text) => T.unmarshal text
  | _ => none

def readMetadata : Option Value → Option Dict
  | none | some .null => some Dict.empty
  | some (.object members) => some (Dict.ofMembers members)
  | _ => none

def readMachine (value : Option Value) : Option Machine := do
  let members ← readStruct ["id", "label"] value
  return { id := ← readText (members.lookup "id"), label := ← readText (members.lookup "label") }

def readTask (value : Option Value) : Option Task := do
  let members ← readStruct ["title", "repository", "working_directory"] value
  return {
    title := ← readText (members.lookup "title")
    repository := ← readText (members.lookup "repository")
    workingDirectory := ← readText (members.lookup "working_directory") }

def eventFields : List String :=
  ["spec_version", "event_id", "source", "machine", "session_id", "agent_instance_id", "parent_agent_instance_id",
    "state", "waiting_reason", "activity_at", "emitted_at", "task", "metadata"]

/-- The fields of `wireEvent`. -/
def readWireEvent (value : Value) : Option Event := do
  let members ← readStruct eventFields (some value)
  return {
    specVersion := ← readInt (members.lookup "spec_version")
    eventID := ← readText (members.lookup "event_id")
    source := Source.ofText (← readText (members.lookup "source"))
    machine := ← readMachine (members.lookup "machine")
    sessionID := ← readText (members.lookup "session_id")
    agentInstanceID := ← readText (members.lookup "agent_instance_id")
    parentAgentInstanceID := ← readText (members.lookup "parent_agent_instance_id")
    state := AgentState.ofText (← readText (members.lookup "state"))
    waitingReason := WaitingReason.ofText (← readText (members.lookup "waiting_reason"))
    activityAt := ← readTime T (members.lookup "activity_at")
    emittedAt := ← readTime T (members.lookup "emitted_at")
    task := ← readTask (members.lookup "task")
    metadata := ← readMetadata (members.lookup "metadata") }

/-- The member of exactly this name. -/
def member (name : String) : Value → Option Value
  | .object members => members.lookup name
  | _ => none

/-- `Event.UnmarshalJSON`. -/
def readEvent (value : Value) : Option Event :=
  if member "metadata" value matches some .null then none else readWireEvent T value

/-! ## Strict decoding -/

/-- Where a scan of a text stands; after the first half of a surrogate pair, the second must follow. -/
inductive Scan where
  | outside
  | inside
  | paired

def validJSONUnicodeEscapes : Scan → List Char → Bool
  | .outside, c :: l => validJSONUnicodeEscapes (if c = '\x22' then .inside else .outside) l
  | .inside, '\\' :: 'u' :: a :: b :: c :: d :: l =>
    match hexQuad a b c d with
    | none => true
    | some value =>
      if 55296 ≤ value ∧ value ≤ 56319 then validJSONUnicodeEscapes .paired l
      else if 56320 ≤ value ∧ value ≤ 57343 then false
      else validJSONUnicodeEscapes .inside l
  | .inside, '\\' :: c :: l => if c = 'u' then true else validJSONUnicodeEscapes .inside l
  | .inside, c :: l => validJSONUnicodeEscapes (if c = '\x22' then .outside else .inside) l
  | .paired, '\\' :: 'u' :: a :: b :: c :: d :: l =>
    match hexQuad a b c d with
    | some low => 56320 ≤ low && low ≤ 57343 && validJSONUnicodeEscapes .inside l
    | none => false
  | .paired, _ => false
  | _, [] => true

/-- `ValidateJSONEncoding`: the text holds one value, whose objects have distinct members. -/
def validateJSONEncoding (payload : List Char) : Except Failure Value := do
  require (validJSONUnicodeEscapes .outside payload) (.message "event must use valid Unicode scalar escapes")
  let value ← ofOption (parse payload) .json
  require value.unique (.message "event must not contain duplicate JSON object members")
  return value

def decodeEvent (payload : List Char) (maxBytes : Int) : Except Failure Event := do
  require (0 < maxBytes) (.message "maxBytes must be positive")
  require (bytes payload ≤ maxBytes) (.message s!"event exceeds {maxBytes} bytes")
  let value ← validateJSONEncoding payload
  let event ← ofOption (readEvent T value) .json
  event.validate
  return event

end

end Punaro.Canopi
