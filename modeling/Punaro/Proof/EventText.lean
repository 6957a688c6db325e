import Mathlib.Data.List.Pairwise
import Punaro.Canopi.Event

/-!
# Events in JSON

An event that was decoded and passed its validation (`Event.Sound`) is read back from
the text that is written of it, and that text passes the checks on encodings: its
escapes are those of characters, and its members are distinct.
-/

namespace Punaro.Canopi

open Json Outcome

/-! ## Escapes -/

section

variable {html : Bool} {rest : List Char}

theorem validEscapes_hex4 {n : ℕ} (h : n < 55296) :
    validJSONUnicodeEscapes .inside ('\\' :: 'u' :: hex4 n ++ rest) = validJSONUnicodeEscapes .inside rest := by
  obtain ⟨a, b, c, d, heq, hquad⟩ := hexQuad_hex4 (n := n) (by omega)
  rw [heq]
  simp only [List.cons_append, List.nil_append]
  rw [validJSONUnicodeEscapes]
  simp only [hquad]
  rw [if_neg (by omega), if_neg (by omega)]

theorem validEscapes_escape (c : Char) :
    validJSONUnicodeEscapes .inside (escape html c ++ rest) = validJSONUnicodeEscapes .inside rest := by
  unfold escape
  split_ifs with h1 h2 h3 h4 h5 h6 h7 h8
  all_goals try rfl
  · apply validEscapes_hex4
    obtain h | ⟨-, rfl | rfl | rfl⟩ | h | h := h8
    all_goals first | omega | decide
  · simp only [List.cons_append, List.nil_append]
    rw [validJSONUnicodeEscapes]
    · simp [h1]
    · exact fun _ _ _ _ _ h => absurd h h2
    · exact fun _ _ h => absurd h h2

theorem validEscapes_quote (text : String) :
    validJSONUnicodeEscapes .outside (quote html text ++ rest) = validJSONUnicodeEscapes .outside rest := by
  have hinside : ∀ l : List Char, validJSONUnicodeEscapes .inside (l.flatMap (escape html) ++ ('\x22' :: rest)) =
      validJSONUnicodeEscapes .outside rest := by
    intro l
    induction l with
    | nil => rfl
    | cons c l ih => rw [List.flatMap_cons, List.append_assoc, validEscapes_escape, ih]
  rw [quote, List.cons_append, List.append_assoc, List.singleton_append, validJSONUnicodeEscapes]
  exact hinside _

theorem validEscapes_outside {c : Char} (h : c ≠ '\x22') :
    validJSONUnicodeEscapes .outside (c :: rest) = validJSONUnicodeEscapes .outside rest := by
  rw [validJSONUnicodeEscapes, if_neg h]

theorem validEscapes_plain {l : List Char} (h : ∀ c ∈ l, c ≠ '\x22') :
    validJSONUnicodeEscapes .outside (l ++ rest) = validJSONUnicodeEscapes .outside rest := by
  induction l with
  | nil => rfl
  | cons c l ih =>
    rw [List.cons_append, validEscapes_outside (h c (by simp)), ih fun c hc => h c (by simp [hc])]

theorem validEscapes_number {text : List Char} (h : validNumber text) :
    validJSONUnicodeEscapes .outside (text ++ rest) = validJSONUnicodeEscapes .outside rest := by
  obtain ⟨d, l, rfl, -, hall⟩ := validNumber_cons h
  refine validEscapes_plain fun c hc => ?_
  rintro rfl
  exact absurd (hall _ hc) (by decide)

mutual

theorem validEscapes_write : ∀ (v : Value) (rest : List Char), v.WellFormed →
    validJSONUnicodeEscapes .outside (write html v ++ rest) = validJSONUnicodeEscapes .outside rest
  | .null, rest, _ => by rw [write]; exact validEscapes_plain (by simp)
  | .bool true, rest, _ => by rw [write]; exact validEscapes_plain (by simp)
  | .bool false, rest, _ => by rw [write]; exact validEscapes_plain (by simp)
  | .number text, rest, h => by rw [write]; exact validEscapes_number (by simpa [Value.WellFormed] using h)
  | .string text, rest, _ => by rw [write]; exact validEscapes_quote text
  | .array [], rest, _ => by rw [write]; exact validEscapes_plain (by simp)
  | .array (item :: items), rest, h => by
    simp only [Value.WellFormed, itemsWellFormed] at h
    rw [write, List.cons_append, List.append_assoc, validEscapes_outside (by decide), validEscapes_write item _ h.1,
      validEscapes_writeItems items rest h.2]
  | .object [], rest, _ => by rw [write]; exact validEscapes_plain (by simp)
  | .object ((name, value) :: members), rest, h => by
    simp only [Value.WellFormed, membersWellFormed] at h
    rw [write, List.cons_append, List.append_assoc, List.cons_append, List.append_assoc,
      validEscapes_outside (by decide), validEscapes_quote, validEscapes_outside (by decide),
      validEscapes_write value _ h.1, validEscapes_writeMembers members rest h.2]

theorem validEscapes_writeItems : ∀ (items : List Value) (rest : List Char), itemsWellFormed items →
    validJSONUnicodeEscapes .outside (writeItems html items ++ rest) = validJSONUnicodeEscapes .outside rest
  | [], rest, _ => by rw [writeItems]; exact validEscapes_plain (by simp)
  | item :: items, rest, h => by
    simp only [itemsWellFormed] at h
    rw [writeItems, List.cons_append, List.append_assoc, validEscapes_outside (by decide),
      validEscapes_write item _ h.1, validEscapes_writeItems items rest h.2]

theorem validEscapes_writeMembers : ∀ (members : Members) (rest : List Char), membersWellFormed members →
    validJSONUnicodeEscapes .outside (writeMembers html members ++ rest) = validJSONUnicodeEscapes .outside rest
  | [], rest, _ => by rw [writeMembers]; exact validEscapes_plain (by simp)
  | (name, value) :: members, rest, h => by
    simp only [membersWellFormed] at h
    rw [writeMembers, List.cons_append, List.append_assoc, List.cons_append, List.append_assoc,
      validEscapes_outside (by decide), validEscapes_quote, validEscapes_outside (by decide),
      validEscapes_write value _ h.1, validEscapes_writeMembers members rest h.2]

end

/-- **What is written of a value passes the checks on encodings**, and is read as that value. -/
theorem validateJSONEncoding_write {v : Value} (h : v.WellFormed) (hunique : v.unique) :
    validateJSONEncoding (write html v) = .ok v := by
  have hescapes : validJSONUnicodeEscapes .outside (write html v ++ []) = validJSONUnicodeEscapes .outside [] :=
    validEscapes_write v [] h
  rw [List.append_nil] at hescapes
  simp only [validateJSONEncoding, ok_rules]
  exact ⟨(), hescapes, v, parse_write h, (), hunique, rfl⟩

end

/-! ## Events -/

theorem Source.ofText_text {source : Source} (h : ¬source matches .unsupported _) : ofText source.text = source := by
  cases source with
  | unsupported text => exact absurd rfl h
  | _ => rfl

theorem AgentState.ofText_text {state : AgentState} (h : ¬state matches .unsupported _) : ofText state.text = state := by
  cases state with
  | unsupported text => exact absurd rfl h
  | _ => rfl

theorem WaitingReason.ofText_text {reason : WaitingReason} (h : ¬reason matches .unsupported _) :
    ofText reason.text = reason := by
  cases reason with
  | unsupported text => exact absurd rfl h
  | _ => rfl

/-- What validation says about the fields that are read from a text of their own. -/
structure Event.Valid (e : Event) : Prop where
  specVersion : e.specVersion = 1
  source : Source.ofText e.source.text = e.source
  state : AgentState.ofText e.state.text = e.state
  waitingReason : WaitingReason.ofText e.waitingReason.text = e.waitingReason
  activityAt : e.activityAt ≠ Time.zero
  emittedAt : e.emittedAt ≠ Time.zero
  metadata : ∀ m ∈ e.metadata.members, isPrimitiveMetadata m.2

theorem validateMetadata_eq_ok {m : String × Value} (h : validateMetadata m = .ok ()) : isPrimitiveMetadata m.2 := by
  simp only [validateMetadata, ok_rules] at h
  obtain ⟨-, -, h⟩ := h
  split at h
  · rw [require_eq_ok] at h
    cases hvalue : m.2 <;> simp_all [isPrimitiveMetadata]
  · rwa [require_eq_ok] at h

theorem Time.ne_zero {t : Time} (h : ¬t.isZero) : t ≠ Time.zero := by
  rintro rfl
  exact h rfl

theorem Event.valid_of_validate {e : Event} (h : e.validate = .ok ()) : e.Valid := by
  simp only [Event.validate, bounded, ok_rules, ite_bind_eq_ok, forM_eq_ok, exists_and_left, exists_const] at h
  obtain ⟨hversion, -, hsource, -, -, -, -, -, -, hstate, hreason, -, ⟨hactivity, hemitted⟩, -, -, -, hmetadata⟩ := h
  exact ⟨hversion, Source.ofText_text hsource, AgentState.ofText_text hstate, WaitingReason.ofText_text hreason,
    Time.ne_zero hactivity, Time.ne_zero hemitted, fun m hm => validateMetadata_eq_ok (hmetadata m hm)⟩

/-- An event that has passed its validation and whose times were read. -/
structure Event.Sound (T : TimeText) (e : Event) : Prop where
  validate : e.validate = .ok ()
  activityAt : ∃ text, T.unmarshal text = some e.activityAt
  emittedAt : ∃ text, T.unmarshal text = some e.emittedAt

variable {T : TimeText} {e : Event} {v : Value}

theorem readTime_eq_some {value : Option Value} {t : Time} (h : readTime T value = some t) (ht : t ≠ Time.zero) :
    ∃ text, T.unmarshal text = some t := by
  unfold readTime at h
  split at h
  · exact absurd (Option.some.inj h).symm ht
  · exact absurd (Option.some.inj h).symm ht
  · exact ⟨_, h⟩
  · cases h

/-- The fields that are read one by one, of the members of an object. -/
structure Reads (T : TimeText) (members : Members) (e : Event) : Prop where
  specVersion : readInt (members.lookup "spec_version") = some e.specVersion
  eventID : readText (members.lookup "event_id") = some e.eventID
  source : (readText (members.lookup "source")).map Source.ofText = some e.source
  machine : readMachine (members.lookup "machine") = some e.machine
  sessionID : readText (members.lookup "session_id") = some e.sessionID
  agentInstanceID : readText (members.lookup "agent_instance_id") = some e.agentInstanceID
  parentAgentInstanceID : readText (members.lookup "parent_agent_instance_id") = some e.parentAgentInstanceID
  state : (readText (members.lookup "state")).map AgentState.ofText = some e.state
  waitingReason : (readText (members.lookup "waiting_reason")).map WaitingReason.ofText = some e.waitingReason
  activityAt : readTime T (members.lookup "activity_at") = some e.activityAt
  emittedAt : readTime T (members.lookup "emitted_at") = some e.emittedAt
  task : readTask (members.lookup "task") = some e.task
  metadata : readMetadata (members.lookup "metadata") = some e.metadata

theorem readWireEvent_eq_some :
    readWireEvent T v = some e ↔ ∃ members, readStruct eventFields (some v) = some members ∧ Reads T members e := by
  constructor
  · intro h
    obtain ⟨members, hmembers, h⟩ := Option.bind_eq_some_iff.1 h
    obtain ⟨_, hversion, h⟩ := Option.bind_eq_some_iff.1 h
    obtain ⟨_, hid, h⟩ := Option.bind_eq_some_iff.1 h
    obtain ⟨_, hsource, h⟩ := Option.bind_eq_some_iff.1 h
    obtain ⟨_, hmachine, h⟩ := Option.bind_eq_some_iff.1 h
    obtain ⟨_, hsession, h⟩ := Option.bind_eq_some_iff.1 h
    obtain ⟨_, hagent, h⟩ := Option.bind_eq_some_iff.1 h
    obtain ⟨_, hparent, h⟩ := Option.bind_eq_some_iff.1 h
    obtain ⟨_, hstate, h⟩ := Option.bind_eq_some_iff.1 h
    obtain ⟨_, hreason, h⟩ := Option.bind_eq_some_iff.1 h
    obtain ⟨_, hactivity, h⟩ := Option.bind_eq_some_iff.1 h
    obtain ⟨_, hemitted, h⟩ := Option.bind_eq_some_iff.1 h
    obtain ⟨_, htask, h⟩ := Option.bind_eq_some_iff.1 h
    obtain ⟨_, hmetadata, h⟩ := Option.bind_eq_some_iff.1 h
    cases h
    exact ⟨members, hmembers, hversion, hid, by rw [hsource]; rfl, hmachine, hsession, hagent, hparent,
      by rw [hstate]; rfl, by rw [hreason]; rfl, hactivity, hemitted, htask, hmetadata⟩
  · rintro ⟨members, hmembers, h⟩
    obtain ⟨_, hsource, hsource'⟩ := Option.map_eq_some_iff.1 h.source
    obtain ⟨_, hstate, hstate'⟩ := Option.map_eq_some_iff.1 h.state
    obtain ⟨_, hreason, hreason'⟩ := Option.map_eq_some_iff.1 h.waitingReason
    refine Option.bind_eq_some_iff.2 ⟨members, hmembers, Option.bind_eq_some_iff.2 ⟨_, h.specVersion, ?_⟩⟩
    refine Option.bind_eq_some_iff.2 ⟨_, h.eventID, Option.bind_eq_some_iff.2 ⟨_, hsource, ?_⟩⟩
    refine Option.bind_eq_some_iff.2 ⟨_, h.machine, Option.bind_eq_some_iff.2 ⟨_, h.sessionID, ?_⟩⟩
    refine Option.bind_eq_some_iff.2 ⟨_, h.agentInstanceID, Option.bind_eq_some_iff.2 ⟨_, h.parentAgentInstanceID, ?_⟩⟩
    refine Option.bind_eq_some_iff.2 ⟨_, hstate, Option.bind_eq_some_iff.2 ⟨_, hreason, ?_⟩⟩
    refine Option.bind_eq_some_iff.2 ⟨_, h.activityAt, Option.bind_eq_some_iff.2 ⟨_, h.emittedAt, ?_⟩⟩
    refine Option.bind_eq_some_iff.2 ⟨_, h.task, Option.bind_eq_some_iff.2 ⟨_, h.metadata, ?_⟩⟩
    rw [hsource', hstate', hreason']
    rfl

theorem readEvent_eq_some : readEvent T v = some e ↔ member "metadata" v ≠ some .null ∧ readWireEvent T v = some e := by
  unfold readEvent
  split <;> simp_all

theorem sound_of_readEvent (h : readEvent T v = some e) (hvalidate : e.validate = .ok ()) : e.Sound T := by
  have hvalid := Event.valid_of_validate hvalidate
  obtain ⟨members, -, hreads⟩ := readWireEvent_eq_some.1 (readEvent_eq_some.1 h).2
  exact ⟨hvalidate, readTime_eq_some hreads.activityAt hvalid.activityAt,
    readTime_eq_some hreads.emittedAt hvalid.emittedAt⟩

theorem sound_of_decodeEvent {payload : List Char} {maxBytes : Int} (h : decodeEvent T payload maxBytes = .ok e) :
    e.Sound T := by
  simp only [decodeEvent, ok_rules] at h
  obtain ⟨-, -, -, -, value, -, event, hread, ⟨⟩, hvalidate, rfl⟩ := h
  exact sound_of_readEvent hread hvalidate

theorem lookup_metadataMember_of_ne {name : String} {d : Dict} (h : name ≠ "metadata") :
    (metadataMember d).lookup name = none := by
  unfold metadataMember
  split
  · rfl
  · rw [lookup_cons_of_ne h, List.lookup_nil]

theorem readMetadata_member (d : Dict) : readMetadata ((metadataMember d).lookup "metadata") = some d := by
  unfold metadataMember
  split
  · rename_i h
    obtain ⟨members, hsorted⟩ := d
    obtain rfl : members = [] := h
    rfl
  · rw [List.lookup_cons_self, readMetadata, Dict.ofMembers_members]

theorem names_metadataMember (d : Dict) : ((metadataMember d).map Prod.fst).Sublist ["metadata"] := by
  unfold metadataMember
  split
  · exact List.nil_sublist _
  · exact List.Sublist.refl _

/-- A struct whose fields are set once each, by their own names. -/
theorem readStruct_exact {fields : List String} {members : Members} (hnodup : (members.map Prod.fst).Nodup)
    (hnames : ∀ m ∈ members, fieldOf fields m.1 = some m.1) :
    readStruct fields (some (.object members)) = some members := by
  have hset : members.map (fun m => ((fieldOf fields m.1).getD m.1, m.2)) = members := by
    refine (List.map_congr_left fun m hm => ?_).trans (List.map_id _)
    rw [hnames m hm]
    rfl
  rw [readStruct, if_pos (List.all_eq_true.2 fun m hm => by rw [hnames m hm]; rfl), hset,
    List.pwFilter_eq_self.2 (List.pairwise_map.1 hnodup)]

/-- A struct that is written with some of its fields, in their order. -/
theorem readStruct_object {fields : List String} {members : Members} (h : (members.map Prod.fst).Sublist fields)
    (hfields : fields.Nodup ∧ ∀ field ∈ fields, fieldOf fields field = some field) :
    readStruct fields (some (.object members)) = some members :=
  readStruct_exact (h.nodup hfields.1) fun _ hm => hfields.2 _ (h.subset (List.mem_map_of_mem hm))

theorem readMachine_json (machine : Machine) : readMachine (some machine.json) = some machine := by
  have hnames : (List.map Prod.fst [("id", Value.string machine.id), ("label", .string machine.label)]).Sublist
      ["id", "label"] := List.Sublist.refl _
  exact Option.bind_eq_some_iff.2 ⟨_, readStruct_object hnames (by decide +kernel), rfl⟩

theorem Task.names_members (task : Task) :
    (task.members.map Prod.fst).Sublist ["title", "repository", "working_directory"] := by
  rw [Task.members, List.map_append, List.map_append]
  exact ((List.Sublist.refl _).append (names_unlessEmpty _ _)).append (names_unlessEmpty _ _)

theorem readTask_json (task : Task) : readTask (some task.json) = some task := by
  refine Option.bind_eq_some_iff.2 ⟨_, readStruct_object (Task.names_members task) (by decide +kernel), ?_⟩
  refine Option.bind_eq_some_iff.2 ⟨task.title, rfl, Option.bind_eq_some_iff.2 ⟨task.repository, ?_,
    Option.bind_eq_some_iff.2 ⟨task.workingDirectory, ?_, rfl⟩⟩⟩
  all_goals
    simp (disch := decide) only [Task.members, List.lookup_append, lookup_cons_of_ne, List.lookup_nil,
      lookup_unlessEmpty_of_ne, Option.none_or, Option.or_none]
    exact readText_unlessEmpty _ _

theorem Event.json_eq_some : e.json T = some v ↔ ∃ activityAt emittedAt, T.marshal e.activityAt = some activityAt ∧
    T.marshal e.emittedAt = some emittedAt ∧ .object (e.members activityAt emittedAt) = v := by
  simp only [Event.json, Option.bind_eq_bind, Option.bind_eq_some_iff, Option.pure_def, Option.some.injEq,
    exists_and_left]

theorem Event.names_members (e : Event) (activityAt emittedAt : String) :
    ((e.members activityAt emittedAt).map Prod.fst).Sublist eventFields := by
  simp only [Event.members, List.map_append]
  exact (((((List.Sublist.refl _).append (names_unlessEmpty _ _)).append (List.Sublist.refl _)).append
    (names_unlessEmpty _ _)).append (List.Sublist.refl _)).append (names_metadataMember _)

/-- **An event is read back from its text.** -/
theorem readEvent_json (h : e.Sound T) (hjson : e.json T = some v) : readEvent T v = some e := by
  have hvalid := Event.valid_of_validate h.validate
  obtain ⟨activityAt, emittedAt, hactivity, hemitted, rfl⟩ := Event.json_eq_some.1 hjson
  obtain ⟨_, hread⟩ := h.activityAt
  have hactivity := T.unmarshal_marshal _ _ _ hread hactivity
  obtain ⟨_, hread⟩ := h.emittedAt
  have hemitted := T.unmarshal_marshal _ _ _ hread hemitted
  have hmetadata : member "metadata" (.object (e.members activityAt emittedAt)) ≠ some .null := by
    simp (disch := decide) only [member, Event.members, List.lookup_append, lookup_cons_of_ne, List.lookup_nil,
      lookup_unlessEmpty_of_ne, Option.none_or]
    by_cases h : e.metadata.members = [] <;> simp [metadataMember, h]
  refine readEvent_eq_some.2 ⟨hmetadata, readWireEvent_eq_some.2 ⟨_, readStruct_object
    (Event.names_members e activityAt emittedAt) (by decide +kernel), ?_⟩⟩
  constructor
  all_goals
    simp (disch := decide) only [Event.members, List.lookup_append, List.lookup_cons_self, lookup_cons_of_ne,
      List.lookup_nil, lookup_unlessEmpty_of_ne, lookup_metadataMember_of_ne, Option.none_or, Option.or_none]
  case specVersion => rw [hvalid.specVersion]; rfl
  case source => exact congrArg some hvalid.source
  case machine => exact readMachine_json _
  case parentAgentInstanceID => exact readText_unlessEmpty _ _
  case state => exact congrArg some hvalid.state
  case waitingReason =>
    rw [readText_unlessEmpty]
    exact congrArg some hvalid.waitingReason
  case activityAt => exact hactivity
  case emittedAt => exact hemitted
  case task => exact readTask_json _
  case metadata => exact readMetadata_member _
  all_goals rfl

theorem proper_task (task : Task) : task.json.Proper := by
  refine proper_object ((Task.names_members task).nodup (by decide)) fun m hm => ?_
  simp only [Task.members, List.mem_append, List.mem_singleton] at hm
  obtain (rfl | hm) | hm := hm
  · exact proper_string _
  · exact proper_unlessEmpty hm
  · exact proper_unlessEmpty hm

theorem proper_primitive (h : isPrimitiveMetadata v) : v.Proper := by
  cases v with
  | null => exact proper_null
  | bool b => exact proper_bool b
  | number text => exact proper_number h
  | string text => exact proper_string text
  | array items => cases h
  | object members => cases h

theorem proper_metadataMember {d : Dict} (h : ∀ m ∈ d.members, isPrimitiveMetadata m.2) {m : String × Value}
    (hm : m ∈ metadataMember d) : m.2.Proper := by
  unfold metadataMember at hm
  split at hm
  · cases hm
  · obtain rfl := List.mem_singleton.1 hm
    exact proper_object d.nodup fun m hm => proper_primitive (h m hm)

theorem proper_event (h : e.Sound T) (hjson : e.json T = some v) : v.Proper := by
  have hvalid := Event.valid_of_validate h.validate
  obtain ⟨activityAt, emittedAt, -, -, rfl⟩ := Event.json_eq_some.1 hjson
  refine proper_object ((Event.names_members e activityAt emittedAt).nodup (by decide)) fun m hm => ?_
  simp only [Event.members, List.mem_append, List.mem_cons, List.not_mem_nil, or_false] at hm
  obtain (((((rfl | rfl | rfl | rfl | rfl | rfl) | hm) | rfl) | hm) | rfl | rfl | rfl) | hm := hm
  all_goals try exact proper_string _
  · rw [hvalid.specVersion]
    exact proper_number (by decide)
  · exact proper_object (by simp) (by simp [proper_string])
  · exact proper_unlessEmpty hm
  · exact proper_unlessEmpty hm
  · exact proper_task _
  · exact proper_metadataMember hvalid.metadata hm

/-- An event is decoded from its text. -/
theorem decodeEvent_write (h : e.Sound T) (hjson : e.json T = some v) :
    decodeEvent T (write true v) (bytes (write true v) + 1) = .ok e := by
  have hproper := proper_event h hjson
  simp only [decodeEvent, ok_rules]
  exact ⟨(), by omega, (), by omega, v, validateJSONEncoding_write hproper.wellFormed hproper.unique, e,
    readEvent_json h hjson, (), h.validate, rfl⟩

/-- **An accepted event survives its own encoding.** -/
theorem event_reencoded {payload : List Char} {maxBytes : Int} (h : decodeEvent T payload maxBytes = .ok e)
    (hjson : e.json T = some v) : decodeEvent T (write true v) (bytes (write true v) + 1) = .ok e :=
  decodeEvent_write (sound_of_decodeEvent h) hjson

end Punaro.Canopi
