import Punaro.Proof.Reload

/-!
# Runs of the Canopi collector

What one call can do to the store and its file (`commit_cases`, `expireLocked_cases`,
`apply_cases`), and what holds after any sequence of calls: every state file that was
written is loaded as the state it was to hold.

A write can fail after it has replaced the state file. Such a call fails and leaves
the store in memory as it was, while the file has the next state.
-/

namespace Punaro.Canopi

open Json Outcome

variable {T : TimeText} {raw config : Config}

/-! ## One call -/

section

variable {turn : Turn} {event : Event} {iteration : Iteration} {outcome : WriteOutcome} {next : Store} {site site' : Site}
variable {r : Except Failure Unit}

/-- The store is replaced, in memory and in its file. -/
def Committed (T : TimeText) (config : Config) (iteration : Iteration) (next : Store) (site site' : Site) : Prop :=
  ∃ payload, statePayload T config (next.persistedState iteration) = .ok payload ∧
    site' = ⟨next, some payload, (next.persistedState iteration, payload) :: site.written⟩

theorem commit_cases (hsynced : outcome ≠ .unsynced)
    (h : commit T config outcome iteration next site = (site', r)) :
    (∃ e, r = .error e ∧ site' = site) ∨ r = .ok () ∧ Committed T config iteration next site site' := by
  unfold commit persist at h
  cases hpayload : statePayload T config (next.persistedState iteration) with
  | error e =>
    rw [hpayload] at h
    cases h
    exact .inl ⟨e, rfl, rfl⟩
  | ok payload =>
    rw [hpayload] at h
    cases outcome with
    | written =>
      cases h
      exact .inr ⟨rfl, payload, hpayload, rfl⟩
    | refused =>
      cases h
      exact .inl ⟨.disk, rfl, rfl⟩
    | unsynced => exact absurd rfl hsynced

theorem expireLocked_cases (hsynced : turn.expiry ≠ .unsynced)
    (h : expireLocked T config turn site = (site', r)) :
    site' = site ∨ r = .ok () ∧ Committed T config turn.expiryOrder (site.store.expire config turn.now) site site' := by
  unfold expireLocked at h
  split at h
  · rcases commit_cases hsynced h with ⟨e, -, hsite⟩ | h
    · exact .inl hsite
    · exact .inr h
  · cases h
    exact .inl rfl

/-- Both writes of a call end before or with the rename, or are completed. -/
def Turn.Synced (turn : Turn) : Prop := turn.expiry ≠ .unsynced ∧ turn.outcome ≠ .unsynced

/-- What a call can do: it is refused at once or finds a duplicate, expiry fails, or expiry is followed by a refusal or
a write. -/
theorem apply_cases {r : Except Failure ApplyResult} (h : apply T config turn event site = (site', r)) :
    site' = site ∧ (∀ result, r = .ok result → event.eventID ∈ site.store.seen ∧ result = ⟨false, true, false⟩) ∨
    (∃ e, expireLocked T config turn site = (site', .error e) ∧ r = .error e) ∨
    ∃ mid, expireLocked T config turn site = (mid, .ok ()) ∧ event.eventID ∉ site.store.seen ∧
      (site' = mid ∧ (∃ e, r = .error e) ∨ ∃ next result, mid.store.next T config turn.order event = .ok (next, result) ∧
        ∃ outcome, commit T config turn.outcome turn.order next mid = (site', outcome) ∧
          r = outcome.map fun _ => result) := by
  unfold apply at h
  split at h
  · cases h
    exact .inl ⟨rfl, nofun⟩
  split_ifs at h with hseen hfuture
  · cases h
    exact .inl ⟨rfl, by rintro _ ⟨⟩; exact ⟨hseen, rfl⟩⟩
  · cases h
    exact .inl ⟨rfl, nofun⟩
  split at h
  · rename_i mid e hexpire
    cases h
    exact .inr (.inl ⟨e, hexpire, rfl⟩)
  rename_i mid hexpire
  refine .inr (.inr ⟨mid, hexpire, hseen, ?_⟩)
  split at h
  · rename_i e hnext
    cases h
    exact .inl ⟨rfl, e, rfl⟩
  rename_i next result hnext
  split at h
  · rename_i last e hcommit
    cases h
    exact .inr ⟨next, result, hnext, _, hcommit, rfl⟩
  · rename_i last hcommit
    cases h
    exact .inr ⟨next, result, hnext, _, hcommit, rfl⟩

/-- A call whose writes are synced. -/
theorem apply_synced {r : Except Failure ApplyResult} (hsynced : turn.Synced)
    (h : apply T config turn event site = (site', r)) :
    site' = site ∧ (∀ result, r = .ok result → result = ⟨false, true, false⟩) ∨
    ∃ mid, expireLocked T config turn site = (mid, .ok ()) ∧ event.eventID ∉ site.store.seen ∧
      (site' = mid ∧ (∃ e, r = .error e) ∨ ∃ next result, mid.store.next T config turn.order event = .ok (next, result) ∧
        Committed T config turn.order next mid site' ∧ r = .ok result) := by
  rcases apply_cases h with ⟨hsite, hr⟩ | ⟨e, hexpire, rfl⟩ | ⟨mid, hexpire, hseen, hmid⟩
  · exact .inl ⟨hsite, fun result hresult => (hr result hresult).2⟩
  · rcases expireLocked_cases hsynced.1 hexpire with hsite | ⟨hr, -⟩
    · exact .inl ⟨hsite, nofun⟩
    · cases hr
  · refine .inr ⟨mid, hexpire, hseen, ?_⟩
    rcases hmid with hmid | ⟨next, result, hnext, outcome, hcommit, rfl⟩
    · exact .inl hmid
    · rcases commit_cases hsynced.2 hcommit with ⟨e, rfl, hsite⟩ | ⟨rfl, hcommitted⟩
      · exact .inl ⟨hsite, e, rfl⟩
      · exact .inr ⟨next, result, hnext, hcommitted, rfl⟩

/-! ## What holds of the store and its file -/

/-- The text is loaded as the state, and is within the limit. -/
def LoadsAs (T : TimeText) (raw config : Config) (state : PersistedStore) (text : List Char) : Prop :=
  (bytes text : Int) ≤ config.maxStateBytes ∧ ∃ s, openStore T raw (some text) = .ok s ∧
    s.revision = state.revision ∧ s.records.rows.map Prod.snd = state.records ∧ s.seenOrder = state.seenOrder

/-- The file holds the store. -/
def Holds (T : TimeText) (raw : Config) (file : Option (List Char)) (store : Store) : Prop :=
  ∃ s, openStore T raw file = .ok s ∧ s.revision = store.revision ∧
    (∀ key, s.records.find? key = store.records.find? key) ∧ s.seenOrder = store.seenOrder ∧ s.seen = store.seen

structure SiteOK (T : TimeText) (raw config : Config) (site : Site) : Prop where
  accepted : raw.normalized = .ok config
  store : StoreOK T config site.store
  file : Holds T raw site.file site.store
  written : ∀ state text, (state, text) ∈ site.written → LoadsAs T raw config state text

theorem openStore_eq (h : raw.normalized = .ok config) (file : Option (List Char)) :
    openStore T raw file = loadStore T config file := by
  rw [openStore, h]
  rfl

/-- The rows of a store and those of its persisted state are the same, up to their order. -/
theorem StoreOK.find?_of_rows {s : Store} (h : StoreOK T config s) {t : Table String Event}
    (hrows : t.rows = (s.persistedState iteration).records.map fun e => (e.key, e)) (key : String) :
    t.find? key = s.records.find? key := by
  refine Option.ext fun e => ?_
  rw [Table.find?_eq_some_iff_mem, Table.find?_eq_some_iff_mem, hrows, List.mem_map]
  constructor
  · rintro ⟨e', he', heq⟩
    cases heq
    obtain ⟨⟨key, e⟩, hrow, rfl⟩ := List.mem_map.1 ((persistedState_perm s iteration).mem_iff.1 he')
    rwa [← (Table.all_iff_rows.1 h.records _ hrow).1]
  · intro hrow
    refine ⟨e, (persistedState_perm s iteration).mem_iff.2 (List.mem_map.2 ⟨_, hrow, rfl⟩), ?_⟩
    rw [← (Table.all_iff_rows.1 h.records _ hrow).1]

theorem SiteOK.committed (h : SiteOK T raw config site) (hnext : StoreOK T config next)
    (hcommitted : Committed T config iteration next site site') : SiteOK T raw config site' := by
  obtain ⟨payload, hpayload, rfl⟩ := hcommitted
  obtain ⟨hsize, s, hload, hrows, hseen, horder, hrevision⟩ := loadStore_payload (hnext.state iteration) hpayload
  rw [← openStore_eq h.accepted] at hload
  refine ⟨h.accepted, hnext, ⟨s, hload, hrevision, hnext.find?_of_rows hrows, horder, ?_⟩, fun state text hmem => ?_⟩
  · rw [hseen, hnext.seen]
    rfl
  · rcases List.mem_cons.1 hmem with heq | hmem
    · cases heq
      refine ⟨hsize, s, hload, hrevision, ?_, horder⟩
      rw [hrows, List.map_map]
      exact List.map_id' _
    · exact h.written state text hmem

theorem SiteOK.expired (h : SiteOK T raw config site) (hsynced : turn.expiry ≠ .unsynced)
    (hexpire : expireLocked T config turn site = (site', r)) : SiteOK T raw config site' := by
  rcases expireLocked_cases hsynced hexpire with rfl | ⟨-, hcommitted⟩
  · exact h
  · exact h.committed (h.store.expire _) hcommitted

/-- Expiry forgets no id. -/
theorem expireLocked_ids (hsynced : turn.expiry ≠ .unsynced)
    (hexpire : expireLocked T config turn site = (site', r)) :
    site'.store.seen = site.store.seen ∧ site'.store.seenOrder = site.store.seenOrder := by
  rcases expireLocked_cases hsynced hexpire with rfl | ⟨-, payload, -, rfl⟩
  · exact ⟨rfl, rfl⟩
  · exact ⟨rfl, rfl⟩

/-- **One event.** The call keeps what holds of the site; the ids stay as they are, or the event was taken in and its
id is one of them. -/
theorem SiteOK.applied {r : Except Failure ApplyResult} (h : SiteOK T raw config site) (hsynced : turn.Synced)
    (hsound : event.Sound T) (happly : apply T config turn event site = (site', r)) :
    SiteOK T raw config site' ∧
      (site'.store.seenOrder = site.store.seenOrder ∧ (∀ result, r = .ok result → result = ⟨false, true, false⟩) ∨
        event.eventID ∈ site'.store.seenOrder ∧ (r = .ok ⟨true, false, false⟩ ∨ r = .ok ⟨false, false, true⟩)) := by
  rcases apply_synced hsynced happly with ⟨rfl, hr⟩ | ⟨mid, hexpire, hid, hmid⟩
  · exact ⟨h, .inl ⟨rfl, hr⟩⟩
  have hok := h.expired hsynced.1 hexpire
  have hids := expireLocked_ids hsynced.1 hexpire
  rw [← hids.1] at hid
  rcases hmid with ⟨rfl, e, rfl⟩ | ⟨next, result, hnext, hcommitted, rfl⟩
  · exact ⟨hok, .inl ⟨hids.2, nofun⟩⟩
  · obtain ⟨hstore, hmem⟩ := hok.store.next hsound hid hnext
    refine ⟨hok.committed hstore hcommitted, .inr ⟨?_, ?_⟩⟩
    · obtain ⟨payload, -, rfl⟩ := hcommitted
      exact hmem
    · exact (next_result hnext).imp (congrArg _) (congrArg _)

end

/-! ## Runs -/

/-- The collector, with the id of the event it has applied last. -/
structure Session where
  site : Site
  applied : Option String

inductive Call where
  | apply (turn : Turn) (event : Event)
  | snapshot (turn : Turn)

def Session.step (T : TimeText) (config : Config) (s : Session) : Call → Session
  | .apply turn event =>
    match apply T config turn event s.site with
    | (site, .ok result) => ⟨site, if result.applied then some event.eventID else s.applied⟩
    | (site, .error _) => ⟨site, s.applied⟩
  | .snapshot turn => ⟨(snapshot T config turn s.site).1, s.applied⟩

/-- No write of the call fails after its rename, and it pushes no id out for an event that is stale. -/
def Undisturbed (T : TimeText) (config : Config) (s : Session) : Call → Prop
  | .apply turn event => turn.Synced ∧ ∀ site, apply T config turn event s.site = (site, .ok ⟨false, false, true⟩) →
      s.site.store.seenOrder ⊆ site.store.seenOrder
  | .snapshot turn => turn.expiry ≠ .unsynced

/-- The sessions of a configuration `raw`, which is normalized to `config`: a state file is opened, and events that
were decoded are applied. -/
inductive Reached (T : TimeText) (raw config : Config) : Session → Prop where
  | opened {file : Option (List Char)} {store : Store} (h : openStore T raw file = .ok store) :
      Reached T raw config ⟨⟨store, file, []⟩, none⟩
  | apply {s : Session} {turn : Turn} {event : Event} {payload : List Char} {maxBytes : Int}
      (h : Reached T raw config s) (hevent : decodeEvent T payload maxBytes = .ok event)
      (hcall : Undisturbed T config s (.apply turn event)) : Reached T raw config (s.step T config (.apply turn event))
  | snapshot {s : Session} {turn : Turn} (h : Reached T raw config s)
      (hcall : Undisturbed T config s (.snapshot turn)) : Reached T raw config (s.step T config (.snapshot turn))

structure SessionOK (T : TimeText) (raw config : Config) (s : Session) : Prop where
  site : SiteOK T raw config s.site
  applied : ∀ id, s.applied = some id → id ∈ s.site.store.seenOrder

section

variable {s : Session} {turn : Turn} {event : Event}

theorem SessionOK.apply (h : SessionOK T raw config s) (hsound : event.Sound T)
    (hcall : Undisturbed T config s (.apply turn event)) :
    SessionOK T raw config (s.step T config (.apply turn event)) := by
  obtain ⟨hsynced, hstale⟩ := hcall
  unfold Session.step
  cases happly : Canopi.apply T config turn event s.site with
  | mk site r =>
  obtain ⟨hsite, hids⟩ := h.site.applied hsynced hsound happly
  dsimp only
  rw [happly]
  rcases hids with ⟨horder, hr⟩ | ⟨hmem, rfl | rfl⟩
  · cases r with
    | error e => exact ⟨hsite, by dsimp only; rw [horder]; exact h.applied⟩
    | ok result =>
      obtain rfl := hr result rfl
      exact ⟨hsite, by dsimp only; rw [horder]; exact h.applied⟩
  · refine ⟨hsite, ?_⟩
    rintro _ ⟨⟩
    exact hmem
  · exact ⟨hsite, fun id hid => hstale site happly (h.applied id hid)⟩

theorem SessionOK.snapshot (h : SessionOK T raw config s) (hcall : Undisturbed T config s (.snapshot turn)) :
    SessionOK T raw config (s.step T config (.snapshot turn)) := by
  unfold Session.step Canopi.snapshot
  cases hexpire : expireLocked T config turn s.site with
  | mk site r =>
  dsimp only
  rw [hexpire]
  refine ⟨h.site.expired hcall hexpire, ?_⟩
  dsimp only
  rw [(expireLocked_ids hcall hexpire).2]
  exact h.applied

theorem Config.live_pos (h : raw.normalized = .ok config) : 0 < config.maxLiveRecords := by
  simp only [Config.normalized, ok_rules] at h
  obtain ⟨-, -, -, -, -, ⟨hlive, -⟩, -, -, -, -, rfl⟩ := h
  exact hlive

theorem sessionOK_of_reached (hconfig : raw.normalized = .ok config) (h : Reached T raw config s) :
    SessionOK T raw config s := by
  induction h with
  | @opened file store h =>
    have hload := h
    rw [openStore_eq hconfig] at hload
    exact ⟨⟨hconfig, storeOK_of_loadStore (Config.live_pos hconfig) hload, ⟨store, h, rfl, fun _ => rfl, rfl, rfl⟩, nofun⟩,
      nofun⟩
  | apply _ hevent hcall ih => exact ih.apply (sound_of_decodeEvent hevent) hcall
  | snapshot _ hcall ih => exact ih.snapshot hcall

/-- **The state is reloadable.** Every state file that was written is accepted and has the state it was to hold; the
present one has the state in memory. A call that fails changes nothing but what it has committed as expired. -/
structure Reloadable (T : TimeText) (raw config : Config) (s : Session) : Prop where
  written : ∀ state text, (state, text) ∈ s.site.written → LoadsAs T raw config state text
  file : Holds T raw s.site.file s.site.store
  nodup : s.site.store.seenOrder.Nodup
  seen : s.site.store.seen = s.site.store.seenOrder.toFinset
  applied : ∀ id, s.applied = some id → id ∈ s.site.store.seenOrder
  failed : ∀ turn event site e, turn.Synced → apply T config turn event s.site = (site, .error e) →
    site = s.site ∨ s.site.store.hasExpired config turn.now ∧ expireLocked T config turn s.site = (site, .ok ())

end

/-! ## A first event -/

/-- A `time` package that knows one time. -/
def sampleTimes : TimeText where
  unmarshal text := if text = "2026-01-01T00:00:00Z" then some ⟨1767225600000000000, 0⟩ else none
  marshal t := if t = ⟨1767225600000000000, 0⟩ then some "2026-01-01T00:00:00Z" else none
  unmarshal_marshal text t text' h h' := by
    split at h <;> split at h' <;> simp_all

def sampleConfig : Config := ⟨hour, hour, 4, 4096, hour⟩

def sampleEvent : Event where
  specVersion := 1
  eventID := "e-1"
  source := .codex
  machine := ⟨"m-1", "desk"⟩
  sessionID := "s-1"
  agentInstanceID := "a-1"
  parentAgentInstanceID := ""
  state := .working
  waitingReason := .none
  activityAt := ⟨1767225600000000000, 0⟩
  emittedAt := ⟨1767225600000000000, 0⟩
  task := ⟨"build", "", ""⟩
  metadata := .empty

def tableOrder : Iteration := ⟨id, fun _ => List.Perm.refl _⟩

def sampleTurn (outcome : WriteOutcome) : Turn := ⟨⟨1767225600000000000, 0⟩, tableOrder, .written, tableOrder, outcome⟩

/-- The session before a first state file. -/
def sampleStart : Session := ⟨⟨.empty, none, []⟩, none⟩

theorem sampleEvent_sound : sampleEvent.Sound sampleTimes where
  validate := by decide +kernel
  activityAt := ⟨"2026-01-01T00:00:00Z", rfl⟩
  emittedAt := ⟨"2026-01-01T00:00:00Z", rfl⟩

theorem sampleEvent_decoded : ∃ payload maxBytes, decodeEvent sampleTimes payload maxBytes = .ok sampleEvent :=
  ⟨_, _, decodeEvent_write sampleEvent_sound rfl⟩

theorem event_reencoded_sampleEvent : ∃ v, sampleEvent.json sampleTimes = some v ∧
    decodeEvent sampleTimes (write true v) (bytes (write true v) + 1) = .ok sampleEvent := by
  obtain ⟨payload, maxBytes, h⟩ := sampleEvent_decoded
  exact ⟨_, rfl, event_reencoded h rfl⟩

theorem sampleConfig_normalized : sampleConfig.normalized = .ok sampleConfig := rfl

theorem sampleStart_reached : Reached sampleTimes sampleConfig sampleConfig sampleStart := .opened rfl

theorem sample_applied :
    (apply sampleTimes sampleConfig (sampleTurn .written) sampleEvent sampleStart.site).2 = .ok ⟨true, false, false⟩ := by
  decide +kernel

end Punaro.Canopi
