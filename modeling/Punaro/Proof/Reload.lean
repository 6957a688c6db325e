import Mathlib.Data.Finset.Basic
import Mathlib.Data.Finset.Lattice.Lemmas
import Punaro.Canopi.Store
import Punaro.Proof.EventText

/-!
# The state file of the Canopi collector is reloadable

The text of a state that keeps the limits of `OpenStore` is loaded as that state
(`loadStore_payload`). Every store of a run keeps them (`StoreOK`): the operations
remember distinct ids, give no agent two records and admit no more than the
configured number of agents.
-/

namespace Punaro.Canopi

open Json Outcome

variable {T : TimeText} {config : Config} {records : List Event} {table : Table String Event}

/-! ## Reading what was written -/

theorem mapM_inverse {α β : Type} {f : α → Option β} {g : β → Option α} {l : List α} {l' : List β}
    (h : l.mapM f = some l') (hg : ∀ a ∈ l, ∀ b, f a = some b → g b = some a) : l'.mapM g = some l := by
  induction l generalizing l' with
  | nil =>
    obtain rfl : [] = l' := by simpa using h
    rfl
  | cons a l ih =>
    rw [List.mapM_cons] at h
    obtain ⟨b, hb, h⟩ := Option.bind_eq_some_iff.1 h
    obtain ⟨l'', hl, h⟩ := Option.bind_eq_some_iff.1 h
    obtain rfl : b :: l'' = l' := Option.some.inj h
    rw [List.mapM_cons, hg a (by simp) b hb, ih hl fun a ha => hg a (by simp [ha])]
    rfl

theorem mem_of_mapM {α β : Type} {f : α → Option β} {l : List α} {l' : List β} (h : l.mapM f = some l') {b : β}
    (hb : b ∈ l') : ∃ a ∈ l, f a = some b := by
  induction l generalizing l' with
  | nil =>
    obtain rfl : [] = l' := by simpa using h
    cases hb
  | cons a l ih =>
    rw [List.mapM_cons] at h
    obtain ⟨b', hb', h⟩ := Option.bind_eq_some_iff.1 h
    obtain ⟨l'', hl, h⟩ := Option.bind_eq_some_iff.1 h
    obtain rfl : b' :: l'' = l' := Option.some.inj h
    rcases List.mem_cons.1 hb with rfl | hb
    · exact ⟨a, by simp, hb'⟩
    · obtain ⟨a', ha', hf⟩ := ih hl hb
      exact ⟨a', by simp [ha'], hf⟩

/-- A state within the limits of `OpenStore`. -/
structure StateOK (T : TimeText) (config : Config) (state : PersistedStore) : Prop where
  sound : ∀ e ∈ state.records, e.Sound T
  agents : (state.records.map Event.key).Nodup
  ids : state.seenOrder.Nodup
  revision : state.revision < 2 ^ 64
  remembered : state.seenOrder.length ≤ maxRememberedEventIDs
  live : (state.records.length : Int) ≤ config.maxLiveRecords

section

variable {state : PersistedStore} {v : Value}

theorem PersistedStore.json_eq_some : state.json T = some v ↔ ∃ records, state.records.mapM (Event.json T) = some records ∧
    .object [("revision", .number (numeral state.revision)), ("records", .array records),
      ("seen_event_ids", seenJson state.seenOrder)] = v := by
  simp only [PersistedStore.json, Option.bind_eq_bind, Option.bind_eq_some_iff, Option.pure_def, Option.some.injEq]

theorem readStrings_strings (ids : List String) : readStrings (ids.map .string) = some ids := by
  refine mapM_inverse (f := fun id => some (.string id)) ?_ ?_
  · induction ids with
    | nil => rfl
    | cons id ids ih => rw [List.mapM_cons, ih]; rfl
  · rintro id - _ ⟨⟩
    rfl

theorem itemsOf_seenJson (ids : List String) : itemsOf (some (seenJson ids)) = some (ids.map .string) := by
  unfold seenJson
  split
  · rename_i h
    rw [h]
    rfl
  · rfl

theorem readRevision_numeral {n : ℕ} (h : n < 2 ^ 64) : readRevision (some (.number (numeral n))) = some n := by
  rw [readRevision, readNumeral_numeral, Option.filter_some, if_pos (by simpa using h)]

theorem readState_json (h : StateOK T config state) (hjson : state.json T = some v) : readState T v = some state := by
  obtain ⟨records, hrecords, rfl⟩ := PersistedStore.json_eq_some.1 hjson
  have hread : records.mapM (readEvent T) = some state.records :=
    mapM_inverse hrecords fun e he v hv => readEvent_json (h.sound e he) hv
  have hitems : itemsOf (some (.array records)) = some records := rfl
  rw [readState, readStruct_object (by simp) (by decide +kernel)]
  simp (disch := decide) only [List.lookup_cons_self, lookup_cons_of_ne, readRevision_numeral h.revision, hitems, hread,
    itemsOf_seenJson, readStrings_strings, Option.bind_eq_bind, Option.bind_some, Option.pure_def]

theorem proper_state (h : StateOK T config state) (hjson : state.json T = some v) : v.Proper := by
  obtain ⟨records, hrecords, rfl⟩ := PersistedStore.json_eq_some.1 hjson
  refine proper_object (by simp) fun m hm => ?_
  simp only [List.mem_cons, List.not_mem_nil, or_false] at hm
  obtain rfl | rfl | rfl := hm
  · exact proper_number (validNumber_numeral _)
  · refine proper_array fun v hv => ?_
    obtain ⟨e, he, hv⟩ := mem_of_mapM hrecords hv
    exact proper_event (h.sound e he) hv
  · dsimp only [seenJson]
    split
    · exact proper_null
    · refine proper_array fun v hv => ?_
      obtain ⟨id, -, rfl⟩ := List.mem_map.1 hv
      exact proper_string id

/-! ## Loading -/

/-- Records of distinct agents, none of them in the table, are all loaded. -/
theorem foldlM_loadRecord (hsound : ∀ e ∈ records, e.Sound T)
    (hnodup : (table.rows.map Prod.fst ++ records.map Event.key).Nodup) :
    ∃ table', records.foldlM loadRecord table = .ok table' ∧
      table'.rows = table.rows ++ records.map fun e => (e.key, e) := by
  induction records generalizing table with
  | nil => exact ⟨table, rfl, by simp⟩
  | cons e records ih =>
    have hnew : table.find? e.key = none := by
      rw [Table.find?_eq_none_iff]
      intro hmem
      exact (List.nodup_append.1 hnodup).2.2 _ hmem _ (by simp) rfl
    obtain ⟨table', hinsert⟩ : ∃ table', table.insert? e.key e = some table' := by
      refine Option.ne_none_iff_exists'.1 fun h => ?_
      exact Table.insert?_eq_none.1 h hnew
    have hrows := (Table.insert?_eq_some hinsert).2
    have hnodup' : (table'.rows.map Prod.fst ++ records.map Event.key).Nodup := by
      rw [hrows]
      simpa using hnodup
    obtain ⟨table'', hfold, heq⟩ := ih (fun e he => hsound e (by simp [he])) hnodup'
    refine ⟨table'', ?_, ?_⟩
    · rw [List.foldlM_cons]
      have hload : loadRecord table e = .ok table' := by
        simp only [loadRecord, ok_rules]
        exact ⟨(), (hsound e (by simp)).validate, hinsert⟩
      rw [hload]
      exact hfold
    · rw [heq, hrows]
      simp

theorem foldlM_loadID {ids order : List String} (hnodup : (order ++ ids).Nodup) :
    ids.foldlM loadID (order.toFinset, order) = .ok ((order ++ ids).toFinset, order ++ ids) := by
  induction ids generalizing order with
  | nil => rw [List.append_nil]; rfl
  | cons id ids ih =>
    have hnew : id ∉ order.toFinset := by
      intro hmem
      exact (List.nodup_append.1 hnodup).2.2 _ (List.mem_toFinset.1 hmem) _ (by simp) rfl
    have hload : loadID (order.toFinset, order) id = .ok ((order ++ [id]).toFinset, order ++ [id]) := by
      simp only [loadID, ok_rules]
      refine ⟨(), hnew, Prod.ext ?_ rfl⟩
      ext
      simp
    rw [List.foldlM_cons, hload]
    have hnodup' : ((order ++ [id]) ++ ids).Nodup := by simpa using hnodup
    have hnext := ih hnodup'
    rw [List.append_assoc, List.singleton_append] at hnext
    exact hnext

/-- **The text of a state is loaded as that state.** -/
theorem loadStore_payload {payload : List Char} (h : StateOK T config state)
    (hpayload : statePayload T config state = .ok payload) :
    (bytes payload : Int) ≤ config.maxStateBytes ∧ ∃ s, loadStore T config (some payload) = .ok s ∧
      s.records.rows = state.records.map (fun e => (e.key, e)) ∧ s.seen = state.seenOrder.toFinset ∧
      s.seenOrder = state.seenOrder ∧ s.revision = state.revision := by
  simp only [statePayload, ok_rules] at hpayload
  obtain ⟨⟨⟩, hbudget, v, hjson, ⟨⟩, hsize, rfl⟩ := hpayload
  have hproper := proper_state h hjson
  have hagents : ((Table.empty : Table String Event).rows.map Prod.fst ++ state.records.map Event.key).Nodup := h.agents
  obtain ⟨table, htable, hrows⟩ := foldlM_loadRecord h.sound hagents
  have hnodup : ([] ++ state.seenOrder).Nodup := h.ids
  have hids := foldlM_loadID hnodup
  refine ⟨hsize, ⟨table, state.seenOrder.toFinset, state.seenOrder, state.revision⟩, ?_, hrows, rfl, rfl,
    rfl⟩
  simp only [loadStore, ok_rules]
  exact ⟨(), hsize, v, validateJSONEncoding_write hproper.wellFormed hproper.unique, state, readState_json h hjson, (),
    h.remembered, (), h.live, (), hbudget, table, htable, _, hids, rfl⟩

end

/-! ## Stores -/

structure StoreOK (T : TimeText) (config : Config) (s : Store) : Prop where
  records : s.records.All fun key e => key = e.key ∧ e.Sound T
  ids : s.seenOrder.Nodup
  seen : s.seen = s.seenOrder.toFinset
  revision : s.revision < 2 ^ 64
  remembered : s.seenOrder.length ≤ maxRememberedEventIDs
  live : (s.records.rows.length : Int) ≤ config.maxLiveRecords

section

variable {s : Store}

theorem persistedState_perm (s : Store) (iteration : Iteration) :
    (s.persistedState iteration).records.Perm (s.records.rows.map Prod.snd) :=
  (List.perm_insertionSort _ _).trans (iteration.perm _)

theorem StoreOK.state (h : StoreOK T config s) (iteration : Iteration) :
    StateOK T config (s.persistedState iteration) where
  sound e he := by
    obtain ⟨row, hrow, rfl⟩ := List.mem_map.1 ((persistedState_perm s iteration).mem_iff.1 he)
    exact (Table.all_iff_rows.1 h.records row hrow).2
  agents := by
    have hkeys : (s.records.rows.map Prod.snd).map Event.key = s.records.rows.map Prod.fst := by
      rw [List.map_map]
      exact List.map_congr_left fun row hrow => (Table.all_iff_rows.1 h.records row hrow).1.symm
    refine (((persistedState_perm s iteration).map Event.key).nodup_iff).2 ?_
    rw [hkeys]
    exact s.records.nodup
  ids := h.ids
  revision := h.revision
  remembered := h.remembered
  live := by
    rw [(persistedState_perm s iteration).length_eq, List.length_map]
    exact h.live

theorem revision_of_readRevision {value : Option Value} {n : ℕ} (h : readRevision value = some n) : n < 2 ^ 64 := by
  unfold readRevision at h
  split at h
  · cases h; decide
  · cases h; decide
  · simpa using (Option.filter_eq_some_iff.1 h).2
  · cases h

theorem readState_eq_some {v : Value} {state : PersistedStore} (h : readState T v = some state) :
    state.revision < 2 ^ 64 ∧ ∀ e ∈ state.records, ∃ v, readEvent T v = some e := by
  simp only [readState, Option.bind_eq_bind, Option.bind_eq_some_iff, Option.pure_def, Option.some.injEq] at h
  obtain ⟨members, -, revision, hrevision, values, -, records, hrecords, _, -, _, -, rfl⟩ := h
  refine ⟨revision_of_readRevision hrevision, fun e he => ?_⟩
  obtain ⟨v, -, hv⟩ := mem_of_mapM hrecords he
  exact ⟨v, hv⟩

theorem records_of_foldlM (hread : ∀ e ∈ records, ∃ v, readEvent T v = some e)
    (h : records.foldlM loadRecord Table.empty = .ok table) :
    table.All (fun key e => key = e.key ∧ e.Sound T) ∧ table.rows.length = records.length := by
  have hrule := foldlM_rule (fun rest (table : Table String Event) =>
    (∀ e ∈ rest, ∃ v, readEvent T v = some e) ∧ table.All (fun key e => key = e.key ∧ e.Sound T) ∧
      table.rows.length + rest.length = records.length) ?_ ⟨hread, Table.All.empty, by simp [Table.empty]⟩ h
  · exact ⟨hrule.2.1, hrule.2.2⟩
  · rintro e rest table table' ⟨hread, hall, hlength⟩ hload
    simp only [loadRecord, ok_rules] at hload
    obtain ⟨⟨⟩, hvalidate, hinsert⟩ := hload
    obtain ⟨v, hv⟩ := hread e (by simp)
    refine ⟨fun e he => hread e (by simp [he]), fun key e' he' => ?_, ?_⟩
    · rw [Table.find?_insert? hinsert] at he'
      split at he'
      · rename_i hkey
        cases he'
        exact ⟨hkey, sound_of_readEvent hv hvalidate⟩
      · exact hall key e' he'
    · rw [(Table.insert?_eq_some hinsert).2]
      simp only [List.length_append, List.length_cons, List.length_nil] at hlength ⊢
      omega

theorem ids_of_foldlM {ids order : List String} {seen : Finset String}
    (h : ids.foldlM loadID (∅, []) = .ok (seen, order)) :
    order.Nodup ∧ seen = order.toFinset ∧ order.length = ids.length := by
  have hrule := foldlM_rule (fun rest (loaded : Finset String × List String) =>
    loaded.2.Nodup ∧ loaded.1 = loaded.2.toFinset ∧ loaded.2.length + rest.length = ids.length) ?_
    ⟨List.nodup_nil, rfl, by simp⟩ h
  · exact hrule
  · rintro id rest ⟨seen, order⟩ loaded ⟨hnodup, hseen, hlength⟩ hload
    simp only [loadID, ok_rules] at hload
    obtain ⟨⟨⟩, hnew, rfl⟩ := hload
    dsimp only at hnodup hseen hlength hnew ⊢
    subst hseen
    refine ⟨List.nodup_append.2 ⟨hnodup, List.nodup_singleton id, ?_⟩, ?_, ?_⟩
    · rintro id' hid' _ hid rfl
      exact hnew (List.mem_toFinset.2 (List.mem_singleton.1 hid ▸ hid'))
    · ext
      simp
    · simp only [List.length_append, List.length_cons, List.length_nil] at hlength ⊢
      omega

/-- What is loaded is within the limits. -/
theorem storeOK_of_loadStore {file : Option (List Char)} (hlive : 0 < config.maxLiveRecords)
    (h : loadStore T config file = .ok s) : StoreOK T config s := by
  cases file with
  | none =>
    obtain rfl : Store.empty = s := by simpa [loadStore] using h
    exact ⟨Table.All.empty, List.nodup_nil, rfl, by decide, by decide, hlive.le⟩
  | some payload =>
    simp only [loadStore, ok_rules] at h
    obtain ⟨-, -, v, -, state, hread, -, hremembered, -, hlive, -, -, records, hrecords, ⟨seen, order⟩, hids, rfl⟩ := h
    obtain ⟨hrevision, hread⟩ := readState_eq_some hread
    obtain ⟨hall, hrows⟩ := records_of_foldlM hread hrecords
    obtain ⟨hnodup, hseen, horder⟩ := ids_of_foldlM hids
    exact ⟨hall, hnodup, hseen, hrevision, horder ▸ hremembered, by dsimp only; rw [hrows]; exact hlive⟩

/-! ## The ids that are remembered -/

section

variable {seen seen' : Finset String} {order order' : List String} {id : String}

/-- Ids without repetition, as a set and in their order. -/
structure Remembered (seen : Finset String) (order : List String) : Prop where
  nodup : order.Nodup
  seen : seen = order.toFinset

/-- Dropping the oldest ids. -/
theorem Remembered.drop (h : Remembered seen order) (n : ℕ) :
    Remembered (seen \ (order.take n).toFinset) (order.drop n) where
  nodup := h.nodup.sublist (List.drop_sublist n order)
  seen := by
    have hdisjoint := List.disjoint_take_drop h.nodup (le_refl n)
    have hsplit : order.toFinset = (order.take n).toFinset ∪ (order.drop n).toFinset := by
      rw [← List.toFinset_append, List.take_append_drop]
    rw [h.seen, hsplit]
    refine Finset.union_sdiff_cancel_left (Finset.disjoint_left.2 fun id hid hid' => ?_)
    exact hdisjoint (List.mem_toFinset.1 hid) (List.mem_toFinset.1 hid')

theorem Remembered.add (h : Remembered seen order) (hid : id ∉ seen) : Remembered (insert id seen) (order ++ [id]) where
  nodup := by
    refine List.nodup_append.2 ⟨h.nodup, List.nodup_singleton id, ?_⟩
    rintro id' hid' _ hid'' rfl
    exact hid (h.seen ▸ List.mem_toFinset.2 (List.mem_singleton.1 hid'' ▸ hid'))
  seen := by
    rw [h.seen]
    ext
    simp

/-- The id is remembered as the latest one. -/
theorem rememberEventID_spec (h : Remembered seen order) (hid : id ∉ seen)
    (hlength : order.length ≤ maxRememberedEventIDs) (heq : rememberEventID seen order id = (seen', order')) :
    Remembered seen' order' ∧ order'.length ≤ maxRememberedEventIDs ∧ ∃ older, order' = older ++ [id] := by
  unfold rememberEventID at heq
  split at heq
  · rename_i hfull
    cases heq
    refine ⟨(h.drop 1).add fun hmem => hid (Finset.sdiff_subset hmem), ?_, _, rfl⟩
    rw [List.length_append, List.length_drop, List.length_singleton, hfull]
    decide
  · cases heq
    refine ⟨h.add hid, ?_, _, rfl⟩
    rw [List.length_append, List.length_singleton]
    omega

theorem retained_prefix (maxBytes : Int) (used : ℕ) (older : List String) : retained maxBytes used older <+: older := by
  fun_induction retained maxBytes used older with
  | case1 => exact List.prefix_refl _
  | case2 used id older _ ih => exact (List.prefix_cons_inj id).2 ih
  | case3 => exact List.nil_prefix

/-- The latest id is never dropped to meet the budget. -/
theorem trimSeenOrderToBudget_spec {maxBytes : Int} {older : List String} (h : Remembered seen (older ++ [id]))
    (heq : trimSeenOrderToBudget T records seen (older ++ [id]) maxBytes = .ok (seen', order')) :
    Remembered seen' order' ∧ order'.length ≤ (older ++ [id]).length ∧ ∃ older', order' = older' ++ [id] := by
  simp only [trimSeenOrderToBudget, ok_rules, List.reverse_append, List.reverse_cons, List.reverse_nil, List.nil_append, List.singleton_append] at heq
  obtain ⟨used, -, -, -, -, -, heq⟩ := heq
  cases heq
  set kept := retained maxBytes (used + idBytes id) older.reverse with hkept
  have hsuffix : kept.reverse ++ [id] <:+ older ++ [id] := by
    rw [← List.reverse_prefix]
    simpa using retained_prefix _ _ _
  have hdrop : kept.reverse ++ [id] = (older ++ [id]).drop ((older ++ [id]).length - (id :: kept).length) := by
    have hlength : (kept.reverse ++ [id]).length = (id :: kept).length := by simp
    rw [← hlength]
    exact List.suffix_iff_eq_drop.1 hsuffix
  refine ⟨?_, hsuffix.length_le, kept.reverse, rfl⟩
  rw [hdrop]
  exact h.drop _

end

/-! ## One event -/

section

variable {s' : Store} {event : Event} {result : ApplyResult}

theorem StoreOK.remembers (h : StoreOK T config s) : Remembered s.seen s.seenOrder := ⟨h.ids, h.seen⟩

theorem length_deleteWhere (t : Table String Event) (p : String → Event → Bool) :
    (t.deleteWhere p).rows.length ≤ t.rows.length := List.length_filter_le _ _

theorem StoreOK.expire (h : StoreOK T config s) (now : Time) : StoreOK T config (s.expire config now) where
  records key e he := h.records key e (Table.find?_deleteWhere_eq_some.1 he).1
  ids := h.ids
  seen := h.seen
  revision := Nat.mod_lt _ (by decide)
  remembered := h.remembered
  live := by
    have := length_deleteWhere s.records fun _ event => expired config now event
    have := h.live
    dsimp only [Store.expire]
    omega

/-- The records of a store after an event, which fit if there was room for its agent. -/
theorem StoreOK.record (h : StoreOK T config s) (hsound : event.Sound T)
    (hroom : s.records.find? event.key = none → (s.records.rows.length : Int) < config.maxLiveRecords)
    (heq : s.record event = (s', result)) : StoreOK T config s' := by
  unfold Store.record at heq
  split at heq
  · cases heq
    exact h
  · cases heq
    refine ⟨h.records.put ⟨rfl, hsound⟩, h.ids, h.seen, Nat.mod_lt _ (by decide), h.remembered, ?_⟩
    have := h.live
    rw [Table.length_put]
    split
    · rename_i hnone
      have := hroom hnone
      omega
    · omega

/-- **What `Apply` is to commit** keeps the limits, and has the id of the event as its latest one. -/
theorem StoreOK.next (h : StoreOK T config s) (hsound : event.Sound T) (hid : event.eventID ∉ s.seen)
    {iteration : Iteration} (heq : s.next T config iteration event = .ok (s', result)) :
    StoreOK T config s' ∧ event.eventID ∈ s'.seenOrder := by
  simp only [Store.next, ok_rules] at heq
  obtain ⟨-, hroom, ⟨seen, order⟩, htrim, -, -, heq⟩ := heq
  cases hrecord : s.record event with
  | mk recorded result' =>
  cases hremember : rememberEventID s.seen s.seenOrder event.eventID with
  | mk seen' order' =>
  rw [hrecord, hremember] at htrim
  rw [hrecord] at heq
  obtain ⟨hremembered, hlength, older, rfl⟩ := rememberEventID_spec h.remembers hid h.remembered hremember
  obtain ⟨htrimmed, hlength', older', rfl⟩ := trimSeenOrderToBudget_spec hremembered htrim
  have hrecorded := h.record hsound hroom hrecord
  cases heq
  exact ⟨⟨hrecorded.records, htrimmed.nodup, htrimmed.seen, hrecorded.revision, hlength'.trans hlength, hrecorded.live⟩,
    by simp⟩

/-- An event that is taken in is applied or stale. -/
theorem next_result {iteration : Iteration} (heq : s.next T config iteration event = .ok (s', result)) :
    result = ⟨true, false, false⟩ ∨ result = ⟨false, false, true⟩ := by
  simp only [Store.next, ok_rules] at heq
  obtain ⟨_, _, _, _, _, _, heq⟩ := heq
  obtain rfl : (s.record event).2 = result := (Prod.ext_iff.1 heq).2
  rw [Store.record]
  split
  · exact .inr rfl
  · exact .inl rfl

end

end

end Punaro.Canopi
