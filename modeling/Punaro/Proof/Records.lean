import Mathlib.Data.List.Lex
import Mathlib.Data.Prod.Lex
import Punaro.Lib.LastWriter
import Punaro.Proof.Collector

/-!
# Convergence of the Canopi records

The record of an agent is a last-writer-wins register over the events of the agent
(`Store.find?_record`). Events that are skipped as duplicates are not later than that
register, whichever ids have been forgotten meanwhile, as long as the store does not
start with ids whose events it has no record of.
-/

namespace Punaro.Canopi

open Json Outcome LastWriter

variable {T : TimeText} {config : Config} {now : Time}

/-- The order in which events of one agent replace each other. -/
def Event.rank (e : Event) : ℤ ×ₗ List Char := toLex (e.activityAt.instant, e.eventID.toList)

theorem staleFor_iff {e r : Event} : staleFor e r ↔ e.rank ≤ r.rank := by
  rw [Event.rank, Event.rank, Prod.Lex.toLex_le_toLex, staleFor, decide_eq_true_eq]

theorem Event.eventID_of_rank {e e' : Event} (h : e.rank = e'.rank) : e.eventID = e'.eventID :=
  String.toList_inj.1 (Prod.ext_iff.1 (toLex_inj.1 h)).2

theorem Store.find?_record (s : Store) (event : Event) (key : String) : (s.record event).1.records.find? key =
    if key = event.key then overwrite Event.rank (s.records.find? key) event else s.records.find? key := by
  unfold Store.record
  cases hexisting : s.records.find? event.key with
  | none =>
    by_cases hkey : key = event.key
    · subst hkey
      simp [hexisting, overwrite]
    · simp [hkey]
  | some existing =>
    by_cases hkey : key = event.key
    · subst hkey
      by_cases hstale : staleFor event existing
      · simp [hexisting, hstale, overwrite, staleFor_iff.1 hstale]
      · simp [hexisting, hstale, overwrite, mt staleFor_iff.2 hstale]
    · by_cases hstale : staleFor event existing <;> simp [hkey, hstale]

/-! ## Events that are taken in -/

section

variable {turn : Turn} {event : Event} {site site' : Site} {result : ApplyResult}

/-- The records that have not expired. -/
def Store.live (s : Store) (config : Config) (now : Time) (key : String) : Option Event :=
  (s.records.find? key).filter fun e => !expired config now e

theorem commit_ok {outcome : WriteOutcome} {iteration : Iteration} {next : Store}
    (h : commit T config outcome iteration next site = (site', .ok ())) : site'.store = next := by
  unfold commit at h
  split at h
  · cases h
    rfl
  · cases h

theorem expireLocked_ok (h : expireLocked T config turn site = (site', .ok ())) :
    site'.store.seen = site.store.seen ∧ ∀ key, site'.store.records.find? key = site.store.live config turn.now key := by
  unfold expireLocked at h
  split at h
  · rw [commit_ok h]
    refine ⟨rfl, fun key => Option.ext fun e => ?_⟩
    rw [Store.live, Option.filter_eq_some_iff]
    simp only [Store.expire]
    rw [Table.find?_deleteWhere_eq_some]
    simp
  · rename_i hexpired
    cases h
    refine ⟨rfl, fun key => ?_⟩
    cases hrecord : site.store.records.find? key with
    | none => simp [Store.live, hrecord]
    | some e =>
      have hlive : ¬expired config turn.now e := fun he =>
        hexpired (List.any_eq_true.2 ⟨_, Table.find?_eq_some_iff_mem.1 hrecord, he⟩)
      rw [Store.live, hrecord, Option.filter_some, if_pos (by simpa using hlive)]

theorem trimSeenOrderToBudget_subset {records : List Event} {seen seen' : Finset String} {order order' : List String}
    {maxBytes : Int} (h : trimSeenOrderToBudget T records seen order maxBytes = .ok (seen', order')) : seen' ⊆ seen := by
  simp only [trimSeenOrderToBudget, bind_eq_ok] at h
  obtain ⟨used, -, -, -, h⟩ := h
  split at h
  · cases h
    exact Finset.Subset.refl _
  · simp only [ok_rules] at h
    obtain ⟨_, _, heq⟩ := h
    cases heq
    exact Finset.sdiff_subset

theorem rememberEventID_subset (seen : Finset String) (order : List String) (id : String) :
    (rememberEventID seen order id).1 ⊆ insert id seen := by
  unfold rememberEventID
  split
  · exact Finset.insert_subset_insert _ Finset.sdiff_subset
  · exact Finset.Subset.refl _

theorem next_ok {s s' : Store} {iteration : Iteration} (h : s.next T config iteration event = .ok (s', result)) :
    s'.records = (s.record event).1.records ∧ s'.seen ⊆ insert event.eventID s.seen := by
  simp only [Store.next, ok_rules] at h
  obtain ⟨_, _, ⟨seen, order⟩, htrim, _, _, heq⟩ := h
  cases heq
  exact ⟨rfl, (trimSeenOrderToBudget_subset htrim).trans (rememberEventID_subset _ _ _)⟩

/-- **One event.** It is skipped, as its id is remembered, or it is written to the register of its agent after the
records that have expired are gone. -/
theorem apply_ok (h : apply T config turn event site = (site', .ok result)) :
    event.eventID ∈ site.store.seen ∧ site' = site ∨
    event.eventID ∉ site.store.seen ∧ site'.store.seen ⊆ insert event.eventID site.store.seen ∧
      ∀ key, site'.store.records.find? key = if key = event.key then
        overwrite Event.rank (site.store.live config turn.now key) event else site.store.live config turn.now key := by
  rcases apply_cases h with ⟨hsite, hr⟩ | ⟨e, -, hr⟩ | ⟨mid, hexpire, hseen, ⟨-, e, hr⟩ | ⟨next, _, hnext, r, hcommit, hr⟩⟩
  · exact .inl ⟨(hr result rfl).1, hsite⟩
  · cases hr
  · cases hr
  · cases r with
    | error e => cases hr
    | ok _ =>
      obtain ⟨hmid, hrecords⟩ := expireLocked_ok hexpire
      obtain ⟨hnext, hids⟩ := next_ok hnext
      rw [hmid] at hids
      refine .inr ⟨hseen, by rwa [commit_ok hcommit], fun key => ?_⟩
      rw [commit_ok hcommit, hnext, Store.find?_record, hrecords]

end

/-! ## Sequences of events -/

/-- Apply events one after the other, each of which is accepted. -/
def applyAll (T : TimeText) (config : Config) : Site → List (Turn × Event) → Option Site
  | site, [] => some site
  | site, (turn, event) :: rest =>
    match apply T config turn event site with
    | (site, .ok _) => applyAll T config site rest
    | (_, .error _) => none

/-- Events that a store can be given in any order: their ids differ, they have not expired, and those whose id is
remembered are not later than the record of their agent. -/
structure Suitable (config : Config) (now : Time) (start : Store) (events : List Event) : Prop where
  ids : ∀ e ∈ events, ∀ e' ∈ events, e.eventID = e'.eventID → e = e'
  live : ∀ e ∈ events, ¬expired config now e
  remembered : ∀ e ∈ events, e.eventID ∈ start.seen →
    ∃ r, start.records.find? e.key = some r ∧ ¬expired config now r ∧ staleFor e r

theorem Suitable.of_subset {start : Store} {events events' : List Event} (h : Suitable config now start events)
    (hsubset : events' ⊆ events) : Suitable config now start events' where
  ids e he e' he' := h.ids e (hsubset he) e' (hsubset he')
  live e he := h.live e (hsubset he)
  remembered e he := h.remembered e (hsubset he)

section

variable {start : Store} {events past : List Event} {site : Site}
variable {s : Store}

/-- The events of one agent. -/
def ofAgent (events : List Event) (key : String) : List Event := events.filter fun e => e.key = key

/-- Where a store stands after some events: still at its start, or with the latest event of every agent. -/
structure Converged (config : Config) (now : Time) (start : Store) (past : List Event) (s : Store) : Prop where
  seen : ∀ id ∈ s.seen, id ∈ start.seen ∨ ∃ e ∈ past, e.eventID = id
  records : (∀ e ∈ past, e.eventID ∈ start.seen) ∧ s = start ∨
    (∃ e ∈ past, e.eventID ∉ start.seen) ∧
      ∀ key, Latest Event.rank (start.live config now key) (ofAgent past key) (s.records.find? key)

theorem converged_start : Converged config now start [] start where
  seen _ h := .inl h
  records := .inl ⟨by simp, rfl⟩

theorem mem_ofAgent {e : Event} {key : String} : e ∈ ofAgent events key ↔ e ∈ events ∧ e.key = key := by
  simp [ofAgent]

theorem ofAgent_cons (e : Event) (past : List Event) (key : String) :
    ofAgent (e :: past) key = if key = e.key then e :: ofAgent past key else ofAgent past key := by
  by_cases h : key = e.key
  · simp [ofAgent, h]
  · simp [ofAgent, h, Ne.symm h]

theorem live_eq_some {key : String} {r : Event} (h : s.records.find? key = some r)
    (hlive : ¬expired config now r) : s.live config now key = some r := by
  rw [Store.live, h, Option.filter_some, if_pos (by simpa using hlive)]

/-- Events whose ids were remembered at the start leave the registers as they were. -/
theorem latest_of_remembered (h : Suitable config now start events) (hpast : past ⊆ events)
    (hremembered : ∀ e ∈ past, e.eventID ∈ start.seen) (key : String) :
    Latest Event.rank (start.live config now key) (ofAgent past key) (start.live config now key) := by
  induction past with
  | nil => exact latest_init
  | cons e past ih =>
    have hlatest := ih (fun e he => hpast (by simp [he])) fun e he => hremembered e (by simp [he])
    rw [ofAgent_cons]
    split
    · rename_i hkey
      obtain ⟨r, hr, hlive, hstale⟩ := h.remembered e (hpast (by simp)) (hremembered e (by simp))
      have hwrite := hlatest.overwrite e
      rw [hkey] at hwrite ⊢
      rwa [overwrite_of_le (live_eq_some hr hlive) (staleFor_iff.1 hstale)] at hwrite
    · exact hlatest

/-- The registers after the records that have expired are gone. -/
theorem Converged.live (h : Converged config now start past s) (hsuitable : Suitable config now start events)
    (hpast : past ⊆ events) (key : String) :
    Latest Event.rank (start.live config now key) (ofAgent past key) (s.live config now key) := by
  rcases h.records with ⟨hremembered, rfl⟩ | ⟨-, hlatest⟩
  · exact latest_of_remembered hsuitable hpast hremembered key
  · have hlive : s.live config now key = s.records.find? key := by
      cases hrecord : s.records.find? key with
      | none => rw [Store.live, hrecord]; rfl
      | some r =>
        refine live_eq_some hrecord ?_
        rcases (hlatest key).source r hrecord with hr | ⟨hr, -⟩
        · simpa using (Option.filter_eq_some_iff.1 hr).2
        · exact hsuitable.live r (hpast (mem_ofAgent.1 hr).1)
    rw [hlive]
    exact hlatest key

/-- **One event** of a sequence. -/
theorem Converged.apply {turn : Turn} {event : Event} {site' : Site} {result : ApplyResult}
    (h : Converged config now start past site.store) (hsuitable : Suitable config now start events)
    (hpast : event :: past ⊆ events) (hclock : turn.now = now)
    (happly : apply T config turn event site = (site', .ok result)) :
    Converged config now start (event :: past) site'.store := by
  have hevent : event ∈ events := hpast (by simp)
  have hpast' : past ⊆ events := fun e he => hpast (by simp [he])
  rcases apply_ok happly with ⟨hseen, rfl⟩ | ⟨hseen, hids, hrecords⟩
  · refine ⟨fun id hid => (h.seen id hid).imp_right fun ⟨e, he, heq⟩ => ⟨e, by simp [he], heq⟩, ?_⟩
    rcases h.records with ⟨hremembered, heq⟩ | ⟨⟨e, he, hnew⟩, hlatest⟩
    · refine .inl ⟨fun e he => ?_, heq⟩
      rcases List.mem_cons.1 he with rfl | he
      · exact heq ▸ hseen
      · exact hremembered e he
    · refine .inr ⟨⟨e, by simp [he], hnew⟩, fun key => ?_⟩
      rw [ofAgent_cons]
      split
      · rename_i hkey
        -- the register of the agent already has an event that is not earlier
        have hbehind : ∃ r, site'.store.records.find? key = some r ∧ event.rank ≤ r.rank := by
          rcases h.seen _ hseen with hstart | ⟨e', he', heq⟩
          · obtain ⟨i, hi, hlive, hstale⟩ := hsuitable.remembered event hevent hstart
            rw [← hkey] at hi
            obtain ⟨r, hr, hle⟩ := (hlatest key).init_le (live_eq_some hi hlive)
            exact ⟨r, hr, (staleFor_iff.1 hstale).trans hle⟩
          · obtain rfl := hsuitable.ids e' (hpast' he') event hevent heq
            have hmem : e' ∈ ofAgent past key := mem_ofAgent.2 ⟨he', hkey.symm⟩
            cases hrecord : site'.store.records.find? key with
            | none =>
              have hempty := ((hlatest key).empty hrecord).2
              rw [hempty] at hmem
              cases hmem
            | some r => exact ⟨r, rfl, (hlatest key).le r hrecord e' hmem⟩
        obtain ⟨r, hr, hle⟩ := hbehind
        have hwrite := (hlatest key).overwrite event
        rwa [overwrite_of_le hr hle] at hwrite
      · exact hlatest key
  · subst hclock
    refine ⟨fun id hid => ?_, .inr ⟨?_, fun key => ?_⟩⟩
    · rcases Finset.mem_insert.1 (hids hid) with rfl | hid
      · exact .inr ⟨event, by simp, rfl⟩
      · exact (h.seen id hid).imp_right fun ⟨e, he, heq⟩ => ⟨e, by simp [he], heq⟩
    · rcases h.records with ⟨-, heq⟩ | ⟨⟨e, he, hnew⟩, -⟩
      · exact ⟨event, by simp, heq ▸ hseen⟩
      · exact ⟨e, by simp [he], hnew⟩
    · have hlive := h.live hsuitable hpast' key
      rw [hrecords, ofAgent_cons]
      split
      · exact hlive.overwrite event
      · exact hlive

theorem Converged.applyAll {sequence : List (Turn × Event)} {site' : Site}
    (h : Converged config now start past site.store) (hsuitable : Suitable config now start events)
    (hpast : past ⊆ events) (hsequence : ∀ p ∈ sequence, p.1.now = now ∧ p.2 ∈ events)
    (hall : applyAll T config site sequence = some site') :
    Converged config now start ((sequence.map Prod.snd).reverse ++ past) site'.store := by
  induction sequence generalizing site past with
  | nil =>
    cases hall
    exact h
  | cons p sequence ih =>
    obtain ⟨turn, event⟩ := p
    rw [Canopi.applyAll] at hall
    obtain ⟨hclock, hevent⟩ := hsequence (turn, event) (by simp)
    have hpast' : event :: past ⊆ events := List.cons_subset.2 ⟨hevent, hpast⟩
    split at hall
    · rename_i mid result happly
      rw [List.map_cons, List.reverse_cons, List.append_assoc, List.singleton_append]
      exact ih (h.apply hsuitable hpast' hclock happly) hpast' (fun p hp => hsequence p (by simp [hp])) hall
    · cases hall

/-- Two stores that are given the same events have the same records. -/
theorem Converged.unique {past' : List Event} {s' : Store} (h : Converged config now start past s)
    (h' : Converged config now start past' s') (hset : ∀ e, e ∈ past ↔ e ∈ past')
    (hids : ∀ e ∈ past, ∀ e' ∈ past, e.eventID = e'.eventID → e = e') (key : String) :
    s.records.find? key = s'.records.find? key := by
  rcases h.records with ⟨hall, rfl⟩ | ⟨⟨e, he, hnew⟩, hlatest⟩ <;>
    rcases h'.records with ⟨hall', rfl⟩ | ⟨⟨e', he', hnew'⟩, hlatest'⟩
  · rfl
  · exact absurd (hall e' ((hset e').2 he')) hnew'
  · exact absurd (hall' e ((hset e).1 he)) hnew
  · refine (hlatest key).unique (hlatest' key) (fun e => ?_) fun e he e' he' hrank => ?_
    · rw [mem_ofAgent, mem_ofAgent, hset]
    · exact hids e (mem_ofAgent.1 he).1 e' (mem_ofAgent.1 he').1 (Event.eventID_of_rank hrank)

/-- The record of an agent with events is the latest of them, or the one of the start. -/
theorem Converged.latest (h : Converged config now start past s) (hsuitable : Suitable config now start past)
    {e : Event} (he : e ∈ past) : ∃ r, s.records.find? e.key = some r ∧
      (r ∈ past ∧ r.key = e.key ∨ start.records.find? e.key = some r) ∧
      ∀ e' ∈ past, e'.key = e.key → staleFor e' r := by
  rcases h.records with ⟨hall, rfl⟩ | ⟨-, hlatest⟩
  · obtain ⟨r, hr, -, -⟩ := hsuitable.remembered e he (hall e he)
    refine ⟨r, hr, .inr hr, fun e' he' hkey => ?_⟩
    obtain ⟨r', hr', -, hstale⟩ := hsuitable.remembered e' he' (hall e' he')
    rw [hkey, hr] at hr'
    cases hr'
    exact hstale
  · have hmem : e ∈ ofAgent past e.key := mem_ofAgent.2 ⟨he, rfl⟩
    cases hrecord : s.records.find? e.key with
    | none =>
      rw [((hlatest e.key).empty hrecord).2] at hmem
      cases hmem
    | some r =>
      refine ⟨r, rfl, ?_, fun e' he' hkey => staleFor_iff.2 ((hlatest e.key).le r hrecord e' (mem_ofAgent.2 ⟨he', hkey⟩))⟩
      rcases (hlatest e.key).source r hrecord with hr | ⟨hr, -⟩
      · exact .inr (Option.filter_eq_some_iff.1 hr).1
      · exact .inl (mem_ofAgent.1 hr)

end

/-- **Convergence.** Two sequences of the same events, applied at one clock to one store, end with the same records: for
each agent the latest of its events, or the record it had. -/
theorem records_converge {start left right : Site} {sequence sequence' : List (Turn × Event)}
    (hclock : ∀ p ∈ sequence ++ sequence', p.1.now = now)
    (hset : ∀ e, e ∈ sequence.map Prod.snd ↔ e ∈ sequence'.map Prod.snd)
    (hsuitable : Suitable config now start.store (sequence.map Prod.snd))
    (hleft : applyAll T config start sequence = some left) (hright : applyAll T config start sequence' = some right) :
    (∀ key, left.store.records.find? key = right.store.records.find? key) ∧
      ∀ e ∈ sequence.map Prod.snd, ∃ r, left.store.records.find? e.key = some r ∧
        (r ∈ sequence.map Prod.snd ∧ r.key = e.key ∨ start.store.records.find? e.key = some r) ∧
        ∀ e' ∈ sequence.map Prod.snd, e'.key = e.key → staleFor e' r := by
  have hpast : ∀ (l : List (Turn × Event)) e, e ∈ (l.map Prod.snd).reverse ++ [] ↔ e ∈ l.map Prod.snd := by simp
  have hconverged := converged_start.applyAll hsuitable (List.nil_subset _)
    (fun p hp => ⟨hclock p (by simp [hp]), List.mem_map_of_mem hp⟩) hleft
  have hconverged' := converged_start.applyAll hsuitable (List.nil_subset _)
    (fun p hp => ⟨hclock p (by simp [hp]), (hset _).2 (List.mem_map_of_mem hp)⟩) hright
  constructor
  · refine hconverged.unique hconverged' (fun e => ?_) fun e he e' he' => ?_
    · rw [hpast, hpast, hset]
    · exact hsuitable.ids e ((hpast _ e).1 he) e' ((hpast _ e').1 he')
  · intro e he
    obtain ⟨r, hr, hsource, hlatest⟩ := hconverged.latest (hsuitable.of_subset fun e he => (hpast _ e).1 he)
      ((hpast _ e).2 he)
    rw [hpast] at hsource
    exact ⟨r, hr, hsource, fun e' he' => hlatest e' ((hpast _ e').2 he')⟩

def laterEvent : Event := { sampleEvent with eventID := "e-2", state := .done }

/-- Two events of one agent, in either order. -/
theorem records_converge_two :
    ∃ left right, applyAll sampleTimes sampleConfig sampleStart.site
        [(sampleTurn .written, sampleEvent), (sampleTurn .written, laterEvent)] = some left ∧
      applyAll sampleTimes sampleConfig sampleStart.site
        [(sampleTurn .written, laterEvent), (sampleTurn .written, sampleEvent)] = some right ∧
      ∀ key, left.store.records.find? key = right.store.records.find? key := by
  have haccepted : (applyAll sampleTimes sampleConfig sampleStart.site
        [(sampleTurn .written, sampleEvent), (sampleTurn .written, laterEvent)]).isSome ∧
      (applyAll sampleTimes sampleConfig sampleStart.site
        [(sampleTurn .written, laterEvent), (sampleTurn .written, sampleEvent)]).isSome := by decide +kernel
  obtain ⟨left, hleft⟩ := Option.isSome_iff_exists.1 haccepted.1
  obtain ⟨right, hright⟩ := Option.isSome_iff_exists.1 haccepted.2
  have hsuitable : Suitable sampleConfig (sampleTurn .written).now sampleStart.site.store [sampleEvent, laterEvent] := by
    refine ⟨?_, ?_, fun e _ he => absurd he (Finset.notMem_empty _)⟩
    · intro e he e' he' heq
      simp only [List.mem_cons, List.not_mem_nil, or_false] at he he'
      rcases he with rfl | rfl <;> rcases he' with rfl | rfl
      · rfl
      · exact absurd heq (by decide)
      · exact absurd heq (by decide)
      · rfl
    · intro e he
      simp only [List.mem_cons, List.not_mem_nil, or_false] at he
      rcases he with rfl | rfl <;> decide
  refine ⟨left, right, hleft, hright, (records_converge ?_ ?_ hsuitable hleft hright).1⟩
  · simp
  · simp [or_comm]

/-! ## Ids without records -/

def tightConfig : Config := ⟨hour, hour, 4, 2048, hour⟩

/-- Ids that nearly use up the budget: the escape of a control character takes six bytes. -/
def rememberedIDs : List String :=
  "e-1" :: [41, 42, 43, 44, 45].map fun n => String.ofList (List.replicate n '\x01')

def rememberingStore : Store := ⟨Table.empty, rememberedIDs.toFinset, rememberedIDs, 0⟩

theorem rememberedIDs_nodup : rememberedIDs.Nodup := by decide +kernel

/-- A state file that remembers ids and has no records. -/
theorem remembering_loaded : ∃ file, openStore sampleTimes tightConfig file = .ok rememberingStore := by
  have hsome : (statePayload sampleTimes tightConfig (rememberingStore.persistedState tableOrder)).toOption.isSome := by
    decide +kernel
  have hok : StoreOK sampleTimes tightConfig rememberingStore :=
    ⟨Table.All.empty, rememberedIDs_nodup, rfl, by decide, by decide, by decide⟩
  cases hpayload : statePayload sampleTimes tightConfig (rememberingStore.persistedState tableOrder) with
  | error e =>
    rw [hpayload] at hsome
    cases hsome
  | ok payload =>
    obtain ⟨-, s, hload, hrows, hseen, horder, hrevision⟩ := loadStore_payload (hok.state tableOrder) hpayload
    obtain ⟨⟨rows, hnodup⟩, seen, order, revision⟩ := s
    dsimp only at hrows hseen horder hrevision
    subst hseen horder hrevision
    obtain rfl : rows = [] := hrows
    exact ⟨some payload, hload⟩

def otherEvent : Event := { sampleEvent with eventID := "e-2", agentInstanceID := "a-2" }

/-- The record of an agent whose event is remembered depends on whether another event, which comes before or after it,
has pushed its id out. -/
theorem records_diverge :
    (∃ file, openStore sampleTimes tightConfig file = .ok rememberingStore) ∧
      ((applyAll sampleTimes tightConfig ⟨rememberingStore, none, []⟩
        [(sampleTurn .written, sampleEvent), (sampleTurn .written, otherEvent)]).map
          fun site => site.store.records.rows.map Prod.fst) = some [otherEvent.key] ∧
      ((applyAll sampleTimes tightConfig ⟨rememberingStore, none, []⟩
        [(sampleTurn .written, otherEvent), (sampleTurn .written, sampleEvent)]).map
          fun site => site.store.records.rows.map Prod.fst) = some [otherEvent.key, sampleEvent.key] := by
  refine ⟨remembering_loaded, ?_⟩
  decide +kernel

end Punaro.Canopi
