import Punaro.Lib.Protocol
import Punaro.Proof.ClaimRows

/-!
# Completed claims

A claim that is adopting, persisted or complete has a route to the topic it records.
Some methods set the phase of a claim whatever it is, so this rests on what the task
that calls them has seen of the claim (`Progress`), and on no other task having
written to the claim since.
-/

namespace Punaro.Telegram

open Outcome Prog

/-! ## Routes -/

section

variable {routes routes' : TopicRoutes} {topic : Int × Int} {c c' : String} {s s' : State}

theorem set?_eq_some (h : routes.set? topic c = some routes') :
    (∀ other, routes'.route other = if other = topic then some c else routes.route other) ∧
      ∀ topic' ∈ routes.topic c, topic' = topic := by
  unfold TopicRoutes.set? at h
  split at h
  · rename_i hfree
    cases h
    exact ⟨fun other => Table.find?_put, hfree⟩
  · cases h

theorem topic_set_self (h : routes.set? topic c = some routes') : routes'.topic c = some topic := by
  rw [TopicRoutes.topic_eq_some, (set?_eq_some h).1, if_pos rfl]

/-- A route displaces the one its topic had, and no other. -/
theorem topic_set_other (h : routes.set? topic c = some routes') (hc : c' ≠ c) (hroute : routes.route topic ≠ some c') :
    routes'.topic c' = routes.topic c' := by
  ext other
  rw [TopicRoutes.topic_eq_some, TopicRoutes.topic_eq_some, (set?_eq_some h).1]
  split
  · rename_i hother
    subst hother
    exact ⟨fun hsome => absurd (Option.some.inj hsome).symm hc, fun hsome => absurd hsome hroute⟩
  · rfl

theorem insert?_eq_some (h : routes.insert? topic c = some routes') :
    routes.route topic = none ∧ routes.topic c = none ∧ routes.set? topic c = some routes' := by
  unfold TopicRoutes.insert? at h
  split at h
  · rename_i hfree
    exact ⟨hfree.1, hfree.2, h⟩
  · cases h

theorem topic_bindTopic {routes : TopicRoutes} (h : s.bindTopic topic c = .ok routes) : routes.topic c = some topic := by
  unfold State.bindTopic at h
  split at h
  · rename_i bound hroute
    split at h
    · rename_i hbound
      cases h
      rw [TopicRoutes.topic_eq_some, hroute, hbound]
    · cases h
  · exact topic_set_self (insert?_eq_some (ofOption_eq_ok.1 h)).2.2

theorem threadedTopic_eq_some : s.threadedTopic c = some topic ↔ s.topicRoutes.topic c = some topic ∧ 0 < topic.2 := by
  unfold State.threadedTopic
  rw [Option.filter_eq_some_iff]
  simp

end

/-! ## Claims -/

/-- The claim has its route, or is about to adopt it. -/
def ClaimPhase.settled : ClaimPhase → Bool
  | .adopting | .routePersisted | .complete => true
  | _ => false

/-- The conversation is routed to the topic its claim records. -/
def RoutedRow (routes : TopicRoutes) (c : String) (row : ExecutionRow) : Prop :=
  ∃ chatID threadID, row.chatID = some chatID ∧ row.threadID = some threadID ∧ 0 < threadID ∧
    routes.topic c = some (chatID, threadID)

/-- A settled claim is routed to the topic it records, and one that is not created yet records none. -/
structure ClaimsOK (s : State) : Prop where
  routed : ∀ {c row}, s.claimExecutions.find? c = some row → row.phase.settled → RoutedRow s.topicRoutes c row
  bare : ∀ {c row}, s.claimExecutions.find? c = some row → row.phase.later = false → row.unthreaded

/-- Settled claims stay settled with their topics, and complete ones complete. -/
def SettledKept (s s' : State) : Prop :=
  ∀ c row, s.claimExecutions.find? c = some row → row.phase.settled →
    s'.topicRoutes.topic c = s.topicRoutes.topic c ∧ ∃ row', s'.claimExecutions.find? c = some row' ∧
      row'.phase.settled ∧ (row.phase = .complete → row'.phase = .complete)

theorem SettledKept.trans {s s' s'' : State} (h : SettledKept s s') (h' : SettledKept s' s'') : SettledKept s s'' := by
  intro c row hrow hsettled
  obtain ⟨htopic, row', hrow', hsettled', hcomplete⟩ := h c row hrow hsettled
  obtain ⟨htopic', row'', hrow'', hsettled'', hcomplete'⟩ := h' c row' hrow' hsettled'
  exact ⟨htopic'.trans htopic, row'', hrow'', hsettled'', fun hphase => hcomplete' (hcomplete hphase)⟩

/-- What must be known of a claim for a method that sets its phase, whatever it is. -/
def Licensed (s : State) : StateCall → Prop
  | .beginClaimCreating c _ => ∀ row, s.claimExecutions.find? c = some row → row.phase.settled = false
  | .persistClaimThread c _ _ => ∀ row, s.claimExecutions.find? c = some row → row.phase.settled = false
  | .persistClaimRoute chatID threadID c => ∀ row, s.claimExecutions.find? c = some row →
    row.phase = .topicCreated ∧ row.threadID.getD 0 = threadID ∧ row.chatID.getD 0 = chatID
  | .markClaimComplete c => ∀ row, s.claimExecutions.find? c = some row → row.phase.settled
  | _ => True

section

variable {s s' : State} {call : StateCall} {a : call.Result} {c : String} {row : ExecutionRow}

theorem protects_of_settled (hrow : s.claimExecutions.find? c = some row) (h : row.phase.settled) :
    s.claimProtectsRoute c ∧ s.claimBlocksRemap c := by
  unfold State.claimProtectsRoute State.claimBlocksRemap State.protects
  rw [hrow]
  cases hphase : row.phase <;> simp_all [ClaimPhase.settled]

/-- The topic of a settled claim is not taken away. -/
theorem topic_kept (ok : ClaimsOK s) (h : s.run call = .ok (s', a)) (hrow : s.claimExecutions.find? c = some row)
    (hsettled : row.phase.settled) : s'.topicRoutes.topic c = s.topicRoutes.topic c := by
  obtain ⟨hprotects, hblocks⟩ := protects_of_settled hrow hsettled
  rcases (run_effect h).routes with hsame | ⟨chatID, threadID, c', -, hblocked, hset⟩ | ⟨chatID, threadID, c', -, -, hinsert⟩
  · rw [hsame]
  · unfold State.routeBlocked at hblocked
    simp only [ok_rules] at hblocked
    obtain ⟨-, hremap, hfree⟩ := hblocked
    have hc : c ≠ c' := by
      rintro rfl
      rw [hblocks] at hremap
      cases hremap
    refine topic_set_other hset hc fun hroute => ?_
    simp only [hroute, require_eq_ok] at hfree
    rcases hfree with hfree | hfree
    · exact hc hfree
    · rw [hprotects] at hfree
      cases hfree
  · obtain ⟨hroute, hnone, hset⟩ := insert?_eq_some hinsert
    obtain ⟨chat, thread, -, -, -, htopic⟩ := ok.routed hrow hsettled
    refine topic_set_other hset ?_ ?_
    · rintro rfl
      rw [htopic] at hnone
      cases hnone
    · rw [hroute]
      rintro ⟨⟩

/-- A settled claim stays so, with the topic it records if that is the one it is routed to. -/
theorem settled_touch (licensed : Licensed s call) (hrow : s.claimExecutions.find? c = some row)
    (hsettled : row.phase.settled) (hrouted : RoutedRow s.topicRoutes c row) :
    (call.touch s c row).phase.settled ∧ (row.phase = .complete → (call.touch s c row).phase = .complete) ∧
      RoutedRow s.topicRoutes c (call.touch s c row) := by
  have htouched := touched s c row call
  generalize call.touch s c row = row' at htouched ⊢
  have hunsettled : ∀ {P : Prop}, row.phase.settled = false → P := by
    intro P hphase
    rw [hphase] at hsettled
    cases hsettled
  cases htouched with
  | same | named | skipped => exact ⟨hsettled, id, hrouted⟩
  | cleared creating => exact hunsettled (by rw [creating]; rfl)
  | begun topic => exact hunsettled (licensed row hrow)
  | created method =>
    rcases method with ⟨_, rfl⟩ | rfl | creating
    · exact hunsettled (licensed row hrow)
    · exact hunsettled (licensed row hrow)
    · exact hunsettled (by rw [creating]; rfl)
  | routed topic => exact hunsettled (by rw [(licensed row hrow).1]; rfl)
  | adopted topic incomplete =>
    obtain ⟨htopic, hpos⟩ := threadedTopic_eq_some.1 topic
    exact ⟨rfl, fun hcomplete => absurd hcomplete incomplete, _, _, rfl, rfl, hpos, htopic⟩
  | reserved adopting =>
    refine ⟨rfl, fun hcomplete => ?_, hrouted⟩
    rw [adopting] at hcomplete
    cases hcomplete
  | completed => exact ⟨rfl, fun _ => rfl, hrouted⟩

theorem eq_some_of_getD {o : Option Int} {n : Int} (h : o.getD 0 = n) (hn : n ≠ 0) : o = some n := by
  cases o with
  | none => exact absurd h.symm hn
  | some m => exact congrArg some h

/-- A claim gets settled with the topic it is routed to. -/
theorem routed_touch (licensed : Licensed s call) (h : s.run call = .ok (s', a))
    (hrow : s.claimExecutions.find? c = some row) (hunsettled : row.phase.settled = false)
    (hsettled : (call.touch s c row).phase.settled) : RoutedRow s'.topicRoutes c (call.touch s c row) := by
  have htouched := touched s c row call
  generalize call.touch s c row = row' at htouched hsettled ⊢
  cases htouched with
  | same | named | skipped =>
    rw [hunsettled] at hsettled
    cases hsettled
  | cleared | begun | created => cases hsettled
  | routed topic =>
    obtain ⟨-, hthread, hchat⟩ := licensed row hrow
    simp only [State.run, written_eq_ok, State.persistClaimRoute, ok_rules] at h
    obtain ⟨-, ⟨-, hne, hpos⟩, h⟩ := h
    have hchat := eq_some_of_getD hchat hne
    have hthread := eq_some_of_getD hthread hpos.ne'
    split at h <;> rename_i htopic
    · simp only [ok_rules] at h
      obtain ⟨-, rfl, rfl⟩ := h
      rw [htopic] at topic
      obtain ⟨htopic, hpos⟩ := threadedTopic_eq_some.1 htopic
      exact ⟨_, _, hchat, topic, hpos, htopic⟩
    · simp only [ok_rules] at h
      obtain ⟨routes, hbind, rfl⟩ := h
      rw [htopic] at topic
      exact ⟨_, _, hchat, topic.trans hthread, hpos, topic_bindTopic hbind⟩
  | adopted topic incomplete =>
    simp only [State.run, State.adoptExistingRoute, ok_rules, Prod.mk.injEq] at h
    obtain ⟨-, -, -, -, -, -, rfl, -⟩ := h
    obtain ⟨htopic, hpos⟩ := threadedTopic_eq_some.1 topic
    exact ⟨_, _, rfl, rfl, hpos, htopic⟩
  | reserved adopting =>
    rw [adopting] at hunsettled
    cases hunsettled
  | completed =>
    rw [licensed row hrow] at hunsettled
    cases hunsettled

/-- A claim gets its topic no sooner than its phase tells. -/
theorem thread_touch (h : (call.touch s c row).phase.later = false) : (call.touch s c row).threadID = row.threadID := by
  have htouched := touched s c row call
  generalize call.touch s c row = row' at htouched h ⊢
  cases htouched with
  | same | named | skipped | cleared | begun => rfl
  | created | routed | adopted | reserved | completed => cases h

theorem bare_touch (h : s.run call = .ok (s', a)) (hrow : s.claimExecutions.find? c = some row)
    (hbare : row.phase.later = false → row.unthreaded) (hlater : (call.touch s c row).phase.later = false) :
    (call.touch s c row).unthreaded := by
  unfold ExecutionRow.unthreaded
  rw [thread_touch hlater]
  refine hbare ?_
  rcases run_phase h hrow with hsame | ⟨hphase, -⟩ | ⟨-, hphase, -⟩ | hlater'
  · rwa [hsame] at hlater
  · rw [hphase]
    rfl
  · rw [hphase]
    rfl
  · rw [hlater'] at hlater
    cases hlater

theorem ClaimsOK.settledKept (ok : ClaimsOK s) (licensed : Licensed s call) (h : s.run call = .ok (s', a)) :
    SettledKept s s' := by
  intro c row hrow hsettled
  obtain ⟨hsettled', hcomplete, -⟩ := settled_touch licensed hrow hsettled (ok.routed hrow hsettled)
  exact ⟨topic_kept ok h hrow hsettled, _, (run_effect h).kept hrow, hsettled', hcomplete⟩

/-- Every licensed method keeps the claims. -/
theorem ClaimsOK.run (ok : ClaimsOK s) (licensed : Licensed s call) (h : s.run call = .ok (s', a)) : ClaimsOK s' where
  routed := by
    intro c row' hrow' hsettled'
    cases hrow : s.claimExecutions.find? c with
    | none =>
      rcases (run_effect h).added hrow hrow' with ⟨hphase, -⟩ | ⟨allowedUserID, chatID, threadID, rfl, htopic, rfl⟩
      · rw [hphase] at hsettled'
        cases hsettled'
      · obtain ⟨htopic, hpos⟩ := threadedTopic_eq_some.1 htopic
        refine ⟨chatID, threadID, rfl, rfl, hpos, ?_⟩
        simp only [State.run, State.adoptExistingRoute, ok_rules, Prod.mk.injEq] at h
        obtain ⟨-, -, -, -, -, -, rfl, -⟩ := h
        exact htopic
    | some row =>
      rw [(run_effect h).kept hrow] at hrow'
      cases hrow'
      cases hsettled : row.phase.settled with
      | false => exact routed_touch licensed h hrow hsettled hsettled'
      | true =>
        obtain ⟨-, -, chatID, threadID, hchat, hthread, hpos, htopic⟩ :=
          settled_touch licensed hrow hsettled (ok.routed hrow hsettled)
        exact ⟨chatID, threadID, hchat, hthread, hpos, (topic_kept ok h hrow hsettled).trans htopic⟩
  bare := by
    intro c row' hrow' hlater
    cases hrow : s.claimExecutions.find? c with
    | none =>
      rcases (run_effect h).added hrow hrow' with ⟨-, hthread⟩ | ⟨allowedUserID, chatID, threadID, -, -, rfl⟩
      · unfold ExecutionRow.unthreaded
        rw [hthread]
        rfl
      · cases hlater
    | some row =>
      rw [(run_effect h).kept hrow] at hrow'
      cases hrow'
      exact bare_touch h hrow (ok.bare hrow) hlater

theorem ClaimsOK.routesConsistent (ok : ClaimsOK s) : s.routesConsistent := by
  unfold State.routesConsistent State.inconsistentRoutes
  rw [decide_eq_true_eq, List.countP_eq_zero]
  rintro ⟨c, row⟩ hmem hinconsistent
  simp only [Bool.and_eq_true] at hinconsistent
  obtain ⟨hphase, hinconsistent⟩ := hinconsistent
  have hsettled : row.phase.settled := by
    rcases (Bool.or_eq_true _ _).mp hphase with hphase | hphase
    · rw [of_decide_eq_true hphase]
      rfl
    · rw [of_decide_eq_true hphase]
      rfl
  obtain ⟨chatID, threadID, hchat, hthread, hpos, htopic⟩ :=
    ok.routed (Table.find?_eq_some_iff_mem.2 hmem) hsettled
  simp [htopic, ExecutionRow.unthreaded, hchat, hthread, hpos.not_ge] at hinconsistent

end

end Punaro.Telegram
