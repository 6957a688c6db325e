import Punaro.Telegram.Claim

/-!
# What a call does to a claim

`StateCall.touch` is what a successful method of the gateway's state does to the row
of a conversation that has a claim. `run_effect` says once what each method does to the
claims, the routes and the ledger.
-/

namespace Punaro.Telegram

open Outcome

/-- The row of a conversation after a successful call in `s`. -/
def StateCall.touch (s : State) (c : String) : StateCall → ExecutionRow → ExecutionRow
  | .setRoute chatID threadID c', row =>
    if c = c' ∧ row.phase = .creating ∧ row.unthreaded then
      { row with threadID := some threadID, chatID := some chatID, phase := .topicCreated }
    else row
  | .persistClaimDisplayName c' displayName, row =>
    if c = c' then { row with displayName := some displayName } else row
  | .beginClaimCreating c' _, row =>
    if c = c' then
      match s.threadedTopic c with
      | some (chatID, threadID) => { row with threadID := some threadID, chatID := some chatID, phase := .topicCreated }
      | none => { row with phase := .creating }
    else row
  | .clearClaimCreating c', row =>
    if c = c' ∧ row.phase = .creating ∧ row.unthreaded then { row with phase := .reserved } else row
  | .persistClaimThread c' chatID threadID, row =>
    if c = c' then { row with threadID := some threadID, chatID := some chatID, phase := .topicCreated } else row
  | .persistClaimRoute _ _ c', row =>
    if c = c' then
      match s.threadedTopic c with
      | some (_, threadID) => { row with threadID := some threadID, phase := .routePersisted }
      | none => { row with phase := .routePersisted }
    else row
  | .adoptExistingRoute c' _, row =>
    if c = c' then
      match s.threadedTopic c with
      | some (chatID, threadID) =>
        if row.phase = .complete then { row with skipReserve := true }
        else { row with threadID := some threadID, chatID := some chatID, phase := .adopting, skipReserve := true }
      | none => row
    else row
  | .persistClaimAdoptReserved c', row =>
    if c = c' ∧ row.phase = .adopting then { row with phase := .routePersisted } else row
  | .markClaimComplete c', row => if c = c' then { row with phase := .complete } else row
  | _, row => row

/-- The methods that write to the ledger. -/
def StateCall.ledger : StateCall → Bool
  | .markProcessedTerminalInbound .. => true
  | .markProcessedInboundRecovery .. => true
  | .stageTerminalOutbound .. => true
  | .finalizeTerminalOutbound _ => true
  | .recoverTerminalOutbound _ => true
  | _ => false

/-- The two states have one ledger. -/
def SameLedger (s s' : State) : Prop :=
  s'.inboundTargets = s.inboundTargets ∧ s'.outboundTargets = s.outboundTargets ∧ s'.outboundEvents = s.outboundEvents

/-- A row that is new is reserved, or adopts the topic its conversation is routed to. -/
def StateCall.Adds (s : State) (c : String) (row : ExecutionRow) (call : StateCall) : Prop :=
  row.phase = .reserved ∧ row.threadID = none ∨
    ∃ allowedUserID chatID threadID, call = .adoptExistingRoute c allowedUserID ∧
      s.threadedTopic c = some (chatID, threadID) ∧ row = ⟨some threadID, some chatID, .adopting, none, true⟩

/-- The methods that change routes. -/
def StateCall.Reroutes (s : State) (routes : TopicRoutes) (call : StateCall) : Prop :=
  routes = s.topicRoutes ∨
    (∃ chatID threadID c, call = .setRoute chatID threadID c ∧ s.routeBlocked chatID threadID c = .ok () ∧
      s.topicRoutes.set? (chatID, threadID) c = some routes) ∨
    ∃ chatID threadID c, call = .persistClaimRoute chatID threadID c ∧ s.threadedTopic c = none ∧
      s.topicRoutes.insert? (chatID, threadID) c = some routes

/-- What a successful call leaves of the claims, the routes and the ledger. -/
structure Effect (s : State) (call : StateCall) (s' : State) : Prop where
  kept : ∀ {c row}, s.claimExecutions.find? c = some row → s'.claimExecutions.find? c = some (call.touch s c row)
  added : ∀ {c row}, s.claimExecutions.find? c = none → s'.claimExecutions.find? c = some row → call.Adds s c row
  routes : call.Reroutes s s'.topicRoutes
  ledger : call.ledger = false → SameLedger s s'

section

variable {s s' : State} {call : StateCall} {a : call.Result} {c : String}
variable {row : ExecutionRow}

@[simp] theorem written_eq_ok {ε S : Type} {r : Except ε S} {s : S} {u : Unit} :
    written r = .ok (s, u) ↔ r = .ok s := by
  cases r <;> simp [written, Except.map]

/-- A call that leaves the claims and the routes alone. -/
theorem effect_aside (hledger : call.ledger = false → SameLedger s s')
    (hrows : s'.claimExecutions = s.claimExecutions) (hroutes : s'.topicRoutes = s.topicRoutes)
    (htouch : ∀ c row, call.touch s c row = row) : Effect s call s' := by
  refine ⟨fun hrow => ?_, fun hnone hrow => ?_, .inl hroutes, hledger⟩
  · rw [hrows, hrow, htouch]
  · rw [hrows, hnone] at hrow
    cases hrow

/-- A call that changes the row of one claim. -/
theorem effect_update (c' : String) {f : ExecutionRow → ExecutionRow}
    (hrows : s'.claimExecutions = s.claimExecutions.updateAt c' f) (hledger : SameLedger s s')
    (hroutes : call.Reroutes s s'.topicRoutes) (htouch : ∀ c row, call.touch s c row = if c = c' then f row else row) :
    Effect s call s' := by
  refine ⟨fun hrow => ?_, fun hnone hrow => ?_, hroutes, fun _ => hledger⟩
  · rw [hrows, Table.find?_updateAt, hrow, htouch]
    split <;> rfl
  · rw [hrows, Table.find?_updateAt, hnone] at hrow
    split at hrow <;> cases hrow

/-- A call that reserves a claim. -/
theorem effect_reserve {c' : String} {displayName : Option String} {skipReserve : Bool} (hledger : SameLedger s s')
    (hrows : s'.claimExecutions =
      s.claimExecutions.insertOrIgnore c' ⟨none, none, .reserved, displayName, skipReserve⟩)
    (hroutes : s'.topicRoutes = s.topicRoutes) (htouch : ∀ c row, call.touch s c row = row) : Effect s call s' := by
  refine ⟨fun {c row} hrow => ?_, fun {c row} hnone hrow => ?_, .inl hroutes, fun _ => hledger⟩
  · rw [hrows, Table.find?_insertOrIgnore, htouch]
    split
    · rename_i hc
      rw [← hc, hrow]
      rfl
    · exact hrow
  · rw [hrows, Table.find?_insertOrIgnore, hnone] at hrow
    split at hrow
    · rename_i hc
      rw [← hc, hnone] at hrow
      cases hrow
      exact .inl ⟨rfl, rfl⟩
    · cases hrow

/-- **What each method does.** -/
theorem run_effect (h : s.run call = .ok (s', a)) : Effect s call s' := by
  cases call with
  | setRoute chatID threadID c' =>
    simp only [State.run, written_eq_ok, State.setRoute, ok_rules] at h
    obtain ⟨-, -, ⟨⟩, hblocked, routes, hset, rfl⟩ := h
    refine effect_update c' (by dsimp only) ⟨rfl, rfl, rfl⟩ (.inr (.inl ⟨chatID, threadID, c', rfl, hblocked, hset⟩)) ?_
    intro c row
    by_cases hc : c = c' <;> simp [StateCall.touch, hc]
  | reserveClaimAndConsumeToken =>
    simp only [State.run, State.reserveClaimAndConsumeToken, Except.ok.injEq] at h
    split at h
    · cases h
      exact effect_aside (fun _ => ⟨rfl, rfl, rfl⟩) rfl rfl fun _ _ => rfl
    · split at h
      · cases h
        exact effect_aside (fun _ => ⟨rfl, rfl, rfl⟩) rfl rfl fun _ _ => rfl
      · cases h
        exact effect_reserve ⟨rfl, rfl, rfl⟩ rfl rfl fun _ _ => rfl
  | insertPendingExecution =>
    simp only [State.run, State.insertPendingExecution, ok_rules, Prod.mk.injEq] at h
    obtain ⟨-, -, rfl, -⟩ := h
    exact effect_reserve ⟨rfl, rfl, rfl⟩ rfl rfl fun _ _ => rfl
  | beginClaimCreating c' allowedUserID =>
    simp only [State.run, State.beginClaimCreating, bind_eq_ok] at h
    obtain ⟨-, -, h⟩ := h
    split at h
    all_goals
      rename_i htopic
      simp only [ok_rules, Prod.mk.injEq] at h
      obtain ⟨-, -, rfl, -⟩ := h
      refine effect_update c' (by dsimp only) ⟨rfl, rfl, rfl⟩ (.inl rfl) ?_
      intro c row
      by_cases hc : c = c' <;> simp [StateCall.touch, hc, htopic]
  | clearClaimCreating c' | persistClaimAdoptReserved c' =>
    simp only [State.run, written_eq_ok, State.clearClaimCreating, State.persistClaimAdoptReserved, ok_rules] at h
    obtain ⟨-, -, rfl⟩ := h
    refine effect_update c' (by dsimp only) ⟨rfl, rfl, rfl⟩ (.inl rfl) ?_
    intro c row
    by_cases hc : c = c' <;> simp [StateCall.touch, hc]
  | persistClaimThread c' =>
    simp only [State.run, written_eq_ok, State.persistClaimThread, ok_rules] at h
    obtain ⟨-, -, rfl⟩ := h
    exact effect_update c' rfl ⟨rfl, rfl, rfl⟩ (.inl rfl) fun _ _ => rfl
  | persistClaimRoute chatID threadID c' =>
    simp only [State.run, written_eq_ok, State.persistClaimRoute, bind_eq_ok] at h
    obtain ⟨-, -, h⟩ := h
    split at h <;> rename_i htopic
    · simp only [ok_rules] at h
      obtain ⟨-, -, rfl⟩ := h
      refine effect_update c' (by dsimp only) ⟨rfl, rfl, rfl⟩ (.inl rfl) ?_
      intro c row
      by_cases hc : c = c' <;> simp [StateCall.touch, hc, htopic]
    · simp only [ok_rules] at h
      obtain ⟨routes, hroutes, rfl⟩ := h
      refine effect_update c' (by dsimp only) ⟨rfl, rfl, rfl⟩ ?_ ?_
      · unfold State.bindTopic at hroutes
        split at hroutes
        · split at hroutes
          · cases hroutes
            exact .inl rfl
          · cases hroutes
        · exact .inr (.inr ⟨chatID, threadID, c', rfl, htopic, ofOption_eq_ok.1 hroutes⟩)
      · intro c row
        by_cases hc : c = c' <;> simp [StateCall.touch, hc, htopic]
  | adoptExistingRoute c' allowedUserID =>
    simp only [State.run, State.adoptExistingRoute, ok_rules, Prod.mk.injEq] at h
    obtain ⟨-, -, ⟨chatID, threadID⟩, htopic, -, -, rfl, -⟩ := h
    refine ⟨fun {c row} hrow => ?_, fun {c row} hnone hrow => ?_, .inl rfl, fun _ => ⟨rfl, rfl, rfl⟩⟩
    · rw [Table.find?_upsert]
      by_cases hc : c = c'
      · subst hc
        simp [StateCall.touch, htopic, hrow]
      · simp [StateCall.touch, hc, hrow]
    · rw [Table.find?_upsert, hnone] at hrow
      split at hrow
      · rename_i hc
        subst hc
        rw [hnone] at hrow
        cases hrow
        exact .inr ⟨allowedUserID, chatID, threadID, rfl, htopic, rfl⟩
      · cases hrow
  | persistClaimDisplayName c' | markClaimComplete c' =>
    cases h
    exact effect_update c' rfl ⟨rfl, rfl, rfl⟩ (.inl rfl) fun _ _ => rfl
  | issueCallbackToken =>
    simp only [State.run, written_eq_ok, State.issueCallbackToken, ok_rules] at h
    obtain ⟨-, -, -, -, rfl⟩ := h
    exact effect_aside (fun _ => ⟨rfl, rfl, rfl⟩) rfl rfl fun _ _ => rfl
  | markProcessedTerminalInbound | markProcessedInboundRecovery | finalizeTerminalOutbound | recoverTerminalOutbound =>
    simp only [State.run, written_eq_ok, State.markProcessedTerminalInbound, State.markProcessedInboundRecovery,
      State.finalizeTerminalOutbound, State.recoverTerminalOutbound, ok_rules] at h
    obtain ⟨-, -, rfl⟩ := h
    exact effect_aside nofun rfl rfl fun _ _ => rfl
  | stageTerminalOutbound =>
    simp only [State.run, written_eq_ok, State.stageTerminalOutbound, bind_eq_ok] at h
    obtain ⟨-, -, h⟩ := h
    split at h
    · cases h
      exact effect_aside nofun rfl rfl fun _ _ => rfl
    · simp only [bind_eq_ok] at h
      obtain ⟨-, -, h⟩ := h
      split at h
      · cases h
        exact effect_aside nofun rfl rfl fun _ _ => rfl
      · simp only [ok_rules] at h
        obtain ⟨-, -, rfl⟩ := h
        exact effect_aside nofun rfl rfl fun _ _ => rfl
  | recordOutbound =>
    simp only [State.run, written_eq_ok, State.recordOutbound, ok_rules] at h
    obtain ⟨-, -, rfl⟩ := h
    exact effect_aside (fun _ => ⟨rfl, rfl, rfl⟩) rfl rfl fun _ _ => rfl
  | route | routeForConversation | claimExecution | incompleteClaimExecutionsAfter | completedClaimExecutionsAfter
  | cursor | setCursor | processed | markProcessed =>
    cases h
    exact effect_aside (fun _ => ⟨rfl, rfl, rfl⟩) rfl rfl fun _ _ => rfl

/-- The topic of the claim is known. -/
def ClaimPhase.later : ClaimPhase → Bool
  | .reserved => false
  | .creating => false
  | _ => true

/-- What a method can do to the row of its conversation. -/
inductive Touched (s : State) (c : String) (row : ExecutionRow) : StateCall → ExecutionRow → Prop where
  | same {call : StateCall} : Touched s c row call row
  | named {displayName : String} :
      Touched s c row (.persistClaimDisplayName c displayName) { row with displayName := some displayName }
  | skipped {allowedUserID : Int} : Touched s c row (.adoptExistingRoute c allowedUserID) { row with skipReserve := true }
  | cleared (creating : row.phase = .creating) :
      Touched s c row (.clearClaimCreating c) { row with phase := .reserved }
  | begun {allowedUserID : Int} (topic : s.threadedTopic c = none) :
      Touched s c row (.beginClaimCreating c allowedUserID) { row with phase := .creating }
  | created {call : StateCall} {chatID threadID : Int} (method : (∃ allowedUserID, call = .beginClaimCreating c allowedUserID) ∨
        call = .persistClaimThread c chatID threadID ∨ row.phase = .creating) :
      Touched s c row call { row with threadID := some threadID, chatID := some chatID, phase := .topicCreated }
  | routed {chatID threadID : Int} {thread : Option Int}
      (topic : thread = ((s.threadedTopic c).map Prod.snd).or row.threadID) :
      Touched s c row (.persistClaimRoute chatID threadID c) { row with threadID := thread, phase := .routePersisted }
  | adopted {allowedUserID chatID threadID : Int} (topic : s.threadedTopic c = some (chatID, threadID))
      (incomplete : row.phase ≠ .complete) : Touched s c row (.adoptExistingRoute c allowedUserID)
        { row with threadID := some threadID, chatID := some chatID, phase := .adopting, skipReserve := true }
  | reserved (adopting : row.phase = .adopting) :
      Touched s c row (.persistClaimAdoptReserved c) { row with phase := .routePersisted }
  | completed : Touched s c row (.markClaimComplete c) { row with phase := .complete }

theorem touched (s : State) (c : String) (row : ExecutionRow) (call : StateCall) :
    Touched s c row call (call.touch s c row) := by
  cases call with
  | setRoute | clearClaimCreating | persistClaimAdoptReserved =>
    simp only [StateCall.touch]
    split
    · rename_i h
      obtain ⟨rfl, h⟩ := h
      first | exact .created (.inr (.inr h.1)) | exact .cleared h.1 | exact .reserved h
    · exact .same
  | persistClaimDisplayName | persistClaimThread | markClaimComplete =>
    simp only [StateCall.touch]
    split
    · rename_i h
      subst h
      first | exact .named | exact .created (.inr (.inl rfl)) | exact .completed
    · exact .same
  | beginClaimCreating | persistClaimRoute | adoptExistingRoute =>
    simp only [StateCall.touch]
    split
    · rename_i h
      subst h
      split
      · rename_i htopic
        first
        | exact .created (.inl ⟨_, rfl⟩)
        | exact .routed (by rw [htopic]; rfl)
        | split
          · exact .skipped
          · exact .adopted htopic ‹_›
      · rename_i htopic
        first | exact .begun htopic | exact .routed (by rw [htopic]; rfl) | exact .same
    · exact .same
  | _ => exact .same

/-- The phases a claim goes through. -/
theorem run_phase (h : s.run call = .ok (s', a)) (hrow : s.claimExecutions.find? c = some row) :
    (call.touch s c row).phase = row.phase ∨ row.phase = .reserved ∧ (call.touch s c row).phase = .creating ∨
      call = .clearClaimCreating c ∧ row.phase = .creating ∧ (call.touch s c row).phase = .reserved ∨
      (call.touch s c row).phase.later := by
  have htouched := touched s c row call
  generalize call.touch s c row = row' at htouched ⊢
  cases htouched with
  | same | named | skipped => exact .inl rfl
  | cleared creating => exact .inr (.inr (.inl ⟨rfl, creating, rfl⟩))
  | begun topic =>
    simp only [State.run, State.beginClaimCreating, topic, ok_rules, hrow] at h
    obtain ⟨-, -, -, hreserved, -⟩ := h
    have hreserved : row.phase = .reserved ∧ row.unthreaded := by simpa using hreserved
    exact .inr (.inl ⟨hreserved.1, rfl⟩)
  | created | routed | adopted | reserved | completed => exact .inr (.inr (.inr rfl))

/-- What a method of the state leaves, whether it is refused or not. -/
theorem perform_cases (s : State) (call : StateCall) :
    (∃ s' a, s.run call = .ok (s', a) ∧ s.perform call = (s', .ok a)) ∨
      ∃ e, s.run call = .error e ∧ s.perform call = (s, .error e) := by
  unfold State.perform
  cases h : s.run call with
  | ok out => exact .inl ⟨out.1, out.2, rfl, rfl⟩
  | error e => exact .inr ⟨e, rfl, rfl⟩

/-- What a call leaves: nothing happens, or a method of the state is run. -/
theorem answer_cases (o : Reaction) (s : State) (call : Call) :
    (s.answer o call).1 = s ∨ ∃ m a, call = .state m ∧ s.run m = .ok ((s.answer o call).1, a) ∧
      HEq (s.answer o call).2 (Except.ok a : Except Failure m.Result) := by
  cases call with
  | state m =>
    unfold State.answer
    dsimp only
    cases o.fault with
    | some e => exact .inl rfl
    | none =>
      rcases perform_cases s m with ⟨s', a, hrun, hperform⟩ | ⟨e, hrun, hperform⟩
      · simp only [hperform]
        exact .inr ⟨m, a, rfl, hrun, HEq.rfl⟩
      · simp only [hperform]
        exact .inl trivial
  | _ => exact .inl rfl

end

end Punaro.Telegram
