import Mathlib.Data.List.Induction
import Punaro.Proof.Evidence

/-!
# Cycles and their records

Through the calls of a cycle the ledger reflects the outcomes so far, which the cycle
reports as events (`Ledger`); then these events are replayed.
-/

namespace Punaro.Telegram

open Outcome Prog

/-! ## Calls of a cycle -/

/-- However the calls are answered, the program ends with `Q`. -/
structure Leaves {α : Type} (p : Program α) (w : GatewayState) (Q : Except Failure α → GatewayState → Prop) : Prop where
  ensures : p.Ensures (recorded State.answer) (fun _ _ _ => True) (fun _ => True) Q w

/-- A call to the relay or to the Bot API. -/
def Call.external : Call → Bool
  | .state _ => false
  | _ => true

variable {context : String}

section

variable {α β : Type} {p : Program α} {f : α → Program β} {w : GatewayState} {Q : Except Failure α → GatewayState → Prop}
  {Q' : Except Failure β → GatewayState → Prop} {inbound outbound : List GatewayTargetEvent}
variable {m : StateCall}

theorem leaves_done {a : α} (h : Q (.ok a) w) : Leaves (.done a) w Q := ⟨h⟩

theorem leaves_fail {e : Failure} (h : Q (.error e) w) : Leaves (.fail e) w Q := ⟨h⟩

theorem Leaves.bind (hp : Leaves p w Q) (hok : ∀ a w', Q (.ok a) w' → Leaves (f a) w' Q')
    (herror : ∀ e w', Q (.error e) w' → Q' (.error e) w') : Leaves (p >>= f) w Q' := by
  refine ⟨ensures_bind.2 (hp.ensures.mono ?_)⟩
  rintro (e | a) w' hQ
  · exact herror e w' hQ
  · exact (hok a w' hQ).ensures

theorem Leaves.ended (hp : Leaves p w Q) {answers : List Reaction} {w' : GatewayState} {r : Except Failure α}
    (hrun : p.play (recorded State.answer) answers w = (w', some r)) : Q r w' :=
  hp.ensures.ended admits_true trivial hrun

theorem Leaves.attempt_bind {f : Except Failure α → Program β} (hp : Leaves p w Q)
    (h : ∀ r w', Q r w' → Leaves (f r) w' Q') : Leaves (p.attempt >>= f) w Q' := by
  refine ⟨ensures_bind.2 (ensures_attempt.2 (hp.ensures.mono ?_))⟩
  exact fun r w' hQ => (h r w' hQ).ensures

/-- A method of the state, which runs or fails. -/
theorem leaves_state_bind {f : Except Failure m.Result → Program β}
    (hok : ∀ s' a, w.1.run m = .ok (s', a) → Leaves (f (.ok a)) (s', w.2 ++ [⟨.state m, .ok a⟩]) Q')
    (herror : ∀ e, Leaves (f (.error e)) (w.1, w.2 ++ [⟨.state m, .error e⟩]) Q') :
    Leaves (perform (Call.state m) >>= f) w Q' := by
  refine ⟨ensures_perform_bind.2 fun o _ => ⟨trivial, ?_⟩⟩
  unfold recorded State.answer
  dsimp only
  cases o.fault with
  | some e => exact (herror e).ensures
  | none =>
    rcases perform_cases w.1 m with ⟨s', a, hrun, hperform⟩ | ⟨e, -, hperform⟩
    · simp only [hperform]
      exact (hok s' a hrun).ensures
    · simp only [hperform]
      exact (herror e).ensures

theorem leaves_askIn_bind {f : m.Result → Program β}
    (hok : ∀ s' a, w.1.run m = .ok (s', a) → Leaves (f a) (s', w.2 ++ [⟨.state m, .ok a⟩]) Q')
    (herror : ∀ e, Q' (.error (.wrapped context e)) (w.1, w.2 ++ [⟨.state m, .error e⟩])) :
    Leaves (askIn context m >>= f) w Q' := by
  refine ⟨ensures_bind.2 (Leaves.ensures (leaves_state_bind (fun s' a hrun => ?_) fun e => ?_))⟩
  · exact leaves_done (hok s' a hrun).ensures
  · exact leaves_fail (herror e)

theorem leaves_perform_bind {call : Call} {f : call.Reply → Program β} (hcall : call.external)
    (h : ∀ r, Leaves (f r) (w.1, w.2 ++ [⟨call, r⟩]) Q') : Leaves (perform call >>= f) w Q' := by
  refine ⟨ensures_perform_bind.2 fun o _ => ⟨trivial, ?_⟩⟩
  have hanswer : w.1.answer o call = (w.1, o.reply call) := by
    cases call with
    | state m => cases hcall
    | _ => rfl
  unfold recorded
  rw [hanswer]
  exact (h _).ensures

theorem Ledger.perform_bind {call : Call} {f : call.Reply → Program β} (h : Ledger w inbound outbound)
    (hcall : call.external)
    (hf : ∀ r, Ledger (w.1, w.2 ++ [⟨call, r⟩]) inbound outbound → Leaves (f r) (w.1, w.2 ++ [⟨call, r⟩]) Q') :
    Leaves (perform call >>= f) w Q' := by
  refine leaves_perform_bind hcall fun r => hf r ?_
  have hapart : call.apart := by
    cases call with
    | state m => cases hcall
    | _ => rfl
  exact h.same sameLedger_refl (outcome_apart hapart).1 (outcome_apart hapart).2

theorem Ledger.askIn_bind {f : m.Result → Program β} (h : Ledger w inbound outbound) (hm : (Call.state m).apart)
    (hok : ∀ s' a, w.1.run m = .ok (s', a) → Ledger (s', w.2 ++ [⟨.state m, .ok a⟩]) inbound outbound →
      Leaves (f a) (s', w.2 ++ [⟨.state m, .ok a⟩]) Q')
    (herror : ∀ e w', Ledger w' inbound outbound → Q' (.error e) w') : Leaves (askIn context m >>= f) w Q' := by
  refine leaves_askIn_bind (fun s' a hrun => hok s' a hrun ?_) fun e => herror _ _ h.refused
  exact h.same ((run_effect hrun).ledger (by simpa [Call.apart] using hm)) (outcome_apart hm).1 (outcome_apart hm).2

/-- The program leaves the ledger alone. -/
abbrev Aloof (p : Program α) : Prop := Stays (only fun call => call.apart) (fun _ => True) p

theorem Aloof.leaves (hp : Aloof p) (h : Ledger w inbound outbound) :
    Leaves p w fun _ w' => Ledger w' inbound outbound :=
  ⟨hp.makes.ensures (fun o _ _ _ hcall h => ⟨trivial, h.apart hcall o⟩) h⟩

end

variable {call : Call} {s : State} {failure : GatewayFailureClass} {deliveries : List Delivery}

/-! ## Parts that leave the ledger alone -/

theorem keeps_apart (hcall : call.apart) :
    (only fun call => call.apart : Protocol Call Call.Reply Unit).Keeps (fun _ => True) call :=
  fun _ _ => ⟨hcall, fun _ => trivial⟩

theorem aloof_perform_bind {β : Type} {f : call.Reply → Program β} (hcall : call.apart) (hf : ∀ r, Aloof (f r)) :
    Aloof (perform call >>= f) := stays_perform_bind (keeps_apart hcall) hf

theorem aloof_askIn {m : StateCall} (hm : (Call.state m).apart) : Aloof (askIn context m) := by
  unfold askIn
  refine aloof_perform_bind hm fun r => ?_
  cases r with
  | ok a => exact stays_done
  | error e => exact stays_fail

theorem apart_of_plain (h : call.plain) : call.apart := by
  cases call with
  | state m =>
    cases m with
    | markProcessedTerminalInbound | markProcessedInboundRecovery | stageTerminalOutbound | finalizeTerminalOutbound
    | recoverTerminalOutbound => cases h
    | _ => rfl
  | _ => rfl

/-- No task writes to the ledger. -/
theorem aloof_program (task : Task) : Aloof task.program := by
  refine stays_program (fun h => keeps_apart (apart_of_plain h)) (fun e execution => ?_) task
  unfold ClaimExecutor.obtainTopic
  split
  · exact stays_refuse
  split
  · exact stays_refuse
  split
  · exact stays_refuse
  refine stays_perform_bind (keeps_apart rfl) fun r => ?_
  match r with
  | .error err => exact stays_fail
  | .ok (chatID, existingThread, false) =>
    dsimp only
    split
    · exact stays_refuse
    · exact stays_done
  | .ok (_, _, true) =>
    dsimp only
    unfold ClaimExecutor.createForumTopic
    refine stays_perform_bind (keeps_apart rfl) fun r => ?_
    cases r with
    | error err =>
      dsimp only
      split
      · exact stays_perform_bind (keeps_apart rfl) fun _ => stays_refuse
      · exact stays_refuse
    | ok threadID =>
      dsimp only
      split
      · exact stays_refuse
      · exact stays_ask_bind (keeps_apart rfl) fun _ => stays_done

namespace Gateway

variable {g : Gateway} {update : Update}

theorem aloof_markInert {updateID : Int} : Aloof (markInert updateID) := aloof_askIn rfl

theorem aloof_answerCallback {callbackID text : String} : Aloof (g.answerCallback callbackID text) := by
  unfold answerCallback
  split
  · exact stays_done
  · exact aloof_perform_bind rfl fun _ => stays_done

theorem aloof_sendOperator {text : String} {keyboard : List (List InlineKeyboardButton)} :
    Aloof (g.sendOperator text keyboard) := by
  unfold sendOperator
  split
  · exact stays_refuse
  · refine aloof_perform_bind rfl fun r => ?_
    cases r with
    | ok a => exact stays_done
    | error e => exact stays_fail

theorem aloof_handleCallback : Aloof (g.handleCallback update) := by
  unfold handleCallback
  split
  · exact aloof_answerCallback.bind fun _ => aloof_markInert
  refine aloof_perform_bind rfl fun now => (aloof_askIn rfl).bind fun reserved => ?_
  cases reserved with
  | none => exact aloof_answerCallback.bind fun _ => aloof_markInert
  | some conversationID =>
    refine aloof_answerCallback.bind fun _ => (aloof_askIn rfl).bind fun _ => ?_
    cases g.claims with
    | none => exact stays_done
    | some e => exact (Stays.attempt (aloof_program (.execute e conversationID))).bind fun _ => stays_done

theorem aloof_issueTokens {now : Int} {topics : List UnclaimedTopic} : Aloof (g.issueTokens now topics) := by
  induction topics with
  | nil => exact stays_done
  | cons topic topics ih =>
    unfold issueTokens
    refine aloof_perform_bind rfl fun r => ?_
    cases r with
    | error e => exact stays_fail
    | ok token => exact (aloof_askIn rfl).bind fun _ => ih.bind fun _ => stays_done

theorem aloof_handleCommand : Aloof (g.handleCommand update) := by
  unfold handleCommand
  split
  · exact aloof_markInert
  split
  · exact aloof_sendOperator.bind fun _ => aloof_markInert
  split
  · refine Stays.bind ?_ fun _ => aloof_markInert
    unfold handleList
    split
    · exact stays_refuse
    refine aloof_perform_bind rfl fun r => ?_
    cases r with
    | error e => exact stays_fail
    | ok topics =>
      dsimp only
      split
      · exact aloof_sendOperator
      split
      · exact aloof_sendOperator
      · exact aloof_perform_bind rfl fun now => aloof_issueTokens.bind fun _ => aloof_sendOperator
  · exact aloof_markInert

theorem aloof_handleOther : Aloof (g.handleOther update) := by
  unfold handleOther
  split
  · exact aloof_handleCallback
  split
  · exact aloof_markInert
  split
  · exact aloof_handleCommand
  · exact aloof_markInert

end Gateway

theorem aloof_sendDelivery {b : Bridge} {delivery : Delivery} : Aloof (b.sendDelivery delivery) := by
  unfold Bridge.sendDelivery
  split
  · exact stays_fail
  refine (aloof_askIn rfl).bind fun topic => ?_
  cases topic with
  | none => exact stays_refuse
  | some topic =>
    dsimp only
    split
    · exact stays_refuse
    refine stays_forM (fun rendered => ?_) _
    unfold Bridge.sendPart
    refine aloof_perform_bind rfl fun r => ?_
    cases r with
    | error e => exact stays_fail
    | ok messageID => exact aloof_perform_bind rfl fun now => aloof_askIn rfl

theorem aloof_takeUpClaims {b : Bridge} : Aloof b.takeUpClaims := by
  unfold Bridge.takeUpClaims
  cases b.claims with
  | none => exact stays_done
  | some e => exact Stays.bind (aloof_program (.resumeAll e)) fun _ => aloof_program (.startPending e)

/-! ## Cycles -/

/-- What was noted is told by the numbers. -/
structure Inbound.OK (acc : Inbound) : Prop where
  nonneg : 0 ≤ acc.terminal
  told : acc.events = [] ∨ 0 < acc.terminal ∨ acc.recovery

structure Outbound.OK (acc : Outbound) : Prop where
  nonneg : 0 ≤ acc.terminal
  told : acc.events = [] ∨ 0 < acc.terminal ∨ acc.recovery

section

variable {w : GatewayState} {inbound : Inbound} {outbound : Outbound} {g : Gateway} {b : Bridge}
variable {events : List GatewayTargetEvent} {c : String} {update : Update}

theorem Inbound.OK.note (ok : inbound.OK) (handled : Handled) : (inbound.note handled).OK := by
  cases handled with
  | quiet => exact ok
  | dropped =>
    have hpos : 0 < inbound.terminal + 1 := Int.lt_add_one_of_le ok.nonneg
    exact ⟨hpos.le, .inr (.inl hpos)⟩
  | recovered conversationID => exact ⟨ok.nonneg, .inr (.inr rfl)⟩

theorem Outbound.OK.reject (ok : outbound.OK) {failureClass : GatewayFailureClass} {e : Failure} :
    (outbound.reject c failureClass e).OK := by
  have hpos : 0 < outbound.terminal + 1 := Int.lt_add_one_of_le ok.nonneg
  exact ⟨hpos.le, .inr (.inl hpos)⟩

theorem Outbound.OK.recover (ok : outbound.OK) : (outbound.recover c).OK :=
  ⟨ok.nonneg, .inr (.inr rfl)⟩

theorem Outbound.OK.progress (ok : outbound.OK) : ({ outbound with progress := true } : Outbound).OK :=
  ⟨ok.nonneg, ok.told⟩

/-- An update is noted if it is handled. -/
def Noted (inbound : Inbound) (outbound : List GatewayTargetEvent) : Except Failure Handled → GatewayState → Prop
  | .ok handled, w => Ledger w (inbound.note handled).events outbound
  | .error _, w => Ledger w inbound.events outbound

theorem leaves_submitUpdate (h : Ledger w inbound.events events) (hnew : w.1.processed update.id = false) :
    Leaves (Gateway.submitUpdate update c) w (Noted inbound events) := by
  unfold Gateway.submitUpdate
  refine h.perform_bind rfl fun r h => ?_
  cases r with
  | error e =>
    dsimp only
    split
    · exact leaves_askIn_bind (fun s' a hrun => leaves_done (h.dropped hnew hrun rfl)) fun _ => h.refused
    · exact leaves_fail h
  | ok a => exact leaves_askIn_bind (fun s' a hrun => leaves_done (h.accepted hnew hrun rfl)) fun _ => h.refused

theorem leaves_handleText (h : Ledger w inbound.events events) (hnew : w.1.processed update.id = false) :
    Leaves (Gateway.handleText update) w (Noted inbound events) := by
  unfold Gateway.handleText
  refine h.askIn_bind rfl (fun s' found hrun h => ?_) fun _ _ h => h
  have hs : s' = w.1 := by
    cases hrun
    rfl
  subst hs
  cases found with
  | none => exact (Aloof.leaves Gateway.aloof_markInert h).bind (fun _ _ h => leaves_done h) fun _ _ h => h
  | some c => exact leaves_submitUpdate h hnew

theorem leaves_handle (h : Ledger w inbound.events events) : Leaves (g.handle update) w (Noted inbound events) := by
  unfold Gateway.handle
  split
  · exact leaves_fail h
  refine h.askIn_bind rfl (fun s' processed hrun h => ?_) fun _ _ h => h
  obtain ⟨hs, hprocessed⟩ : s' = w.1 ∧ processed = w.1.processed update.id := by
    cases hrun
    exact ⟨rfl, rfl⟩
  subst hs
  split
  · exact leaves_done h
  rename_i hnew
  split
  · exact (Aloof.leaves Gateway.aloof_handleOther h).bind (fun _ _ h => leaves_done h) fun _ _ h => h
  · exact leaves_handleText h (by rw [← hprocessed]; simpa using hnew)

/-- The updates of a page are noted as far as they are handled. -/
theorem leaves_handleAll {updates : List Update} {next : Int} (ok : inbound.OK)
    (h : Ledger w inbound.events events) :
    Leaves (g.handleAll updates inbound next) w fun r w' => ∃ inbound' polled, r = .ok (inbound', polled) ∧
      inbound'.OK ∧ Ledger w' inbound'.events events := by
  induction updates generalizing inbound w next with
  | nil => exact leaves_done ⟨_, _, rfl, ok, h⟩
  | cons update updates ih =>
    unfold Gateway.handleAll
    refine (leaves_handle h).attempt_bind fun r w' hr => ?_
    cases r with
    | error e => exact leaves_done ⟨_, _, rfl, ok, hr⟩
    | ok handled => exact ih (ok.note handled) hr

theorem leaves_runOnce {offset : Int} (h : Ledger w [] events) :
    Leaves (g.runOnce offset) w fun r w' => ∃ inbound polled, r = .ok (inbound, polled) ∧
      inbound.OK ∧ Ledger w' inbound.events events := by
  unfold Gateway.runOnce
  refine h.perform_bind rfl fun r h => ?_
  have ok : Inbound.OK {} := ⟨le_rfl, .inl rfl⟩
  cases r with
  | error e => exact leaves_done ⟨_, _, rfl, ok, h⟩
  | ok updates => exact leaves_handleAll ok h

/-- The deliveries are noted as far as they are sent. -/
theorem leaves_deliver (ok : outbound.OK) (h : Ledger w events outbound.events) :
    Leaves (b.deliver deliveries outbound) w fun r w' => ∃ outbound' stopped, r = .ok (outbound', stopped) ∧
      outbound'.OK ∧ Ledger w' events outbound'.events := by
  induction deliveries generalizing outbound w with
  | nil => exact leaves_done ⟨_, _, rfl, ok, h⟩
  | cons delivery deliveries ih =>
    unfold Bridge.deliver
    refine (aloof_sendDelivery.leaves h).attempt_bind fun r w' h => ?_
    cases r with
    | error e =>
      dsimp only
      split
      · refine leaves_state_bind (fun s' a hrun => ?_) fun err => leaves_done ⟨_, _, rfl, ok, h.refused⟩
        -- the rejection is staged before the relay forgets the delivery
        have h : Ledger _ events (outbound.reject delivery.message.conversationID
          (if deletedTopicFailure e then .deletedTopic else .outboundTelegramPermanent) e).events := h.staged hrun rfl
        refine h.perform_bind rfl fun r h => ?_
        cases r with
        | error err => exact leaves_done ⟨_, _, rfl, ok.reject, h⟩
        | ok a =>
          exact leaves_state_bind (fun s' a hrun => ih ok.reject.progress (h.finalized hrun)) fun err =>
            leaves_done ⟨_, _, rfl, ok.reject.progress, h.refused⟩
      · exact leaves_done ⟨_, _, rfl, ok, h⟩
    | ok a =>
      refine leaves_state_bind (fun s' a hrun => ?_) fun err => leaves_done ⟨_, _, rfl, ok, h.refused⟩
      have h : Ledger _ events (outbound.recover delivery.message.conversationID).events := h.recovered hrun rfl
      refine h.perform_bind rfl fun r h => ?_
      cases r with
      | error err => exact leaves_done ⟨_, _, rfl, ok.recover, h⟩
      | ok a => exact ih ok.recover.progress h

/-- The events of a cycle's report. -/
def Reported (result : Int × Option SyncError) (w : GatewayState) : Prop :=
  ∀ time, Ledger w (gatewayCycleRecord time result).inboundTargetEvents
    (gatewayCycleRecord time result).outboundTargetEvents

theorem reported_ended {next : Int} (hin : inbound.OK) (hout : outbound.OK)
    (h : Ledger w inbound.events outbound.events) : Reported (next, outbound.ended inbound) w := by
  unfold Outbound.ended
  split
  · exact fun _ => h
  · rename_i hquiet
    simp only [not_or] at hquiet
    have hin : inbound.events = [] := hin.told.resolve_right fun htold => htold.elim hquiet.1 hquiet.2.2.1
    have hout : outbound.events = [] := hout.told.resolve_right fun htold => htold.elim hquiet.2.1 hquiet.2.2.2
    rw [hin, hout] at h
    exact fun _ => h

/-- A cycle ends, and reports the outcomes the ledger reflects. -/
theorem leaves_syncOnce {offset : Int} (h : Ledger w [] []) :
    Leaves (b.syncOnce offset) w fun r w' => ∃ result, r = .ok result ∧ Reported result w' := by
  unfold Bridge.syncOnce
  split
  · exact leaves_done ⟨_, rfl, fun _ => h⟩
  refine h.perform_bind rfl fun r h => ?_
  cases r with
  | error e => exact leaves_done ⟨_, rfl, fun _ => h⟩
  | ok a =>
    refine (aloof_takeUpClaims.leaves h).attempt_bind fun r w' h => ?_
    cases r with
    | error e => exact leaves_done ⟨_, rfl, fun _ => h⟩
    | ok a =>
      refine (leaves_runOnce h).bind ?_ fun e w' ⟨_, _, hr, _⟩ => nomatch hr
      rintro _ w' ⟨inbound, polled, ⟨⟩, hin, h⟩
      cases polled with
      | error e => exact leaves_done ⟨_, rfl, fun _ => h⟩
      | ok next =>
        refine h.perform_bind rfl fun r h => ?_
        cases r with
        | error e => exact leaves_done ⟨_, rfl, fun _ => h⟩
        | ok deliveries =>
          have hnone : Outbound.OK {} := ⟨le_rfl, .inl rfl⟩
          refine (leaves_deliver hnone h).bind ?_ fun e w' ⟨_, _, hr, _⟩ => nomatch hr
          rintro _ w'' ⟨outbound, stopped, ⟨⟩, hout, h⟩
          cases stopped with
          | none => exact leaves_done ⟨_, rfl, reported_ended hin hout h⟩
          | some stopped => exact leaves_done ⟨_, rfl, fun _ => h⟩

end

/-! ## Records -/

section

variable {S : Type} {f : S → GatewayTargetEvent → S} {rows : S → String → Prop} {c : String}
  {events : List GatewayTargetEvent}

/-- A replay adds to the rows for a rejection at most, and clears them for a success. -/
structure Replays (f : S → GatewayTargetEvent → S) (rows : S → String → Prop) : Prop where
  keep : ∀ {s event c}, event.terminal → rows s c → rows (f s event) c
  only : ∀ {s event c}, event.terminal → rows (f s event) c → rows s c ∨ c = event.conversationID
  clear : ∀ {s event c}, event.terminal = false →
    (rows (f s event) c ↔ rows s c ∧ c ≠ event.conversationID ∧ c ≠ gatewayLegacyTarget)

theorem Replays.kept (h : Replays f rows) (hc : c ≠ gatewayLegacyTarget)
    (hnone : (c, false) ∉ events.map GatewayTargetEvent.outcome) {s : S} (hs : rows s c) :
    rows (events.foldl f s) c := by
  induction events generalizing s with
  | nil => exact hs
  | cons event events ih =>
    rw [List.map_cons, List.mem_cons, not_or] at hnone
    refine ih hnone.2 ?_
    cases hterminal : event.terminal with
    | true => exact h.keep hterminal hs
    | false =>
      refine (h.clear hterminal).2 ⟨hs, fun heq => hnone.1 ?_, hc⟩
      rw [heq, ← hterminal]
      rfl

theorem Replays.cleared (h : Replays f rows)
    (hlast : lastOutcome c (events.map GatewayTargetEvent.outcome) = some false) {s : S} :
    ¬rows (events.foldl f s) c := by
  induction events using List.reverseRecOn with
  | nil => cases hlast
  | append_singleton events event ih =>
    rw [List.map_append, List.map_singleton, GatewayTargetEvent.outcome, lastOutcome_concat] at hlast
    rw [List.foldl_append]
    intro hrows
    change rows (f (events.foldl f s) event) c at hrows
    cases hterminal : event.terminal with
    | true =>
      rw [hterminal] at hlast
      split at hlast
      · cases hlast
      · rename_i hne
        exact (h.only hterminal hrows).elim (ih hlast) hne
    | false =>
      obtain ⟨hrows, hne, -⟩ := (h.clear hterminal).1 hrows
      rw [if_neg hne] at hlast
      exact ih hlast hrows

end

theorem replays_inbound : Replays State.replayInbound fun s => Rejected s.inboundTargets where
  keep := by
    intro s event c hterminal hrow
    unfold State.replayInbound
    rw [if_pos hterminal]
    split
    · exact hrow
    · exact rejected_upsert.2 (.inr hrow)
  only := by
    intro s event c hterminal hrow
    unfold State.replayInbound at hrow
    rw [if_pos hterminal] at hrow
    split at hrow
    · exact .inl hrow
    · exact (rejected_upsert.1 hrow).symm
  clear := by
    intro s event c hterminal
    unfold State.replayInbound
    simp only [hterminal]
    exact rejected_clearTarget

theorem replays_outbound :
    Replays (State.replayOutbound failure) fun s => Rejected s.outboundTargets where
  keep := by
    intro s event c hterminal hrow
    unfold State.replayOutbound
    rw [if_pos hterminal]
    split
    · exact hrow
    · exact rejected_upsert.2 (.inr hrow)
  only := by
    intro s event c hterminal hrow
    unfold State.replayOutbound at hrow
    rw [if_pos hterminal] at hrow
    split at hrow
    · exact .inl hrow
    · exact (rejected_upsert.1 hrow).symm
  clear := by
    intro s event c hterminal
    unfold State.replayOutbound
    simp only [hterminal]
    exact rejected_clearTarget

/-- The state after the record of a cycle, refused or not. -/
def State.afterRecord (s : State) (record : GatewayCycleRecord) : State :=
  match s.recordGatewayCycle record with
  | .ok s' => s'
  | .error _ => s

section

variable {s : State} {record : GatewayCycleRecord} {c : String}

theorem foldl_replayInbound_frame (events : List GatewayTargetEvent) (s : State) :
    (events.foldl State.replayInbound s).outboundTargets = s.outboundTargets ∧
      (events.foldl State.replayInbound s).outboundEvents = s.outboundEvents := by
  induction events generalizing s with
  | nil => exact ⟨rfl, rfl⟩
  | cons event events ih =>
    have hstep : (s.replayInbound event).outboundTargets = s.outboundTargets ∧
        (s.replayInbound event).outboundEvents = s.outboundEvents := by
      unfold State.replayInbound
      split
      · split <;> exact ⟨rfl, rfl⟩
      · exact ⟨rfl, rfl⟩
    rw [List.foldl_cons, (ih _).1, (ih _).2]
    exact hstep

theorem foldl_replayOutbound_frame (events : List GatewayTargetEvent) (s : State) :
    (events.foldl (State.replayOutbound failure) s).inboundTargets = s.inboundTargets := by
  induction events generalizing s with
  | nil => rfl
  | cons event events ih =>
    rw [List.foldl_cons, ih]
    unfold State.replayOutbound
    split
    · split <;> rfl
    · rfl

theorem targeted_replayOutbound {event : GatewayTargetEvent} (hs : EventsTargeted s) :
    EventsTargeted (s.replayOutbound failure event) := by
  unfold State.replayOutbound
  split
  · split
    · exact hs
    · exact fun delivery staged hstaged hlegacy => rejected_upsert.2 (.inr (hs delivery staged hstaged hlegacy))
  · exact targeted_recovered hs

theorem rejected_ite_upsert {V : Type} {targets : Table String V} {p : Prop} [Decidable p] {c' : String} {v : V}
    {f : V → V} (hrow : Rejected targets c) : Rejected (if p then targets.upsert c' v f else targets) c := by
  split
  · exact rejected_upsert.2 (.inr hrow)
  · exact hrow

theorem targeted_replay (hs : EventsTargeted s) : EventsTargeted (s.replay record) := by
  have hunattributed : EventsTargeted (s.unattributed record) := by
    intro delivery staged hstaged hlegacy
    exact rejected_ite_upsert (hs delivery staged hstaged hlegacy)
  have hinbound : EventsTargeted (record.inboundTargetEvents.foldl State.replayInbound (s.unattributed record)) := by
    unfold EventsTargeted
    rw [(foldl_replayInbound_frame _ _).1, (foldl_replayInbound_frame _ _).2]
    exact hunattributed
  unfold State.replay
  generalize record.inboundTargetEvents.foldl State.replayInbound (s.unattributed record) = s' at hinbound
  generalize record.outboundTargetEvents = events
  induction events generalizing s' with
  | nil => exact hinbound
  | cons event events ih => exact ih _ (targeted_replayOutbound hinbound)

/-- A record either replays its events or changes nothing. -/
theorem afterRecord_cases (s : State) (record : GatewayCycleRecord) :
    SameLedger (s.replay record) (s.afterRecord record) ∨ s.afterRecord record = s := by
  unfold State.afterRecord
  cases h : s.recordGatewayCycle record with
  | error e => exact .inr rfl
  | ok s' =>
    unfold State.recordGatewayCycle at h
    simp only [ok_rules] at h
    obtain ⟨-, -, -, -, rfl⟩ := h
    exact .inl sameLedger_refl

theorem inbound_replay :
    (s.replay record).inboundTargets =
      (record.inboundTargetEvents.foldl State.replayInbound (s.unattributed record)).inboundTargets :=
  foldl_replayOutbound_frame _ _

end

/-! ## States of the gateway -/

/-- What changes the state of a gateway: its methods, in any order, and the records of cycles. -/
inductive GatewayMove where
  | call (m : StateCall)
  | record (record : GatewayCycleRecord)

def State.move (s : State) : GatewayMove → State
  | .call m => (s.perform m).1
  | .record record => s.afterRecord record

theorem targeted_same {s' : State} (hs : EventsTargeted s) (hsame : SameLedger s s') : EventsTargeted s' := by
  unfold EventsTargeted
  rw [hsame.2.1, hsame.2.2]
  exact hs

theorem targeted_run {s' : State} {m : StateCall} {a : m.Result} (hs : EventsTargeted s)
    (h : s.run m = .ok (s', a)) : EventsTargeted s' := by
  cases hm : m.ledger with
  | false => exact targeted_same hs ((run_effect h).ledger hm)
  | true =>
    have hledger : Ledger (s, []) [] [] := ⟨rfl, rfl, ⟨nofun, nofun⟩, ⟨nofun, nofun⟩, hs⟩
    cases m with
    | markProcessedTerminalInbound | markProcessedInboundRecovery =>
      simp only [State.run, written_eq_ok, State.markProcessedTerminalInbound, State.markProcessedInboundRecovery,
        ok_rules] at h
      obtain ⟨-, -, rfl⟩ := h
      exact hs
    | stageTerminalOutbound =>
      exact (stage_rows hs (written_eq_ok.1 h)).1
    | finalizeTerminalOutbound deliveryID => exact (hledger.finalized h).targeted
    | recoverTerminalOutbound c =>
      simp only [State.run, written_eq_ok, State.recoverTerminalOutbound, ok_rules] at h
      obtain ⟨-, -, rfl⟩ := h
      exact targeted_recovered hs
    | _ => cases hm

theorem targeted_afterRecord (hs : EventsTargeted s) {record : GatewayCycleRecord} :
    EventsTargeted (s.afterRecord record) := by
  rcases afterRecord_cases s record with hsame | hsame
  · exact targeted_same (targeted_replay hs) hsame
  · rwa [hsame]

/-- In every state of a gateway, staged deliveries belong to conversations that are rejected. -/
theorem targeted_moves (moves : List GatewayMove) : EventsTargeted (moves.foldl State.move State.empty) := by
  suffices h : ∀ s, EventsTargeted s → EventsTargeted (moves.foldl State.move s) from h _ nofun
  induction moves with
  | nil => exact fun _ hs => hs
  | cons move moves ih =>
    refine fun s hs => ih _ ?_
    cases move with
    | call m =>
      unfold State.move
      rcases perform_cases s m with ⟨s', a, hrun, hperform⟩ | ⟨e, -, hperform⟩
      · simp only [hperform]
        exact targeted_run hs hrun
      · simpa only [hperform] using hs
    | record record => exact targeted_afterRecord hs

/-! ## Evidence -/

/-- Who was rejected last has a row, and who was accepted last has none. -/
def EvidenceKept (rejected : String → Prop) (outcomes : List (String × Bool)) : Prop :=
  ∀ c, (lastOutcome c outcomes = some true → rejected c) ∧ (lastOutcome c outcomes = some false → ¬rejected c)

/-- No conversation is rejected after it has accepted, nor is one that has the name of the unattributed rejections. -/
def NoRelapse (outcomes : List (String × Bool)) : Prop :=
  ∀ c, lastOutcome c outcomes = some true → c ≠ gatewayLegacyTarget ∧ (c, false) ∉ outcomes

section

variable {s : State} {record : GatewayCycleRecord} {log : List ((call : Call) × call.Reply)}

theorem Ledger.inboundKept (h : Ledger (s, log) record.inboundTargetEvents record.outboundTargetEvents)
    (hrelapse : NoRelapse (log.filterMap inboundOutcome)) :
    EvidenceKept (Rejected (s.afterRecord record).inboundTargets) (log.filterMap inboundOutcome) := by
  rw [h.inboundEvents] at hrelapse ⊢
  intro c
  rcases afterRecord_cases s record with hsame | hsame
  · rw [hsame.1, inbound_replay]
    refine ⟨fun hlast => ?_, fun hlast => replays_inbound.cleared hlast⟩
    obtain ⟨hc, hnone⟩ := hrelapse c hlast
    exact replays_inbound.kept hc hnone (rejected_ite_upsert (h.inboundRows.kept c hc hlast))
  · rw [hsame]
    exact ⟨fun hlast => h.inboundRows.kept c (hrelapse c hlast).1 hlast, h.inboundRows.cleared c⟩

theorem Ledger.outboundKept (h : Ledger (s, log) record.inboundTargetEvents record.outboundTargetEvents)
    (hrelapse : NoRelapse (log.filterMap outboundOutcome)) :
    EvidenceKept (Rejected (s.afterRecord record).outboundTargets) (log.filterMap outboundOutcome) := by
  rw [h.outboundEvents] at hrelapse ⊢
  intro c
  rcases afterRecord_cases s record with hsame | hsame
  · rw [hsame.2.1]
    refine ⟨fun hlast => ?_, fun hlast => replays_outbound.cleared hlast⟩
    obtain ⟨hc, hnone⟩ := hrelapse c hlast
    refine replays_outbound.kept hc hnone ?_
    rw [(foldl_replayInbound_frame _ _).1]
    exact rejected_ite_upsert (h.outboundRows.kept c hc hlast)
  · rw [hsame]
    exact ⟨fun hlast => h.outboundRows.kept c (hrelapse c hlast).1 hlast, h.outboundRows.cleared c⟩

end

/-! ## Two deliveries -/

/-- The relay has leased the deliveries, and the Bot API accepts every message, or none. -/
def leasing (deliveries : List Delivery) (accepts : Bool) : Reaction where
  fault := none
  reply
    | .state _ => .error .noRows
    | .claimConversation .. => .error .noRows
    | .completeTelegramClaim _ => .error .noRows
    | .pendingTelegramClaims .. => .ok []
    | .createForumTopic .. => .error .noRows
    | .now => 0
    | .drawToken => .error .noRows
    | .advertise _ => .ok ()
    | .lease _ => .ok deliveries
    | .ack _ => .ok ()
    | .updates _ => .ok []
    | .submit _ => .ok ()
    | .listUnclaimed => .ok []
    | .sendMessage .. => .ok ()
    | .answerCallbackQuery .. => .ok ()
    | .sendRichMessage .. => if accepts then .ok 1 else .error (.botAPIStatus "sendRichMessage" 400 false)

def sampleBridge : Bridge := ⟨"gateway", ⟨1, true, true, none, id⟩, none⟩

def sampleDelivery (id conversationID : String) : Delivery :=
  ⟨id, "gateway", "", ⟨id, conversationID, 1, "agent", "", "", "", "", 0, "hello", 0⟩, "token", 1, 0⟩

/-- Two conversations have their topics. -/
def sampleMoves : List GatewayMove := [.call (.setRoute 1 7 "a"), .call (.setRoute 1 8 "b")]

/-- The first delivery is sent, the second rejected. -/
def secondRejected (deliveries : List Delivery) : List Reaction :=
  List.replicate 10 (leasing deliveries true) ++ List.replicate 4 (leasing deliveries false)

/-- The cycle in which the two deliveries are sent. -/
def sampleCycle (deliveries : List Delivery) : GatewayState × Option (Except Failure (Int × Option SyncError)) :=
  (sampleBridge.syncOnce 0).play (recorded State.answer) (secondRejected deliveries)
    (sampleMoves.foldl State.move State.empty, [])

theorem sampleCycle_ended (h : (sampleCycle deliveries).2.isSome) : ∃ w r, sampleCycle deliveries = (w, some r) := by
  obtain ⟨r, hr⟩ := Option.isSome_iff_exists.1 h
  exact ⟨_, r, Prod.ext rfl hr⟩

theorem noRelapse_two : NoRelapse [("b", false), ("a", true)] := by
  intro c hlast
  by_cases ha : c = "a"
  · subst ha
    exact ⟨by decide, by decide⟩
  · by_cases hb : c = "b"
    · subst hb
      cases hlast
    · simp [lastOutcome, List.lookup_cons, beq_eq_false_iff_ne.2 ha, beq_eq_false_iff_ne.2 hb] at hlast

end Punaro.Telegram
