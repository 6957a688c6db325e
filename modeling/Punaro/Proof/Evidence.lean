import Punaro.Proof.ClaimRows
import Punaro.Proof.Tasks
import Punaro.Telegram.Bridge

/-!
# Evidence of rejections

A rejection is staged in the ledger when it happens and cleared when the conversation
accepts again; the events of the cycle are replayed on the ledger at its end. The
replay clears for every success and adds nothing for a staged rejection, so that it
leaves the ledger right unless a conversation was rejected after it had accepted.
-/

namespace Punaro.Telegram

open Outcome Prog

/-! ## Outcomes -/

/-- What a call of a cycle means for a conversation in the outbound direction: a rejection that is staged, or a
success. -/
def outboundOutcome : (call : Call) × call.Reply → Option (String × Bool)
  | ⟨.state (.stageTerminalOutbound _ c _), .ok _⟩ => some (c, true)
  | ⟨.state (.recoverTerminalOutbound c), .ok _⟩ => some (c, false)
  | _ => none

/-- The same in the inbound direction. -/
def inboundOutcome : (call : Call) × call.Reply → Option (String × Bool)
  | ⟨.state (.markProcessedTerminalInbound _ c), .ok _⟩ => some (c, true)
  | ⟨.state (.markProcessedInboundRecovery _ c), .ok _⟩ => some (c, false)
  | _ => none

/-- The last outcome of a conversation: whether it was rejected. -/
def lastOutcome (c : String) (outcomes : List (String × Bool)) : Option Bool := outcomes.reverse.lookup c

/-- The ledger tells who was rejected last; rejections that are not attributed share one name. -/
structure Reflects (rejected : String → Prop) (outcomes : List (String × Bool)) : Prop where
  kept : ∀ c, c ≠ gatewayLegacyTarget → lastOutcome c outcomes = some true → rejected c
  cleared : ∀ c, lastOutcome c outcomes = some false → ¬rejected c

section

variable {rejected rejected' : String → Prop} {outcomes : List (String × Bool)} {c : String}

theorem lastOutcome_concat {c' : String} {b : Bool} :
    lastOutcome c (outcomes ++ [(c', b)]) = if c = c' then some b else lastOutcome c outcomes := by
  unfold lastOutcome
  rw [List.reverse_append, List.reverse_singleton, List.singleton_append, List.lookup_cons]
  by_cases hc : c = c'
  · simp [hc]
  · simp [hc, beq_eq_false_iff_ne.2 hc]

theorem Reflects.reject (h : Reflects rejected outcomes) (hself : c ≠ gatewayLegacyTarget → rejected' c)
    (hother : ∀ c', c' ≠ c → (rejected' c' ↔ rejected c')) : Reflects rejected' (outcomes ++ [(c, true)]) where
  kept c' hc' hlast := by
    rw [lastOutcome_concat] at hlast
    split at hlast
    · rename_i hc
      rw [hc] at hc' ⊢
      exact hself hc'
    · rename_i hc
      exact (hother c' hc).2 (h.kept c' hc' hlast)
  cleared c' hlast := by
    rw [lastOutcome_concat] at hlast
    split at hlast
    · cases hlast
    · rename_i hc
      exact fun hrejected => h.cleared c' hlast ((hother c' hc).1 hrejected)

theorem Reflects.clear (h : Reflects rejected outcomes)
    (hclear : ∀ c', rejected' c' ↔ rejected c' ∧ c' ≠ c ∧ c' ≠ gatewayLegacyTarget) :
    Reflects rejected' (outcomes ++ [(c, false)]) where
  kept c' hc' hlast := by
    rw [lastOutcome_concat] at hlast
    split at hlast
    · cases hlast
    · rename_i hc
      exact (hclear c').2 ⟨h.kept c' hc' hlast, hc, hc'⟩
  cleared c' hlast hrejected := by
    obtain ⟨hrejected, hc, -⟩ := (hclear c').1 hrejected
    rw [lastOutcome_concat, if_neg hc] at hlast
    exact h.cleared c' hlast hrejected

end

/-! ## The ledger -/

/-- The conversation has a row. -/
def Rejected {V : Type} (targets : Table String V) (c : String) : Prop := (targets.find? c).isSome

/-- Every staged delivery belongs to a conversation that is rejected. -/
def EventsTargeted (s : State) : Prop :=
  ∀ delivery event, s.outboundEvents.find? delivery = some event → event.conversationID ≠ gatewayLegacyTarget →
    Rejected s.outboundTargets event.conversationID

section

variable {V : Type} {targets : Table String V} {c c' : String}

theorem rejected_upsert {v : V} {f : V → V} : Rejected (targets.upsert c v f) c' ↔ c' = c ∨ Rejected targets c' := by
  unfold Rejected
  rw [Table.find?_upsert]
  split
  · rename_i hc
    simp [hc]
  · rename_i hc
    simp [hc]

theorem rejected_clearTarget :
    Rejected (clearTarget targets c) c' ↔ Rejected targets c' ∧ c' ≠ c ∧ c' ≠ gatewayLegacyTarget := by
  unfold Rejected clearTarget
  simp [Option.isSome_iff_exists, Table.find?_deleteWhere_eq_some]

end

/-- The call leaves the ledger alone. -/
def Call.apart : Call → Bool
  | .state m => !m.ledger
  | _ => true

def GatewayTargetEvent.outcome (event : GatewayTargetEvent) : String × Bool := (event.conversationID, event.terminal)

/-- The ledger after the calls made so far, which the events of the cycle tell of. -/
structure Ledger (w : GatewayState) (inbound outbound : List GatewayTargetEvent) : Prop where
  inboundEvents : w.2.filterMap inboundOutcome = inbound.map GatewayTargetEvent.outcome
  outboundEvents : w.2.filterMap outboundOutcome = outbound.map GatewayTargetEvent.outcome
  inboundRows : Reflects (Rejected w.1.inboundTargets) (inbound.map GatewayTargetEvent.outcome)
  outboundRows : Reflects (Rejected w.1.outboundTargets) (outbound.map GatewayTargetEvent.outcome)
  targeted : EventsTargeted w.1

section

variable {w : GatewayState} {inbound outbound : List GatewayTargetEvent} {call : Call} {s' : State} {c : String}
  {event : GatewayTargetEvent}
variable {a : Unit} {s : State} {deliveryID : String} {failureClass : GatewayFailureClass}

/-- A call that is no outcome and leaves the ledger alone. -/
theorem Ledger.same (h : Ledger w inbound outbound) {entry : (call : Call) × call.Reply} (hsame : SameLedger w.1 s')
    (hin : inboundOutcome entry = none) (hout : outboundOutcome entry = none) :
    Ledger (s', w.2 ++ [entry]) inbound outbound := by
  obtain ⟨hinbound, houtbound, hevents⟩ := hsame
  refine ⟨?_, ?_, ?_, ?_, ?_⟩
  · rw [List.filterMap_append, h.inboundEvents]
    simp [hin]
  · rw [List.filterMap_append, h.outboundEvents]
    simp [hout]
  · rw [hinbound]
    exact h.inboundRows
  · rw [houtbound]
    exact h.outboundRows
  · unfold EventsTargeted
    rw [hevents, houtbound]
    exact h.targeted

theorem sameLedger_refl : SameLedger s s := ⟨rfl, rfl, rfl⟩

theorem outcome_apart (hcall : call.apart) {r : call.Reply} :
    inboundOutcome ⟨call, r⟩ = none ∧ outboundOutcome ⟨call, r⟩ = none := by
  cases call with
  | state m =>
    cases m with
    | markProcessedTerminalInbound | markProcessedInboundRecovery | stageTerminalOutbound | finalizeTerminalOutbound
    | recoverTerminalOutbound => cases hcall
    | _ => exact ⟨rfl, rfl⟩
  | _ => exact ⟨rfl, rfl⟩

theorem Ledger.apart (h : Ledger w inbound outbound) (hcall : call.apart) (o : Reaction) :
    Ledger (recorded State.answer o w call).1 inbound outbound := by
  obtain ⟨hin, hout⟩ := outcome_apart hcall (r := (w.1.answer o call).2)
  refine h.same ?_ hin hout
  rcases answer_cases o w.1 call with hsame | ⟨m, a, rfl, hrun, -⟩
  · rw [hsame]
    exact sameLedger_refl
  · exact (run_effect hrun).ledger (by simpa [Call.apart] using hcall)

/-- A method that fails. -/
theorem Ledger.refused (h : Ledger w inbound outbound) {m : StateCall} {e : Failure} :
    Ledger (w.1, w.2 ++ [⟨.state m, .error e⟩]) inbound outbound := by
  refine h.same sameLedger_refl ?_ ?_
  · cases m <;> rfl
  · cases m <;> rfl

/-- An update is rejected. -/
theorem Ledger.dropped (h : Ledger w inbound outbound) {updateID : Int} (hnew : w.1.processed updateID = false)
    (hrun : w.1.run (.markProcessedTerminalInbound updateID c) = .ok (s', a))
    (hevent : event.outcome = (c, true)) :
    Ledger (s', w.2 ++ [⟨.state (.markProcessedTerminalInbound updateID c), .ok a⟩]) (inbound ++ [event]) outbound := by
  simp only [State.run, written_eq_ok, State.markProcessedTerminalInbound, ok_rules] at hrun
  obtain ⟨-, -, rfl⟩ := hrun
  refine ⟨?_, ?_, ?_, h.outboundRows, h.targeted⟩
  · rw [List.filterMap_append, h.inboundEvents, List.map_append, List.map_singleton, hevent]
    rfl
  · rw [List.filterMap_append, h.outboundEvents]
    exact List.append_nil _
  · rw [List.map_append, List.map_singleton, hevent]
    simp only [hnew]
    exact h.inboundRows.reject (fun _ => rejected_upsert.2 (.inl rfl)) fun c' hc => by
      simp only [Bool.false_eq_true, if_false, addInbound, rejected_upsert, hc, false_or]

/-- An update is accepted. -/
theorem Ledger.accepted (h : Ledger w inbound outbound) {updateID : Int} (hnew : w.1.processed updateID = false)
    (hrun : w.1.run (.markProcessedInboundRecovery updateID c) = .ok (s', a))
    (hevent : event.outcome = (c, false)) :
    Ledger (s', w.2 ++ [⟨.state (.markProcessedInboundRecovery updateID c), .ok a⟩]) (inbound ++ [event]) outbound := by
  simp only [State.run, written_eq_ok, State.markProcessedInboundRecovery, ok_rules] at hrun
  obtain ⟨-, -, rfl⟩ := hrun
  refine ⟨?_, ?_, ?_, h.outboundRows, h.targeted⟩
  · rw [List.filterMap_append, h.inboundEvents, List.map_append, List.map_singleton, hevent]
    rfl
  · rw [List.filterMap_append, h.outboundEvents]
    exact List.append_nil _
  · rw [List.map_append, List.map_singleton, hevent]
    simp only [hnew]
    exact h.inboundRows.clear fun c' => rejected_clearTarget

theorem rejected_updateAt {V : Type} {targets : Table String V} {f : V → V} {c' : String} :
    Rejected (targets.updateAt c f) c' ↔ Rejected targets c' := by
  unfold Rejected
  rw [Table.find?_updateAt]
  split
  · rw [Option.isSome_map]
  · rfl

/-- What staging a delivery does to the rows and the staged deliveries. -/
theorem stage_rows (hs : EventsTargeted s) (h : s.stageTerminalOutbound deliveryID c failureClass = .ok s') :
    EventsTargeted s' ∧ s'.inboundTargets = s.inboundTargets ∧
      (c ≠ gatewayLegacyTarget → Rejected s'.outboundTargets c) ∧
      ∀ c', c' ≠ c → (Rejected s'.outboundTargets c' ↔ Rejected s.outboundTargets c') := by
  unfold State.stageTerminalOutbound at h
  simp only [bind_eq_ok] at h
  obtain ⟨-, -, h⟩ := h
  split at h <;> rename_i hfind
  · cases h
    refine ⟨?_, rfl, fun _ => rejected_upsert.2 (.inl rfl), fun c' hc => ?_⟩
    · intro delivery event hevent hlegacy
      rw [Table.find?_insertOrIgnore] at hevent
      split at hevent
      · rename_i hd
        subst hd
        rw [hfind] at hevent
        cases hevent
        exact rejected_upsert.2 (.inl rfl)
      · exact rejected_upsert.2 (.inr (hs delivery event hevent hlegacy))
    · simp only [addOutbound, rejected_upsert, hc, false_or]
  · rename_i existing
    simp only [ok_rules] at h
    obtain ⟨-, hconversation, h⟩ := h
    split at h
    · cases h
      refine ⟨hs, rfl, fun hlegacy => ?_, fun _ _ => Iff.rfl⟩
      rw [← hconversation] at hlegacy ⊢
      exact hs deliveryID existing hfind hlegacy
    · simp only [ok_rules] at h
      obtain ⟨-, hrow, rfl⟩ := h
      refine ⟨?_, rfl, fun _ => rejected_updateAt.2 hrow, fun _ _ => rejected_updateAt⟩
      intro delivery event hevent hlegacy
      dsimp only at hevent ⊢
      rw [Table.find?_updateAt] at hevent
      rw [rejected_updateAt]
      split at hevent
      · obtain ⟨event', hevent', rfl⟩ := Option.map_eq_some_iff.1 hevent
        exact hs delivery event' hevent' hlegacy
      · exact hs delivery event hevent hlegacy

/-- A delivery is rejected. -/
theorem Ledger.staged (h : Ledger w inbound outbound)
    (hrun : w.1.run (.stageTerminalOutbound deliveryID c failureClass) = .ok (s', a))
    (hevent : event.outcome = (c, true)) :
    Ledger (s', w.2 ++ [⟨.state (.stageTerminalOutbound deliveryID c failureClass), .ok a⟩]) inbound
      (outbound ++ [event]) := by
  simp only [State.run, written_eq_ok] at hrun
  obtain ⟨htargeted, hinbound, hself, hother⟩ := stage_rows h.targeted hrun
  refine ⟨?_, ?_, ?_, ?_, htargeted⟩
  · rw [List.filterMap_append, h.inboundEvents]
    exact List.append_nil _
  · rw [List.filterMap_append, h.outboundEvents, List.map_append, List.map_singleton, hevent]
    rfl
  · rw [hinbound]
    exact h.inboundRows
  · rw [List.map_append, List.map_singleton, hevent]
    exact h.outboundRows.reject hself hother

/-- A rejected delivery is taken off the queue. -/
theorem Ledger.finalized (h : Ledger w inbound outbound)
    (hrun : w.1.run (.finalizeTerminalOutbound deliveryID) = .ok (s', a)) :
    Ledger (s', w.2 ++ [⟨.state (.finalizeTerminalOutbound deliveryID), .ok a⟩]) inbound outbound := by
  simp only [State.run, written_eq_ok, State.finalizeTerminalOutbound, ok_rules] at hrun
  obtain ⟨-, -, rfl⟩ := hrun
  refine ⟨?_, ?_, h.inboundRows, h.outboundRows, ?_⟩
  · rw [List.filterMap_append, h.inboundEvents]
    exact List.append_nil _
  · rw [List.filterMap_append, h.outboundEvents]
    exact List.append_nil _
  · intro delivery event hevent
    exact h.targeted delivery event (Table.find?_deleteWhere_eq_some.1 hevent).1

theorem targeted_recovered (hs : EventsTargeted s) : EventsTargeted (s.recovered c) := by
  intro delivery event hevent hlegacy
  obtain ⟨hevent, hc⟩ := Table.find?_deleteWhere_eq_some.1 hevent
  exact rejected_clearTarget.2 ⟨hs delivery event hevent hlegacy, of_decide_eq_false hc, hlegacy⟩

/-- A delivery is accepted. -/
theorem Ledger.recovered (h : Ledger w inbound outbound)
    (hrun : w.1.run (.recoverTerminalOutbound c) = .ok (s', a)) (hevent : event.outcome = (c, false)) :
    Ledger (s', w.2 ++ [⟨.state (.recoverTerminalOutbound c), .ok a⟩]) inbound (outbound ++ [event]) := by
  simp only [State.run, written_eq_ok, State.recoverTerminalOutbound, ok_rules] at hrun
  obtain ⟨-, -, rfl⟩ := hrun
  refine ⟨?_, ?_, h.inboundRows, ?_, targeted_recovered h.targeted⟩
  · rw [List.filterMap_append, h.inboundEvents]
    exact List.append_nil _
  · rw [List.filterMap_append, h.outboundEvents, List.map_append, List.map_singleton, hevent]
    rfl
  · rw [List.map_append, List.map_singleton, hevent]
    exact h.outboundRows.clear fun c' => rejected_clearTarget

end

end Punaro.Telegram
