import Punaro.Adapter.Sync

/-!
# Handing deliveries over

The adapter runs cycle after cycle on one journal. Every call may fail, whether or
not it took effect, and the adapter may be stopped between any two calls. Still a
delivery is acknowledged only once the mailbox has accepted it, it is not sent again
once that has been recorded, and its identifier stands for one message.
-/

namespace Punaro.Adapter

open Outcome Prog

/-- The calls made so far with their answers. -/
abbrev History := List ((c : Call) × c.Reply)

/-- What the parties the adapter calls may answer; of a journal call, whether it fails. -/
abbrev Answers := (c : Call) → c.Reply

/-- The journal answers its own calls, everything else is answered from outside. -/
def Journal.answer (o : Answers) (j : Journal) : (c : Call) → Journal × c.Reply
  | .journal entry => j.attempt entry
    (match o (.journal entry) with
    | .ok _ => none
    | .failed e took => some (e, took))
  | .now => (j, o .now)
  | .attached => (j, o .attached)
  | .send endpoint deliveryID message => (j, o (.send endpoint deliveryID message))
  | .advertise endpoints => (j, o (.advertise endpoints))
  | .lease endpoint => (j, o (.lease endpoint))
  | .ack delivery => (j, o (.ack delivery))
  | .leaseInvocations => (j, o .leaseInvocations)
  | .reportInvocation invocation accepted => (j, o (.reportInvocation invocation accepted))
  | .invoke invocation => (j, o (.invoke invocation))

/-- Cycles on one journal, with the calls they make. -/
def handoff : System (Journal × History) Call Call.Reply Err Unit Syncer Answers Empty where
  main := Syncer.syncOnce
  act := recorded Journal.answer
  env x := x.elim

/-- The cycles a list of cues leads to, from an empty journal. -/
abbrev handoffRun (cues : List (Cue Unit Syncer Answers Empty)) :
    Config Unit (Journal × History) Call Call.Reply Err Unit := handoff.run (Journal.empty, []) cues

/-! ## What the calls so far say -/

/-- The delivery and the message the mailbox has accepted with a call. -/
def sentBy : ((c : Call) × c.Reply) → Option (String × String)
  | ⟨.send _ deliveryID message, .ok ()⟩ => some (deliveryID, message.punaroMessageID)
  | _ => none

/-- The mailbox has accepted the message for the delivery. -/
def Sent (h : History) (deliveryID messageID : String) : Prop := (deliveryID, messageID) ∈ h.filterMap sentBy

/-- The delivery whose acceptance a call has recorded. -/
def forwardedBy : ((c : Call) × c.Reply) → Option String
  | ⟨.journal (.markForwarded deliveryID _ _), answer⟩ => if answer.took then some deliveryID else none
  | _ => none

/-- `MarkForwarded` has been committed for the delivery. -/
def Forwarded (h : History) (deliveryID : String) : Prop := deliveryID ∈ h.filterMap forwardedBy

/-- The delivery and the message a call has recorded as received. -/
def recordedBy : ((c : Call) × c.Reply) → Option (String × String)
  | ⟨.journal (.ensureReceived deliveryID messageID _), answer⟩ =>
    if answer.took then some (deliveryID, messageID) else none
  | _ => none

/-- The message under which the delivery has first been recorded. -/
def firstRecorded (h : History) (deliveryID : String) : Option String :=
  ((h.filterMap recordedBy).find? fun r => r.1 = deliveryID).map Prod.snd

/-- The deliveries a lease presents, with their messages. -/
def presentedBy : ((c : Call) × c.Reply) → List (String × String)
  | ⟨.lease _, .ok deliveries⟩ => deliveries.map fun d => (d.id, d.message.id)
  | _ => []

/-- The message under which the delivery has first been presented. -/
def firstPresented (h : History) (deliveryID : String) : Option String :=
  ((h.flatMap presentedBy).find? fun r => r.1 = deliveryID).map Prod.snd

/-- What cycles keep to. `first` gives the message a delivery stands for. -/
structure HandoffHolds (first : History → String → Option String) (cues : List (Cue Unit Syncer Answers Empty)) :
    Prop where
  /-- A delivery about to be acknowledged has been accepted by the mailbox. -/
  acknowledged : ∀ delivery k, (handoffRun cues).thread () = some (.call (.ack delivery) k) →
    Sent (handoffRun cues).state.2 delivery.id delivery.message.id
  /-- Of a delivery about to be sent no acceptance has been recorded. -/
  sent : ∀ endpoint deliveryID message k,
    (handoffRun cues).thread () = some (.call (.send endpoint deliveryID message) k) →
    ¬ Forwarded (handoffRun cues).state.2 deliveryID
  /-- A delivery is sent and acknowledged under one message. -/
  message_sent : ∀ endpoint deliveryID message k,
    (handoffRun cues).thread () = some (.call (.send endpoint deliveryID message) k) →
    first (handoffRun cues).state.2 deliveryID = some message.punaroMessageID
  message_acknowledged : ∀ delivery k, (handoffRun cues).thread () = some (.call (.ack delivery) k) →
    first (handoffRun cues).state.2 delivery.id = some delivery.message.id

/-! ## The discipline -/

/-- The journal says what the calls so far have done. -/
structure HandoffOK (s : Journal × History) : Prop where
  recorded : ∀ id, (s.1.inboundDeliveries.find? id).map InboundDeliveryRow.messageID = firstRecorded s.2 id
  sent : ∀ {id row}, s.1.inboundDeliveries.find? id = some row → row.state ≠ .received → Sent s.2 id row.messageID
  forwarded : ∀ {id}, Forwarded s.2 id → ∃ row, s.1.inboundDeliveries.find? id = some row ∧ row.state ≠ .received

/-- The mailbox has accepted the message the delivery stands for. -/
structure Handed (deliveryID messageID : String) (s : Journal × History) : Prop where
  sent : Sent s.2 deliveryID messageID
  first : firstRecorded s.2 deliveryID = some messageID

/-- What holds when a delivery is sent, when it is marked and when it is acknowledged. -/
def handoffPre : Call → Journal × History → Prop
  | .send _ id message, s => ¬ Forwarded s.2 id ∧ firstRecorded s.2 id = some message.punaroMessageID
  | .ack delivery, s => Handed delivery.id delivery.message.id s
  | .journal (.markForwarded id messageID _), s => Handed id messageID s
  | .journal (.markAcknowledged id _), s => ∃ messageID, Handed id messageID s
  | _, _ => True

/-! ## One call -/

section

variable {h : History} {e : (c : Call) × c.Reply} {id messageID : String} {s : Journal × History} {o : Answers}
  {c : Call}
variable {j : Journal} {now : Int}

theorem Sent.append (hsent : Sent h id messageID) : Sent (h ++ [e]) id messageID := by
  unfold Sent
  rw [List.filterMap_append]
  exact List.mem_append_left _ hsent

theorem sent_append (he : sentBy e = some (id, messageID)) : Sent (h ++ [e]) id messageID := by
  simp [Sent, List.filterMap_append, he]

theorem forwarded_append : Forwarded (h ++ [e]) id ↔ Forwarded h id ∨ forwardedBy e = some id := by
  simp [Forwarded, List.filterMap_append]

theorem firstRecorded_append : firstRecorded (h ++ [e]) id =
    (firstRecorded h id).or ((recordedBy e).bind fun r => if r.1 = id then some r.2 else none) := by
  unfold firstRecorded
  rw [List.filterMap_append, List.find?_append, Option.map_or]
  congr 1
  cases hr : recordedBy e with
  | none => simp [hr]
  | some r => by_cases hid : r.1 = id <;> simp [hr, hid]

theorem Handed.step (handed : Handed id messageID s) : Handed id messageID (handoff.act o s c).1 := by
  refine ⟨handed.sent.append, ?_⟩
  change firstRecorded (s.2 ++ [_]) id = some messageID
  rw [firstRecorded_append, handed.first]
  rfl

/-- A call that neither records a delivery nor touches its row. -/
theorem HandoffOK.other (hok : HandoffOK s) (hsame : j.inboundDeliveries = s.1.inboundDeliveries)
    (hrecorded : recordedBy e = none) (hforwarded : forwardedBy e = none) : HandoffOK (j, s.2 ++ [e]) where
  recorded id := by
    change (j.inboundDeliveries.find? id).map _ = firstRecorded (s.2 ++ [e]) id
    rw [hsame, hok.recorded, firstRecorded_append, hrecorded]
    simp
  sent {id row} hrow hstate := by
    change j.inboundDeliveries.find? id = some row at hrow
    rw [hsame] at hrow
    exact (hok.sent hrow hstate).append
  forwarded {id} hmarked := by
    rw [forwarded_append, hforwarded] at hmarked
    obtain ⟨row, hrow, hstate⟩ := hok.forwarded (hmarked.resolve_right (by rintro ⟨⟩))
    exact ⟨row, hsame ▸ hrow, hstate⟩

/-- `ensureReceived` keeps the row that is there; the answer is the state of the row. -/
theorem ensureReceived_rows {j' : Journal} {state : DeliveryState}
    (h : j.ensureReceived id messageID now = .ok (j', state)) :
    (∀ id', j'.inboundDeliveries.find? id' = if id' = id then
      some ((j.inboundDeliveries.find? id).getD ⟨messageID, .received, unixMilli now⟩)
      else j.inboundDeliveries.find? id') ∧
    ∃ row, j'.inboundDeliveries.find? id = some row ∧ row.messageID = messageID ∧ row.state = state := by
  unfold Journal.ensureReceived at h
  simp only [ok_rules, Prod.mk.injEq] at h
  obtain ⟨-, -, row, hrow, -, hmessage, rfl, hstate⟩ := h
  exact ⟨fun id' => Table.find?_insertOrIgnore, row, hrow, hmessage, hstate⟩

theorem HandoffOK.ensureReceived {state : DeliveryState} {answer : Answer Err DeliveryState} (hok : HandoffOK s)
    (hrun : s.1.ensureReceived id messageID now = .ok (j, state)) (htook : answer.took = true) :
    HandoffOK (j, s.2 ++ [⟨.journal (.ensureReceived id messageID now), answer⟩]) := by
  obtain ⟨hrows, -⟩ := ensureReceived_rows hrun
  have hrecorded : recordedBy ⟨.journal (.ensureReceived id messageID now), answer⟩ = some (id, messageID) :=
    if_pos htook
  refine ⟨fun id' => ?_, fun {id' row} hrow hstate => ?_, fun {id'} hmarked => ?_⟩
  · rw [firstRecorded_append, hrecorded, ← hok.recorded]
    dsimp only
    rw [hrows]
    by_cases hid : id' = id
    · subst hid
      cases s.1.inboundDeliveries.find? id' <;> simp
    · simp [hid, Ne.symm hid]
  · dsimp only at hrow ⊢
    rw [hrows] at hrow
    -- a row that is only now inserted is `received`
    have hold : s.1.inboundDeliveries.find? id' = some row := by
      split at hrow
      · rename_i hid
        subst hid
        cases hfind : s.1.inboundDeliveries.find? id' with
        | none =>
          rw [hfind] at hrow
          cases hrow
          exact absurd rfl hstate
        | some old => rwa [hfind] at hrow
      · exact hrow
    exact (hok.sent hold hstate).append
  · rw [forwarded_append] at hmarked
    obtain ⟨row, hrow, hstate⟩ := hok.forwarded (hmarked.resolve_right (by rintro ⟨⟩))
    refine ⟨row, ?_, hstate⟩
    dsimp only
    rw [hrows]
    split
    · rename_i hid
      subst hid
      rw [hrow]
      rfl
    · exact hrow

/-- The row of a delivery that has been handed over. -/
theorem HandoffOK.row (hok : HandoffOK s) (handed : Handed id messageID s) :
    ∃ row, s.1.inboundDeliveries.find? id = some row ∧ row.messageID = messageID := by
  have hfirst := hok.recorded id
  rw [handed.first, Option.map_eq_some_iff] at hfirst
  exact hfirst

/-- The row of a delivery that has been handed over moves on from `received`. -/
theorem HandoffOK.advance {f : InboundDeliveryRow → InboundDeliveryRow} (hok : HandoffOK s)
    (handed : Handed id messageID s) (hrows : j.inboundDeliveries = s.1.inboundDeliveries.updateAt id f)
    (hmessage : ∀ row, (f row).messageID = row.messageID) (hmoves : ∀ row, (f row).state ≠ .received)
    (hrecorded : recordedBy e = none) (hforwarded : ∀ id', forwardedBy e = some id' → id' = id) :
    HandoffOK (j, s.2 ++ [e]) := by
  obtain ⟨row₀, hrow₀, hmessage₀⟩ := hok.row handed
  refine ⟨fun id' => ?_, fun {id' row} hrow hstate => ?_, fun {id'} hmarked => ?_⟩
  · rw [firstRecorded_append, hrecorded, ← hok.recorded]
    dsimp only
    rw [hrows, Table.find?_updateAt]
    split
    · cases s.1.inboundDeliveries.find? id' <;> simp [hmessage]
    · simp
  · dsimp only at hrow ⊢
    rw [hrows, Table.find?_updateAt] at hrow
    split at hrow
    · rename_i hid
      subst hid
      rw [hrow₀] at hrow
      cases hrow
      rw [hmessage, hmessage₀]
      exact handed.sent.append
    · exact (hok.sent hrow hstate).append
  · dsimp only
    rw [hrows, Table.find?_updateAt]
    by_cases hid : id' = id
    · subst hid
      rw [if_pos rfl, hrow₀]
      exact ⟨f row₀, rfl, hmoves row₀⟩
    · rw [if_neg hid]
      rw [forwarded_append] at hmarked
      exact hok.forwarded (hmarked.resolve_right fun h => hid (hforwarded id' h))

/-- The journal keeps up with a journal call that is made in its place. -/
theorem HandoffOK.attempt {entry : JournalCall} {fate : Option (Err × Bool)} (hok : HandoffOK s)
    (hpre : handoffPre (.journal entry) s) :
    HandoffOK ((s.1.attempt entry fate).1, s.2 ++ [⟨.journal entry, (s.1.attempt entry fate).2⟩]) := by
  rcases s.1.attempt_cases entry fate with ⟨a, hrun, htook, -⟩ | ⟨hsame, htook⟩
  · cases entry with
    | ensureReceived => exact hok.ensureReceived hrun htook
    | markForwarded id messageID now =>
      obtain ⟨row, hrow, -⟩ := hok.row hpre
      simp only [Journal.run, Except.ok.injEq, Prod.mk.injEq, and_true] at hrun
      refine hok.advance hpre (f := fun row =>
        { row with
          state := if row.state = .acknowledged then .acknowledged else .forwarded
          updatedAt := unixMilli now }) ?_ (fun _ => rfl) (fun row => ?_) rfl ?_
      · rw [← hrun]
        simp only [Journal.markForwarded, hrow]
      · dsimp only
        split <;> decide
      · intro id' hid
        simp only [forwardedBy, htook, if_true, Option.some.injEq] at hid
        exact hid.symm
    | markAcknowledged id now =>
      obtain ⟨messageID, handed⟩ := hpre
      simp only [Journal.run, Journal.markAcknowledged, exceptMap_eq_ok, ok_rules, Prod.mk.injEq] at hrun
      obtain ⟨j, ⟨-, -, rfl⟩, hj, -⟩ := hrun
      refine hok.advance handed (f := fun row => { row with state := .acknowledged, updatedAt := unixMilli now }) ?_
        (fun _ => rfl) (fun _ => by simp) rfl (by rintro id' ⟨⟩)
      rw [← hj]
    | ensureInvocation =>
      simp only [Journal.run, Journal.ensureInvocation, ok_rules, Prod.mk.injEq] at hrun
      obtain ⟨-, -, -, -, -, -, hj, -⟩ := hrun
      exact hok.other (by rw [← hj]) rfl rfl
    | pruneInvocationRecoveryRows now =>
      simp only [Journal.run, Except.ok.injEq, Prod.mk.injEq, and_true] at hrun
      exact hok.other (by rw [← hrun, Journal.pruneInvocationRecoveryRows]) rfl rfl
    | markInvocationAccepted | removeInvocation =>
      simp only [Journal.run, Journal.markInvocationAccepted, Journal.removeInvocation, exceptMap_eq_ok, ok_rules,
        Prod.mk.injEq] at hrun
      obtain ⟨j, ⟨-, -, rfl⟩, hj, -⟩ := hrun
      exact hok.other (by rw [← hj]) rfl rfl
  · refine hok.other (by rw [hsame]) ?_ ?_
    · cases entry <;> simp [recordedBy, htook]
    · cases entry <;> simp [forwardedBy, htook]

theorem HandoffOK.call (hok : HandoffOK s) (hpre : handoffPre c s) : HandoffOK (handoff.act o s c).1 := by
  cases c with
  | journal entry => exact hok.attempt hpre
  | now => exact hok.other rfl rfl rfl
  | attached => exact hok.other rfl rfl rfl
  | send => exact hok.other rfl rfl rfl
  | advertise endpoints => exact hok.other rfl rfl rfl
  | lease endpoint => exact hok.other rfl rfl rfl
  | ack delivery => exact hok.other rfl rfl rfl
  | leaseInvocations => exact hok.other rfl rfl rfl
  | reportInvocation => exact hok.other rfl rfl rfl
  | invoke invocation => exact hok.other rfl rfl rfl

/-! ## One cycle -/

/-- The discipline of the cycles. -/
abbrev HandsOver {α : Type} (p : Program α) (Q : α → Journal × History → Prop) (s : Journal × History) : Prop :=
  p.Safe handoff.act (.alone HandoffOK handoffPre : Discipline (Journal × History) Call Answers Empty) Q s

theorem handsOver_perform {Q : c.Reply → Journal × History → Prop} (pre : HandoffOK s → handoffPre c s)
    (post : ∀ o, HandoffOK s → HandoffOK (handoff.act o s c).1 → Q (handoff.act o s c).2 (handoff.act o s c).1) :
    HandsOver (perform c) Q s :=
  safe_perform_alone (fun _ hok hpre => hok.call hpre) pre post

theorem acknowledge_handsOver {delivery : Delivery} (handed : Handed delivery.id delivery.message.id s) :
    HandsOver (acknowledge delivery now) (fun _ _ => True) s := by
  unfold acknowledge
  simp only [safe_bind, safe_result]
  refine handsOver_perform (fun _ => handed) fun o _ _ _ _ => ?_
  refine handsOver_perform (fun _ => ⟨_, handed.step⟩) fun _ _ _ _ _ => trivial

theorem forwardAndAcknowledge_handsOver (endpoint : String) (delivery : Delivery) (now : Int) :
    HandsOver (forwardAndAcknowledge endpoint delivery now) (fun _ _ => True) s := by
  unfold forwardAndAcknowledge
  simp only [safe_bind, safe_result]
  refine handsOver_perform (fun _ => trivial) fun o hok hok' state hstate => ?_
  generalize hs' : (handoff.act o s _).1 = s' at hok' ⊢
  -- what the journal answers is the row of the delivery
  have hrow : ∃ row, s'.1.inboundDeliveries.find? delivery.id = some row ∧
      row.messageID = delivery.message.id ∧ row.state = state := by
    subst hs'
    change (s.1.attempt (.ensureReceived delivery.id delivery.message.id now) _).2 = .ok state at hstate
    change ∃ row, (s.1.attempt (.ensureReceived delivery.id delivery.message.id now) _).1.inboundDeliveries.find?
      delivery.id = some row ∧ _
    rcases s.1.attempt_cases (.ensureReceived delivery.id delivery.message.id now) _ with
      ⟨a, hrun, -, hans⟩ | ⟨-, htook⟩
    · obtain ⟨-, hrow⟩ := ensureReceived_rows hrun
      rw [hans state hstate]
      exact hrow
    · rw [hstate] at htook
      cases htook
  obtain ⟨row, hrow, hmessage, rfl⟩ := hrow
  have hfirst : firstRecorded s'.2 delivery.id = some delivery.message.id := by
    rw [← hok'.recorded, hrow, ← hmessage]
    rfl
  cases hst : row.state with
  | acknowledged => trivial
  | forwarded =>
    have hsent := hok'.sent hrow (by rw [hst]; decide)
    exact acknowledge_handsOver ⟨hmessage ▸ hsent, hfirst⟩
  | received =>
    simp only [safe_bind, safe_result]
    have hunmarked : ¬ Forwarded s'.2 delivery.id := by
      intro hmarked
      obtain ⟨row', hrow', hstate'⟩ := hok'.forwarded hmarked
      rw [hrow] at hrow'
      cases hrow'
      exact hstate' hst
    refine handsOver_perform (fun _ => ⟨hunmarked, hfirst⟩) fun o _ _ u hu => ?_
    have handed : Handed delivery.id delivery.message.id
        (handoff.act o s' (.send endpoint delivery.id (inboundEnvelope delivery))).1 := by
      refine ⟨sent_append ?_, ?_⟩
      · change sentBy ⟨_, (handoff.act o s' _).2⟩ = _
        rw [hu]
        rfl
      · change firstRecorded (s'.2 ++ [_]) _ = _
        rw [firstRecorded_append, hfirst]
        rfl
    refine handsOver_perform (fun _ => handed) fun _ _ _ _ _ => ?_
    exact acknowledge_handsOver handed.step

theorem orFail_handsOver {α : Type} {x : Except Err α} {Q : α → Journal × History → Prop} (h : ∀ a, Q a s) :
    HandsOver (orFail x) Q s := by
  cases x with
  | ok a => exact h a
  | error e => trivial

/-- Starting runtimes does not touch deliveries. -/
theorem Call.Concerns.handoffPre {invocation : Invocation} (hc : c.Concerns invocation) : handoffPre c s := by
  unfold Adapter.handoffPre
  split <;> trivial

theorem syncInvocations_handsOver (now : Int) : HandsOver (syncInvocations now) (fun _ _ => True) s := by
  refine Makes.safe_alone (fun _ _ _ hok hpre => hok.call hpre) ?_
  unfold syncInvocations
  refine ((makes_perform fun _ => trivial).bind fun _ => makes_result).bind fun _ => ?_
  refine ((makes_perform fun _ => trivial).bind fun _ => makes_result).bind fun invocations => ?_
  exact makes_forM (fun invocation => (syncInvocation_makes now invocation).mono fun _ hc _ => hc.handoffPre)
    invocations

theorem syncOnce_handsOver (syncer : Syncer) : HandsOver syncer.syncOnce (fun _ _ => True) s := by
  unfold Syncer.syncOnce
  simp only [safe_bind, safe_result]
  refine handsOver_perform (fun _ => trivial) fun _ _ _ attached _ => ?_
  refine orFail_handsOver fun endpoints => ?_
  refine handsOver_perform (fun _ => trivial) fun _ _ _ _ _ => ?_
  refine (safe_forM (fun _ _ => True) (fun endpoint _ s _ => ?_) trivial).mono fun _ s _ => ?_
  · -- the deliveries of one endpoint
    simp only [safe_bind, safe_result]
    refine handsOver_perform (fun _ => trivial) fun _ _ _ deliveries _ => ?_
    refine safe_forM (fun _ _ => True) (fun delivery _ s _ => ?_) trivial
    rw [safe_bind]
    refine handsOver_perform (fun _ => trivial) fun _ _ _ => ?_
    exact forwardAndAcknowledge_handsOver endpoint delivery _
  · split
    · split
      · rw [safe_bind]
        exact handsOver_perform (fun _ => trivial) fun _ _ _ => syncInvocations_handsOver _
      · trivial
    · trivial

end

/-! ## Every run -/

theorem handoffOK_empty : HandoffOK (Journal.empty, []) :=
  ⟨fun _ => rfl, fun hrow => (by cases hrow), fun hmarked => (by cases hmarked)⟩

/-- **Adapter hand-off.** Whatever relay and mailbox answer, whichever calls fail and wherever the adapter
is stopped, a delivery is acknowledged only after the mailbox has accepted it, it is not sent once its
acceptance has been recorded, and it is sent and acknowledged only under the message it has first been
recorded with. -/
theorem handoff_holds (cues : List (Cue Unit Syncer Answers Empty)) : HandoffHolds firstRecorded cues := by
  have hmain : ∀ syncer s, HandoffOK s → HandsOver (handoff.main syncer) (fun _ _ => True) s :=
    fun syncer _ _ => syncOnce_handsOver syncer
  obtain ⟨-, hpre⟩ := System.safe_alone (ι := Unit) hmain handoffOK_empty cues
  refine ⟨fun delivery k h => ?_, fun endpoint id message k h => ?_, fun endpoint id message k h => ?_,
    fun delivery k h => ?_⟩
  · exact (hpre () _ k h : Handed ..).sent
  · exact (hpre () _ k h).1
  · exact (hpre () _ k h).2
  · exact (hpre () _ k h : Handed ..).first

/-! ## An identifier reused before it is recorded -/

/-- The delivery `d` with the message of the given identifier. -/
def reusedDelivery (messageID : String) : Delivery :=
  ⟨"d", "host/a", "", ⟨messageID, "room", 1, "other/b", "", "", "", "", 0, "hello", 0⟩, "token", 1, 0⟩

/-- A session is attached, the relay leases the delivery with the message of the given identifier, and
journal calls fail or not. -/
def reusedAnswers (messageID : String) (fails : Bool) : Answers
  | .now => (0 : Int)
  | .attached => .ok ["host/a"]
  | .lease _ => .ok [reusedDelivery messageID]
  | .leaseInvocations => .ok []
  | .journal (.ensureReceived ..) => if fails then .failed (.message "disk I/O error") false else .ok .received
  | .journal (.ensureInvocation ..) => .ok .pending
  | .journal (.markForwarded ..) => .ok ()
  | .journal (.markAcknowledged ..) => .ok ()
  | .journal (.pruneInvocationRecoveryRows _) => .ok ()
  | .journal (.markInvocationAccepted ..) => .ok ()
  | .journal (.removeInvocation ..) => .ok ()
  | .send .. => .ok ()
  | .advertise _ => .ok ()
  | .ack _ => .ok ()
  | .reportInvocation .. => .ok ()
  | .invoke _ => .ok ()

/-- A cycle that ends because the delivery with `m1` cannot be recorded, and one that gets to send the same
delivery with `m2`. -/
def reusedRun : List (Cue Unit Syncer Answers Empty) :=
  .start () ⟨false, false⟩ :: (List.replicate 5 (.call () (reusedAnswers "m1" true)) ++
    .stop () :: .start () ⟨false, false⟩ :: List.replicate 5 (.call () (reusedAnswers "m2" false)))

/-- A delivery presented with a second message is sent with that one if the first could not be recorded. -/
theorem handoff_reused : ¬ HandoffHolds firstPresented reusedRun := by
  intro hholds
  have hfirst := hholds.message_sent "host/a" "d" (inboundEnvelope (reusedDelivery "m2")) _ rfl
  revert hfirst
  decide +kernel

end Punaro.Adapter
