import Punaro.Proof.Closing

/-!
# Posting a message

A posting charges the quota for the recipients it addresses, takes the next sequence
of its conversation, writes the message and then serves every receiving member: a
delivery for an addressed one, a cursor advance for the others and for the sender.
`Fanning` is the state in the middle: the members still to be served see the
previous sequence as their head, and the addressed ones among them are still owed
by the quota. Served to the end, the mail invariant holds again (`Fanning.finish`).
-/

namespace Punaro

open Outcome

section

variable {conversations conversations' : Table String ConversationRow} {R : String → String → Prop}
  {H : String → String → ℕ} {m m₁ m' : Mail} {recipient c sender id messageID context : String} {n : ℕ} {message : MessageRow}
  {t : Table String DeliveryRow}

/-! ## One more delivery -/

theorem insertDelivery_eq_ok (h : insertDelivery m id messageID recipient context = .ok m') :
    ∃ t, m.deliveries.insert? id (.new messageID recipient) = some t ∧ m' = { m with deliveries := t } := by
  unfold insertDelivery at h
  simp only [ok_rules] at h
  obtain ⟨-, -, t, ht, rfl⟩ := h
  exact ⟨t, ht, rfl⟩

theorem mem_joined_insertDelivery {r : JoinedRow} (hm : m.messages.find? messageID = some message)
    (ht : m.deliveries.insert? id (.new messageID recipient) = some t) :
    r ∈ Mail.joined { m with deliveries := t } ↔
      r ∈ m.joined ∨ r = ⟨id, .new messageID recipient, message⟩ := by
  have hnone := (Table.insert?_eq_some ht).1
  obtain ⟨rid, d, message'⟩ := r
  rw [mem_joined, mem_joined]
  dsimp only
  rw [Table.find?_insert? ht]
  by_cases hid : rid = id
  · subst hid
    simp only [if_true, Option.some.injEq, hnone, JoinedRow.mk.injEq, true_and, reduceCtorEq, false_and,
      false_or]
    constructor
    · rintro ⟨rfl, hm'⟩
      exact ⟨rfl, Option.some.inj (hm'.symm.trans hm)⟩
    · rintro ⟨rfl, rfl⟩
      exact ⟨rfl, hm⟩
  · simp [hid]

theorem opened_insertDelivery {r c' : String} (hm : m.messages.find? messageID = some message)
    (ht : m.deliveries.insert? id (.new messageID recipient) = some t) :
    Mail.opened { m with deliveries := t } r c' =
      if c' = message.conversationID ∧ r = recipient then insert message.sequence (m.opened r c')
      else m.opened r c' := by
  ext p
  have hmem : p ∈ Mail.opened { m with deliveries := t } r c' ↔
      p ∈ m.opened r c' ∨ (c' = message.conversationID ∧ r = recipient) ∧ p = message.sequence := by
    simp only [Mail.opened, JoinedRow.PendingIn, Set.mem_ofPred_eq, mem_joined_insertDelivery hm ht]
    constructor
    · rintro ⟨r', hr' | rfl, ⟨ho, hrec, hc⟩, rfl⟩
      · exact .inl ⟨r', hr', ⟨ho, hrec, hc⟩, rfl⟩
      · exact .inr ⟨⟨hc.symm, hrec.symm⟩, rfl⟩
    · rintro (⟨r', hr', hp, rfl⟩ | ⟨⟨rfl, rfl⟩, rfl⟩)
      · exact ⟨r', .inl hr', hp, rfl⟩
      · exact ⟨_, .inr rfl, ⟨rfl, rfl, rfl⟩, rfl⟩
  rw [hmem]
  split
  · rename_i h
    simp [h, or_comm]
  · rename_i h
    simp [h]

/-- A delivery of the message just written opens the position after the recipient's head. -/
theorem MailInv.insertDelivery (inv : MailInv conversations R H m) (hm : m.messages.find? messageID = some message)
    (hR : R message.conversationID recipient) (hH : message.sequence = H message.conversationID recipient + 1)
    (ht : m.deliveries.insert? id (.new messageID recipient) = some t) :
    MailInv conversations R
      (fun c r => if c = message.conversationID ∧ r = recipient then message.sequence else H c r)
      { m with deliveries := t } := by
  have hnone := (Table.insert?_eq_some ht).1
  refine ⟨?_, inv.placed, ?_, ?_, ?_, ?_, inv.bounded⟩
  · intro id' d hd
    rw [Table.find?_insert? ht] at hd
    split at hd
    · cases hd
      exact ⟨message, hm⟩
    · exact inv.sent hd
  · intro id' row hrow
    obtain ⟨d, hd, hrest⟩ := inv.recorded hrow
    refine ⟨d, ?_, hrest⟩
    rw [Table.find?_insert? ht, if_neg]
    · exact hd
    · rintro rfl
      rw [hnone] at hd
      cases hd
  · intro r hr hp
    rcases (mem_joined_insertDelivery hm ht).1 hr with hr | rfl
    · exact inv.received hr hp
    · exact hR
  · intro c r hRc
    rw [opened_insertDelivery hm ht]
    split
    · rename_i h
      obtain ⟨rfl, rfl⟩ := h
      rw [hH]
      exact (inv.exact hRc).open_head fun p hp => inv.reach hp
    · exact inv.exact hRc
  · intro c r p hp
    rw [opened_insertDelivery hm ht] at hp
    split at hp
    · rename_i h
      rw [if_pos h]
      obtain ⟨rfl, rfl⟩ := h
      rcases hp with rfl | hp
      · exact le_rfl
      · have := inv.reach hp
        omega
    · rename_i h
      rw [if_neg h]
      exact inv.reach hp

theorem evolves_insertDelivery (ht : m.deliveries.insert? id (.new messageID recipient) = some t) :
    Evolves Unchanged m { m with deliveries := t } := by
  have hnone := (Table.insert?_eq_some ht).1
  have hold : ∀ {id' d}, m.deliveries.find? id' = some d → t.find? id' = some d := by
    intro id' d hd
    rw [Table.find?_insert? ht, if_neg]
    · exact hd
    · rintro rfl
      rw [hnone] at hd
      cases hd
  refine ⟨fun h => h, fun hd _ => hold hd, fun hd _ => ⟨_, hold hd, rfl⟩, fun {id' d} hd hd' => ?_,
    fun h => ⟨_, h, le_rfl⟩⟩
  rw [Table.find?_insert? ht] at hd'
  split at hd'
  · cases hd'
    exact ⟨messageID, recipient, rfl⟩
  · rw [hd] at hd'
    cases hd'

/-! ## The message -/

theorem allocateSequence_eq_ok (h : allocateSequence conversations c = .ok (conversations', n)) :
    ∃ row, conversations.find? c = some row ∧ n = row.nextSequence + 1 ∧
      conversations' = conversations.updateAt c fun row => { row with nextSequence := row.nextSequence + 1 } := by
  unfold allocateSequence at h
  simp only [ok_rules, Prod.mk.injEq] at h
  obtain ⟨row, hrow, rfl, rfl⟩ := h
  exact ⟨row, hrow, rfl, rfl⟩

theorem insertMessage_eq_ok (h : insertMessage m id message context = .ok m') :
    ∃ t, m.messages.insert? id message = some t ∧ m' = { m with messages := t } := by
  unfold insertMessage at h
  simp only [ok_rules] at h
  obtain ⟨-, -, t, ht, rfl⟩ := h
  exact ⟨t, ht, rfl⟩

theorem lastSequence_allocate (h : allocateSequence conversations c = .ok (conversations', n)) (c' : String) :
    lastSequence conversations' c' =
      if c' = c then lastSequence conversations c + 1 else lastSequence conversations c' := by
  obtain ⟨row, hrow, -, rfl⟩ := allocateSequence_eq_ok h
  unfold lastSequence
  rw [Table.find?_updateAt]
  split
  · rename_i hc
    simp [hc, hrow]
  · rfl

/-- The message takes the next sequence; every recipient's head is still the previous one. -/
theorem MailInv.insertMessage {t : Table String MessageRow} (inv : MailInv conversations R H m)
    (halloc : allocateSequence conversations message.conversationID = .ok (conversations', message.sequence))
    (ht : m.messages.insert? id message = some t) : MailInv conversations' R H { m with messages := t } := by
  have hnone := (Table.insert?_eq_some ht).1
  obtain ⟨row, hrow, hseq, hconv⟩ := allocateSequence_eq_ok halloc
  have hold : ∀ {id' message'}, m.messages.find? id' = some message' → t.find? id' = some message' := by
    intro id' message' hm
    rw [Table.find?_insert? ht, if_neg]
    · exact hm
    · rintro rfl
      rw [hnone] at hm
      cases hm
  have hjoined : ∀ r, r ∈ Mail.joined { m with messages := t } ↔ r ∈ m.joined := by
    intro r
    rw [mem_joined, mem_joined]
    refine and_congr_right fun hd => ⟨fun hm => ?_, hold⟩
    obtain ⟨message', hm'⟩ := inv.sent hd
    have heq : message' = r.message := Option.some.inj ((hold hm').symm.trans hm)
    exact heq ▸ hm'
  have hopened : ∀ r c, Mail.opened { m with messages := t } r c = m.opened r c := by
    intro r c
    simp only [Mail.opened, hjoined]
  refine ⟨?_, ?_, inv.recorded, ?_, ?_, ?_, ?_⟩
  · intro id' d hd
    obtain ⟨message', hm'⟩ := inv.sent hd
    exact ⟨message', hold hm'⟩
  · intro id' message' hm'
    rw [Table.find?_insert? ht] at hm'
    rw [hconv]
    split at hm'
    · cases hm'
      exact ⟨{ row with nextSequence := row.nextSequence + 1 }, by simp [hrow], hseq.le⟩
    · obtain ⟨row', hrow', hle⟩ := inv.placed hm'
      rw [Table.find?_updateAt, hrow']
      split
      · exact ⟨_, rfl, hle.trans (Nat.le_succ _)⟩
      · exact ⟨row', rfl, hle⟩
  · intro r hr hp
    exact inv.received ((hjoined r).1 hr) hp
  · intro c r hR
    rw [hopened]
    exact inv.exact hR
  · intro c r p hp
    rw [hopened] at hp
    exact inv.reach hp
  · intro c r
    have := inv.bounded c r
    rw [lastSequence_allocate halloc]
    refine this.trans ?_
    split
    · rename_i hc
      rw [hc]
      exact Nat.le_succ _
    · exact le_rfl

theorem evolves_insertMessage {t : Table String MessageRow} (ht : m.messages.insert? id message = some t) :
    Evolves Unchanged m { m with messages := t } := by
  refine ⟨fun {id' message'} hm => ?_, fun hd _ => hd, fun hd _ => ⟨_, hd, rfl⟩, fun hd hd' => ?_,
    fun h => ⟨_, h, le_rfl⟩⟩
  · rw [Table.find?_insert? ht, if_neg]
    · exact hm
    · rintro rfl
      rw [(Table.insert?_eq_some ht).1] at hm
      cases hm
  · rw [hd] at hd'
    cases hd'

/-! ## The fan-out -/

/-- Who is served by a posting of `sender`: every receiving member but the sender exactly once, each with
whether it is addressed; the quota is charged for the addressed ones. -/
structure Addressing (R : String → String → Prop) (c sender : String) (targets : List (String × Bool))
    (charged : List String) : Prop where
  nodup : (targets.map Prod.fst).Nodup
  sender_notMem : sender ∉ targets.map Prod.fst
  receives : ∀ {r}, r ∈ targets.map Prod.fst → R c r
  covers : ∀ {r}, R c r → r = sender ∨ r ∈ targets.map Prod.fst
  charged : charged.Perm ((targets.filter Prod.snd).map Prod.fst)

/-- The head a recipient has been told of while `todo` and the sender wait. -/
def pendingHead (conversations : Table String ConversationRow) (c : String) (n : ℕ) (sender : String)
    (todo : List (String × Bool)) (c' r : String) : ℕ :=
  if c' = c ∧ (r = sender ∨ r ∈ todo.map Prod.fst) then n else lastSequence conversations c'

structure Fanning (conversations : Table String ConversationRow) (R : String → String → Prop) (m : Mail)
    (sender messageID : String) (message : MessageRow) (n : ℕ) (todo : List (String × Bool)) (m₁ : Mail) :
    Prop where
  head : lastSequence conversations message.conversationID = n + 1
  sequence : message.sequence = n + 1
  inv : MailInv conversations R (pendingHead conversations message.conversationID n sender todo) m₁
  quotas : Quotas m₁ ((todo.filter Prod.snd).map Prod.fst) message.body.utf8ByteSize
  written : m₁.messages.find? messageID = some message
  nodup : (todo.map Prod.fst).Nodup
  sender_notMem : sender ∉ todo.map Prod.fst
  receives : ∀ {r}, r ∈ todo.map Prod.fst → R message.conversationID r
  evolves : Evolves Unchanged m m₁

variable {messageID : String} {todo : List (String × Bool)}

namespace Fanning

variable {context : String} {targets : List (String × Bool)}

theorem start {cfg : QuotaConfig} {charged : List String} {m₂ : Mail} (ok : MailOK conversations R m)
    (haddr : Addressing R message.conversationID sender targets charged)
    (hquota : consumeQuota cfg m charged message.body.utf8ByteSize = .ok m₁)
    (halloc : allocateSequence conversations message.conversationID = .ok (conversations', message.sequence))
    (hinsert : insertMessage m₁ messageID message context = .ok m₂) :
    Fanning conversations' R m sender messageID message (lastSequence conversations message.conversationID)
      targets m₂ := by
  have hlast := lastSequence_allocate halloc
  obtain ⟨row, hrow, hseq, -⟩ := allocateSequence_eq_ok halloc
  have hquotas := (ok.quotas.nil_bytes message.body.utf8ByteSize).consumeQuota hquota
  obtain ⟨q, i, rfl⟩ := consumeQuota_frame hquota
  obtain ⟨t, ht, rfl⟩ := insertMessage_eq_ok hinsert
  have hinv : MailInv conversations R (fun c _ => lastSequence conversations c)
      { m with pendingQuotaRecipients := q, pendingQuotaInstall := i } := ok.inv.beside
  have hcharge : Evolves Unchanged m { m with pendingQuotaRecipients := q, pendingQuotaInstall := i } :=
    .of_tables unchanged_refl rfl rfl rfl
  refine ⟨?_, ?_, (hinv.insertMessage halloc ht).congr_head ?_, ?_, ?_, haddr.nodup, haddr.sender_notMem,
    haddr.receives, hcharge.andThen unchanged_refl (evolves_insertMessage ht)⟩
  · rw [hlast, if_pos rfl]
  · rw [hseq, lastSequence_eq hrow]
  · intro c r hR
    unfold pendingHead
    split
    · rename_i hc
      rw [hc.1]
    · rename_i hc
      rw [hlast, if_neg]
      rintro rfl
      exact hc ⟨rfl, haddr.covers hR⟩
  · exact (hquotas.perm haddr.charged).of_usage
      (fun p => usage_insertMessage (fun hd => ok.inv.sent hd) ht) rfl rfl
  · rw [Table.find?_insert? ht, if_pos rfl]

/-- Once a recipient is served its head is the message itself. -/
theorem pendingHead_served {served : Bool} (h : Fanning conversations R m sender messageID message n
      ((recipient, served) :: todo) m₁) (c' r : String) :
    (if c' = message.conversationID ∧ r = recipient then n + 1
      else pendingHead conversations message.conversationID n sender ((recipient, served) :: todo) c' r) =
      pendingHead conversations message.conversationID n sender todo c' r := by
  have hnodup := h.nodup
  have hsender := h.sender_notMem
  rw [List.map_cons, List.nodup_cons] at hnodup
  rw [List.map_cons, List.mem_cons, not_or] at hsender
  unfold pendingHead
  by_cases hc : c' = message.conversationID
  · by_cases hr : r = recipient
    · subst hr
      rw [if_pos ⟨hc, rfl⟩, if_neg, hc, h.head]
      rintro ⟨-, rfl | hr⟩
      · exact hsender.1 rfl
      · exact hnodup.1 hr
    · simp [hc, hr]
  · simp [hc]

theorem deliver (h : Fanning conversations R m sender messageID message n ((recipient, true) :: todo) m₁)
    (hd : insertDelivery m₁ id messageID recipient context = .ok m') :
    Fanning conversations R m sender messageID message n todo m' := by
  obtain ⟨t, ht, rfl⟩ := insertDelivery_eq_ok hd
  have hhead : pendingHead conversations message.conversationID n sender ((recipient, true) :: todo)
      message.conversationID recipient = n := by
    simp [pendingHead]
  have hinv := h.inv.insertDelivery h.written (h.receives (by simp)) (by rw [h.sequence, hhead]) ht
  refine ⟨h.head, h.sequence, hinv.congr_head fun c r _ => ?_, ?_, h.written, h.nodup.of_cons, fun hs => ?_,
    fun hr => h.receives (List.mem_cons_of_mem _ hr), h.evolves.andThen unchanged_refl
      (evolves_insertDelivery ht)⟩
  · rw [h.sequence]
    exact h.pendingHead_served c r
  · exact h.quotas.insertDelivery h.written rfl ht
  · exact h.sender_notMem (List.mem_cons_of_mem _ hs)

theorem skip (h : Fanning conversations R m sender messageID message n ((recipient, false) :: todo) m₁)
    (ha : advanceRecipientCursor conversations m₁ recipient message.conversationID = .ok m') :
    Fanning conversations R m sender messageID message n todo m' := by
  have hinv := h.inv.advance ha
  obtain ⟨k, rfl, -, hle⟩ := advanceRecipientCursor_eq_ok (fun p hp => h.inv.below hp) (h.inv.bounded _ _) ha
  refine ⟨h.head, h.sequence, hinv.congr_head fun c r _ => ?_, ?_, h.written, h.nodup.of_cons, fun hs => ?_,
    fun hr => h.receives (List.mem_cons_of_mem _ hr), h.evolves.andThen unchanged_refl (.of_put hle)⟩
  · rw [h.head]
    exact h.pendingHead_served c r
  · exact h.quotas.of_usage (fun _ => rfl) rfl rfl
  · exact h.sender_notMem (List.mem_cons_of_mem _ hs)

/-- A whole fan-out loop. -/
theorem fanOut {ids : FreshIDs} (h : Fanning conversations R m sender ids.messageID message n (targets ++ todo) m₁)
    (hf : fanOut conversations message.conversationID ids context m₁ targets = .ok m') :
    Fanning conversations R m sender ids.messageID message n todo m' := by
  refine foldlM_rule (fun l b => Fanning conversations R m sender ids.messageID message n (l ++ todo) b)
    ?_ h hf
  rintro ⟨recipient, addressed⟩ l b b' hP hone
  unfold fanOutOne at hone
  cases addressed with
  | true => exact hP.deliver hone
  | false => exact hP.skip hone

/-- **Served to the end**: the sender's own cursor moves past its message, if it receives at all. -/
theorem finish (h : Fanning conversations R m sender messageID message n [] m₁)
    (hsender : advanceRecipientCursor conversations m₁ sender message.conversationID = .ok m' ∨
      m' = m₁ ∧ ¬ R message.conversationID sender) :
    MailOK conversations R m' ∧ Evolves Unchanged m m' := by
  rcases hsender with ha | ⟨rfl, hR⟩
  · have hinv := h.inv.advance ha
    obtain ⟨k, rfl, -, hle⟩ := advanceRecipientCursor_eq_ok (fun p hp => h.inv.below hp) (h.inv.bounded _ _) ha
    refine ⟨⟨hinv.congr_head fun c r _ => ?_, ?_⟩, h.evolves.andThen unchanged_refl (.of_put hle)⟩
    · by_cases hc : c = message.conversationID <;> by_cases hr : r = sender <;> simp [pendingHead, hc, hr]
    · exact (h.quotas.nil_bytes 0).of_usage (fun _ => rfl) rfl rfl
  · refine ⟨⟨h.inv.congr_head fun c r hRc => ?_, h.quotas.nil_bytes 0⟩, h.evolves⟩
    unfold pendingHead
    rw [if_neg]
    rintro ⟨rfl, rfl | hr⟩
    · exact hR hRc
    · cases hr

end Fanning

end

end Punaro
