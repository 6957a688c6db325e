import Punaro.Proof.Mail

/-!
# Closing deliveries

Every close, whether by acknowledgement, by age or by revocation, is the same
change of the mail: the row of one pending delivery is closed, its terminal record
written, its quota released and the recipient's cursor advanced. `Closes` is that
change up to the cursor; `Closes.advance` and `Quotas.close` are all that the
closing operations need to keep the mail invariant.
-/

namespace Punaro

open Outcome

/-- The mail between transactions: every head is the last sequence, nothing is owed. -/
structure MailOK (conversations : Table String ConversationRow) (R : String → String → Prop) (m : Mail) :
    Prop where
  inv : MailInv conversations R (fun c _ => lastSequence conversations c) m
  quotas : Quotas m [] 0

/-- The delivery `id` is closed by `f` and recorded as `t`. -/
structure Closes (m m' : Mail) (id : String) (f : DeliveryRow → DeliveryRow) (t : TerminalRow) : Prop where
  messages : m'.messages = m.messages
  deliveries : m'.deliveries = m.deliveries.updateAt id f
  cursors : m'.recipientCursors = m.recipientCursors
  terminals : m'.deliveryTerminals = m.deliveryTerminals.insertOrIgnore id t
  closed : ∀ d, (f d).ackedAt ≠ none
  message : ∀ d, (f d).messageID = d.messageID
  reason : ∀ d, m.deliveries.find? id = some d → (t.closedReason = .acked ↔ (f d).leaseToken ≠ none)

section

variable {conversations : Table String ConversationRow} {R : String → String → Prop} {m m₁ m' : Mail}
  {r r' : JoinedRow} {f : DeliveryRow → DeliveryRow} {t : TerminalRow} {recipient c : String}
variable {now cutoff : Int} {reason : ClosedReason} {closed : Bool}

theorem mem_joined_unique (hr : r ∈ m.joined) (hr' : r' ∈ m.joined) (h : r'.id = r.id) : r' = r := by
  obtain ⟨id, d, message⟩ := r
  obtain ⟨id', d', message'⟩ := r'
  obtain ⟨hd, hm⟩ := mem_joined.1 hr
  obtain ⟨hd', hm'⟩ := mem_joined.1 hr'
  dsimp only at h hd hm hd' hm'
  subst h
  cases hd.symm.trans hd'
  cases hm.symm.trans hm'
  rfl

/-- Exactly the closed row is no longer pending. -/
theorem Closes.mem_joined (h : Closes m m₁ r.id f t) :
    (r' ∈ m₁.joined ∧ r'.delivery.ackedAt = none) ↔
      r' ∈ m.joined ∧ r'.delivery.ackedAt = none ∧ r'.id ≠ r.id := by
  rw [Punaro.mem_joined, Punaro.mem_joined, h.messages, h.deliveries, Table.find?_updateAt]
  by_cases hid : r'.id = r.id
  · simp only [hid, if_true, ne_eq, not_true_eq_false, and_false, iff_false, not_and]
    rintro ⟨hd, -⟩ hp
    obtain ⟨d, -, hd⟩ := Option.map_eq_some_iff.1 hd
    exact h.closed d (hd ▸ hp)
  · simp [hid]

theorem Closes.opened_subset (h : Closes m m₁ r.id f t) : m₁.opened recipient c ⊆ m.opened recipient c := by
  rintro p ⟨r', hr', ⟨ho, hrec, hc⟩, rfl⟩
  exact ⟨r', (h.mem_joined.1 ⟨hr', ho⟩).1, ⟨ho, hrec, hc⟩, rfl⟩

/-- Elsewhere nothing is closed. -/
theorem Closes.opened_eq (h : Closes m m₁ r.id f t) (hr : r ∈ m.joined)
    (hne : ¬ (c = r.message.conversationID ∧ recipient = r.delivery.recipientEndpoint)) :
    m₁.opened recipient c = m.opened recipient c := by
  refine h.opened_subset.antisymm ?_
  rintro p ⟨r', hr', ⟨ho, hrec, hc⟩, rfl⟩
  refine ⟨r', (h.mem_joined.2 ⟨hr', ho, fun hid => hne ?_⟩).1, ⟨ho, hrec, hc⟩, rfl⟩
  cases mem_joined_unique hr hr' hid
  exact ⟨hc.symm, hrec.symm⟩

theorem Closes.evolves (h : Closes m m₁ r.id f t) (hr : r ∈ m.joined) (hp : r.delivery.ackedAt = none) :
    Evolves (fun id d d' => d' = d ∨ id = r.id ∧ d = r.delivery ∧ d' = f d) m m₁ := by
  have hr := (Punaro.mem_joined.1 hr).1
  refine ⟨fun hm => h.messages ▸ hm, fun {id d} hd hc => ?_, fun {id d} hd _ => ?_, fun {id d} hd hd' => ?_,
    fun hk => ⟨_, h.cursors ▸ hk, le_rfl⟩⟩
  · rw [h.deliveries, Table.find?_updateAt, if_neg]
    · exact hd
    · rintro rfl
      rw [hr, Option.some.injEq] at hd
      exact hc (hd ▸ hp)
  · rw [h.deliveries, Table.find?_updateAt, hd]
    split
    · rename_i hid
      rw [hid, hr, Option.some.injEq] at hd
      exact ⟨f d, rfl, .inr ⟨hid, hd.symm, rfl⟩⟩
    · exact ⟨d, rfl, .inl rfl⟩
  · rw [h.deliveries, Table.find?_updateAt, hd] at hd'
    split at hd' <;> cases hd'

/-- **A close with its cursor advance keeps the mail invariant.** -/
theorem Closes.advance (h : Closes m m₁ r.id f t)
    (inv : MailInv conversations R (fun c _ => lastSequence conversations c) m) (hr : r ∈ m.joined)
    (hp : r.delivery.ackedAt = none)
    (ha : advanceRecipientCursor conversations m₁ r.delivery.recipientEndpoint r.message.conversationID =
      .ok m') :
    MailInv conversations R (fun c _ => lastSequence conversations c) m' ∧
      Evolves (fun id d d' => d' = d ∨ id = r.id ∧ d = r.delivery ∧ d' = f d) m m' := by
  have hcursor : ∀ recipient c, m₁.cursor recipient c = m.cursor recipient c := by
    intro recipient c
    rw [Mail.cursor, h.cursors]
    rfl
  obtain ⟨n, rfl, hexact, hle⟩ := advanceRecipientCursor_eq_ok
    (fun p hp => hcursor _ _ ▸ inv.below (h.opened_subset hp)) (hcursor _ _ ▸ inv.bounded _ _) ha
  have hreach : ∀ {c recipient p}, p ∈ m₁.opened recipient c → p ≤ lastSequence conversations c :=
    fun hp => inv.reach (h.opened_subset hp)
  refine ⟨⟨?_, ?_, ?_, ?_, ?_, hreach, ?_⟩, (h.evolves hr hp).andThen (fun _ _ => .inl rfl) (.of_put hle)⟩
  · intro id d hd
    dsimp only at hd ⊢
    rw [h.deliveries, Table.find?_updateAt] at hd
    rw [h.messages]
    split at hd
    · obtain ⟨d₀, hd₀, rfl⟩ := Option.map_eq_some_iff.1 hd
      rw [h.message]
      exact inv.sent hd₀
    · exact inv.sent hd
  · intro id message hm
    rw [show _ = _ from h.messages] at hm
    exact inv.placed hm
  · intro id t' ht
    dsimp only at ht ⊢
    rw [h.terminals, Table.find?_insertOrIgnore] at ht
    rw [h.deliveries, Table.find?_updateAt]
    have hd := (Punaro.mem_joined.1 hr).1
    split at ht
    · rename_i hid
      subst hid
      -- A pending delivery has no record yet, so the new one is the one kept.
      have hnone : m.deliveryTerminals.find? r.id = none := by
        rw [Option.eq_none_iff_forall_ne_some]
        intro t₀ ht₀
        obtain ⟨d, hd', hc, -⟩ := inv.recorded ht₀
        rw [hd, Option.some.injEq] at hd'
        exact hc (hd' ▸ hp)
      rw [hnone, Option.getD_none, Option.some.injEq] at ht
      exact ⟨f r.delivery, by rw [if_pos rfl, hd, Option.map_some], h.closed _, ht ▸ h.reason _ hd⟩
    · rename_i hid
      rw [if_neg hid]
      exact inv.recorded ht
  · intro r' hr' hp'
    exact inv.received (h.mem_joined.1 ⟨hr', hp'⟩).1 hp'
  · intro c recipient hR
    rw [cursor_put, hcursor]
    split
    · rename_i hc
      obtain ⟨rfl, rfl⟩ := hc
      exact hexact
    · rename_i hne
      have hold := inv.exact hR
      rw [← h.opened_eq hr hne] at hold
      exact hold
  · intro c recipient
    rw [cursor_put, hcursor]
    split
    · rename_i hc
      rw [hc.1]
      exact hexact.le_head fun p hp => hreach hp
    · exact inv.bounded c recipient

/-! ## The closing functions -/

/-- Closing a pending row leaves its release owed. -/
theorem MailOK.owed (ok : MailOK conversations R m) (hr : r ∈ m.joined) (hp : r.delivery.ackedAt = none)
    (hf : (f r.delivery).ackedAt ≠ none) (t : Table String TerminalRow) :
    Quotas { m with deliveries := m.deliveries.updateAt r.id f, deliveryTerminals := t }
      [r.delivery.recipientEndpoint] r.bodyBytes := by
  obtain ⟨hd, hm⟩ := mem_joined.1 hr
  exact ((ok.quotas.nil_bytes r.bodyBytes).close hd hp hm rfl hf).of_usage (fun _ => rfl) rfl rfl

theorem closePendingDelivery_pending (hr : r ∈ m.joined) (hp : r.delivery.ackedAt = none) :
    closePendingDelivery conversations m r.pendingClose reason now = do
      require (r.id ≠ "" ∧ r.delivery.recipientEndpoint ≠ "") (.message "invalid terminal close")
      let m ← releaseQuota { m with
        deliveries := m.deliveries.updateAt r.id (.retire (unixMilli (truncateMilli now)))
        deliveryTerminals := m.deliveryTerminals.insertOrIgnore r.id
          (r.pendingClose.terminal reason (unixMilli (truncateMilli now))) }
        r.delivery.recipientEndpoint r.bodyBytes
      let m ← advanceRecipientCursor conversations m r.delivery.recipientEndpoint r.message.conversationID
      return (m, true) := by
  have hpending : (m.deliveries.find? r.id).any (fun d => d.ackedAt.isNone) = true := by
    simp [(mem_joined.1 hr).1, hp]
  unfold closePendingDelivery
  simp only [JoinedRow.pendingClose, hpending, if_true]
  rfl

/-- **Closing a pending delivery** by age or by revocation. -/
theorem closePendingDelivery_spec (ok : MailOK conversations R m) (hr : r ∈ m.joined)
    (hp : r.delivery.ackedAt = none) (hreason : reason ≠ .acked)
    (h : closePendingDelivery conversations m r.pendingClose reason now = .ok (m', closed)) :
    MailOK conversations R m' ∧ Evolves Retired m m' ∧
      ∀ r', (r' ∈ m'.joined ∧ r'.delivery.ackedAt = none) ↔
        r' ∈ m.joined ∧ r'.delivery.ackedAt = none ∧ r'.id ≠ r.id := by
  rw [closePendingDelivery_pending hr hp] at h
  simp only [ok_rules, Prod.mk.injEq] at h
  obtain ⟨-, -, m₂, hrelease, m₃, hadvance, rfl, -⟩ := h
  have hquotas := (ok.owed hr hp (by simp [DeliveryRow.retire]) _).releaseQuota hrelease
  have hcloses : Closes m m₂ r.id (.retire (unixMilli (truncateMilli now)))
      (r.pendingClose.terminal reason (unixMilli (truncateMilli now))) := by
    obtain ⟨q, i, rfl⟩ := releaseQuota_frame hrelease
    refine ⟨rfl, rfl, rfl, rfl, fun d => ?_, fun d => rfl, fun d _ => ?_⟩
    · simp [DeliveryRow.retire]
    · simp [PendingClose.terminal, hreason, DeliveryRow.retire, DeliveryRow.unlease]
  obtain ⟨hinv, hevolves⟩ := hcloses.advance ok.inv hr hp hadvance
  obtain ⟨t, rfl⟩ := advanceRecipientCursor_frame hadvance
  refine ⟨⟨hinv, ?_⟩, ?_, fun r' => hcloses.mem_joined⟩
  · exact (hquotas.nil_bytes 0).of_usage (fun _ => rfl) rfl rfl
  · exact hevolves.mono fun _ _ _ hc => hc.imp_right fun hc => ⟨_, hc.2.2⟩

/-- Closing a pending delivery never finds the counters inconsistent. -/
theorem closePendingDelivery_error (ok : MailOK conversations R m) (hr : r ∈ m.joined)
    (hp : r.delivery.ackedAt = none) :
    OnError QuotaSafe
      (closePendingDelivery conversations m r.pendingClose reason now) := by
  rw [closePendingDelivery_pending hr hp]
  have hrelease := (ok.owed hr hp (f := .retire (unixMilli now)) (by simp [DeliveryRow.retire])
    (m.deliveryTerminals.insertOrIgnore r.id (r.pendingClose.terminal reason (unixMilli now)))).releaseQuota_error
  simp [hrelease, advanceRecipientCursor_error]

/-! ## Retiring a recipient's deliveries -/

theorem joined_ids_nodup (m : Mail) : (m.joined.map JoinedRow.id).Nodup := by
  refine m.deliveries.nodup.sublist ?_
  unfold Mail.joined
  induction m.deliveries.rows with
  | nil => simp
  | cons d rows ih =>
    rw [List.filterMap_cons]
    split
    · exact ih.cons _
    · rename_i r hr
      obtain ⟨message, -, rfl⟩ := Option.map_eq_some_iff.1 hr
      exact ih.cons_cons _

/-- In the middle of the loop: the remaining rows are exactly what is still pending. -/
structure Retiring (conversations : Table String ConversationRow) (R : String → String → Prop) (m : Mail)
    (recipient c : String) (rows : List JoinedRow) (m₁ : Mail) : Prop where
  ok : MailOK conversations R m₁
  evolves : Evolves Retired m m₁
  nodup : (rows.map JoinedRow.id).Nodup
  mem : ∀ r, r ∈ rows ↔ r ∈ m₁.joined ∧ r.PendingIn recipient c

theorem Retiring.start (ok : MailOK conversations R m) :
    Retiring conversations R m recipient c (m.joined.filter fun r =>
      r.delivery.recipientEndpoint == recipient && r.delivery.ackedAt.isNone &&
        r.message.conversationID == c) m := by
  refine ⟨ok, .refl retired_refl m, ?_, fun r => ?_⟩
  · exact (joined_ids_nodup m).sublist (List.filter_sublist.map _)
  · simp only [List.mem_filter, Bool.and_eq_true, beq_iff_eq, Option.isNone_iff_eq_none,
      JoinedRow.PendingIn]
    tauto

theorem Retiring.pass {rows : List JoinedRow} (h : Retiring conversations R m recipient c (r :: rows) m₁)
    (hclose : closePendingDelivery conversations m₁ r.pendingClose .revoked now = .ok (m', closed)) :
    Retiring conversations R m recipient c rows m' := by
  have hnodup := h.nodup
  rw [List.map_cons, List.nodup_cons] at hnodup
  obtain ⟨hr, hp⟩ := (h.mem r).1 List.mem_cons_self
  obtain ⟨hok, hevolves, hmem⟩ := closePendingDelivery_spec h.ok hr hp.1 (by decide) hclose
  refine ⟨hok, h.evolves.trans retired_trans hevolves, hnodup.2, fun r' => ?_⟩
  constructor
  · intro hr'
    obtain ⟨hj, hp'⟩ := (h.mem r').1 (List.mem_cons_of_mem _ hr')
    have hne : r'.id ≠ r.id := fun hid => hnodup.1 (List.mem_map.2 ⟨r', hr', hid⟩)
    exact ⟨((hmem r').2 ⟨hj, hp'.1, hne⟩).1, hp'⟩
  · rintro ⟨hj, hp'⟩
    obtain ⟨hj, -, hne⟩ := (hmem r').1 ⟨hj, hp'.1⟩
    rcases List.mem_cons.1 ((h.mem r').2 ⟨hj, hp'⟩) with rfl | hr'
    · exact absurd rfl hne
    · exact hr'

/-- **Retiring** keeps the mail invariant and leaves nothing open. -/
theorem retireRecipientDeliveries_spec {n : ℕ} (ok : MailOK conversations R m)
    (h : retireRecipientDeliveries conversations m recipient c now = .ok (m', n)) :
    MailOK conversations R m' ∧ Evolves Retired m m' ∧ m'.opened recipient c = ∅ := by
  unfold retireRecipientDeliveries at h
  rw [List.foldlM_map] at h
  have hend := foldlM_rule
    (fun rows (acc : Mail × ℕ) => Retiring conversations R m recipient c rows acc.1) ?_ (.start ok) h
  · refine ⟨hend.ok, hend.evolves, Set.eq_empty_of_forall_notMem ?_⟩
    rintro p ⟨r, hr, hp, -⟩
    exact List.not_mem_nil ((hend.mem r).2 ⟨hr, hp⟩)
  · intro r rows acc acc' hP hpass
    simp only [ok_rules] at hpass
    obtain ⟨⟨m₂, closed⟩, hclose, rfl⟩ := hpass
    exact hP.pass hclose

theorem retireRecipientDeliveries_error (ok : MailOK conversations R m) :
    OnError QuotaSafe
      (retireRecipientDeliveries conversations m recipient c now) := by
  unfold retireRecipientDeliveries
  rw [List.foldlM_map]
  refine onError_foldlM
    (fun rows (acc : Mail × ℕ) => Retiring conversations R m recipient c rows acc.1) ?_ ?_ (.start ok)
  · intro r rows acc acc' hP hpass
    simp only [ok_rules] at hpass
    obtain ⟨⟨m₂, closed⟩, hclose, rfl⟩ := hpass
    exact hP.pass hclose
  · intro r rows acc hP
    obtain ⟨hr, hp⟩ := (hP.mem r).1 List.mem_cons_self
    simp [closePendingDelivery_error hP.ok hr hp.1]

/-! ## Maintenance -/

theorem oldestDue_pending (h : oldestDue m cutoff = some r) : r ∈ m.joined ∧ r.delivery.ackedAt = none := by
  have hmem := List.mem_of_mem_head? h
  rw [List.mem_insertionSort, List.mem_filter, Bool.and_eq_true, Option.isNone_iff_eq_none] at hmem
  exact ⟨hmem.1, hmem.2.1⟩

theorem expireOneDueDelivery_spec (ok : MailOK conversations R m)
    (h : expireOneDueDelivery conversations m cutoff now = .ok (some (m', closed))) :
    MailOK conversations R m' ∧ Evolves Retired m m' := by
  unfold expireOneDueDelivery at h
  split at h
  · cases h
  · rename_i r hdue
    simp only [ok_rules, Option.some.injEq, exists_eq_right] at h
    obtain ⟨hr, hp⟩ := oldestDue_pending hdue
    obtain ⟨hok, hevolves, -⟩ := closePendingDelivery_spec ok hr hp (by decide) h
    exact ⟨hok, hevolves⟩

theorem expireOneDueDelivery_error (ok : MailOK conversations R m) :
    OnError QuotaSafe (expireOneDueDelivery conversations m cutoff now) := by
  unfold expireOneDueDelivery
  split
  · exact onError_ok
  · rename_i r hdue
    obtain ⟨hr, hp⟩ := oldestDue_pending hdue
    simp [closePendingDelivery_error ok hr hp]

theorem expireLoop_spec (cutoff now : Int) (batch : ℕ) (m : Mail) (result : MaintenanceResult)
    (ok : MailOK conversations R m) :
    MailOK conversations R (expireLoop conversations cutoff now batch m result).1 ∧
      Evolves Retired m (expireLoop conversations cutoff now batch m result).1 ∧
      ∀ e, (expireLoop conversations cutoff now batch m result).2.2 = some e →
        QuotaSafe e := by
  induction batch generalizing m result with
  | zero => exact ⟨ok, .refl retired_refl m, fun e he => by cases he⟩
  | succ batch ih =>
    unfold expireLoop
    split
    · rename_i e he
      refine ⟨ok, .refl retired_refl m, fun e' he' => ?_⟩
      cases he'
      exact expireOneDueDelivery_error ok e he
    · exact ⟨ok, .refl retired_refl m, fun e he => by cases he⟩
    · rename_i m₁ closed hone
      obtain ⟨hok, hevolves⟩ := expireOneDueDelivery_spec ok hone
      obtain ⟨hok', hevolves', herror⟩ := ih m₁ _ hok
      exact ⟨hok', hevolves.trans retired_trans hevolves', herror⟩

/-- Terminal records may be dropped. -/
theorem MailOK.of_terminals {t : Table String TerminalRow} (ok : MailOK conversations R m)
    (ht : ∀ {id row}, t.find? id = some row → m.deliveryTerminals.find? id = some row) :
    MailOK conversations R { m with deliveryTerminals := t } where
  inv := { ok.inv with recorded := fun h => ok.inv.recorded (ht h) }
  quotas := ok.quotas.of_usage (fun _ => rfl) rfl rfl

theorem pruneLoop_spec (cutoff : Int) (batch : ℕ) (m : Mail) (result : MaintenanceResult)
    (ok : MailOK conversations R m) :
    MailOK conversations R (pruneLoop cutoff batch m result).1 ∧
      Evolves Unchanged m (pruneLoop cutoff batch m result).1 := by
  induction batch generalizing m result with
  | zero => exact ⟨ok, .refl unchanged_refl m⟩
  | succ batch ih =>
    unfold pruneLoop
    split
    · exact ⟨ok, .refl unchanged_refl m⟩
    · rename_i m₁ hone
      obtain ⟨row, -, rfl⟩ := Option.map_eq_some_iff.1 hone
      obtain ⟨hok, hevolves⟩ := ih _ { result with pruned := result.pruned + 1 } (ok.of_terminals fun h =>
        (Table.find?_deleteWhere_eq_some.1 h).1)
      have hprune : ∀ t, Evolves Unchanged m { m with deliveryTerminals := t } := fun t =>
        .of_tables unchanged_refl rfl rfl rfl
      exact ⟨hok, (hprune _).andThen unchanged_refl hevolves⟩

/-- **Maintenance** keeps the mail invariant, also when it stops with an error. -/
theorem maintainDeliveries_spec {s : Store} (now : Int) (ok : MailOK s.rooms.conversations R s.mail) :
    ∃ m', (maintainDeliveries s now).1 = { s with mail := m' } ∧ MailOK s.rooms.conversations R m' ∧
      Evolves Retired s.mail m' ∧
      ∀ e, (maintainDeliveries s now).2.2 = some e → QuotaSafe e := by
  unfold maintainDeliveries
  dsimp only
  have hloop := fun cutoff => expireLoop_spec cutoff (truncateMilli now)
    s.retentionConfig.maintenanceBatch s.mail ⟨0, 0, 0⟩ ok
  split
  · rename_i m₁ result e heq
    obtain ⟨hok, hevolves, herror⟩ := heq ▸ hloop _
    exact ⟨m₁, rfl, hok, hevolves, herror⟩
  · rename_i m₁ result heq
    obtain ⟨hok, hevolves, -⟩ := heq ▸ hloop _
    obtain ⟨hok', hevolves'⟩ := pruneLoop_spec
      (unixMilli (truncateMilli now - s.retentionConfig.terminalRetentionSeconds * 1000000000))
      s.retentionConfig.maintenanceBatch m₁ result hok
    exact ⟨_, rfl, hok', hevolves.andThen retired_refl hevolves', fun e he => by cases he⟩

/-! ## Acknowledging -/

/-- The pending delivery stays as it is, or it is `id₀` and its holder acknowledges it. -/
def Acknowledged (id₀ : String) (id : String) (d d' : DeliveryRow) : Prop :=
  d' = d ∨ id = id₀ ∧ d.leaseToken ≠ none ∧ ∃ closedAt, d' = { d with ackedAt := some closedAt }

/-- The row of an acknowledged delivery. -/
def DeliveryRow.ack (closedAt : Int) (d : DeliveryRow) : DeliveryRow := { d with ackedAt := some closedAt }

theorem closeAcked_pending (hr : r ∈ m.joined) (hp : r.delivery.ackedAt = none) :
    closeAcked conversations m r.id r.delivery now = (do
      let m ← releaseQuota { m with deliveries := m.deliveries.updateAt r.id (.ack (unixMilli now)) }
        r.delivery.recipientEndpoint r.bodyBytes
      let m ← recordAckedTerminal m r.id now
      advanceRecipientCursor conversations m r.delivery.recipientEndpoint r.message.conversationID) := by
  unfold closeAcked
  simp only [hp, Option.isNone_none, if_true, (mem_joined.1 hr).2]
  rfl

theorem recordAckedTerminal_eq_ok {id : String} (h : recordAckedTerminal m id now = .ok m') :
    ∃ t, t.closedReason = .acked ∧
      m' = { m with deliveryTerminals := m.deliveryTerminals.insertOrIgnore id t } := by
  unfold recordAckedTerminal at h
  simp only [ok_rules] at h
  obtain ⟨d, -, message, -, rfl⟩ := h
  exact ⟨_, rfl, rfl⟩

/-- **Acknowledging a pending delivery** that is leased. -/
theorem closeAcked_spec (ok : MailOK conversations R m) (hr : r ∈ m.joined) (hp : r.delivery.ackedAt = none)
    (htoken : r.delivery.leaseToken ≠ none) (h : closeAcked conversations m r.id r.delivery now = .ok m') :
    MailOK conversations R m' ∧ Evolves (Acknowledged r.id) m m' ∧
      m'.deliveries.find? r.id = some (r.delivery.ack (unixMilli now)) := by
  have hd := (mem_joined.1 hr).1
  rw [closeAcked_pending hr hp] at h
  simp only [bind_eq_ok] at h
  obtain ⟨m₂, hrelease, m₃, hrecord, hadvance⟩ := h
  have hquotas := (ok.owed hr hp (by simp [DeliveryRow.ack]) m.deliveryTerminals).releaseQuota hrelease
  obtain ⟨t, hreason, hm₃⟩ := recordAckedTerminal_eq_ok hrecord
  have hcloses : Closes m m₃ r.id (.ack (unixMilli now)) t := by
    obtain ⟨q, i, rfl⟩ := releaseQuota_frame hrelease
    subst hm₃
    refine ⟨rfl, rfl, rfl, rfl, fun d => by simp [DeliveryRow.ack], fun d => rfl, fun d hd' => ?_⟩
    rw [hd, Option.some.injEq] at hd'
    simpa [hreason, DeliveryRow.ack, ← hd'] using htoken
  obtain ⟨hinv, hevolves⟩ := hcloses.advance ok.inv hr hp hadvance
  obtain ⟨cursors, rfl⟩ := advanceRecipientCursor_frame hadvance
  refine ⟨⟨hinv, ?_⟩, hevolves.mono fun id d d' hc => hc.imp_right ?_, ?_⟩
  · subst hm₃
    exact (hquotas.nil_bytes 0).of_usage (fun _ => rfl) rfl rfl
  · rintro ⟨rfl, rfl, rfl⟩
    exact ⟨rfl, htoken, _, rfl⟩
  · rw [hcloses.deliveries, Table.find?_updateAt, if_pos rfl, hd, Option.map_some]

theorem closeAcked_error (now : Int) (ok : MailOK conversations R m) (hr : r ∈ m.joined)
    (hp : r.delivery.ackedAt = none) :
    OnError QuotaSafe (closeAcked conversations m r.id r.delivery now) := by
  rw [closeAcked_pending hr hp]
  have hrelease := (ok.owed hr hp (f := .ack (unixMilli now)) (by simp [DeliveryRow.ack])
    m.deliveryTerminals).releaseQuota_error
  simp [hrelease, recordAckedTerminal, advanceRecipientCursor_error]

/-! ## Rewriting leases -/

/-- Changing the leases of pending deliveries keeps the mail invariant. -/
theorem MailOK.update {g : String → DeliveryRow → DeliveryRow} (ok : MailOK conversations R m)
    (hclosed : ∀ {id d}, m.deliveries.find? id = some d → d.ackedAt ≠ none → g id d = d)
    (hg : ∀ {id d}, m.deliveries.find? id = some d → (g id d).messageID = d.messageID ∧
      (g id d).recipientEndpoint = d.recipientEndpoint ∧ (g id d).ackedAt = d.ackedAt) :
    MailOK conversations R { m with deliveries := m.deliveries.update g } := by
  have hfind : ∀ {id d'}, (m.deliveries.update g).find? id = some d' →
      ∃ d, m.deliveries.find? id = some d ∧ d' = g id d := by
    intro id d' h
    rw [Table.find?_update] at h
    obtain ⟨d, hd, rfl⟩ := Option.map_eq_some_iff.1 h
    exact ⟨d, hd, rfl⟩
  have hjoined : ∀ {r'}, r' ∈ Mail.joined { m with deliveries := m.deliveries.update g } →
      ∃ r ∈ m.joined, r'.delivery.recipientEndpoint = r.delivery.recipientEndpoint ∧
        r'.delivery.ackedAt = r.delivery.ackedAt ∧ r'.message = r.message := by
    intro r' hr'
    obtain ⟨hd', hm⟩ := mem_joined.1 hr'
    obtain ⟨d, hd, heq⟩ := hfind hd'
    obtain ⟨h₁, h₂, h₃⟩ := hg hd
    refine ⟨⟨r'.id, d, r'.message⟩, mem_joined.2 ⟨hd, ?_⟩, ?_, ?_, rfl⟩
    · rw [← h₁, ← heq]; exact hm
    · rw [heq, h₂]
    · rw [heq, h₃]
  have hopened : ∀ recipient c, Mail.opened { m with deliveries := m.deliveries.update g } recipient c =
      m.opened recipient c := by
    intro recipient c
    ext p
    constructor
    · rintro ⟨r', hr', ⟨ho, hrec, hc⟩, rfl⟩
      obtain ⟨r, hr, h₁, h₂, h₃⟩ := hjoined hr'
      exact ⟨r, hr, ⟨h₂ ▸ ho, h₁ ▸ hrec, h₃ ▸ hc⟩, by rw [h₃]⟩
    · rintro ⟨r, hr, ⟨ho, hrec, hc⟩, rfl⟩
      obtain ⟨hd, hm⟩ := mem_joined.1 hr
      obtain ⟨h₁, h₂, h₃⟩ := hg hd
      refine ⟨⟨r.id, g r.id r.delivery, r.message⟩, mem_joined.2 ⟨?_, h₁ ▸ hm⟩,
        ⟨h₃ ▸ ho, h₂ ▸ hrec, hc⟩, rfl⟩
      rw [Table.find?_update, hd, Option.map_some]
  refine ⟨⟨fun hd' => ?_, ok.inv.placed, fun ht => ?_, fun hr' hp => ?_, fun hR => ?_, fun hp => ?_,
    ok.inv.bounded⟩, ok.quotas.of_usage (fun p => usage_update fun id d hd => hg hd) rfl rfl⟩
  · obtain ⟨d, hd, rfl⟩ := hfind hd'
    rw [(hg hd).1]
    exact ok.inv.sent hd
  · obtain ⟨d, hd, hc, hreason⟩ := ok.inv.recorded ht
    refine ⟨d, ?_, hc, hreason⟩
    rw [Table.find?_update, hd, Option.map_some, hclosed hd hc]
  · obtain ⟨r, hr, h₁, h₂, h₃⟩ := hjoined hr'
    rw [h₁, h₃]
    exact ok.inv.received hr (h₂ ▸ hp)
  · rw [hopened]
    exact ok.inv.exact hR
  · rw [hopened] at hp
    exact ok.inv.reach hp

end

end Punaro
