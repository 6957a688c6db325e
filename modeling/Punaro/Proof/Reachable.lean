import Punaro.Proof.Refusals

/-!
# What holds in every reachable store

The results about the mail, over every list of calls from the empty database:
the counters are exact (`pendingQuota_exact`), a receiving member's cursor is its
watermark (`cursor_exact`), pending mail is addressed to members that receive, so
leasing never stumbles over its own page (`pending_receives`), and a delivery is
closed once, by an acknowledgement or not (`closed_once`).
-/

namespace Punaro

open Outcome

section

variable {E : Env} {s s' : Store} {ops : List Op} {n : ℕ}
variable {id machineID endpoint c recipient token : String} {now generation : Int} {d : DeliveryRow}
  {r : Rooms}

/-! ## Counters -/

/-- **The quota counters are exact**, no call is ever refused because they are not, and the relay's own
verification succeeds. -/
theorem pendingQuota_exact (E : Env) (ops : List Op) :
    let s := run E Store.empty ops
    (∀ id d, s.mail.deliveries.find? id = some d → (s.mail.messages.find? d.messageID).isSome) ∧
      readInstallQuota s.mail = measure s.mail.pendingRows ∧
      (∀ recipient q, s.mail.pendingQuotaRecipients.find? recipient = some q →
        q = measure (s.mail.pendingFor recipient)) ∧
      (∀ id d, s.mail.deliveries.find? id = some d → d.ackedAt = none →
        (s.mail.pendingQuotaRecipients.find? d.recipientEndpoint).isSome) ∧
      (∀ op e, (step E s op).2 = .refused e → e.is .quotaInconsistent = false) ∧
      verifyPendingQuota s.mail = .ok () := by
  intro s
  have ok : StoreOK s := run_ok ops
  have hquotas := ok.mail.quotas
  have hsent : ∀ id d, s.mail.deliveries.find? id = some d → (s.mail.messages.find? d.messageID).isSome := by
    intro id d hd
    obtain ⟨message, hm⟩ := ok.mail.inv.sent hd
    simp [hm]
  refine ⟨hsent, ?_, fun recipient q hq => ?_, fun id d hd hp => ?_, fun op e h => step_quotaSafe ok op h,
    hquotas.verifyPendingQuota⟩
  · apply QuotaCounters.pair_injective
    rw [measure_pendingRows]
    simpa using hquotas.install
  · apply QuotaCounters.pair_injective
    rw [measure_pendingFor]
    simpa using hquotas.charged hq
  · obtain ⟨message, hm⟩ := ok.mail.inv.sent hd
    have hj : (⟨id, d, message⟩ : JoinedRow) ∈ s.mail.joined := mem_joined.2 ⟨hd, hm⟩
    exact hquotas.covers hj hp

/-! ## Cursors -/

theorem RoomsOK.receives_conversation (ok : RoomsOK r) (h : Receives r c recipient) :
    ∃ row, r.conversations.find? c = some row := by
  rcases h with ⟨cap, hm, -⟩ | ⟨role, cap, -, hm, -⟩
  · exact Option.isSome_iff_exists.1 (ok.member hm).2
  · exact Option.isSome_iff_exists.1 (ok.roleMember hm).2

/-- **Cursors are exact**: a receiving member's cursor stands before its first unacknowledged message, or
at the conversation's last one, and no call moves a stored cursor back. -/
theorem cursor_exact (E : Env) (ops : List Op) :
    let s := run E Store.empty ops
    (∀ c recipient, Receives s.rooms c recipient → ∃ row, s.rooms.conversations.find? c = some row ∧
      (∀ sequence, IsLeast (s.mail.opened recipient c) sequence → s.mail.cursor recipient c + 1 = sequence) ∧
      (s.mail.opened recipient c = ∅ → s.mail.cursor recipient c = row.nextSequence)) ∧
      ∀ op k cursor, s.mail.recipientCursors.find? k = some cursor →
        ∃ cursor', (step E s op).1.mail.recipientCursors.find? k = some cursor' ∧ cursor ≤ cursor' := by
  intro s
  have ok : StoreOK s := run_ok ops
  refine ⟨fun c recipient hr => ?_, fun op k cursor h => (step_keeps ok op).evolves.cursors h⟩
  obtain ⟨row, hrow⟩ := ok.rooms.receives_conversation hr
  have hmark := ok.mail.inv.exact hr
  rw [lastSequence_eq hrow] at hmark
  refine ⟨row, hrow, fun sequence hleast => ?_, fun hempty => ?_⟩
  · rcases hmark with h | ⟨h, -⟩
    · exact h.unique hleast
    · rw [h] at hleast
      exact absurd hleast.1 (Set.notMem_empty _)
  · rcases hmark with h | ⟨-, h⟩
    · rw [hempty] at h
      exact absurd h.1 (Set.notMem_empty _)
    · exact h

/-! ## Recipients -/

/-- A lease finds the right a recipient key holds. -/
theorem RoomsOK.recipientCapabilities_eq_some (ok : RoomsOK r) (h : Receives r c recipient) :
    ∃ cap, recipientCapabilities r c recipient = some cap ∧ Capability.has cap capReceive := by
  unfold recipientCapabilities
  rcases h with ⟨cap, hm, hcap⟩ | ⟨role, cap, rfl, hm, hcap⟩
  · rw [parseRoleRecipient_endpoint (ok.member hm).1]
    exact ⟨cap, hm, hcap⟩
  · rw [parseRoleRecipient_roleRecipient (ok.roleMember hm).1]
    exact ⟨cap, hm, hcap⟩

theorem recipientCursorForLease_ok {m : Mail} {recipientIDs : List String} (ok : RoomsOK r)
    (h : Receives r c recipient) (hmem : recipient ∈ recipientIDs) :
    ∃ cursor, recipientCursorForLease r m recipientIDs c = .ok cursor := by
  obtain ⟨cap, hcap, hreceive⟩ := ok.recipientCapabilities_eq_some h
  simp only [recipientCursorForLease, ofOption_eq_ok]
  rw [← Option.isSome_iff_exists, List.isSome_min?_iff, ne_eq, List.map_eq_nil_iff]
  refine List.ne_nil_of_mem (a := recipient) (List.mem_filter.2 ⟨hmem, ?_⟩)
  simp [hcap, hreceive]

/-- An unfiltered lease by the owner of the endpoint is never forbidden. -/
theorem leaseDeliveries_not_forbidden {consumerID : String} {ttl limit : Int} {token : String → String}
    {generation : ℕ} (ok : StoreOK s)
    (hown : endpointOwnership s.presence endpoint machineID now = .ok generation) :
    OnError (fun e => e.is .forbidden = false)
      (leaseDeliveries s machineID consumerID endpoint "" now ttl limit token) := by
  simp only [leaseDeliveries, onError_bind, onError_require, onError_ofOption, hown, Except.ok.injEq,
    onError_ok, true_and, onError_pure]
  refine ⟨fun _ => rfl, fun _ _ => ?_⟩
  rintro _ rfl
  refine ⟨fun _ => rfl, fun row _ => ⟨?_, fun row' _ => ⟨onError_mapM _ fun c hc => ?_, fun _ _ => trivial⟩⟩⟩
  · simp [claimConsumer, Err.is]
  · simp only [if_true, List.nil_append, List.mem_dedup, List.mem_map] at hc
    obtain ⟨r, hr, rfl⟩ := hc
    obtain ⟨hj, hp, hmem, -⟩ := mem_leasePage hr
    obtain ⟨cursor, hcursor⟩ := recipientCursorForLease_ok ok.rooms (ok.mail.inv.received hj hp) hmem
    rw [hcursor]
    exact onError_ok

/-- **Pending mail is addressed to members that receive**, so an unfiltered lease by the owner of a live
endpoint is never forbidden. -/
theorem pending_receives (E : Env) (ops : List Op) :
    let s := run E Store.empty ops
    (∀ id d, s.mail.deliveries.find? id = some d → d.ackedAt = none →
      ∃ message, s.mail.messages.find? d.messageID = some message ∧
        Receives s.rooms message.conversationID d.recipientEndpoint) ∧
      ∀ machineID consumerID endpoint now ttl limit token generation e,
        endpointOwnership s.presence endpoint machineID now = .ok generation →
        leaseDeliveries s machineID consumerID endpoint "" now ttl limit token = .error e →
        e.is .forbidden = false := by
  intro s
  have ok : StoreOK s := run_ok ops
  refine ⟨fun id d hd hp => ?_, fun _ _ _ _ _ _ _ _ e hown h => leaseDeliveries_not_forbidden ok hown e h⟩
  obtain ⟨message, hm⟩ := ok.mail.inv.sent hd
  have hj : (⟨id, d, message⟩ : JoinedRow) ∈ s.mail.joined := mem_joined.2 ⟨hd, hm⟩
  exact ⟨message, hm, ok.mail.inv.received hj hp⟩

/-! ## Closing -/

/-- The delivery a call acknowledges, if it is an acknowledgement. -/
def Op.acks : Op → Option String
  | .ackDelivery _ _ deliveryID .. => some deliveryID
  | _ => none

/-- Call number `k` takes the delivery out of the pending state. -/
def ClosesAt (E : Env) (ops : List Op) (k : ℕ) (id : String) : Prop :=
  (∃ d, (stateAt E ops k).mail.deliveries.find? id = some d ∧ d.ackedAt = none) ∧
    ∃ d, (stateAt E ops (k + 1)).mail.deliveries.find? id = some d ∧ d.ackedAt ≠ none

/-- Only an acknowledgement closes a delivery and leaves it its lease, and only a leased one. -/
theorem Op.change_acked {op : Op} {d' : DeliveryRow} (h : op.change id d d') (hp : d.ackedAt = none)
    (hc : d'.ackedAt ≠ none) (ht : d'.leaseToken ≠ none) :
    d.leaseToken ≠ none ∧ op.acks = some id := by
  have hretired : ¬Retired id d d' := by
    rintro (rfl | ⟨closedAt, rfl⟩)
    · exact hc hp
    · exact ht rfl
  cases op
  case ackDelivery =>
    rcases h with rfl | ⟨rfl, ht', -⟩
    · exact absurd hp hc
    · exact ⟨ht', rfl⟩
  case applyControl | prepareTelegramAdopt | maintainDeliveries => exact absurd h hretired
  case bindRoleToSession =>
    rcases h with rfl | rfl
    · exact absurd hp hc
    · exact absurd hp hc
  case leaseDeliveries =>
    rcases h with rfl | ⟨_, _, _, rfl⟩
    · exact absurd hp hc
    · exact absurd hp hc
  all_goals
    cases h
    exact absurd hp hc

theorem closed_stays {i j : ℕ} (hij : i ≤ j) (hd : (stateAt E ops i).mail.deliveries.find? id = some d)
    (hc : d.ackedAt ≠ none) :
    (stateAt E ops j).mail.deliveries.find? id = some d :=
  stateAt_rule (P := fun s => s.mail.deliveries.find? id = some d) hij
    (fun k op _ _ _ h => (step_keeps (stateAt_ok ops k) op).evolves.closed h hc) hd

/-- A closed delivery that has its lease was closed by an acknowledgement. -/
theorem closed_by_ack (hd : (stateAt E ops n).mail.deliveries.find? id = some d) (hc : d.ackedAt ≠ none)
    (ht : d.leaseToken ≠ none) :
    ∃ k < n, (∃ op, ops[k]? = some op ∧ op.acks = some id) ∧ ClosesAt E ops k id := by
  induction n with
  | zero =>
    rw [stateAt_zero] at hd
    cases hd
  | succ n ih =>
    cases hop : ops[n]? with
    | none =>
      rw [stateAt_succ_of_none hop] at hd
      obtain ⟨k, hk, h⟩ := ih hd
      exact ⟨k, by omega, h⟩
    | some op =>
      have hkeeps := (stateAt_keeps (E := E) hop).evolves
      cases hbefore : (stateAt E ops n).mail.deliveries.find? id with
      | none =>
        obtain ⟨messageID, recipient, hchange⟩ := hkeeps.fresh hbefore hd
        exact absurd rfl (op.change_acked hchange rfl hc ht).1
      | some d₀ =>
        by_cases hp : d₀.ackedAt = none
        · obtain ⟨d', hd', hchange⟩ := hkeeps.pending hbefore hp
          cases hd.symm.trans hd'
          exact ⟨n, by omega, ⟨op, hop, (op.change_acked hchange hp hc ht).2⟩, ⟨d₀, hbefore, hp⟩, d, hd, hc⟩
        · cases hd.symm.trans (hkeeps.closed hbefore hp)
          obtain ⟨k, hk, h⟩ := ih hbefore
          exact ⟨k, by omega, h⟩

/-- The row of an acknowledged delivery. -/
theorem ackDelivery_closed (ok : StoreOK s)
    (h : ackDelivery s machineID endpoint id token generation now = .ok s') :
    ∃ d, s'.mail.deliveries.find? id = some d ∧ d.ackedAt ≠ none ∧ d.leaseToken = some token := by
  obtain ⟨ownership, d, -, hd, -, ⟨hc, ht, -, rfl⟩ | ⟨hp, row, message, mail, -, hj, hmatches, hclose, rfl⟩⟩ :=
    ackDelivery_eq_ok ok h
  · exact ⟨d, hd, hc, ht⟩
  · have ht : d.leaseToken ≠ none := by simp [hmatches.2.1]
    obtain ⟨-, -, hrow⟩ := closeAcked_spec ok.mail hj hp ht hclose
    exact ⟨_, hrow, by simp [DeliveryRow.ack], hmatches.2.1⟩

theorem ackDelivery_replyAt (hop : ops[n]? = some (.ackDelivery machineID endpoint id token generation now))
    (h : replyAt E ops n = some .done) :
    ackDelivery (stateAt E ops n) machineID endpoint id token generation now = .ok (stateAt E ops (n + 1)) := by
  rw [replyAt, hop, Option.map_some, Option.some.injEq] at h
  rw [stateAt_succ hop]
  exact commitDone_done h

/-- An acknowledgement of a delivery that has lost its lease is refused. -/
theorem ackDelivery_unleased (hop : ops[n]? = some (.ackDelivery machineID endpoint id token generation now))
    (hd : (stateAt E ops n).mail.deliveries.find? id = some d) (ht : d.leaseToken = none) :
    ∃ e, replyAt E ops n = some (.refused e) := by
  rw [replyAt, hop, Option.map_some]
  cases hx : ackDelivery (stateAt E ops n) machineID endpoint id token generation now with
  | error e => exact ⟨e, by simp [step, commitDone, commit, hx, Except.map]⟩
  | ok s' =>
    obtain ⟨_, d', -, hd', -, ⟨-, ht', -⟩ | ⟨-, _, _, _, -, -, hmatches, -⟩⟩ :=
      ackDelivery_eq_ok (stateAt_ok ops n) hx
    · cases hd.symm.trans hd'
      cases ht.symm.trans ht'
    · cases hd.symm.trans hd'
      cases ht.symm.trans hmatches.2.1

/-- **A delivery is closed exactly once.** A closed row never changes again. A successful acknowledgement
means that an acknowledgement closed the delivery: its terminal record says so as long as it is kept, and
a repeated acknowledgement changes nothing. After any other close every acknowledgement is refused. -/
theorem closed_once (E : Env) (ops : List Op) :
    (∀ i j id d, i ≤ j → (stateAt E ops i).mail.deliveries.find? id = some d → d.ackedAt ≠ none →
      (stateAt E ops j).mail.deliveries.find? id = some d) ∧
    (∀ n machineID endpoint id token generation now,
      ops[n]? = some (.ackDelivery machineID endpoint id token generation now) →
      replyAt E ops n = some .done →
        (∃ k ≤ n, (∃ op, ops[k]? = some op ∧ op.acks = some id) ∧ ClosesAt E ops k id) ∧
        (∀ j t, (stateAt E ops j).mail.deliveryTerminals.find? id = some t → t.closedReason = .acked) ∧
        (∀ d, (stateAt E ops n).mail.deliveries.find? id = some d → d.ackedAt ≠ none →
          stateAt E ops (n + 1) = stateAt E ops n)) ∧
    (∀ k op id, ops[k]? = some op → op.acks ≠ some id → ClosesAt E ops k id →
      ∀ n machineID endpoint token generation now, k < n →
        ops[n]? = some (.ackDelivery machineID endpoint id token generation now) →
        ∃ e, replyAt E ops n = some (.refused e)) := by
  refine ⟨fun i j id d hij hd hc => closed_stays hij hd hc, ?_, ?_⟩
  · intro n machineID endpoint id token generation now hop hreply
    have hack := ackDelivery_replyAt hop hreply
    obtain ⟨d, hd, hc, ht⟩ := ackDelivery_closed (stateAt_ok ops n) hack
    have hleased : d.leaseToken ≠ none := by simp [ht]
    refine ⟨?_, fun j t hj => ?_, fun d₀ hd₀ hc₀ => ?_⟩
    · obtain ⟨k, hk, h⟩ := closed_by_ack hd hc hleased
      exact ⟨k, by omega, h⟩
    · obtain ⟨d', hd', hc', hreason⟩ := (stateAt_ok ops j).mail.inv.recorded hj
      have heq : d' = d := by
        rcases Nat.le_total j (n + 1) with hle | hle
        · exact Option.some.inj ((closed_stays hle hd' hc').symm.trans hd)
        · exact Option.some.inj (hd'.symm.trans (closed_stays hle hd hc))
      exact hreason.2 (heq ▸ hleased)
    · obtain ⟨_, d', -, hd', -, ⟨-, -, -, h⟩ | ⟨hp, -⟩⟩ := ackDelivery_eq_ok (stateAt_ok ops n) hack
      · exact h
      · cases hd₀.symm.trans hd'
        exact absurd hp hc₀
  · intro k op id hop hacks ⟨⟨d, hd, hp⟩, d', hd', hc⟩ n machineID endpoint token generation now hkn hack
    obtain ⟨d'', hd'', hchange⟩ := (stateAt_keeps hop).evolves.pending hd hp
    cases hd'.symm.trans hd''
    have ht : d'.leaseToken = none := by
      by_contra hne
      exact hacks (op.change_acked hchange hp hc hne).2
    exact ackDelivery_unleased hack (closed_stays hkn hd' hc) ht

/-- **Rows refer to rows that exist**, in every reachable store. -/
theorem references_hold (E : Env) (ops : List Op) :
    let s := run E Store.empty ops
    RoomsOK s.rooms ∧
      (∀ id m, s.mail.messages.find? id = some m → ∃ row,
        s.rooms.conversations.find? m.conversationID = some row ∧ m.sequence ≤ row.nextSequence) ∧
      ∀ id t, s.mail.deliveryTerminals.find? id = some t → ∃ d, s.mail.deliveries.find? id = some d ∧
        d.ackedAt ≠ none ∧ (t.closedReason = .acked ↔ d.leaseToken ≠ none) := by
  intro s
  have ok : StoreOK s := run_ok ops
  exact ⟨ok.rooms, fun _ _ => ok.mail.inv.placed, fun _ _ => ok.mail.inv.recorded⟩

end

end Punaro
