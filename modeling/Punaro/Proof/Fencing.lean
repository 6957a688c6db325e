import Punaro.Proof.Presence
import Punaro.Proof.Reachable

/-!
# Lease fencing

A delivery's lease is fenced by three generations: its own, its endpoint's ownership
generation and its endpoint's consumer generation; a role's lease also by the role's
binding. `lease_fencing`: over every run whose clocks do not go back, a lease
generation determines the token, and an acknowledgement that closes a delivery
presents the latest lease, unexpired, with nothing that fences it off having
happened since.

The argument runs backwards from the acknowledgement: the delivery's row has been
the same since the latest lease (`leased_by`), so the generations it records are
the ones the endpoint had then and has now. They never go down, hence they stood
still in between; and a lapse, which raises one of them when it is made good, would
have stayed.
-/

namespace Punaro

open Outcome

/-- Call number `n` is a lease request at `now` that hands out `lease`. -/
def Issues (E : Env) (ops : List Op) (n : ℕ) (machineID consumerID endpoint : String) (now : Int)
    (lease : Delivery) : Prop :=
  ∃ c ttl limit token page,
    ops[n]? = some (.leaseDeliveries machineID consumerID endpoint c now ttl limit token) ∧
      replyAt E ops n = some (.page page) ∧ lease ∈ page.deliveries

section

variable {E : Env} {s s' : Store} {ops : List Op} {op op' : Op} {i j k n : ℕ} {id : String} {d : DeliveryRow}
  {machineID consumerID endpoint : String} {now now' : Int} {lease : Delivery}
variable {ep ep' : EndpointRow} {c : String} {ttl : Int} {token : String → String} {d' : DeliveryRow}
  {page : DeliveryLeasePage}

/-! ## What a lease leaves behind -/

/-- The store after `lease` has been handed out: `row` and `ep` are the rows of the delivery and of the
endpoint. -/
structure Granted (s : Store) (machineID consumerID endpoint : String) (now : Int) (lease : Delivery)
    (row : DeliveryRow) (ep : EndpointRow) : Prop where
  delivery : s.mail.deliveries.find? lease.id = some row
  session : s.presence.endpoints.find? endpoint = some ep
  token : row.leaseToken = some lease.leaseToken
  generation : row.leaseGeneration = lease.leaseGeneration
  expiry : row.leaseUntil = some (unixMilli lease.leaseUntil)
  machine : row.leaseMachineID = some machineID ∧ ep.machineID = machineID
  ownership : row.ownershipGeneration = some ep.ownershipGeneration
  consumer : row.consumerGeneration = some ep.consumerGeneration ∧ ep.consumerID = some consumerID
  recipient : row.recipientEndpoint = endpoint ∨ ∃ role b, row.recipientEndpoint = roleRecipient role ∧
    s.presence.roleBindings.find? role = some b ∧ b.boundTo machineID endpoint ep.ownershipGeneration now

theorem mem_sessionRecipientIDs {p : Presence} {generation : ℕ} {recipient : String} :
    recipient ∈ sessionRecipientIDs p machineID endpoint generation now ↔
      recipient = endpoint ∨ ∃ role b, recipient = roleRecipient role ∧
        p.roleBindings.find? role = some b ∧ b.boundTo machineID endpoint generation now := by
  simp only [sessionRecipientIDs, List.mem_cons, List.mem_map, List.mem_filter, Prod.exists,
    ← Table.find?_eq_some_iff_mem]
  refine or_congr_right ⟨?_, ?_⟩
  · rintro ⟨role, b, ⟨hb, hbound⟩, rfl⟩
    exact ⟨role, b, rfl, hb, hbound⟩
  · rintro ⟨role, b, rfl, hb, hbound⟩
    exact ⟨role, b, ⟨hb, hbound⟩, rfl⟩

/-- The row of a delivery on the page carries what the page says, under the holder's generations. -/
theorem leasedRow_fields (m : Mail) (h : Holder) (endpoint : String) (now ttl : Int) (token : String → String)
    (r : JoinedRow) :
    let row := leasedRow h now ttl token r
    let lease := leasedDelivery m h endpoint now ttl token r
    row.leaseToken = some lease.leaseToken ∧ row.leaseGeneration = lease.leaseGeneration ∧
      row.leaseUntil = some (unixMilli lease.leaseUntil) ∧ row.leaseMachineID = some h.machineID ∧
      row.ownershipGeneration = some h.ownershipGeneration ∧
      row.consumerGeneration = some h.consumerGeneration ∧
      row.recipientEndpoint = r.delivery.recipientEndpoint := by
  by_cases hheld : r.delivery.heldBy h now
  · obtain ⟨token', htoken⟩ : ∃ t, r.delivery.leaseToken = some t := by
      rw [← Option.isSome_iff_exists]
      simp only [DeliveryRow.heldBy, Bool.and_eq_true] at hheld
      exact hheld.1.1.1.2
    obtain ⟨u, hu⟩ : ∃ u, r.delivery.leaseUntil = some u := by
      rw [← Option.isSome_iff_exists]
      simp only [DeliveryRow.heldBy, Bool.and_eq_true] at hheld
      cases hu : r.delivery.leaseUntil with
      | none => simp [hu] at hheld
      | some u => rfl
    have hfields := hheld
    simp only [DeliveryRow.heldBy, Bool.and_eq_true, beq_iff_eq] at hfields
    obtain ⟨⟨⟨⟨hmachine, -⟩, hownership⟩, hconsumer⟩, -⟩ := hfields
    simp [leasedRow, leasedDelivery, hheld, htoken, hu, hmachine, hownership, hconsumer, fromMillis, unixMilli]
  · simp [leasedRow, leasedDelivery, hheld, DeliveryRow.lease]

theorem leasedRows_of_mem {m : Mail} {h : Holder} {recipientIDs : List String} {limit : ℕ} {r : JoinedRow}
    (hr : r ∈ leasePage m h recipientIDs c now limit) :
    leasedRows (leasePage m h recipientIDs c now limit) h now ttl token r.id r.delivery =
      leasedRow h now ttl token r := by
  unfold leasedRows
  cases hfind : (leasePage m h recipientIDs c now limit).find? fun r' => r'.id = r.id with
  | none =>
    rw [List.find?_eq_none] at hfind
    simpa using hfind r hr
  | some r' =>
    have hid : r'.id = r.id := by simpa using List.find?_some hfind
    have hr' := (mem_leasePage (List.mem_of_find?_eq_some hfind)).1
    rw [mem_joined_unique (mem_leasePage hr).1 hr' hid]
    rfl

theorem leaseDeliveries_granted {limit : Int}
    (h : leaseDeliveries s machineID consumerID endpoint c now ttl limit token = .ok (s', page))
    (hmem : lease ∈ page.deliveries) : ∃ row ep, Granted s' machineID consumerID endpoint now lease row ep := by
  obtain ⟨row₀, ep, generation, hrow₀, hown, -, hclaim, hpage, rfl⟩ := leaseDeliveries_eq_ok h
  obtain ⟨-, hmachine, -, hgeneration, hconsumer⟩ := claimConsumer_next hclaim
  obtain ⟨row₁, hrow₁, hmachine₁, -, rfl⟩ := endpointOwnership_eq_ok hown
  cases hrow₀.symm.trans hrow₁
  rw [hpage, List.mem_map] at hmem
  obtain ⟨r, hr, rfl⟩ := hmem
  obtain ⟨hj, -, hrecipient, -⟩ := mem_leasePage hr
  obtain ⟨htoken, hgen, huntil, hm, ho, hc, hto⟩ := leasedRow_fields s.mail
    ⟨machineID, row₀.ownershipGeneration, ep.consumerGeneration⟩ endpoint now ttl token r
  refine ⟨_, ep, ?_, ?_, htoken, hgen, huntil, ⟨hm, hmachine.trans hmachine₁⟩, hgeneration ▸ ho, ⟨hc, hconsumer⟩, ?_⟩
  · change ((s.mail.deliveries.update _).find? r.id) = _
    rw [Table.find?_update, (mem_joined.1 hj).1, Option.map_some, leasedRows_of_mem hr]
  · simp [hrow₀]
  · rw [hto, hgeneration]
    exact mem_sessionRecipientIDs.1 hrecipient

/-- A delivery that is not handed out keeps its row. -/
theorem leaseDeliveries_kept {limit : Int}
    (h : leaseDeliveries s machineID consumerID endpoint c now ttl limit token = .ok (s', page))
    (hd : s'.mail.deliveries.find? id = some d) (hnot : ∀ lease ∈ page.deliveries, lease.id ≠ id) :
    s.mail.deliveries.find? id = some d := by
  obtain ⟨row₀, ep, generation, -, -, -, -, hpage, rfl⟩ := leaseDeliveries_eq_ok h
  rw [Table.find?_update] at hd
  obtain ⟨d₀, hd₀, rfl⟩ := Option.map_eq_some_iff.1 hd
  rcases leasedRows_eq hd₀ with heq | ⟨-, r, hr, rfl, -⟩
  · rw [heq]
    exact hd₀
  · exact absurd rfl (hnot (leasedDelivery s.mail _ endpoint now ttl token r) (hpage ▸ List.mem_map_of_mem hr))

theorem Issues.granted (h : Issues E ops n machineID consumerID endpoint now lease) :
    ∃ row ep, Granted (stateAt E ops (n + 1)) machineID consumerID endpoint now lease row ep := by
  obtain ⟨c, ttl, limit, token, page, hop, hreply, hmem⟩ := h
  rw [replyAt, hop, Option.map_some, Option.some.injEq] at hreply
  rw [stateAt_succ hop]
  cases hx : leaseDeliveries (stateAt E ops n) machineID consumerID endpoint c now ttl limit token with
  | error e => simp [step, commit, hx] at hreply
  | ok answer =>
    obtain ⟨s', page'⟩ := answer
    simp only [step, commit, hx, Reply.page.injEq] at hreply ⊢
    exact leaseDeliveries_granted hx (hreply ▸ hmem)

/-! ## Back to the latest lease -/

/-- A call that neither leases nor closes the delivery and leaves it a token leaves it alone. -/
theorem Op.change_kept (h : op.change id d d') (hp : d'.ackedAt = none) (ht : d'.leaseToken ≠ none) :
    d' = d ∨ ∃ machineID consumerID endpoint c now ttl limit token,
      op = .leaseDeliveries machineID consumerID endpoint c now ttl limit token := by
  cases op
  case leaseDeliveries => exact .inr ⟨_, _, _, _, _, _, _, _, rfl⟩
  case applyControl | prepareTelegramAdopt | maintainDeliveries =>
    rcases h with rfl | ⟨_, rfl⟩
    · exact .inl rfl
    · cases hp
  case ackDelivery =>
    rcases h with rfl | ⟨-, -, _, rfl⟩
    · exact .inl rfl
    · cases hp
  case bindRoleToSession =>
    rcases h with rfl | rfl
    · exact .inl rfl
    · exact absurd rfl ht
  all_goals exact .inl h

/-- A pending leased delivery that a call does not hand out had its row before. -/
theorem row_before (hop : ops[n]? = some op) (hd : (stateAt E ops (n + 1)).mail.deliveries.find? id = some d)
    (hp : d.ackedAt = none) (ht : d.leaseToken ≠ none)
    (hnot : ∀ machineID consumerID endpoint now lease,
      Issues E ops n machineID consumerID endpoint now lease → lease.id ≠ id) :
    (stateAt E ops n).mail.deliveries.find? id = some d := by
  -- Leasing is read off the page; any other call through the row relation.
  by_cases hlease : ∃ machineID consumerID endpoint c now ttl limit token,
      op = .leaseDeliveries machineID consumerID endpoint c now ttl limit token
  · obtain ⟨machineID, consumerID, endpoint, c, now, ttl, limit, token, rfl⟩ := hlease
    rw [stateAt_succ hop] at hd
    cases hx : leaseDeliveries (stateAt E ops n) machineID consumerID endpoint c now ttl limit token with
    | error e =>
      simp only [step, commit, hx] at hd
      exact hd
    | ok answer =>
      obtain ⟨s', page⟩ := answer
      have hreply : replyAt E ops n = some (.page page) := by
        simp [replyAt, hop, step, commit, hx]
      simp only [step, commit, hx] at hd
      exact leaseDeliveries_kept hx hd fun lease hmem =>
        hnot machineID consumerID endpoint now lease ⟨c, ttl, limit, token, page, hop, hreply, hmem⟩
  · have hevolves := (stateAt_keeps (E := E) hop).evolves
    cases hbefore : (stateAt E ops n).mail.deliveries.find? id with
    | none =>
      obtain ⟨messageID, recipient, hchange⟩ := hevolves.fresh hbefore hd
      rcases op.change_kept hchange hp ht with rfl | h
      · exact absurd rfl ht
      · exact absurd h hlease
    | some d₀ =>
      by_cases hp₀ : d₀.ackedAt = none
      · obtain ⟨d', hd', hchange⟩ := hevolves.pending hbefore hp₀
        cases hd.symm.trans hd'
        rcases op.change_kept hchange hp ht with rfl | h
        · rfl
        · exact absurd h hlease
      · cases hd.symm.trans (hevolves.closed hbefore hp₀)
        rfl

/-- **The latest lease** of a pending delivery that has a token: its row has been the same since. -/
theorem leased_by (hd : (stateAt E ops n).mail.deliveries.find? id = some d) (hp : d.ackedAt = none)
    (ht : d.leaseToken ≠ none) :
    ∃ i < n, (∃ machineID consumerID endpoint now lease,
        Issues E ops i machineID consumerID endpoint now lease ∧ lease.id = id) ∧
      (∀ k, i < k → k < n → ∀ machineID consumerID endpoint now lease,
        Issues E ops k machineID consumerID endpoint now lease → lease.id ≠ id) ∧
      ∀ k, i < k → k ≤ n → (stateAt E ops k).mail.deliveries.find? id = some d := by
  induction n with
  | zero =>
    rw [stateAt_zero] at hd
    cases hd
  | succ n ih =>
    by_cases hissued : ∃ machineID consumerID endpoint now lease,
        Issues E ops n machineID consumerID endpoint now lease ∧ lease.id = id
    · refine ⟨n, by omega, hissued, fun k h₁ h₂ => absurd h₂ (by omega), fun k h₁ h₂ => ?_⟩
      rw [show k = n + 1 by omega]
      exact hd
    · have hnot : ∀ machineID consumerID endpoint now lease,
          Issues E ops n machineID consumerID endpoint now lease → lease.id ≠ id :=
        fun m c e t l h hid => hissued ⟨m, c, e, t, l, h, hid⟩
      have hbefore : (stateAt E ops n).mail.deliveries.find? id = some d := by
        cases hop : ops[n]? with
        | none => rwa [stateAt_succ_of_none hop] at hd
        | some op => exact row_before hop hd hp ht hnot
      obtain ⟨i, hi, hlease, hlatest, hrow⟩ := ih hbefore
      refine ⟨i, by omega, hlease, fun k h₁ h₂ => ?_, fun k h₁ h₂ => ?_⟩
      · rcases Nat.lt_succ_iff_lt_or_eq.1 h₂ with h | rfl
        · exact hlatest k h₁ h
        · exact hnot
      · rcases Nat.le_succ_iff.1 h₂ with h | rfl
        · exact hrow k h₁ h
        · exact hd

/-! ## Generations move forward -/

/-- A later row of the same delivery: a new token comes with a new generation. -/
def DeliveryRow.Later (d d' : DeliveryRow) : Prop :=
  d.leaseGeneration < d'.leaseGeneration ∨
    d'.leaseGeneration = d.leaseGeneration ∧ (d'.leaseToken = d.leaseToken ∨ d'.leaseToken = none)

theorem DeliveryRow.Later.trans {d'' : DeliveryRow} (h : d.Later d') (h' : d'.Later d'') : d.Later d'' := by
  rcases h with h | ⟨h, ht⟩ <;> rcases h' with h' | ⟨h', ht'⟩
  · exact .inl (h.trans h')
  · exact .inl (by omega)
  · exact .inl (by omega)
  · refine .inr ⟨h'.trans h, ?_⟩
    rcases ht' with ht' | ht'
    · exact ht.imp ht'.trans ht'.trans
    · exact .inr ht'

theorem Op.change_later (h : op.change id d d') : d.Later d' := by
  cases op
  case leaseDeliveries =>
    rcases h with rfl | ⟨_, _, _, rfl⟩
    · exact .inr ⟨rfl, .inl rfl⟩
    · exact .inl (Nat.lt_succ_self _)
  case applyControl | prepareTelegramAdopt | maintainDeliveries =>
    rcases h with rfl | ⟨_, rfl⟩
    · exact .inr ⟨rfl, .inl rfl⟩
    · exact .inr ⟨rfl, .inr rfl⟩
  case ackDelivery =>
    rcases h with rfl | ⟨-, -, _, rfl⟩ <;> exact .inr ⟨rfl, .inl rfl⟩
  case bindRoleToSession =>
    rcases h with rfl | rfl
    · exact .inr ⟨rfl, .inl rfl⟩
    · exact .inr ⟨rfl, .inr rfl⟩
  all_goals exact .inr ⟨congrArg _ h, .inl (congrArg _ h)⟩

theorem delivery_forward (hij : i ≤ j) (hd : (stateAt E ops i).mail.deliveries.find? id = some d) :
    ∃ d', (stateAt E ops j).mail.deliveries.find? id = some d' ∧ d.Later d' := by
  refine stateAt_rule (P := fun s => ∃ d', s.mail.deliveries.find? id = some d' ∧ d.Later d') hij ?_
    ⟨d, hd, .inr ⟨rfl, .inl rfl⟩⟩
  rintro k op - - - ⟨d', hd', hlater⟩
  have hevolves := (step_keeps (E := E) (stateAt_ok (E := E) ops k) op).evolves
  by_cases hp : d'.ackedAt = none
  · obtain ⟨d'', hd'', hchange⟩ := hevolves.pending hd' hp
    exact ⟨d'', hd'', hlater.trans (op.change_later hchange)⟩
  · exact ⟨d', hevolves.closed hd' hp, hlater⟩

theorem endpoint_forward (hij : i ≤ j) (hep : (stateAt E ops i).presence.endpoints.find? endpoint = some ep) :
    ∃ ep', (stateAt E ops j).presence.endpoints.find? endpoint = some ep' ∧ ep.Later ep' := by
  refine stateAt_rule (P := fun s => ∃ ep', s.presence.endpoints.find? endpoint = some ep' ∧ ep.Later ep') hij ?_
    ⟨ep, hep, .refl ep⟩
  rintro k op - - - ⟨ep', hep', hlater⟩
  obtain ⟨ep'', hep'', hnext⟩ := step_endpoints (E := E) op hep'
  exact ⟨ep'', hep'', hlater.trans hnext.toLater⟩

/-- **A lapse stays**: an endpoint whose lease has run out stays so until its generation goes up. -/
theorem lapse_stays {t : Int} (hclock : Ordered ops) (hij : i ≤ j) (hi : ops[i]? = some op)
    (ht : op.clock = some t) (hep : (stateAt E ops i).presence.endpoints.find? endpoint = some ep)
    (hlapsed : ep.leaseUntil ≤ unixMilli t)
    (hep' : (stateAt E ops j).presence.endpoints.find? endpoint = some ep') :
    ep.ownershipGeneration < ep'.ownershipGeneration ∨ ep'.leaseUntil ≤ unixMilli t := by
  have hrun : ∃ r, (stateAt E ops j).presence.endpoints.find? endpoint = some r ∧
      ep.ownershipGeneration ≤ r.ownershipGeneration ∧
      (ep.ownershipGeneration < r.ownershipGeneration ∨ r.leaseUntil ≤ unixMilli t) := by
    refine stateAt_rule (P := fun s => ∃ r, s.presence.endpoints.find? endpoint = some r ∧
      ep.ownershipGeneration ≤ r.ownershipGeneration ∧
      (ep.ownershipGeneration < r.ownershipGeneration ∨ r.leaseUntil ≤ unixMilli t)) hij ?_
      ⟨ep, hep, le_rfl, .inr hlapsed⟩
    rintro k op' hik - hk ⟨r, hr, hle, hlost⟩
    obtain ⟨r', hr', hnext⟩ := step_endpoints (E := E) op' hr
    have hg := hnext.generation_le
    refine ⟨r', hr', hle.trans hg, ?_⟩
    rcases hlost with hlost | hlost
    · exact .inl (hlost.trans_le hg)
    · rcases hg.eq_or_lt with heq | hlt
      · rcases hnext.lease heq.symm with hsame | ⟨now, hnow, hlive⟩
        · exact .inr (hsame ▸ hlost)
        · have := unixMilli_mono (hclock.le hik hi hk ht hnow)
          omega
      · exact .inl (hle.trans_lt hlt)
  obtain ⟨r, hr, -, hlost⟩ := hrun
  cases hep'.symm.trans hr
  exact hlost

/-! ## Bindings -/

/-- Binding a role that has a leased delivery, and leaving it the lease, renews the binding in place. -/
theorem bindRoleToSession_kept {role session : String} {b : RoleBindingRow}
    (h : bindRoleToSession s machineID role session now ttl = .ok s')
    (hb : s.presence.roleBindings.find? role = some b) (hd : s.mail.deliveries.find? id = some d)
    (hd' : s'.mail.deliveries.find? id = some d) (hp : d.ackedAt = none) (ht : d.leaseToken ≠ none)
    (hrole : d.recipientEndpoint = roleRecipient role) :
    unixMilli now < b.leaseUntil ∧ ∃ row b', s.presence.endpoints.find? b.sessionEndpoint = some row ∧
      s'.presence.roleBindings.find? role = some b' ∧ b'.sessionEndpoint = b.sessionEndpoint ∧
      b'.machineID = row.machineID ∧ b'.ownershipGeneration = b.ownershipGeneration ∧
      b'.ownershipGeneration = row.ownershipGeneration := by
  obtain ⟨row, hrow, hmachine, -, -, -, -, -, rfl⟩ := bindRoleToSession_eq_ok h
  rw [Table.find?_update, hd, Option.map_some, Option.some.injEq] at hd'
  split at hd'
  · rw [← hd'] at ht
    exact absurd rfl ht
  · rename_i hkept
    have hsame : ¬(b.sessionEndpoint ≠ session ∨ b.ownershipGeneration ≠ row.ownershipGeneration ∨
        b.leaseUntil ≤ unixMilli now) := by
      simpa [hb, hrole, hp, or_assoc] using hkept
    rw [not_or, not_or, not_not, not_not, not_le] at hsame
    obtain ⟨hsession, hgeneration, hlive⟩ := hsame
    refine ⟨hlive, row, ⟨session, machineID, row.ownershipGeneration, min (unixMilli (now + ttl)) row.leaseUntil⟩,
      hsession ▸ hrow, by simp, hsession.symm, hmachine.symm, hgeneration.symm, rfl⟩

section Held

variable {role : String} {b : RoleBindingRow}
  (hrow : ∀ k, i ≤ k → k ≤ j → (stateAt E ops k).mail.deliveries.find? id = some d)
  (hp : d.ackedAt = none) (ht : d.leaseToken ≠ none) (hrole : d.recipientEndpoint = roleRecipient role)

include hrow hp ht hrole

/-- While a role's delivery keeps its lease, the role stays bound to the session. -/
theorem binding_held {ep : EndpointRow} (hij : i ≤ j)
    (hep : (stateAt E ops i).presence.endpoints.find? endpoint = some ep)
    (hb : (stateAt E ops i).presence.roleBindings.find? role = some b)
    (hbound : b.sessionEndpoint = endpoint ∧ b.machineID = ep.machineID ∧
      b.ownershipGeneration = ep.ownershipGeneration) :
    ∃ b', (stateAt E ops j).presence.roleBindings.find? role = some b' ∧ b'.sessionEndpoint = endpoint ∧
      b'.machineID = ep.machineID ∧ b'.ownershipGeneration = ep.ownershipGeneration := by
  refine stateAt_rule (P := fun s => ∃ b', s.presence.roleBindings.find? role = some b' ∧
    b'.sessionEndpoint = endpoint ∧ b'.machineID = ep.machineID ∧
    b'.ownershipGeneration = ep.ownershipGeneration) hij ?_ ⟨b, hb, hbound⟩
  rintro k op hik hkj hk ⟨b', hb', hsession, hmachine, hgeneration⟩
  have hafter := hrow (k + 1) (by omega) (by omega)
  rw [stateAt_succ hk] at hafter
  cases step_rebound (E := E) (stateAt_presenceOK ops k) op role with
  | same hkeeps => exact ⟨b', hkeeps.trans hb', hsession, hmachine, hgeneration⟩
  | renewed _ hwas _ his =>
    cases hb'.symm.trans hwas
    exact ⟨_, his, hsession, hmachine, hgeneration⟩
  | bound _ done =>
    obtain ⟨-, row, b'', hrow', hb'', hs, hm, hg, hg'⟩ :=
      bindRoleToSession_kept done hb' (hrow k hik (by omega)) hafter hp ht hrole
    obtain ⟨ep', hep', hlater⟩ := endpoint_forward hik hep
    rw [hsession] at hrow'
    cases hrow'.symm.trans hep'
    exact ⟨b'', hb'', hs.trans hsession, hm.trans (hlater.machine (by omega)), hg.trans hgeneration⟩

/-- An interruption of the binding stays while a role's delivery keeps its lease. -/
theorem binding_lapse_stays {t : Int} (hclock : Ordered ops) (hij : i ≤ j) (hi : ops[i]? = some op)
    (hnow : op.clock = some t) (hb : (stateAt E ops i).presence.roleBindings.find? role = some b)
    (hlapsed : b.leaseUntil ≤ unixMilli t) :
    ∃ b', (stateAt E ops j).presence.roleBindings.find? role = some b' ∧ b'.leaseUntil ≤ unixMilli t := by
  refine stateAt_rule (P := fun s => ∃ b', s.presence.roleBindings.find? role = some b' ∧
    b'.leaseUntil ≤ unixMilli t) hij ?_ ⟨b, hb, hlapsed⟩
  rintro k op' hik hkj hk ⟨b', hb', hlost⟩
  have hafter := hrow (k + 1) (by omega) (by omega)
  rw [stateAt_succ hk] at hafter
  cases step_rebound (E := E) (stateAt_presenceOK ops k) op' role with
  | same hkeeps => exact ⟨b', hkeeps.trans hb', hlost⟩
  | @renewed b₁ now₁ _ hclock₁ hwas hlive his =>
    cases hb'.symm.trans hwas
    have hle := unixMilli_mono (hclock.le hik hi hk hnow hclock₁)
    simp only [liveBinding, Bool.and_eq_true, decide_eq_true_eq] at hlive
    omega
  | @bound _ _ now₁ _ hcall done =>
    obtain ⟨hlive, -⟩ := bindRoleToSession_kept done hb' (hrow k hik (by omega)) hafter hp ht hrole
    have hclock₁ : op'.clock = some now₁ := by
      rw [hcall]
      rfl
    have hle := unixMilli_mono (hclock.le hik hi hk hnow hclock₁)
    omega

end Held

/-! ## Fencing -/

/-- In the store at `clock` the session holds its leases: the machine owns the endpoint under the ownership
generation, the consumer has claimed it under the consumer generation, and a role recipient is bound to the
session; all of it unexpired. -/
structure HoldsLease (s : Store) (clock : Option Int) (machineID consumerID endpoint recipient : String)
    (ownership consumer : ℕ) : Prop where
  session : ∃ row, s.presence.endpoints.find? endpoint = some row ∧ row.machineID = machineID ∧
    row.ownershipGeneration = ownership ∧ row.consumerID = some consumerID ∧
    row.consumerGeneration = consumer ∧ ∀ t, clock = some t → unixMilli t < row.leaseUntil
  binding : ∀ role, recipient = roleRecipient role →
    ∃ b, s.presence.roleBindings.find? role = some b ∧ b.sessionEndpoint = endpoint ∧
      b.machineID = machineID ∧ b.ownershipGeneration = ownership ∧
      ∀ t, clock = some t → unixMilli t < b.leaseUntil

/-- At call number `j` the token and the generation are those of the delivery's latest lease. It has not
expired, and the session has held it at every call since. -/
def PresentsLatest (E : Env) (ops : List Op) (j : ℕ) (machineID endpoint id token : String)
    (generation now : Int) (recipient : String) : Prop :=
  ∃ i < j, ∃ consumerID leasedAt lease ownership consumer,
    Issues E ops i machineID consumerID endpoint leasedAt lease ∧ lease.id = id ∧
    lease.leaseToken = token ∧ (lease.leaseGeneration : Int) = generation ∧
    (∀ k, i < k → k < j → ∀ m c e t lease', Issues E ops k m c e t lease' → lease'.id ≠ id) ∧
    unixMilli now < unixMilli lease.leaseUntil ∧
    ∀ k op, i < k → k ≤ j → ops[k]? = some op →
      HoldsLease (stateAt E ops k) op.clock machineID consumerID endpoint recipient ownership consumer

/-- What fencing means for a run: the lease generations of a delivery never decrease and one generation
has one token, and only the latest lease closes a delivery. -/
structure Fenced (E : Env) (ops : List Op) : Prop where
  generations : ∀ i j m c e t lease m' c' e' t' lease', i ≤ j → Issues E ops i m c e t lease →
    Issues E ops j m' c' e' t' lease' → lease.id = lease'.id →
      lease.leaseGeneration ≤ lease'.leaseGeneration ∧
        (lease.leaseGeneration = lease'.leaseGeneration → lease.leaseToken = lease'.leaseToken)
  acknowledged : ∀ j machineID endpoint id token generation now d,
    ops[j]? = some (.ackDelivery machineID endpoint id token generation now) →
    replyAt E ops j = some .done → (stateAt E ops j).mail.deliveries.find? id = some d → d.ackedAt = none →
    PresentsLatest E ops j machineID endpoint id token generation now d.recipientEndpoint

theorem issues_generations {m e m' c' e' : String} {t t' : Int} {lease' : Delivery} (hij : i ≤ j)
    (h : Issues E ops i m c e t lease) (h' : Issues E ops j m' c' e' t' lease') (hid : lease.id = lease'.id) :
    lease.leaseGeneration ≤ lease'.leaseGeneration ∧
      (lease.leaseGeneration = lease'.leaseGeneration → lease.leaseToken = lease'.leaseToken) := by
  obtain ⟨row, ep, hgrant⟩ := h.granted
  obtain ⟨row', ep', hgrant'⟩ := h'.granted
  obtain ⟨d, hd, hlater⟩ := delivery_forward (Nat.succ_le_succ hij) hgrant.delivery
  rw [hid] at hd
  cases hd.symm.trans hgrant'.delivery
  have hg := hgrant.generation
  have hg' := hgrant'.generation
  rcases hlater with hlt | ⟨heq, htoken⟩
  · exact ⟨by omega, fun h => absurd h (by omega)⟩
  · refine ⟨by omega, fun _ => ?_⟩
    rw [hgrant.token, hgrant'.token] at htoken
    rcases htoken with htoken | htoken
    · exact (Option.some.inj htoken).symm
    · cases htoken

/-- The binding of the role a delivery was leased for. -/
theorem Granted.binding {row : DeliveryRow} {role : String} (pok : PresenceOK s.presence)
    (h : Granted s machineID consumerID endpoint now lease row ep)
    (hrole : row.recipientEndpoint = roleRecipient role) :
    ∃ b, s.presence.roleBindings.find? role = some b ∧ b.sessionEndpoint = endpoint ∧
      b.machineID = ep.machineID ∧ b.ownershipGeneration = ep.ownershipGeneration := by
  rcases h.recipient with heq | ⟨role', b, heq, hb, hbound⟩
  · exact absurd (heq.symm.trans hrole) (validEndpoint_ne_roleRecipient (pok.endpoint h.session) role)
  · rw [hrole, roleRecipient_inj] at heq
    subst heq
    simp only [RoleBindingRow.boundTo, Bool.and_eq_true, beq_iff_eq, decide_eq_true_eq] at hbound
    exact ⟨b, hb, hbound.1.1.2, hbound.1.1.1.trans h.machine.2.symm, hbound.1.2⟩

/-- A delivery that keeps its lease is acknowledged through the session it was leased to. -/
theorem ack_session {endpoint' : String} {generation : ℕ} (hij : i ≤ j)
    (hgrant : Granted (stateAt E ops i) machineID consumerID endpoint now lease d ep)
    (hrow : ∀ k, i ≤ k → k ≤ j → (stateAt E ops k).mail.deliveries.find? id = some d) (hp : d.ackedAt = none)
    (ht : d.leaseToken ≠ none) (hep' : (stateAt E ops j).presence.endpoints.find? endpoint' = some ep')
    (hrecipient : d.recipientEndpoint ∈
      sessionRecipientIDs (stateAt E ops j).presence machineID endpoint' generation now') :
    endpoint = endpoint' := by
  have hvalid := (stateAt_presenceOK ops i).endpoint hgrant.session
  have hvalid' := (stateAt_presenceOK ops j).endpoint hep'
  rcases mem_sessionRecipientIDs.1 hrecipient with heq' | ⟨role, b', hrole, hb', hbound'⟩
  · rcases hgrant.recipient with heq | ⟨role, -, hrole, -⟩
    · exact heq.symm.trans heq'
    · exact absurd (heq'.symm.trans hrole) (validEndpoint_ne_roleRecipient hvalid' role)
  · obtain ⟨b, hb, hbound⟩ := hgrant.binding (stateAt_presenceOK ops i) hrole
    obtain ⟨b'', hb'', hsession, -⟩ := binding_held hrow hp ht hrole hij hgrant.session hb hbound
    cases hb'.symm.trans hb''
    simp only [RoleBindingRow.boundTo, Bool.and_eq_true, beq_iff_eq] at hbound'
    exact hsession.symm.trans hbound'.1.1.2

/-- An endpoint with the same generations at both ends was held by the machine and claimed by the consumer
all the time. -/
theorem endpoint_held (hclock : Ordered ops) (hik : i ≤ k) (hkj : k ≤ j) (hk : ops[k]? = some op)
    (hj : ops[j]? = some op') (hnow : op'.clock = some now)
    (hep : (stateAt E ops i).presence.endpoints.find? endpoint = some ep)
    (hep' : (stateAt E ops j).presence.endpoints.find? endpoint = some ep')
    (hg : ep'.ownershipGeneration = ep.ownershipGeneration)
    (hc : ep'.consumerGeneration = ep.consumerGeneration) (hlive : unixMilli now < ep'.leaseUntil) :
    ∃ row, (stateAt E ops k).presence.endpoints.find? endpoint = some row ∧ row.machineID = ep.machineID ∧
      row.ownershipGeneration = ep.ownershipGeneration ∧ row.consumerID = ep.consumerID ∧
      row.consumerGeneration = ep.consumerGeneration ∧
      ∀ t, op.clock = some t → unixMilli t < row.leaseUntil := by
  obtain ⟨row, hrow, hlater⟩ := endpoint_forward hik hep
  obtain ⟨ep'', hep'', hlater'⟩ := endpoint_forward hkj hrow
  cases hep'.symm.trans hep''
  have h₁ := hlater.generation_le
  have h₂ := hlater'.generation_le
  have h₃ := hlater.consumer_le
  have h₄ := hlater'.consumer_le
  refine ⟨row, hrow, hlater.machine (by omega), by omega, hlater.consumer (by omega) (by omega), by omega,
    fun t ht => ?_⟩
  by_contra hlapsed
  have hle := unixMilli_mono (hclock.le hkj hk hj ht hnow)
  rcases lapse_stays hclock hkj hk ht hrow (not_lt.1 hlapsed) hep' with h | h <;> omega

/-- While a delivery keeps its lease and its session the endpoint's generations, the session holds the
lease. -/
theorem Granted.holds (hclock : Ordered ops) (hik : i ≤ k) (hkj : k ≤ j) (hk : ops[k]? = some op)
    (hj : ops[j]? = some op') (hnow : op'.clock = some now)
    (hgrant : Granted (stateAt E ops i) machineID consumerID endpoint now' lease d ep)
    (hrow : ∀ k, i ≤ k → k ≤ j → (stateAt E ops k).mail.deliveries.find? id = some d) (hp : d.ackedAt = none)
    (ht : d.leaseToken ≠ none) (hep' : (stateAt E ops j).presence.endpoints.find? endpoint = some ep')
    (hg : ep'.ownershipGeneration = ep.ownershipGeneration)
    (hc : ep'.consumerGeneration = ep.consumerGeneration) (hlive : unixMilli now < ep'.leaseUntil)
    (hrecipient : d.recipientEndpoint ∈
      sessionRecipientIDs (stateAt E ops j).presence machineID endpoint ep.ownershipGeneration now) :
    HoldsLease (stateAt E ops k) op.clock machineID consumerID endpoint d.recipientEndpoint
      ep.ownershipGeneration ep.consumerGeneration := by
  refine ⟨?_, fun role hrole => ?_⟩
  · obtain ⟨r, hr, hrm, hrg, hrc, hrcg, hrl⟩ :=
      endpoint_held hclock hik hkj hk hj hnow hgrant.session hep' hg hc hlive
    exact ⟨r, hr, hrm.trans hgrant.machine.2, hrg, hrc.trans hgrant.consumer.2, hrcg, hrl⟩
  · obtain ⟨b, hb, hbound⟩ := hgrant.binding (stateAt_presenceOK ops i) hrole
    obtain ⟨b', hb', hsession, hmachine, hgeneration⟩ :=
      binding_held (fun k' h₁ h₂ => hrow k' h₁ (h₂.trans hkj)) hp ht hrole hik hgrant.session hb hbound
    refine ⟨b', hb', hsession, hmachine.trans hgrant.machine.2, hgeneration, fun t htime => ?_⟩
    by_contra hlapsed
    obtain ⟨b₁, hb₁, hlost⟩ := binding_lapse_stays (fun k' h₁ h₂ => hrow k' (hik.trans h₁) h₂) hp ht hrole
      hclock hkj hk htime hb' (not_lt.1 hlapsed)
    have hle := unixMilli_mono (hclock.le hkj hk hj htime hnow)
    rcases mem_sessionRecipientIDs.1 hrecipient with heq | ⟨role', b₂, hrole', hb₂, hbound₂⟩
    · exact validEndpoint_ne_roleRecipient ((stateAt_presenceOK ops j).endpoint hep') role (heq.symm.trans hrole)
    · rw [hrole, roleRecipient_inj] at hrole'
      subst hrole'
      cases hb₁.symm.trans hb₂
      simp only [RoleBindingRow.boundTo, Bool.and_eq_true, decide_eq_true_eq] at hbound₂
      omega

theorem ack_presentsLatest {token : String} {generation : Int} (hclock : Ordered ops)
    (hop : ops[j]? = some (.ackDelivery machineID endpoint id token generation now))
    (hreply : replyAt E ops j = some .done) (hd : (stateAt E ops j).mail.deliveries.find? id = some d)
    (hp : d.ackedAt = none) :
    PresentsLatest E ops j machineID endpoint id token generation now d.recipientEndpoint := by
  have hack := ackDelivery_replyAt hop hreply
  obtain ⟨ownership, d', hown, hd', hrecipient, ⟨hc, -⟩ | ⟨-, row, _, _, hrow', -, hmatches, -⟩⟩ :=
    ackDelivery_eq_ok (stateAt_ok ops j) hack
  · cases hd.symm.trans hd'
    exact absurd hp hc
  cases hd.symm.trans hd'
  obtain ⟨ep', hep', -, hlive, rfl⟩ := endpointOwnership_eq_ok hown
  cases hrow'.symm.trans hep'
  have ht : d.leaseToken ≠ none := by simp [hmatches.2.1]
  obtain ⟨i, hi, ⟨machine, consumerID, session, leasedAt, lease, hissues, hid⟩, hlatest, hrow⟩ := leased_by hd hp ht
  obtain ⟨d₁, ep, hgrant⟩ := hissues.granted
  have hsame := hrow (i + 1) (by omega) (by omega)
  rw [← hid] at hsame
  cases hsame.symm.trans hgrant.delivery
  -- The machine, the generations and the expiry are the ones the delivery's row records.
  obtain ⟨hm, htoken, hgen, ho, hco, huntil⟩ := hmatches
  cases hm.symm.trans hgrant.machine.1
  have hrows : ∀ k, i + 1 ≤ k → k ≤ j → (stateAt E ops k).mail.deliveries.find? id = some d :=
    fun k h₁ h₂ => hrow k (by omega) h₂
  have hsession := ack_session (show i + 1 ≤ j by omega) hgrant hrows hp ht hep' hrecipient
  subst hsession
  have hg : row.ownershipGeneration = ep.ownershipGeneration := Option.some.inj (ho.symm.trans hgrant.ownership)
  have hcg : row.consumerGeneration = ep.consumerGeneration := Option.some.inj (hco.symm.trans hgrant.consumer.1)
  refine ⟨i, hi, consumerID, leasedAt, lease, ep.ownershipGeneration, ep.consumerGeneration, hissues, hid, ?_, ?_,
    hlatest, ?_, fun k op hik hkj hk => ?_⟩
  · exact Option.some.inj (hgrant.token.symm.trans htoken)
  · rw [← hgrant.generation]
    exact hgen
  · simpa [hgrant.expiry] using huntil
  · exact hgrant.holds hclock (by omega) hkj hk hop rfl hrows hp ht hep' hg hcg hlive (hg ▸ hrecipient)

/-- **Leases are fenced**, in every run whose clocks do not go back. -/
theorem lease_fencing (E : Env) (ops : List Op) (hclock : Ordered ops) : Fenced E ops where
  generations _ _ _ _ _ _ _ _ _ _ _ _ hij h h' hid := issues_generations hij h h' hid
  acknowledged _ _ _ _ _ _ _ _ hop hreply hd hp := ack_presentsLatest hclock hop hreply hd hp

/-- A message from one session to another, leased and acknowledged. -/
def fencedRun : List Op :=
  [.advertiseEndpoints "desk" ["desk/alice", "desk/bob"] 0 60000000000,
    .createConversation "desk/alice" [⟨"desk/alice", "", "", 15⟩, ⟨"desk/bob", "", "", 3⟩] 0 "room",
    .appendMessage ⟨"room", "desk", "desk/alice", "", "hello", [], "key", 0⟩ ⟨"message", fun _ => "delivery"⟩,
    .leaseDeliveries "desk" "consumer" "desk/bob" "" 0 30000000000 10 fun _ => "token",
    .ackDelivery "desk" "desk/bob" "delivery" "token" 1 1000000000]

def Reply.isDone : Reply → Bool
  | .done => true
  | _ => false

theorem replyAt_eq_done (h : (replyAt E ops n).any Reply.isDone) : replyAt E ops n = some .done := by
  obtain ⟨reply, hreply, hdone⟩ := Option.any_eq_true _ _ |>.1 h
  cases reply <;> first | exact hreply | cases hdone

theorem lease_fencing_fencedRun : Ordered fencedRun ∧
    PresentsLatest ⟨fun x => x, fun _ => true⟩ fencedRun 4 "desk" "desk/bob" "delivery" "token" 1 1000000000
      "desk/bob" :=
  ⟨by decide, (lease_fencing ⟨fun x => x, fun _ => true⟩ fencedRun (by decide)).acknowledged 4 "desk" "desk/bob"
    "delivery" "token" 1 1000000000
    ⟨"message", "desk/bob", some "desk", some "token", 1, some 1, some 1, some 30000, none⟩ rfl
    (replyAt_eq_done (by decide +kernel)) (by decide +kernel) rfl⟩

/-! ## Ownership and leases over a run -/

/-- How the owners of endpoints and roles change in a run. -/
structure OwnershipFenced (E : Env) (ops : List Op) : Prop where
  /-- An endpoint is never forgotten, and a new machine or consumer comes with a new generation. -/
  forward : ∀ {i j endpoint row}, i ≤ j → (stateAt E ops i).presence.endpoints.find? endpoint = some row →
    ∃ row', (stateAt E ops j).presence.endpoints.find? endpoint = some row' ∧ row.Later row'
  /-- A lapsed lease is not revived: the endpoint is owned again under a higher generation only. -/
  lapsed : Ordered ops → ∀ {i j op t endpoint row row'}, i ≤ j → ops[i]? = some op → op.clock = some t →
    (stateAt E ops i).presence.endpoints.find? endpoint = some row → row.leaseUntil ≤ unixMilli t →
    (stateAt E ops j).presence.endpoints.find? endpoint = some row' →
    row.ownershipGeneration < row'.ownershipGeneration ∨ row'.leaseUntil ≤ unixMilli t
  /-- A role is bound to an advertised session, not ahead of its generation. -/
  bound : ∀ {n role b}, (stateAt E ops n).presence.roleBindings.find? role = some b →
    ∃ row, (stateAt E ops n).presence.endpoints.find? b.sessionEndpoint = some row ∧
      b.ownershipGeneration ≤ row.ownershipGeneration

/-- **Ownership is fenced** in every run. -/
theorem ownership_fenced (E : Env) (ops : List Op) : OwnershipFenced E ops where
  forward hij hrow := endpoint_forward hij hrow
  lapsed hclock _ _ _ _ _ _ _ hij hi ht hrow hlapsed hrow' := lapse_stays hclock hij hi ht hrow hlapsed hrow'
  bound hb := (stateAt_presenceOK ops _).binding hb

/-- Where the leases of a run come from. -/
structure LeasesTraced (E : Env) (ops : List Op) : Prop where
  /-- A lease that is handed out is the one the delivery's row records, under the generations of the caller's
  session, and the delivery is the session's or that of a role bound to it. -/
  granted : ∀ {n machineID consumerID endpoint now lease}, Issues E ops n machineID consumerID endpoint now lease →
    ∃ row ep, Granted (stateAt E ops (n + 1)) machineID consumerID endpoint now lease row ep
  /-- The lease a pending delivery's row records has been handed out, and the row is as it was left then. -/
  traced : ∀ {n id row}, (stateAt E ops n).mail.deliveries.find? id = some row → row.ackedAt = none →
    row.leaseToken ≠ none → ∃ i < n, ∃ machineID consumerID endpoint now lease ep,
      Issues E ops i machineID consumerID endpoint now lease ∧ lease.id = id ∧
      Granted (stateAt E ops (i + 1)) machineID consumerID endpoint now lease row ep

/-- **Every lease is traced** to the call that handed it out. -/
theorem leases_traced (E : Env) (ops : List Op) : LeasesTraced E ops where
  granted h := h.granted
  traced := by
    intro n id row hrow hp ht
    obtain ⟨i, hi, ⟨machineID, consumerID, endpoint, now, lease, hissues, hid⟩, -, hsame⟩ := leased_by hrow hp ht
    obtain ⟨row', ep, hgrant⟩ := hissues.granted
    have hleft := hsame (i + 1) (by omega) (by omega)
    rw [← hid] at hleft
    cases hleft.symm.trans hgrant.delivery
    exact ⟨i, hi, machineID, consumerID, endpoint, now, lease, ep, hissues, hid, hgrant⟩

end

end Punaro
