import Punaro.Proof.Send

/-!
# Leasing, acknowledging and rebinding keep the store well formed

What `leaseDeliveries`, `ackDelivery` and `bindRoleToSession` do when they succeed,
one inversion lemma each, and what they do to the delivery rows.
-/

namespace Punaro

open Outcome

/-- The pending delivery stays as it is, or is leased anew under the next generation. -/
def Leased (_ : String) (d d' : DeliveryRow) : Prop :=
  d' = d ∨ ∃ h token leaseUntil, d' = d.lease h token leaseUntil

/-- The pending delivery stays as it is, or loses its lease. -/
def Unleased (_ : String) (d d' : DeliveryRow) : Prop := d' = d ∨ d' = d.unlease

section

variable {s s' : Store} {machineID endpoint consumerID : String} {now ttl : Int}
variable {c role : String} {token : String → String} {d : DeliveryRow} {generation : Int}
  {recipientIDs : List String} {answer : DeliveryLeasePage}

/-! ## Ownership -/

theorem endpointOwnership_eq_ok {p : Presence} {generation : ℕ}
    (h : endpointOwnership p endpoint machineID now = .ok generation) :
    ∃ row, p.endpoints.find? endpoint = some row ∧ row.machineID = machineID ∧
      unixMilli now < row.leaseUntil ∧ row.ownershipGeneration = generation := by
  unfold endpointOwnership endpointOwnershipUntil at h
  simp only [ok_rules] at h
  obtain ⟨⟨g, u⟩, h, rfl⟩ := h
  split at h
  · cases h
  · rename_i row hrow
    split at h
    · cases h
    · rename_i hlive
      cases h
      rw [not_or, not_not, not_le] at hlive
      exact ⟨row, hrow, hlive.1, hlive.2, rfl⟩

/-! ## Leasing -/

theorem mem_leasePage {m : Mail} {h : Holder} {limit : ℕ} {r : JoinedRow}
    (hr : r ∈ leasePage m h recipientIDs c now limit) :
    r ∈ m.joined ∧ r.delivery.ackedAt = none ∧ r.delivery.recipientEndpoint ∈ recipientIDs ∧
      r.delivery.openTo h now := by
  have hmem := List.mem_of_mem_take hr
  rw [List.mem_insertionSort, List.mem_filter] at hmem
  simp only [Bool.and_eq_true, decide_eq_true_eq, Option.isNone_iff_eq_none] at hmem
  exact ⟨hmem.1, hmem.2.1.1.2, hmem.2.1.1.1, hmem.2.1.2⟩

theorem leasePage_nodup (m : Mail) (h : Holder) (recipientIDs : List String) (c : String) (now : Int)
    (limit : ℕ) : ((leasePage m h recipientIDs c now limit).map JoinedRow.id).Nodup := by
  refine List.Nodup.sublist ((List.take_sublist _ _).map _) ?_
  refine ((List.perm_insertionSort _ _).map _).nodup_iff.2 ?_
  exact (joined_ids_nodup m).sublist (List.filter_sublist.map _)

/-- The delivery rows after a page has been leased. -/
def leasedRows (page : List JoinedRow) (h : Holder) (now ttl : Int) (token : String → String)
    (id : String) (d : DeliveryRow) : DeliveryRow :=
  ((page.find? fun r => r.id = id).map (leasedRow h now ttl token)).getD d

/-- A row of the page is the delivery's own row. -/
theorem leasedRows_eq {m : Mail} {h : Holder} {id : String} {limit : ℕ} (hd : m.deliveries.find? id = some d) :
    leasedRows (leasePage m h recipientIDs c now limit) h now ttl token id d = d ∨
      d.ackedAt = none ∧ ∃ r ∈ leasePage m h recipientIDs c now limit, r.id = id ∧ r.delivery = d ∧
        leasedRows (leasePage m h recipientIDs c now limit) h now ttl token id d =
          leasedRow h now ttl token r := by
  unfold leasedRows
  cases hr : (leasePage m h recipientIDs c now limit).find? fun r => r.id = id with
  | none => exact .inl rfl
  | some r =>
    have hid : r.id = id := by simpa using List.find?_some hr
    have hmem := List.mem_of_find?_eq_some hr
    obtain ⟨hj, hp, -⟩ := mem_leasePage hmem
    have hdr := (mem_joined.1 hj).1
    rw [hid, hd, Option.some.injEq] at hdr
    exact .inr ⟨hdr ▸ hp, r, hmem, hid, hdr.symm, rfl⟩

theorem leasedRow_leased (h : Holder) (token : String → String) (r : JoinedRow) :
    Leased r.id r.delivery (leasedRow h now ttl token r) := by
  unfold leasedRow
  split
  · exact .inl rfl
  · exact .inr ⟨_, _, _, rfl⟩

theorem Leased.about {id : String} {d' : DeliveryRow} (h : Leased id d d') :
    d'.messageID = d.messageID ∧ d'.recipientEndpoint = d.recipientEndpoint ∧ d'.ackedAt = d.ackedAt := by
  rcases h with rfl | ⟨_, _, _, rfl⟩ <;> exact ⟨rfl, rfl, rfl⟩

/-- What a successful lease request does: the consumer claims the endpoint, the page's rows are leased,
and the page is answered. -/
theorem leaseDeliveries_eq_ok {limit : Int}
    (h : leaseDeliveries s machineID consumerID endpoint c now ttl limit token = .ok (s', answer)) :
    ∃ row row' generation, s.presence.endpoints.find? endpoint = some row ∧
      endpointOwnership s.presence endpoint machineID now = .ok generation ∧ 0 < ttl ∧
      claimConsumer row consumerID now ttl = .ok row' ∧
      let hold : Holder := ⟨machineID, generation, row'.consumerGeneration⟩
      let page := leasePage s.mail hold (sessionRecipientIDs s.presence machineID endpoint generation now) c now
        limit.toNat
      answer.deliveries = page.map (leasedDelivery s.mail hold endpoint now ttl token) ∧
        s' = { s with
          presence := { s.presence with endpoints := s.presence.endpoints.updateAt endpoint fun _ => row' }
          mail := { s.mail with
            deliveries := s.mail.deliveries.update (leasedRows page hold now ttl token) } } := by
  unfold leaseDeliveries at h
  simp only [ok_rules, Prod.mk.injEq] at h
  obtain ⟨-, hvalid, generation, hown, row, hrow, row', hclaim, cursors, -, rfl, rfl⟩ := h
  refine ⟨row, row', generation, hrow, hown, hvalid.2.2.2.1, hclaim, rfl, ?_⟩
  rw [Table.foldl_overwrite JoinedRow.id _ (leasePage_nodup _ _ _ _ _ _)]
  rfl

theorem leaseDeliveries_spec {limit : Int} (ok : StoreOK s)
    (h : leaseDeliveries s machineID consumerID endpoint c now ttl limit token = .ok (s', answer)) :
    StoreOK s' ∧ Evolves Leased s.mail s'.mail := by
  obtain ⟨row, row', generation, -, -, -, -, -, rfl⟩ := leaseDeliveries_eq_ok h
  refine ⟨⟨ok.rooms, ok.mail.update (fun {id d} hd hc => ?_) fun {id d} hd => ?_⟩,
    .of_update (fun {id d} hd hc => ?_) fun {id d} hd hp => ?_⟩
  · rcases leasedRows_eq hd with heq | ⟨hp, -⟩
    · exact heq
    · exact absurd hp hc
  · rcases leasedRows_eq hd with heq | ⟨hp, r, -, -, rfl, heq⟩
    · rw [heq]
      exact ⟨rfl, rfl, rfl⟩
    · rw [heq]
      exact (leasedRow_leased _ token r).about
  · rcases leasedRows_eq hd with heq | ⟨hp, -⟩
    · exact heq
    · exact absurd hp hc
  · rcases leasedRows_eq hd with heq | ⟨-, r, -, rfl, rfl, heq⟩
    · exact .inl heq
    · rw [heq]
      exact leasedRow_leased _ token r

/-! ## Acknowledging -/

/-- A live lease that is not the one of a closed delivery is a pending delivery's. -/
theorem DeliveryRow.leaseMatches.pending {holder : Holder} {token : String}
    (h : d.leaseMatches holder token generation now)
    (hopen : ¬(d.ackedAt.isSome ∧ d.leaseToken = some token ∧ (d.leaseGeneration : Int) = generation)) :
    d.ackedAt = none := by
  by_contra hne
  exact hopen ⟨Option.isSome_iff_ne_none.2 hne, h.2.1, h.2.2.1⟩

/-- What a successful acknowledgement does: nothing for a delivery closed under the same lease, otherwise
it closes a pending delivery whose live lease is presented. -/
theorem ackDelivery_eq_ok {deliveryID token : String} (ok : StoreOK s)
    (h : ackDelivery s machineID endpoint deliveryID token generation now = .ok s') :
    ∃ ownership d, endpointOwnership s.presence endpoint machineID now = .ok ownership ∧
      s.mail.deliveries.find? deliveryID = some d ∧
      d.recipientEndpoint ∈ sessionRecipientIDs s.presence machineID endpoint ownership now ∧
      (d.ackedAt ≠ none ∧ d.leaseToken = some token ∧ (d.leaseGeneration : Int) = generation ∧ s' = s ∨
        d.ackedAt = none ∧ ∃ row message mail, s.presence.endpoints.find? endpoint = some row ∧
          (⟨deliveryID, d, message⟩ : JoinedRow) ∈ s.mail.joined ∧
          d.leaseMatches ⟨machineID, ownership, row.consumerGeneration⟩ token generation now ∧
          closeAcked s.rooms.conversations s.mail deliveryID d now = .ok mail ∧ s' = { s with mail }) := by
  unfold ackDelivery at h
  simp only [ok_rules] at h
  obtain ⟨ownership, hown, d, hd, -, hrecipient, h⟩ := h
  refine ⟨ownership, d, hown, hd, hrecipient, ?_⟩
  split at h
  · rename_i hclosed
    rw [pure_eq_ok] at h
    exact .inl ⟨by simpa [Option.isSome_iff_ne_none] using hclosed.1, hclosed.2.1, hclosed.2.2, h.symm⟩
  · rename_i hclosed
    simp only [ok_rules] at h
    obtain ⟨row, hrow, -, hmatches, mail, hclose, rfl⟩ := h
    have hpending := hmatches.pending hclosed
    obtain ⟨message, hm⟩ := ok.mail.inv.sent hd
    exact .inr ⟨hpending, row, message, mail, hrow, mem_joined.2 ⟨hd, hm⟩, hmatches, hclose, rfl⟩

theorem ackDelivery_spec {deliveryID token : String} (ok : StoreOK s)
    (h : ackDelivery s machineID endpoint deliveryID token generation now = .ok s') :
    StoreOK s' ∧ Evolves (Acknowledged deliveryID) s.mail s'.mail := by
  obtain ⟨ownership, d, -, hd, -, ⟨-, -, -, rfl⟩ | ⟨hp, row, message, mail, -, hj, hmatches, hclose, rfl⟩⟩ :=
    ackDelivery_eq_ok ok h
  · exact ⟨ok, .refl (fun _ _ => .inl rfl) _⟩
  · have htoken : d.leaseToken ≠ none := by simp [hmatches.2.1]
    obtain ⟨hmail, hevolves, -⟩ := closeAcked_spec ok.mail hj hp htoken hclose
    exact ⟨⟨ok.rooms, hmail⟩, hevolves⟩

/-! ## Binding a role -/

/-- What a successful binding does. -/
theorem bindRoleToSession_eq_ok (h : bindRoleToSession s machineID role endpoint now ttl = .ok s') :
    ∃ row, s.presence.endpoints.find? endpoint = some row ∧ row.machineID = machineID ∧
      unixMilli now < row.leaseUntil ∧ validEndpoint endpoint ∧ validRole role ∧
      rejectExclusiveBindOccupancy s.presence s.rooms endpoint role now = .ok () ∧
      let until' := min (unixMilli (now + ttl)) row.leaseUntil
      let rebinding := (s.presence.roleBindings.find? role).any fun previous =>
        previous.sessionEndpoint != endpoint || previous.ownershipGeneration != row.ownershipGeneration ||
          previous.leaseUntil ≤ unixMilli now
      unixMilli now < until' ∧
        s' = { s with
          presence := { s.presence with
            roleBindings := s.presence.roleBindings.put role ⟨endpoint, machineID, row.ownershipGeneration, until'⟩ }
          mail := { s.mail with
            deliveries := s.mail.deliveries.update fun _ d =>
              if rebinding && d.recipientEndpoint == roleRecipient role && d.ackedAt.isNone then d.unlease
              else d } } := by
  unfold bindRoleToSession endpointOwnershipUntil at h
  simp only [ok_rules] at h
  obtain ⟨-, hvalid, ⟨generation, leaseUntil⟩, hown, -, -, -, huntil, -, -, _, hreject, rfl⟩ := h
  split at hown
  · cases hown
  · rename_i row hrow
    split at hown
    · cases hown
    · rename_i hlive
      cases hown
      rw [not_or, not_not, not_le] at hlive
      exact ⟨row, hrow, hlive.1, hlive.2, hvalid.2.2.2.1, hvalid.2.1, hreject, huntil, rfl⟩

theorem bindRoleToSession_spec (ok : StoreOK s) (h : bindRoleToSession s machineID role endpoint now ttl = .ok s') :
    StoreOK s' ∧ Evolves Unleased s.mail s'.mail := by
  obtain ⟨row, -, -, -, -, -, -, -, rfl⟩ := bindRoleToSession_eq_ok h
  refine ⟨⟨ok.rooms, ok.mail.update (fun {id d} hd hc => ?_) fun {id d} hd => ?_⟩,
    .of_update (fun {id d} hd hc => ?_) fun {id d} hd hp => ?_⟩
  · rw [if_neg (by simp [hc])]
  · split <;> exact ⟨rfl, rfl, rfl⟩
  · rw [if_neg (by simp [hc])]
  · split
    · exact .inr rfl
    · exact .inl rfl

end

end Punaro
