import Punaro.Proof.Rooms

/-!
# Operations on rooms keep the store well formed

`StoreOK` joins the invariants of rooms and mail. Each operation that creates a
room, changes its members, names it or claims it keeps `StoreOK`; what it does to
the mail is an `Evolves`.
-/

namespace Punaro

open Outcome

structure StoreOK (s : Store) : Prop where
  rooms : RoomsOK s.rooms
  mail : MailOK s.rooms.conversations (Receives s.rooms) s.mail

section

variable {E : Env} {s s' : Store} {r r' r'' : Rooms} {c id : String}
variable {endpoint displayName machineID role creator : String} {input : ControlInput} {capabilities previous : Capability}
  {t : Table (String × String) Capability} {row : ConversationRow}
  {conversations : Table String ConversationRow} {m : Mail} {now : Int} {answer : TelegramClaim × Bool}
  {member : Member} {event : ControlEvent × Bool} {conversation : Conversation}

/-! ## Creating a room -/

/-- A member as the checks of `createConversation` leave it. -/
def Member.Checked (member : Member) : Prop :=
  (member.endpoint ≠ "" → validEndpoint member.endpoint) ∧ (member.endpoint = "" → validRole member.role)

theorem checkMember_checked {seen seen' : List String × List String × Bool}
    (h : checkMember creator seen member = .ok seen') : member.Checked := by
  unfold checkMember at h
  simp only [ok_rules] at h
  obtain ⟨-, -, h⟩ := h
  split at h
  · rename_i hendpoint
    simp only [ok_rules] at h
    obtain ⟨-, hvalid, -⟩ := h
    exact ⟨fun _ => hvalid.1, fun h => absurd h hendpoint.1⟩
  · split at h
    · rename_i hrole
      exact ⟨fun h => absurd hrole.1 h, fun _ => hrole.2.1⟩
    · cases h

theorem checked_of_checkMember {members : List Member} {seen seen' : List String × List String × Bool}
    (h : members.foldlM (checkMember creator) seen = .ok seen') : ∀ member ∈ members, member.Checked := by
  intro member hm
  obtain ⟨_, _, hone⟩ := foldlM_mem h member hm
  exact checkMember_checked hone

/-- What adding members to the conversation `id` changes. -/
structure Joining (r : Rooms) (id : String) (r' : Rooms) : Prop where
  same : SameElsewhere r id r'
  conversations : r'.conversations = r.conversations
  members : ∀ {endpoint cap}, r'.memberships.find? (id, endpoint) = some cap → validEndpoint endpoint
  roleMembers : ∀ {role cap}, r'.roleMemberships.find? (id, role) = some cap → validRole role

theorem Joining.addMember (h : Joining r id r') (hm : member.Checked) (ha : addMember id r' member = .ok r'') :
    Joining r id r'' := by
  unfold Punaro.addMember at ha
  split at ha
  · rename_i hne
    simp only [ok_rules] at ha
    obtain ⟨t, ht, rfl⟩ := ha
    refine { h with same := { h.same with members := fun c' e hc => ?_ }, members := fun {e cap} he => ?_ }
    · rw [Table.find?_insert? ht, if_neg (by simp [hc])]
      exact h.same.members c' e hc
    · rw [Table.find?_insert? ht] at he
      split at he
      · rename_i hk
        cases hk
        exact hm.1 hne
      · exact h.members he
  · rename_i hempty
    simp only [ok_rules] at ha
    obtain ⟨t, ht, rfl⟩ := ha
    refine { h with
      same := { h.same with roleMembers := fun c' e hc => ?_ }, roleMembers := fun {role cap} he => ?_ }
    · rw [Table.find?_insert? ht, if_neg (by simp [hc])]
      exact h.same.roleMembers c' e hc
    · rw [Table.find?_insert? ht] at he
      split at he
      · rename_i hk
        cases hk
        exact hm.2 (not_not.1 hempty)
      · exact h.roleMembers he

theorem addMember_frame (h : addMember id r member = .ok r') :
    r'.directConversations = r.directConversations ∧ r'.telegramClaims = r.telegramClaims := by
  unfold addMember at h
  split at h
  all_goals
    simp only [ok_rules] at h
    obtain ⟨t, -, rfl⟩ := h
    exact ⟨rfl, rfl⟩

/-- The rooms with a new, empty conversation. -/
theorem joining_new (ok : RoomsOK r) (ht : r.conversations.insert? id row = some conversations) :
    Joining { r with conversations } id { r with conversations } := by
  have hnone := (Table.insert?_eq_some ht).1
  refine ⟨⟨fun _ _ => rfl, fun _ _ _ => rfl, fun _ _ _ => rfl, fun _ _ => rfl⟩, rfl, fun hm => ?_,
    fun hm => ?_⟩
  · exact (ok.member hm).1
  · exact (ok.roleMember hm).1

theorem Joining.elsewhere (ht : r.conversations.insert? id row = some conversations)
    (hj : Joining { r with conversations } id r') :
    SameElsewhere r id r' := by
  refine { hj.same with conversations := fun c' hc => ?_ }
  rw [hj.conversations]
  exact (Table.find?_insert? ht c').trans (if_neg hc)

/-- A new conversation and its members. -/
theorem joining_members {members : List Member} (ok : RoomsOK r)
    (ht : r.conversations.insert? id row = some conversations) (hmembers : ∀ member ∈ members, member.Checked)
    (h : members.foldlM (addMember id) { r with conversations } = .ok r') :
    Joining { r with conversations } id r' ∧ r'.directConversations = r.directConversations ∧
      r'.telegramClaims = r.telegramClaims := by
  obtain ⟨-, hjoining, hframe⟩ := foldlM_rule (fun l r' => (∀ member ∈ l, member.Checked) ∧
    Joining { r with conversations } id r' ∧ r'.directConversations = r.directConversations ∧
      r'.telegramClaims = r.telegramClaims)
    (fun member l r₁ r₂ ⟨hl, hr, hd, hc⟩ hadd => ⟨fun m hm => hl m (List.mem_cons_of_mem _ hm),
      hr.addMember (hl member List.mem_cons_self) hadd, (addMember_frame hadd).1.trans hd,
      (addMember_frame hadd).2.trans hc⟩)
    ⟨hmembers, joining_new ok ht, rfl, rfl⟩ h
  exact ⟨hjoining, hframe⟩

/-- A new room keeps the store well formed, provided the direct rooms are. -/
theorem StoreOK.newRoom (ok : StoreOK s) (ht : s.rooms.conversations.insert? id row = some conversations)
    (hrow : row.nextSequence = 0) (hj : Joining { s.rooms with conversations } id r')
    (hm : MailOK s.rooms.conversations (Receives s.rooms) m)
    (hdirect : ∀ {k d}, r'.directConversations.find? k = some d →
      s.rooms.directConversations.find? k = some d ∨ DirectRoom r' d.conversationID k.1 k.2) :
    RoomsOK r' ∧ MailOK r'.conversations (Receives r') m := by
  have hnone := (Table.insert?_eq_some ht).1
  have hsame := hj.elsewhere ht
  constructor
  · refine ok.rooms.touch hsame ?_ hj.members hj.roleMembers fun hk => (hdirect hk).imp_left fun hk => ⟨hk, ?_⟩
    · rw [hj.conversations]
      exact Option.isSome_iff_exists.2 ⟨row, (Table.find?_insert? ht id).trans (if_pos rfl)⟩
    · rintro rfl
      obtain ⟨row', hrow', -⟩ := (ok.rooms.direct hk).created
      rw [hnone] at hrow'
      cases hrow'
  · rw [hj.conversations]
    exact hm.newRoom ht hrow fun c' recipient hc => hsame.receives hc

theorem createRoom_eq_ok {input : CreateConversationInput} {endpoints roles : List String}
    (h : createRoom s input endpoints roles displayName id = .ok s') :
    (endpoints.forM fun endpoint => endpointActive s.presence endpoint input.now) = .ok () ∧
      (displayName ≠ "" →
        rejectExclusiveCreateOccupancy s.presence s.rooms endpoints roles input.now = .ok ()) ∧
      ∃ presence conversations rooms,
        s.rooms.conversations.insert? id ⟨0, unixMilli input.now, nullableText displayName⟩ =
          some conversations ∧
        input.members.foldlM (addMember id) { s.rooms with conversations } = .ok rooms ∧
        (input.members.foldlM (fun p member =>
          if member.role = "" then .ok p else claimRole p member.role member.roleMachineID) s.presence) =
            .ok presence ∧
        s' = { s with presence, rooms } := by
  unfold createRoom at h
  simp only [ok_rules, ite_bind_eq_ok] at h
  obtain ⟨_, hactive, hreject, presence, hclaim, conversations, hinsert, rooms, hjoin, rfl⟩ := h
  exact ⟨hactive, hreject, presence, conversations, rooms, hinsert, hjoin, hclaim, rfl⟩

theorem createRoom_spec {input : CreateConversationInput} {endpoints roles : List String} (ok : StoreOK s)
    (hmembers : ∀ member ∈ input.members, member.Checked)
    (h : createRoom s input endpoints roles displayName id = .ok s') : StoreOK s' ∧ s'.mail = s.mail := by
  obtain ⟨-, -, presence, conversations, rooms, hinsert, hjoin, -, rfl⟩ := createRoom_eq_ok h
  obtain ⟨hjoining, hdirect, -⟩ := joining_members ok.rooms hinsert hmembers hjoin
  obtain ⟨hrooms, hmail⟩ := ok.newRoom hinsert rfl hjoining ok.mail fun hk => .inl (hdirect ▸ hk)
  exact ⟨⟨hrooms, hmail⟩, rfl⟩

/-- The outcome of `createConversation`: a retry, or a new room. -/
theorem createConversation_eq_ok {input : CreateConversationInput}
    (h : createConversation E s input id = .ok (s', conversation)) :
    s' = s ∨ ∃ displayName endpoints roles s₁ t,
      sanitizeConversationDisplayName input.displayName = some displayName ∧
      input.members.foldlM (checkMember input.creatorEndpoint) ([], [], false) = .ok (endpoints, roles, true) ∧
      createRoom s input endpoints roles displayName id = .ok s₁ ∧
      s' = { s₁ with journal := { s₁.journal with conversationIdempotency := t } } := by
  unfold createConversation at h
  simp only [ok_rules] at h
  obtain ⟨displayName, hname, -, -, ⟨endpoints, roles, creatorAdmin⟩, hcheck, -, hadmin, h⟩ := h
  dsimp only at hadmin
  subst hadmin
  split at h
  · simp only [ok_rules, Prod.mk.injEq] at h
    obtain ⟨s₁, hcreate, rfl, -⟩ := h
    exact .inr ⟨displayName, endpoints, roles, s₁, s₁.journal.conversationIdempotency, hname, hcheck, hcreate, rfl⟩
  · simp only [bind_eq_ok] at h
    obtain ⟨-, -, h⟩ := h
    split at h
    · simp only [ok_rules, Prod.mk.injEq] at h
      obtain ⟨-, -, -, -, rfl, -⟩ := h
      exact .inl rfl
    · simp only [ok_rules, Prod.mk.injEq] at h
      obtain ⟨s₁, hcreate, t, -, rfl, -⟩ := h
      exact .inr ⟨displayName, endpoints, roles, s₁, t, hname, hcheck, hcreate, rfl⟩

theorem createConversationIdempotent_eq_ok {input : CreateConversationInput} {answer : Store × Conversation}
    (h : createConversationIdempotent E s input id = .ok answer) : createConversation E s input id = .ok answer := by
  simp only [createConversationIdempotent, bind_eq_ok] at h
  obtain ⟨_, -, h⟩ := h
  exact h

theorem createConversation_spec {input : CreateConversationInput} (ok : StoreOK s)
    (h : createConversation E s input id = .ok (s', conversation)) : StoreOK s' ∧ s'.mail = s.mail := by
  rcases createConversation_eq_ok h with rfl | ⟨name, endpoints, roles, s₁, t, -, hcheck, hcreate, rfl⟩
  · exact ⟨ok, rfl⟩
  · obtain ⟨hok, hmail⟩ := createRoom_spec ok (checked_of_checkMember hcheck) hcreate
    exact ⟨⟨hok.rooms, hok.mail⟩, hmail⟩

/-! ## Who administers -/

theorem has_foldl_or {mask init : Capability} {l : List ((String × String) × Capability)}
    (hinit : Capability.has init mask = false) (hl : ∀ m ∈ l, Capability.has m.2 mask = false) :
    Capability.has (l.foldl (fun capabilities m => capabilities ||| m.2) init) mask = false := by
  induction l generalizing init with
  | nil => exact hinit
  | cons m l ih =>
    refine ih ?_ fun m' hm' => hl m' (List.mem_cons_of_mem _ hm')
    rw [Capability.has_or, hinit, hl m List.mem_cons_self]
    rfl

/-- Nobody administers a direct conversation. -/
theorem DirectRoom.not_admin {p : Presence} {low high : String} (hd : DirectRoom r c low high)
    (h : sessionCapabilities p r c machineID endpoint now = .ok capabilities) :
    Capability.has capabilities capAdmin = false := by
  unfold sessionCapabilities at h
  simp only [ok_rules, hd.noEndpoints endpoint, Option.getD_none] at h
  obtain ⟨generation, -, rfl⟩ := h
  refine has_foldl_or (by decide) fun m hm => ?_
  rw [List.mem_filter, Bool.and_eq_true, beq_iff_eq] at hm
  obtain ⟨hmem, rfl, -⟩ := hm
  rw [(hd.roles (Table.find?_eq_some_iff_mem.2 hmem)).2]
  decide

theorem requireAdmin_notDirect {context : String} (ok : RoomsOK s.rooms)
    (h : requireAdmin s c machineID endpoint now context = .ok ()) : NotDirect s.rooms c := by
  unfold requireAdmin at h
  simp only [ok_rules, mapError_eq_ok] at h
  obtain ⟨-, -, capabilities, hcap, hadmin⟩ := h
  rintro k row hk rfl
  rw [(ok.direct hk).not_admin hcap] at hadmin
  cases hadmin

/-! ## Changing a member -/

/-- Writing one membership of an existing room that is not a direct one. -/
theorem RoomsOK.setMember (ok : RoomsOK r) (hc : (r.conversations.find? c).isSome) (he : validEndpoint endpoint)
    (hd : NotDirect r c) (ht : ∀ k, k ≠ (c, endpoint) → t.find? k = r.memberships.find? k) :
    RoomsOK { r with memberships := t } := by
  refine ok.touch ⟨fun _ _ => rfl, fun c' e hc' => ht _ (by simp [hc']), fun _ _ _ => rfl, fun _ _ => rfl⟩
    hc (fun {e cap} hm => ?_) (fun hm => (ok.roleMember hm).1) fun hk => .inl ⟨hk, hd _ _ hk⟩
  by_cases heq : e = endpoint
  · exact heq ▸ he
  · rw [show Table.find? _ _ = _ from ht (c, e) (by simp [heq])] at hm
    exact (ok.member hm).1

theorem receives_setMember (ht : ∀ k, k ≠ (c, endpoint) → t.find? k = r.memberships.find? k)
    (c' recipient : String) (hne : ¬ (c' = c ∧ recipient = endpoint)) :
    Receives { r with memberships := t } c' recipient ↔ Receives r c' recipient := by
  unfold Receives
  rw [show Table.find? t (c', recipient) = _ from ht (c', recipient) (by simpa using hne)]

/-- The memberships `t` are those of `r` with one row written. -/
def Wrote (r : Rooms) (c endpoint : String) (capabilities : Capability)
    (t : Table (String × String) Capability) : Prop :=
  ∀ k, t.find? k = if k = (c, endpoint) then some capabilities else r.memberships.find? k

theorem Wrote.else (ht : Wrote r c endpoint capabilities t) (k : String × String) (hk : k ≠ (c, endpoint)) :
    t.find? k = r.memberships.find? k := by
  rw [ht, if_neg hk]

theorem Wrote.receives_self (ht : Wrote r c endpoint capabilities t) (he : validEndpoint endpoint) :
    Receives { r with memberships := t } c endpoint ↔ Capability.has capabilities capReceive := by
  rw [receives_endpoint he]
  simp [ht (c, endpoint)]

theorem Wrote.receives_sub (ht : Wrote r c endpoint capabilities t) (he : validEndpoint endpoint)
    (hreceive : Capability.has capabilities capReceive) (c' recipient : String) (hR : Receives r c' recipient) :
    Receives { r with memberships := t } c' recipient := by
  by_cases heq : c' = c ∧ recipient = endpoint
  · obtain ⟨rfl, rfl⟩ := heq
    exact (ht.receives_self he).2 hreceive
  · exact (receives_setMember ht.else c' recipient heq).2 hR

theorem Wrote.receives_new (ht : Wrote r c endpoint capabilities t) (c' recipient : String)
    (hR : Receives { r with memberships := t } c' recipient) :
    Receives r c' recipient ∨ c' = c ∧ recipient = endpoint := by
  by_cases heq : c' = c ∧ recipient = endpoint
  · exact .inr heq
  · exact .inl ((receives_setMember ht.else c' recipient heq).1 hR)

/-- A receiving member is advanced, a member that no longer receives must have nothing open. -/
theorem writeMember_spec (ok : StoreOK s) (hc : (s.rooms.conversations.find? c).isSome)
    (he : validEndpoint endpoint) (hd : NotDirect s.rooms c)
    (hlose : ¬ Capability.has capabilities capReceive → Receives s.rooms c endpoint →
      s.mail.opened endpoint c = ∅) (h : writeMember s c endpoint capabilities = .ok s') :
    StoreOK s' ∧ Evolves Unchanged s.mail s'.mail := by
  have ht : Wrote s.rooms c endpoint capabilities (s.rooms.memberships.put (c, endpoint) capabilities) :=
    fun k => Table.find?_put
  have hrooms := ok.rooms.setMember hc he hd ht.else
  unfold writeMember at h
  dsimp only at h
  split at h
  · rename_i hreceive
    simp only [ok_rules] at h
    obtain ⟨m', hadvance, rfl⟩ := h
    obtain ⟨hmail, hevolves⟩ := ok.mail.grant hadvance (ht.receives_sub he hreceive) ht.receives_new
    exact ⟨⟨hrooms, hmail⟩, hevolves⟩
  · rename_i hreceive
    rw [pure_eq_ok] at h
    subst h
    refine ⟨⟨hrooms, ok.mail.shrink (fun c' r hR => ?_) fun c' r hR hR' => ?_⟩, .refl unchanged_refl _⟩
    · rcases ht.receives_new c' r hR with hR | ⟨rfl, rfl⟩
      · exact hR
      · exact absurd ((ht.receives_self he).1 hR) hreceive
    · by_cases heq : c' = c ∧ r = endpoint
      · obtain ⟨rfl, rfl⟩ := heq
        exact hlose hreceive hR
      · exact absurd ((receives_setMember ht.else c' r heq).2 hR) hR'

/-- Losing the right to receive leaves nothing open. -/
theorem revokeReceive_spec (ok : StoreOK s) (h : revokeReceive s endpoint c now = .ok s') :
    ∃ m i, s' = { s with mail := m, invocations := i } ∧
      MailOK s.rooms.conversations (Receives s.rooms) m ∧ Evolves Retired s.mail m ∧ m.opened endpoint c = ∅ := by
  unfold revokeReceive at h
  simp only [ok_rules] at h
  obtain ⟨⟨m₁, n⟩, hretire, m₂, hadvance, rfl⟩ := h
  obtain ⟨hmail, hevolves, hopened⟩ := retireRecipientDeliveries_spec ok.mail hretire
  obtain ⟨hmail', hevolves'⟩ := hmail.advance hadvance
  refine ⟨m₂, _, rfl, hmail', hevolves.andThen retired_refl hevolves', ?_⟩
  obtain ⟨t, rfl⟩ := advanceRecipientCursor_frame hadvance
  exact hopened

theorem checkNewMember_created (h : checkNewMember s input = .ok ()) :
    (s.rooms.conversations.find? input.conversationID).isSome := by
  unfold checkNewMember conversationIsExclusive at h
  simp only [ok_rules] at h
  obtain ⟨_, -, _, -, _, ⟨row, hrow, -⟩, -⟩ := h
  exact Option.isSome_iff_exists.2 ⟨row, hrow⟩

theorem upsertMember_spec (ok : StoreOK s) (he : validEndpoint input.member.endpoint)
    (hd : NotDirect s.rooms input.conversationID) (h : upsertMember s input = .ok s') :
    StoreOK s' ∧ Evolves Retired s.mail s'.mail := by
  unfold upsertMember at h
  split at h
  · rename_i hnone
    simp only [bind_eq_ok] at h
    obtain ⟨_, hcheck, hwrite⟩ := h
    have hnot : ¬ Receives s.rooms input.conversationID input.member.endpoint := by
      intro hR
      obtain ⟨cap, hcap, -⟩ := (receives_endpoint he).1 hR
      rw [hnone] at hcap
      cases hcap
    obtain ⟨hok, hevolves⟩ := writeMember_spec ok (checkNewMember_created hcheck) he hd
      (fun _ hR => absurd hR hnot) hwrite
    exact ⟨hok, hevolves.mono fun _ _ _ h => .inl h⟩
  · rename_i previous hprevious
    have hc := (ok.rooms.member hprevious).2
    simp only [ite_bind_eq_ok] at h
    obtain ⟨-, h⟩ := h
    split at h
    · simp only [bind_eq_ok] at h
      obtain ⟨s₁, hrevoke, hwrite⟩ := h
      obtain ⟨m, i, rfl, hmail, hevolves, hopened⟩ := revokeReceive_spec ok hrevoke
      have ok₁ : StoreOK { s with mail := m, invocations := i } := ⟨ok.rooms, hmail⟩
      obtain ⟨hok, hevolves'⟩ := writeMember_spec ok₁ hc he hd (fun _ _ => hopened) hwrite
      exact ⟨hok, hevolves.andThen retired_refl hevolves'⟩
    · rename_i hkeep
      have hlose : ¬ Capability.has input.member.capabilities capReceive →
          ¬ Receives s.rooms input.conversationID input.member.endpoint := by
        intro hnot hR
        obtain ⟨cap, hcap, hreceive⟩ := (receives_endpoint he).1 hR
        rw [hprevious, Option.some.injEq] at hcap
        exact hkeep ⟨hcap ▸ hreceive, hnot⟩
      obtain ⟨hok, hevolves⟩ := writeMember_spec ok hc he hd (fun hnot hR => absurd hR (hlose hnot)) h
      exact ⟨hok, hevolves.mono fun _ _ _ h => .inl h⟩

theorem removeMember_spec (ok : StoreOK s) (he : validEndpoint input.member.endpoint)
    (hd : NotDirect s.rooms input.conversationID) (h : removeMember s input = .ok s') :
    StoreOK s' ∧ Evolves Retired s.mail s'.mail := by
  unfold removeMember at h
  simp only [ok_rules, ite_bind_eq_ok] at h
  obtain ⟨capabilities, hcap, -, s₁, hrevoke, rfl⟩ := h
  obtain ⟨m, i, rfl, hmail, hevolves, hopened⟩ := revokeReceive_spec ok hrevoke
  have ht : ∀ k, k ≠ (input.conversationID, input.member.endpoint) →
      (s.rooms.memberships.deleteWhere fun k _ =>
        k == (input.conversationID, input.member.endpoint)).find? k = s.rooms.memberships.find? k := by
    intro k hk
    ext cap
    rw [Table.find?_deleteWhere_eq_some]
    simp [hk]
  refine ⟨⟨ok.rooms.setMember (ok.rooms.member hcap).2 he hd ht, hmail.shrink (fun c' r hR => ?_)
    fun c' r hR hR' => ?_⟩, hevolves⟩
  · by_cases heq : c' = input.conversationID ∧ r = input.member.endpoint
    · obtain ⟨rfl, rfl⟩ := heq
      obtain ⟨cap, hcap', -⟩ := (receives_endpoint he).1 hR
      simp [Table.find?_deleteWhere_eq_some] at hcap'
    · exact (receives_setMember ht c' r heq).1 hR
  · by_cases heq : c' = input.conversationID ∧ r = input.member.endpoint
    · rw [heq.1, heq.2]
      exact hopened
    · exact absurd ((receives_setMember ht c' r heq).2 hR) hR'

/-! What the membership calls leave in the store, whatever it was before. -/

theorem writeMember_frame (h : writeMember s c endpoint capabilities = .ok s') :
    ∃ mail, s' = { s with
      rooms := { s.rooms with memberships := s.rooms.memberships.put (c, endpoint) capabilities }, mail } := by
  unfold writeMember at h
  split at h
  · simp only [ok_rules] at h
    obtain ⟨mail, -, rfl⟩ := h
    exact ⟨mail, rfl⟩
  · rw [pure_eq_ok] at h
    exact ⟨s.mail, h.symm⟩

theorem revokeReceive_frame (h : revokeReceive s endpoint c now = .ok s') :
    ∃ mail, s' = { s with
      mail, invocations := failRevokedInvocations s.invocations c endpoint now } := by
  unfold revokeReceive at h
  simp only [ok_rules] at h
  obtain ⟨_, -, mail, -, rfl⟩ := h
  exact ⟨mail, rfl⟩

theorem upsertMember_frame (h : upsertMember s input = .ok s') :
    (s.rooms.memberships.find? (input.conversationID, input.member.endpoint) = none →
      checkNewMember s input = .ok ()) ∧
    ∃ mail invocations, (invocations = s.invocations ∨ invocations =
        failRevokedInvocations s.invocations input.conversationID input.member.endpoint input.now) ∧
      s' = { s with
        rooms := { s.rooms with
          memberships := s.rooms.memberships.put (input.conversationID, input.member.endpoint)
            input.member.capabilities }
        mail, invocations } := by
  unfold upsertMember at h
  split at h
  · simp only [bind_eq_ok] at h
    obtain ⟨_, hcheck, hwrite⟩ := h
    obtain ⟨mail, rfl⟩ := writeMember_frame hwrite
    exact ⟨fun _ => hcheck, mail, s.invocations, .inl rfl, rfl⟩
  · rename_i previous hprevious
    refine ⟨fun hnone => (by rw [hnone] at hprevious; cases hprevious), ?_⟩
    simp only [ite_bind_eq_ok] at h
    obtain ⟨-, h⟩ := h
    split at h
    · simp only [bind_eq_ok] at h
      obtain ⟨s₁, hrevoke, hwrite⟩ := h
      obtain ⟨_, rfl⟩ := revokeReceive_frame hrevoke
      obtain ⟨mail, rfl⟩ := writeMember_frame hwrite
      exact ⟨mail, _, .inr rfl, rfl⟩
    · obtain ⟨mail, rfl⟩ := writeMember_frame h
      exact ⟨mail, s.invocations, .inl rfl, rfl⟩

theorem removeMember_frame (h : removeMember s input = .ok s') :
    ∃ mail, s' = { s with
      rooms := { s.rooms with
        memberships := s.rooms.memberships.deleteWhere fun k _ =>
          k == (input.conversationID, input.member.endpoint) }
      mail
      invocations :=
        failRevokedInvocations s.invocations input.conversationID input.member.endpoint input.now } := by
  unfold removeMember at h
  simp only [ok_rules, ite_bind_eq_ok] at h
  obtain ⟨_, -, -, s₁, hrevoke, rfl⟩ := h
  obtain ⟨mail, rfl⟩ := revokeReceive_frame hrevoke
  exact ⟨mail, rfl⟩

/-- A member that is to lose the right to administer is not the last one who has it. -/
theorem upsertMember_guard (h : upsertMember s input = .ok s')
    (hprevious : s.rooms.memberships.find? (input.conversationID, input.member.endpoint) = some previous)
    (hadmin : Capability.has previous capAdmin) (hloses : ¬ Capability.has input.member.capabilities capAdmin) :
    remainingAdmins s.rooms input.conversationID input.member.endpoint ≠ 0 := by
  unfold upsertMember at h
  rw [hprevious] at h
  simp only [ite_bind_eq_ok, require_eq_ok] at h
  exact h.1 ⟨hadmin, hloses⟩

theorem removeMember_guard (h : removeMember s input = .ok s')
    (hprevious : s.rooms.memberships.find? (input.conversationID, input.member.endpoint) = some previous)
    (hadmin : Capability.has previous capAdmin) :
    remainingAdmins s.rooms input.conversationID input.member.endpoint ≠ 0 := by
  unfold removeMember at h
  rw [hprevious] at h
  simp only [ok_rules, ite_bind_eq_ok, Option.some.injEq, exists_eq_left'] at h
  exact h.1 hadmin

/-- The outcome of `applyControl`: a retry, or the change of a member by an administrator. -/
theorem applyControl_eq_ok (h : applyControl E s input id = .ok (s', event)) :
    s' = s ∨ ∃ s₁ t t', validEndpoint input.member.endpoint ∧ ¬ reservedRelayMember input.member.endpoint ∧
      requireAdmin s input.conversationID input.actorMachineID input.actorEndpoint input.now
        "authorize control actor" = .ok () ∧
      (upsertMember s input = .ok s₁ ∨ removeMember s input = .ok s₁) ∧
      s' = { s₁ with
        journal := { s₁.journal with conversationControls := t, conversationControlIdempotency := t' } } := by
  unfold applyControl at h
  simp only [ok_rules] at h
  obtain ⟨-, hvalid, -, -, -, -, _, hadmin, h⟩ := h
  split at h
  · simp only [ok_rules, Prod.mk.injEq] at h
    obtain ⟨_, -, _, -, rfl, -⟩ := h
    exact .inl rfl
  · right
    split at h
    all_goals
      simp only [ok_rules, Prod.mk.injEq] at h
      obtain ⟨s₁, hchange, t, -, t', -, rfl, -⟩ := h
      exact ⟨s₁, t, t', hvalid.2.2.2.2.1, hvalid.2.2.2.2.2, hadmin, by simp [hchange], rfl⟩

theorem applyControl_spec (ok : StoreOK s) (h : applyControl E s input id = .ok (s', event)) :
    StoreOK s' ∧ Evolves Retired s.mail s'.mail := by
  rcases applyControl_eq_ok h with rfl | ⟨s₁, t, t', he, -, hadmin, hchange, rfl⟩
  · exact ⟨ok, .refl retired_refl _⟩
  · have hd := requireAdmin_notDirect ok.rooms hadmin
    rcases hchange with hchange | hchange
    · obtain ⟨hok, hevolves⟩ := upsertMember_spec ok he hd hchange
      exact ⟨⟨hok.rooms, hok.mail⟩, hevolves⟩
    · obtain ⟨hok, hevolves⟩ := removeMember_spec ok he hd hchange
      exact ⟨⟨hok.rooms, hok.mail⟩, hevolves⟩

/-! ## Naming and claiming -/

theorem RoomsOK.rename (ok : RoomsOK r) (hc : (r.conversations.find? c).isSome) (hd : NotDirect r c) :
    RoomsOK (r.rename c displayName) := by
  refine ok.touch ⟨fun c' hc' => ?_, fun _ _ _ => rfl, fun _ _ _ => rfl, fun _ _ => rfl⟩ ?_
    (fun hm => (ok.member hm).1) (fun hm => (ok.roleMember hm).1) fun hk => .inl ⟨hk, hd _ _ hk⟩
  · rw [Rooms.rename, Table.find?_updateAt, if_neg hc']
  · rw [Rooms.rename, Table.find?_updateAt, if_pos rfl, Option.isSome_map]
    exact hc

theorem MailOK.rename {R : String → String → Prop} (ok : MailOK r.conversations R m) :
    MailOK (r.rename c displayName).conversations R m := by
  refine ok.of_conversations fun c' => ?_
  rw [Rooms.rename, Table.find?_updateAt]
  split
  · rw [Option.map_map]
    rfl
  · rfl

/-- The outcome of `setConversationDisplayName`: nothing changes but the journal, or an administrator
names a room that exists. -/
theorem setConversationDisplayName_eq_ok {input : SetDisplayNameInput} {answer : Conversation × Bool}
    (h : setConversationDisplayName E s input = .ok (s', answer)) :
    (∃ t, s' = { s with journal := { s.journal with conversationDisplayNameIdempotency := t } }) ∨
      ∃ row displayName t, s.rooms.conversations.find? input.conversationID = some row ∧ displayName ≠ "" ∧
      requireAdmin s input.conversationID input.actorMachineID input.actorEndpoint input.now
        "authorize display name actor" = .ok () ∧
      (row.displayName.getD "" = "" →
        rejectExclusiveRenameOccupancy s.presence s.rooms input.conversationID input.now = .ok ()) ∧
      s' = { s with
        rooms := s.rooms.rename input.conversationID displayName
        journal := { s.journal with conversationDisplayNameIdempotency := t } } := by
  unfold setConversationDisplayName at h
  simp only [ok_rules] at h
  obtain ⟨-, -, displayName, -, -, hname, _, hadmin, h⟩ := h
  split at h
  · simp only [ok_rules, Prod.mk.injEq] at h
    obtain ⟨_, -, _, -, rfl, -⟩ := h
    exact .inl ⟨s.journal.conversationDisplayNameIdempotency, rfl⟩
  · simp only [ok_rules, ite_bind_eq_ok, Prod.mk.injEq, conversationByID, Option.map_eq_some_iff] at h
    obtain ⟨_, ⟨row, hrow, rfl⟩, hreject, t, -, rfl, -⟩ := h
    by_cases hdup : row.displayName.getD "" = displayName
    · rw [if_pos (by simpa using hdup)]
      exact .inl ⟨t, rfl⟩
    · rw [if_neg (by simpa using hdup)]
      exact .inr ⟨row, displayName, t, hrow, hname, hadmin,
        fun hempty => hreject ⟨by simpa using hdup, hempty⟩, rfl⟩

theorem setConversationDisplayName_spec {input : SetDisplayNameInput} {answer : Conversation × Bool}
    (ok : StoreOK s) (h : setConversationDisplayName E s input = .ok (s', answer)) :
    StoreOK s' ∧ s'.mail = s.mail := by
  rcases setConversationDisplayName_eq_ok h with ⟨t, rfl⟩ | ⟨row, name, t, hrow, -, hadmin, -, rfl⟩
  · exact ⟨⟨ok.rooms, ok.mail⟩, rfl⟩
  · refine ⟨⟨ok.rooms.rename (Option.isSome_iff_exists.2 ⟨row, hrow⟩)
      (requireAdmin_notDirect ok.rooms hadmin), ?_⟩, rfl⟩
    exact ok.mail.rename

theorem telegramClaimByConversation_eq_some {claim : TelegramClaim}
    (h : telegramClaimByConversation r c = some claim) :
    ∃ row conversation, r.telegramClaims.find? c = some row ∧ r.conversations.find? c = some conversation ∧
      claim = ⟨c, row.status, conversation.displayName.getD "", fromMillis row.createdAt,
        row.completedAt.map fromMillis⟩ := by
  unfold telegramClaimByConversation at h
  simp only [Option.bind_eq_bind, Option.bind_eq_some_iff, Option.pure_def, Option.some.injEq] at h
  obtain ⟨row, hrow, conversation, hconversation, rfl⟩ := h
  exact ⟨row, conversation, hrow, hconversation, rfl⟩

/-- The outcome of `reserveTelegramClaim`: the key is bound already, or it is bound to the claim the room has, or
to the first claim of a named room. -/
inductive Reserved (s : Store) (input : TelegramClaimInput) (answer : TelegramClaim) : Store → Prop where
  | bound {row : RetryRow}
      (key : s.journal.telegramClaimIdempotency.find? (input.machineID, input.idempotencyKey) = some row)
      (found : telegramClaimByConversation s.rooms row.target = some answer) : Reserved s input answer s
  | joined {hash : String} {t : Table (String × String) RetryRow}
      (found : telegramClaimByConversation s.rooms input.conversationID = some answer)
      (key : s.journal.telegramClaimIdempotency.insert? (input.machineID, input.idempotencyKey)
        ⟨hash, input.conversationID, unixMilli input.now⟩ = some t) :
      Reserved s input answer { s with journal := { s.journal with telegramClaimIdempotency := t } }
  | reserved {row : ConversationRow} {claim : TelegramClaimRow} {telegramClaims : Table String TelegramClaimRow}
      {hash : String} {t : Table (String × String) RetryRow}
      (room : s.rooms.conversations.find? input.conversationID = some row) (named : row.displayName.getD "" ≠ "")
      (free : rejectExclusiveClaimOccupancy s.presence s.rooms input.conversationID input.now = .ok ())
      (pending : claim.status = .pending)
      (insert : s.rooms.telegramClaims.insert? input.conversationID claim = some telegramClaims)
      (key : s.journal.telegramClaimIdempotency.insert? (input.machineID, input.idempotencyKey)
        ⟨hash, input.conversationID, unixMilli input.now⟩ = some t)
      (answers : answer.conversationID = input.conversationID) :
      Reserved s input answer { s with
        rooms := { s.rooms with telegramClaims }
        journal := { s.journal with telegramClaimIdempotency := t } }

theorem bindTelegramClaimIdempotency_eq_ok {j j' : Journal} {key hash : String}
    (hnew : j.telegramClaimIdempotency.find? (machineID, key) = none)
    (h : bindTelegramClaimIdempotency j machineID key c hash now = .ok j') :
    ∃ t, j.telegramClaimIdempotency.insert? (machineID, key) ⟨hash, c, unixMilli now⟩ = some t ∧
      j' = { j with telegramClaimIdempotency := t } := by
  unfold bindTelegramClaimIdempotency at h
  rw [hnew] at h
  simp only [ok_rules] at h
  obtain ⟨t, ht, rfl⟩ := h
  exact ⟨t, ht, rfl⟩

theorem reserveTelegramClaim_eq_ok {input : TelegramClaimInput}
    (h : reserveTelegramClaim E s input = .ok (s', answer)) : Reserved s input answer.1 s' := by
  unfold reserveTelegramClaim at h
  simp only [ok_rules, ite_bind₂_eq_ok, conversationByID, Option.map_eq_some_iff] at h
  obtain ⟨-, -, _, -, _, ⟨row, hrow, rfl⟩, -, hname, -, h⟩ := h
  split at h
  · rename_i bound hbound
    simp only [ok_rules, Prod.mk.injEq] at h
    obtain ⟨_, -, claim, hclaim, rfl, rfl⟩ := h
    exact .bound hbound hclaim
  · rename_i hnew
    split at h
    · simp only [ok_rules, Prod.mk.injEq] at h
      obtain ⟨claim, hclaim, journal, hbind, rfl, rfl⟩ := h
      obtain ⟨t, ht, rfl⟩ := bindTelegramClaimIdempotency_eq_ok hnew hbind
      exact .joined hclaim ht
    · simp only [ok_rules, Prod.mk.injEq, insertTelegramClaim] at h
      obtain ⟨_, hreject, _, ⟨_, -, telegramClaims, hinsert, rfl⟩, journal, hbind, rfl, rfl⟩ := h
      obtain ⟨t, ht, rfl⟩ := bindTelegramClaimIdempotency_eq_ok hnew hbind
      exact .reserved hrow hname hreject rfl hinsert ht rfl

theorem notDirect_of_named (ok : RoomsOK r) (hrow : r.conversations.find? c = some row)
    (hname : row.displayName.getD "" ≠ "") : NotDirect r c := by
  rintro k d hk rfl
  obtain ⟨row', hrow', hnone⟩ := (ok.direct hk).created
  rw [hrow, Option.some.injEq] at hrow'
  rw [hrow', hnone] at hname
  exact hname rfl

/-- Claims change neither members nor sequences. -/
theorem RoomsOK.setClaim {t : Table String TelegramClaimRow} {p : Table String Int}
    {e : Table String TelegramClaimEventRow} (ok : RoomsOK r)
    (hc : (r.conversations.find? c).isSome) (hd : NotDirect r c)
    (ht : ∀ c', c' ≠ c → t.find? c' = r.telegramClaims.find? c') :
    RoomsOK { r with telegramClaims := t, telegramParticipants := p, telegramClaimEvents := e } :=
  ok.touch ⟨fun _ _ => rfl, fun _ _ _ => rfl, fun _ _ _ => rfl, ht⟩ hc (fun hm => (ok.member hm).1)
    (fun hm => (ok.roleMember hm).1) fun hk => .inl ⟨hk, hd _ _ hk⟩

theorem reserveTelegramClaim_spec {input : TelegramClaimInput} (ok : StoreOK s)
    (h : reserveTelegramClaim E s input = .ok (s', answer)) :
    StoreOK s' ∧ s'.mail = s.mail := by
  rcases reserveTelegramClaim_eq_ok h with _ | _ | ⟨hrow, hname, -, -, hinsert⟩
  · exact ⟨ok, rfl⟩
  · exact ⟨⟨ok.rooms, ok.mail⟩, rfl⟩
  · refine ⟨⟨ok.rooms.setClaim (Option.isSome_iff_exists.2 ⟨_, hrow⟩)
      (notDirect_of_named ok.rooms hrow hname) fun c' hc' => ?_, ok.mail⟩, rfl⟩
    rw [Table.find?_insert? hinsert, if_neg hc']

/-! ## The gateway joins -/

/-- What `ensureTelegramGatewayMembership` writes. -/
theorem ensureTelegramGatewayMembership_eq_ok {m' : Mail}
    (h : ensureTelegramGatewayMembership r m c = .ok (r', m')) :
    ∃ t, r' = { r with memberships := t } ∧
      Wrote r c telegramGatewayEndpoint telegramGatewayCapabilities t ∧
      (advanceRecipientCursor r.conversations m telegramGatewayEndpoint c = .ok m' ∨
        m' = m ∧ Receives r c telegramGatewayEndpoint) := by
  unfold ensureTelegramGatewayMembership at h
  split at h
  · simp only [ok_rules, Prod.mk.injEq] at h
    obtain ⟨t, ht, m₁, hadvance, rfl, rfl⟩ := h
    exact ⟨t, rfl, Table.find?_insert? ht, .inl hadvance⟩
  · rename_i previous hprevious
    have hwrote : Wrote r c telegramGatewayEndpoint telegramGatewayCapabilities
        (if previous ≠ telegramGatewayCapabilities then
          r.memberships.updateAt (c, telegramGatewayEndpoint) fun _ => telegramGatewayCapabilities
        else r.memberships) := by
      intro k
      split
      · rw [Table.find?_updateAt]
        split
        · rename_i hk
          simp [hk, hprevious]
        · rfl
      · rename_i heq
        split
        · rename_i hk
          rw [hk, hprevious, not_not.1 heq]
        · rfl
    by_cases hreceive : Capability.has previous capReceive
    · simp only [hreceive, not_true_eq_false, if_false, pure_eq_ok, Prod.mk.injEq] at h
      obtain ⟨rfl, rfl⟩ := h
      exact ⟨_, rfl, hwrote, .inr ⟨rfl, .inl ⟨previous, hprevious, hreceive⟩⟩⟩
    · rw [if_pos hreceive] at h
      simp only [ok_rules, Prod.mk.injEq] at h
      obtain ⟨m₁, hadvance, rfl, rfl⟩ := h
      exact ⟨_, rfl, hwrote, .inl hadvance⟩

theorem ensureTelegramGatewayMembership_spec {m' : Mail} (ok : RoomsOK r)
    (hmail : MailOK r.conversations (Receives r) m) (hc : (r.conversations.find? c).isSome) (hd : NotDirect r c)
    (h : ensureTelegramGatewayMembership r m c = .ok (r', m')) :
    RoomsOK r' ∧ MailOK r'.conversations (Receives r') m' ∧ Evolves Unchanged m m' := by
  have he : validEndpoint telegramGatewayEndpoint := by decide
  have hcap : Capability.has telegramGatewayCapabilities capReceive := by decide
  obtain ⟨t, rfl, ht, hcase⟩ := ensureTelegramGatewayMembership_eq_ok h
  refine ⟨ok.setMember hc he hd ht.else, ?_⟩
  rcases hcase with hadvance | ⟨rfl, hR⟩
  · exact hmail.grant hadvance (ht.receives_sub he hcap) ht.receives_new
  · refine ⟨hmail.congr_receives fun c' recipient => ⟨ht.receives_sub he hcap c' recipient, fun hR' => ?_⟩,
      .refl unchanged_refl _⟩
    rcases ht.receives_new c' recipient hR' with h | ⟨rfl, rfl⟩
    · exact h
    · exact hR

/-- The outcome of `completeTelegramClaim`: nothing, or the gateway joins the claimed room. -/
theorem completeTelegramClaim_eq_ok {input : TelegramClaimCompleteInput}
    (h : completeTelegramClaim s input id = .ok (s', answer)) :
    s' = s ∨ ∃ row conversation rooms mail at' event telegramParticipants telegramClaimEvents,
      s.rooms.telegramClaims.find? input.conversationID = some row ∧ row.status ≠ .complete ∧
      s.rooms.conversations.find? input.conversationID = some conversation ∧
      ensureTelegramGatewayMembership s.rooms s.mail input.conversationID = .ok (rooms, mail) ∧
      rooms.telegramParticipants.insert? input.conversationID at' = some telegramParticipants ∧
      rooms.telegramClaimEvents.insert? id event = some telegramClaimEvents ∧
      event.conversationID = input.conversationID ∧
      s' = { s with
        rooms := { rooms with
          telegramParticipants
          telegramClaims := rooms.telegramClaims.updateAt input.conversationID fun row =>
            { row with status := .complete, completedAt := some at' }
          telegramClaimEvents }
        mail } := by
  unfold completeTelegramClaim at h
  simp only [ok_rules] at h
  obtain ⟨-, -, _, -, claim, hclaim, h⟩ := h
  obtain ⟨row, conversation, hrow, hconversation, rfl⟩ := telegramClaimByConversation_eq_some hclaim
  split at h
  · simp only [pure_eq_ok, Prod.mk.injEq] at h
    exact .inl h.1.symm
  · rename_i hpending
    simp only [ok_rules, Prod.mk.injEq] at h
    obtain ⟨⟨rooms, mail⟩, hensure, participants, hparticipants, events, hevents, rfl, -⟩ := h
    exact .inr ⟨row, conversation, rooms, mail, _, _, participants, events, hrow, hpending, hconversation, hensure,
      hparticipants, hevents, rfl, rfl⟩

theorem completeTelegramClaim_spec {input : TelegramClaimCompleteInput} (ok : StoreOK s)
    (h : completeTelegramClaim s input id = .ok (s', answer)) :
    StoreOK s' ∧ Evolves Unchanged s.mail s'.mail := by
  rcases completeTelegramClaim_eq_ok h with rfl | ⟨row, conversation, rooms, mail, _, _, participants, events, hrow,
    -, hconversation, hensure, -, -, -, rfl⟩
  · exact ⟨ok, .refl unchanged_refl _⟩
  · have hc := Option.isSome_iff_exists.2 ⟨conversation, hconversation⟩
    have hd : NotDirect s.rooms input.conversationID := by
      rintro k d hk heq
      have hnone := (ok.rooms.direct hk).unclaimed
      rw [heq, hrow] at hnone
      cases hnone
    obtain ⟨hrooms, hmail, hevolves⟩ := ensureTelegramGatewayMembership_spec ok.rooms ok.mail hc hd hensure
    obtain ⟨t, rfl, -, -⟩ := ensureTelegramGatewayMembership_eq_ok hensure
    refine ⟨⟨hrooms.setClaim hc hd fun c' hc' => ?_, hmail⟩, hevolves⟩
    rw [Table.find?_updateAt, if_neg hc']

/-! ## Preparing an adoption -/

/-- The rooms once a role has left a conversation. -/
def Rooms.dropRole (r : Rooms) (c role : String) : Rooms :=
  { r with roleMemberships := r.roleMemberships.deleteWhere fun k _ => k == (c, role) }

theorem find?_dropRole {k : String × String} {cap : Capability} :
    (r.dropRole c role).roleMemberships.find? k = some cap ↔
      r.roleMemberships.find? k = some cap ∧ k ≠ (c, role) := by
  rw [Rooms.dropRole, Table.find?_deleteWhere_eq_some]
  simp

theorem RoomsOK.dropRole (ok : RoomsOK r) (hc : (r.conversations.find? c).isSome) (hd : NotDirect r c) :
    RoomsOK (r.dropRole c role) := by
  refine ok.touch ⟨fun _ _ => rfl, fun _ _ _ => rfl, fun c' role' hc' => ?_, fun _ _ => rfl⟩ hc
    (fun hm => (ok.member hm).1) (fun hm => (ok.roleMember (find?_dropRole.1 hm).1).1)
    fun hk => .inl ⟨hk, hd _ _ hk⟩
  ext cap
  rw [find?_dropRole]
  simp [hc']

/-- A role with nothing open may leave. -/
theorem MailOK.dropRole (ok : MailOK conversations (Receives r) m)
    (hempty : m.opened (roleRecipient role) c = ∅) :
    MailOK conversations (Receives (r.dropRole c role)) m := by
  refine ok.shrink (fun c' recipient hR => ?_) fun c' recipient hR hR' => ?_
  · rcases hR with hR | ⟨role', cap, rfl, hm, hreceive⟩
    · exact .inl hR
    · exact .inr ⟨role', cap, rfl, (find?_dropRole.1 hm).1, hreceive⟩
  · rcases hR with hR | ⟨role', cap, rfl, hm, hreceive⟩
    · exact absurd (.inl hR) hR'
    · by_cases hk : (c', role') = (c, role)
      · cases hk
        exact hempty
      · exact absurd (.inr ⟨role', cap, rfl, find?_dropRole.2 ⟨hm, hk⟩, hreceive⟩) hR'

theorem prepareTelegramAdopt_eq_ok {input : AdoptPrepareInput} {wallClock : Int}
    (h : prepareTelegramAdopt s input wallClock = .ok s') :
    ∃ row displayName m₁ n m₂, displayName ≠ "" ∧
      s.rooms.conversations.find? input.nonKeeperID = some row ∧ row.displayName.getD "" = "" ∧
      (s.rooms.roleMemberships.find? (input.nonKeeperID, telegramCodexRole)).isSome ∧
      retireRecipientDeliveries s.rooms.conversations s.mail (roleRecipient telegramCodexRole)
        input.nonKeeperID (if input.now = zeroTime then wallClock else input.now) = .ok (m₁, n) ∧
      advanceRecipientCursor s.rooms.conversations m₁ (roleRecipient telegramCodexRole) input.nonKeeperID =
        .ok m₂ ∧
      rejectAdoptPrepareOccupancy s.presence (s.rooms.dropRole input.nonKeeperID telegramCodexRole)
        input.nonKeeperID (if input.now = zeroTime then wallClock else input.now) = .ok () ∧
      s' = { s with
        rooms := (s.rooms.dropRole input.nonKeeperID telegramCodexRole).rename input.nonKeeperID displayName
        mail := m₂ } := by
  unfold prepareTelegramAdopt requireRoleMembership at h
  simp only [ok_rules, conversationByID, Option.map_eq_some_iff] at h
  obtain ⟨-, -, name, -, -, hname, _, -, -, -, _, ⟨row, hrow, rfl⟩, -, hunnamed, -, -, -, hrole, ⟨m₁, n⟩, hretire,
    m₂, hadvance, _, hreject, rfl⟩ := h
  exact ⟨row, name, m₁, n, m₂, hname, hrow, hunnamed, hrole, hretire, hadvance, hreject, rfl⟩

theorem prepareTelegramAdopt_spec {input : AdoptPrepareInput} {wallClock : Int} (ok : StoreOK s)
    (h : prepareTelegramAdopt s input wallClock = .ok s') : StoreOK s' ∧ Evolves Retired s.mail s'.mail := by
  obtain ⟨row, name, m₁, n, m₂, -, hrow, -, hrole, hretire, hadvance, -, rfl⟩ := prepareTelegramAdopt_eq_ok h
  have hc := Option.isSome_iff_exists.2 ⟨row, hrow⟩
  have hd : NotDirect s.rooms input.nonKeeperID := by
    rintro k d hk heq
    obtain ⟨cap, hcap⟩ := Option.isSome_iff_exists.1 hrole
    have hdirect := ok.rooms.direct hk
    obtain ⟨hlow, hhigh⟩ := hdirect.canonical
    -- The role is not a canonical handle, so it is in no direct conversation.
    have hno : canonicalRoleHandle telegramCodexRole = false := by decide
    rcases (hdirect.roles (heq ▸ hcap)).1 with h | h
    · rw [← h, hno] at hlow
      cases hlow
    · rw [← h, hno] at hhigh
      cases hhigh
  obtain ⟨hmail, hevolves, hopened⟩ := retireRecipientDeliveries_spec ok.mail hretire
  obtain ⟨hmail', hevolves'⟩ := hmail.advance hadvance
  obtain ⟨t, rfl⟩ := advanceRecipientCursor_frame hadvance
  refine ⟨⟨(ok.rooms.dropRole hc hd).rename hc hd, ?_⟩, hevolves.andThen retired_refl hevolves'⟩
  exact (hmail'.dropRole hopened).rename

end

end Punaro
