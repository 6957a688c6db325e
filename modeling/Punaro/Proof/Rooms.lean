import Punaro.Proof.Posting

/-!
# Members and their mail

`RoomsOK` is what every conversation table satisfies: members are valid names of
existing conversations, and a direct conversation has exactly its two roles, no
name and no claim, which no operation can change for want of an administrator.

The mail invariant depends on the rooms through who receives (`Receives`) and
through the last sequences. The lemmas here say what a change of either asks of the
mail: a new room asks nothing, a new receiver needs its cursor advanced
(`MailOK.grant`), a receiver that leaves must have nothing open (`MailOK.shrink`).
-/

namespace Punaro

open Outcome

section

variable {conversations conversations' : Table String ConversationRow} {R R' : String → String → Prop}
  {m m' : Mail} {r r' : Rooms} {recipient c endpoint : String}

/-! ## Changing who receives -/

theorem MailOK.congr_receives (ok : MailOK conversations R m) (h : ∀ c recipient, R c recipient ↔ R' c recipient) :
    MailOK conversations R' m := by
  have : R = R' := funext₂ fun c recipient => propext (h c recipient)
  rwa [← this]

/-- A receiver with nothing open may leave. -/
theorem MailOK.shrink (ok : MailOK conversations R m) (hsub : ∀ c recipient, R' c recipient → R c recipient)
    (hempty : ∀ c recipient, R c recipient → ¬ R' c recipient → m.opened recipient c = ∅) :
    MailOK conversations R' m := by
  refine ⟨{ ok.inv with received := fun hr hp => ?_, exact := fun hR => ok.inv.exact (hsub _ _ hR) }, ok.quotas⟩
  by_contra hR'
  have hmem : (_ : ℕ) ∈ m.opened _ _ := ⟨_, hr, ⟨hp, rfl, rfl⟩, rfl⟩
  rw [hempty _ _ (ok.inv.received hr hp) hR'] at hmem
  exact hmem

/-- A new receiver whose cursor is advanced. -/
theorem MailOK.grant (ok : MailOK conversations R m)
    (h : advanceRecipientCursor conversations m recipient c = .ok m')
    (hsub : ∀ c r, R c r → R' c r) (hnew : ∀ c' r, R' c' r → R c' r ∨ c' = c ∧ r = recipient) :
    MailOK conversations R' m' ∧ Evolves Unchanged m m' := by
  have hinv := ok.inv.advance h
  obtain ⟨n, rfl, hexact, hle⟩ := advanceRecipientCursor_eq_ok (fun p hp => ok.inv.below hp)
    (ok.inv.bounded _ _) h
  have hinv : MailInv conversations R (fun c _ => lastSequence conversations c) _ :=
    hinv.congr_head fun c' r _ => by
      split
      · rename_i hc
        rw [hc.1]
      · rfl
  refine ⟨⟨{ hinv with received := fun hr hp => hsub _ _ (hinv.received hr hp), exact := fun {c' r} hR => ?_ },
    ok.quotas.of_usage (fun _ => rfl) rfl rfl⟩, .of_put hle⟩
  rcases hnew c' r hR with hR | ⟨rfl, rfl⟩
  · exact hinv.exact hR
  · rw [cursor_put, if_pos ⟨rfl, rfl⟩]
    exact hexact

theorem MailOK.advance (ok : MailOK conversations R m)
    (h : advanceRecipientCursor conversations m recipient c = .ok m') :
    MailOK conversations R m' ∧ Evolves Unchanged m m' :=
  ok.grant h (fun _ _ hR => hR) fun _ _ hR => .inl hR

/-- Only the sequences of the conversations matter. -/
theorem MailOK.of_conversations (ok : MailOK conversations R m)
    (h : ∀ c, (conversations'.find? c).map ConversationRow.nextSequence =
      (conversations.find? c).map ConversationRow.nextSequence) : MailOK conversations' R m := by
  have hlast : ∀ c, lastSequence conversations' c = lastSequence conversations c := by
    intro c
    rw [lastSequence, lastSequence, h]
  refine ⟨⟨ok.inv.sent, fun {id message} hm => ?_, ok.inv.recorded, ok.inv.received, fun hR => ?_,
    fun hp => ?_, fun c r => ?_⟩, ok.quotas⟩
  · obtain ⟨row, hrow, hle⟩ := ok.inv.placed hm
    have hseq := h message.conversationID
    rw [hrow, Option.map_some] at hseq
    obtain ⟨row', hrow', heq⟩ := Option.map_eq_some_iff.1 hseq
    exact ⟨row', hrow', heq ▸ hle⟩
  · rw [hlast]
    exact ok.inv.exact hR
  · rw [hlast]
    exact ok.inv.reach hp
  · rw [hlast]
    exact ok.inv.bounded c r

/-- A room that did not exist has no mail, so whoever joins it starts exact. -/
theorem MailOK.newRoom {id : String} {row : ConversationRow} (ok : MailOK conversations R m)
    (ht : conversations.insert? id row = some conversations') (hrow : row.nextSequence = 0)
    (hR : ∀ c recipient, c ≠ id → (R' c recipient ↔ R c recipient)) : MailOK conversations' R' m := by
  have hnone := (Table.insert?_eq_some ht).1
  have hlast : ∀ c, lastSequence conversations' c = lastSequence conversations c := by
    intro c
    rw [lastSequence, lastSequence, Table.find?_insert? ht]
    split
    · rename_i hc
      simp [hc, hnone, hrow]
    · rfl
  have hne : ∀ {id' message}, m.messages.find? id' = some message → message.conversationID ≠ id := by
    rintro id' message hm rfl
    obtain ⟨row', hrow', -⟩ := ok.inv.placed hm
    rw [hnone] at hrow'
    cases hrow'
  have hempty : ∀ recipient, m.opened recipient id = ∅ := by
    intro recipient
    refine Set.eq_empty_of_forall_notMem ?_
    rintro p ⟨r, hr, ⟨-, -, hc⟩, -⟩
    exact hne (mem_joined.1 hr).2 hc
  refine ⟨⟨ok.inv.sent, fun hm => ?_, ok.inv.recorded, fun hr hp => ?_, fun {c r} hRc => ?_, fun hp => ?_,
    fun c r => ?_⟩, ok.quotas⟩
  · obtain ⟨row', hrow', hle⟩ := ok.inv.placed hm
    exact ⟨row', by rw [Table.find?_insert? ht, if_neg (hne hm)]; exact hrow', hle⟩
  · exact (hR _ _ (hne (mem_joined.1 hr).2)).2 (ok.inv.received hr hp)
  · rw [hlast]
    by_cases hc : c = id
    · subst hc
      have hbound := ok.inv.bounded c r
      have hzero : lastSequence conversations c = 0 := by simp [lastSequence, hnone]
      rw [hempty]
      exact .inr ⟨rfl, by omega⟩
    · exact ok.inv.exact ((hR c r hc).1 hRc)
  · rw [hlast]
    exact ok.inv.reach hp
  · rw [hlast]
    exact ok.inv.bounded c r

/-! ## Well-formed rooms -/

/-- A direct conversation: its two roles with the rights to send and receive, and nobody and nothing else. -/
structure DirectRoom (r : Rooms) (c low high : String) : Prop where
  created : ∃ row, r.conversations.find? c = some row ∧ row.displayName = none
  unclaimed : r.telegramClaims.find? c = none
  noEndpoints : ∀ endpoint, r.memberships.find? (c, endpoint) = none
  roles : ∀ {role cap}, r.roleMemberships.find? (c, role) = some cap →
    (role = low ∨ role = high) ∧ cap = capSend ||| capReceive
  lowMember : r.roleMemberships.find? (c, low) = some (capSend ||| capReceive)
  highMember : r.roleMemberships.find? (c, high) = some (capSend ||| capReceive)
  canonical : canonicalRoleHandle low ∧ canonicalRoleHandle high

structure RoomsOK (r : Rooms) : Prop where
  member : ∀ {c endpoint cap}, r.memberships.find? (c, endpoint) = some cap →
    validEndpoint endpoint ∧ (r.conversations.find? c).isSome
  roleMember : ∀ {c role cap}, r.roleMemberships.find? (c, role) = some cap →
    validRole role ∧ (r.conversations.find? c).isSome
  claimed : ∀ {c claim}, r.telegramClaims.find? c = some claim → (r.conversations.find? c).isSome
  direct : ∀ {k row}, r.directConversations.find? k = some row → DirectRoom r row.conversationID k.1 k.2

/-- The rooms differ at the conversation `c` only. -/
structure SameElsewhere (r : Rooms) (c : String) (r' : Rooms) : Prop where
  conversations : ∀ c', c' ≠ c → r'.conversations.find? c' = r.conversations.find? c'
  members : ∀ c' endpoint, c' ≠ c → r'.memberships.find? (c', endpoint) = r.memberships.find? (c', endpoint)
  roleMembers : ∀ c' role, c' ≠ c → r'.roleMemberships.find? (c', role) = r.roleMemberships.find? (c', role)
  claims : ∀ c', c' ≠ c → r'.telegramClaims.find? c' = r.telegramClaims.find? c'

theorem SameElsewhere.trans {r'' : Rooms} (h : SameElsewhere r c r') (h' : SameElsewhere r' c r'') :
    SameElsewhere r c r'' :=
  ⟨fun c' hc => (h'.conversations c' hc).trans (h.conversations c' hc),
    fun c' e hc => (h'.members c' e hc).trans (h.members c' e hc),
    fun c' role hc => (h'.roleMembers c' role hc).trans (h.roleMembers c' role hc),
    fun c' hc => (h'.claims c' hc).trans (h.claims c' hc)⟩

theorem SameElsewhere.receives (h : SameElsewhere r c r') {c' : String} (hc : c' ≠ c) :
    Receives r' c' recipient ↔ Receives r c' recipient := by
  simp only [Receives, h.members c' _ hc, h.roleMembers c' _ hc]

theorem SameElsewhere.directRoom (h : SameElsewhere r c r') {c' low high : String} (hc : c' ≠ c)
    (hd : DirectRoom r c' low high) : DirectRoom r' c' low high where
  created := by rw [h.conversations c' hc]; exact hd.created
  unclaimed := by rw [h.claims c' hc]; exact hd.unclaimed
  noEndpoints endpoint := by rw [h.members c' endpoint hc]; exact hd.noEndpoints endpoint
  roles hrole := hd.roles (by rwa [h.roleMembers c' _ hc] at hrole)
  lowMember := by rw [h.roleMembers c' _ hc]; exact hd.lowMember
  highMember := by rw [h.roleMembers c' _ hc]; exact hd.highMember
  canonical := hd.canonical

/-- A change of one conversation, which exists afterwards and has valid members. -/
theorem RoomsOK.touch (ok : RoomsOK r) (h : SameElsewhere r c r') (hc : (r'.conversations.find? c).isSome)
    (hmember : ∀ {endpoint cap}, r'.memberships.find? (c, endpoint) = some cap → validEndpoint endpoint)
    (hrole : ∀ {role cap}, r'.roleMemberships.find? (c, role) = some cap → validRole role)
    (hdirect : ∀ {k row}, r'.directConversations.find? k = some row →
      (r.directConversations.find? k = some row ∧ row.conversationID ≠ c) ∨
        DirectRoom r' row.conversationID k.1 k.2) : RoomsOK r' := by
  refine ⟨fun {c'} _ _ hm => ?_, fun {c'} _ _ hm => ?_, fun {c'} _ hm => ?_, fun {k row} hk => ?_⟩
  · by_cases hc' : c' = c
    · subst hc'
      exact ⟨hmember hm, hc⟩
    · rw [h.members c' _ hc'] at hm
      rw [h.conversations c' hc']
      exact ok.member hm
  · by_cases hc' : c' = c
    · subst hc'
      exact ⟨hrole hm, hc⟩
    · rw [h.roleMembers c' _ hc'] at hm
      rw [h.conversations c' hc']
      exact ok.roleMember hm
  · by_cases hc' : c' = c
    · subst hc'
      exact hc
    · rw [h.claims c' hc'] at hm
      rw [h.conversations c' hc']
      exact ok.claimed hm
  · rcases hdirect hk with ⟨hk, hne⟩ | hd
    · exact h.directRoom hne (ok.direct hk)
    · exact hd

/-- The conversation is not a direct one. -/
def NotDirect (r : Rooms) (c : String) : Prop :=
  ∀ k row, r.directConversations.find? k = some row → row.conversationID ≠ c

/-- The last sequences may move. -/
theorem RoomsOK.of_conversations (ok : RoomsOK r)
    (h : ∀ c, (conversations'.find? c).map ConversationRow.displayName =
      (r.conversations.find? c).map ConversationRow.displayName) :
    RoomsOK { r with conversations := conversations' } := by
  have hsome : ∀ c, (r.conversations.find? c).isSome → (conversations'.find? c).isSome := by
    intro c hc
    rw [← Option.isSome_map, h, Option.isSome_map]
    exact hc
  refine ⟨fun hm => ⟨(ok.member hm).1, hsome _ (ok.member hm).2⟩,
    fun hm => ⟨(ok.roleMember hm).1, hsome _ (ok.roleMember hm).2⟩, fun hm => hsome _ (ok.claimed hm),
    fun {k row} hk => ?_⟩
  obtain ⟨⟨row', hrow', hname⟩, h₂, h₃, h₄, h₅, h₆, h₇⟩ := ok.direct hk
  refine ⟨?_, h₂, h₃, h₄, h₅, h₆, h₇⟩
  have hc := h row.conversationID
  rw [hrow', Option.map_some] at hc
  obtain ⟨row'', hrow'', heq⟩ := Option.map_eq_some_iff.1 hc
  exact ⟨row'', hrow'', heq.trans hname⟩

theorem receives_endpoint (he : validEndpoint endpoint) :
    Receives r c endpoint ↔ ∃ cap, r.memberships.find? (c, endpoint) = some cap ∧ Capability.has cap capReceive := by
  constructor
  · rintro (h | ⟨role, -, rfl, -⟩)
    · exact h
    · exact absurd rfl (validEndpoint_ne_roleRecipient he role)
  · exact .inl

end

end Punaro
