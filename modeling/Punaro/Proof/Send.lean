import Punaro.Proof.Members

/-!
# Accepting mail keeps the store well formed

The three ways of accepting mail charge and serve their recipients by different
code. For each of them the recipients charged are the recipients addressed, and
addressed, passed over and sending members are together all that receive
(`Addressing`); the rest is the general argument about postings.
-/

namespace Punaro

open Outcome

section

variable {E : Env} {s s' : Store} {r r' : Rooms} {c from' endpoint role : String}
variable {ids : FreshIDs} {answer : Message × Bool} {now : Int} {low high id fromRole toRole session : String}
  {post : Posting} {rooms : Rooms} {mail : Mail} {row : MessageRow} {input : DirectMessageInput}

/-! ## Who is served -/

theorem mem_receivingEndpoints :
    endpoint ∈ receivingEndpoints r c from' ↔
      (∃ cap, r.memberships.find? (c, endpoint) = some cap ∧ Capability.has cap capReceive) ∧
        endpoint ≠ from' := by
  simp only [receivingEndpoints, List.mem_map, List.mem_filter, Bool.and_eq_true, beq_iff_eq, bne_iff_ne,
    Table.find?_eq_some_iff_mem]
  constructor
  · rintro ⟨⟨⟨c', e⟩, cap⟩, ⟨hmem, ⟨rfl, hcap⟩, hne⟩, rfl⟩
    exact ⟨⟨cap, hmem, hcap⟩, hne⟩
  · rintro ⟨⟨cap, hmem, hcap⟩, hne⟩
    exact ⟨_, ⟨hmem, ⟨rfl, hcap⟩, hne⟩, rfl⟩

theorem mem_receivingRoles :
    role ∈ receivingRoles r c ↔
      ∃ cap, r.roleMemberships.find? (c, role) = some cap ∧ Capability.has cap capReceive := by
  simp only [receivingRoles, List.mem_map, List.mem_filter, Bool.and_eq_true, beq_iff_eq,
    Table.find?_eq_some_iff_mem]
  constructor
  · rintro ⟨⟨⟨c', e⟩, cap⟩, ⟨hmem, rfl, hcap⟩, rfl⟩
    exact ⟨cap, hmem, hcap⟩
  · rintro ⟨cap, hmem, hcap⟩
    exact ⟨_, ⟨hmem, rfl, hcap⟩, rfl⟩

theorem receivingEndpoints_nodup (r : Rooms) (c from' : String) : (receivingEndpoints r c from').Nodup :=
  Table.nodup_map_snd fun m hm => by
    simp only [Bool.and_eq_true, beq_iff_eq] at hm
    exact hm.1.1

theorem receivingRoles_nodup (r : Rooms) (c : String) : (receivingRoles r c).Nodup :=
  Table.nodup_map_snd fun m hm => by
    simp only [Bool.and_eq_true, beq_iff_eq] at hm
    exact hm.1

/-- Every receiving member but the sender is served once, whoever is addressed. -/
theorem addressing_members {charged : List String} {e? r? : String → Bool} (ok : RoomsOK r)
    (hfrom : validEndpoint from')
    (hcharged : charged.Perm ((receivingEndpoints r c from').filter e? ++
      ((receivingRoles r c).filter r?).map roleRecipient)) :
    Addressing (Receives r) c from' ((receivingEndpoints r c from').map (fun e => (e, e? e)) ++
      (receivingRoles r c).map fun role => (roleRecipient role, r? role)) charged := by
  have hnames : (((receivingEndpoints r c from').map fun e => (e, e? e)) ++
      (receivingRoles r c).map fun role => (roleRecipient role, r? role)).map Prod.fst =
        receivingEndpoints r c from' ++ (receivingRoles r c).map roleRecipient := by
    simp [Function.comp_def]
  have hvalid : ∀ e ∈ receivingEndpoints r c from', validEndpoint e := by
    intro e he
    obtain ⟨⟨cap, hm, -⟩, -⟩ := mem_receivingEndpoints.1 he
    exact (ok.member hm).1
  refine ⟨?_, ?_, fun {recipient} h => ?_, fun {recipient} hR => ?_, ?_⟩
  · rw [hnames, List.nodup_append]
    refine ⟨receivingEndpoints_nodup r c from',
      (receivingRoles_nodup r c).map fun a b h => roleRecipient_inj.1 h, ?_⟩
    rintro e he recipient hrole rfl
    obtain ⟨role, -, heq⟩ := List.mem_map.1 hrole
    exact validEndpoint_ne_roleRecipient (hvalid e he) role heq.symm
  · rw [hnames, List.mem_append]
    rintro (h | h)
    · exact (mem_receivingEndpoints.1 h).2 rfl
    · obtain ⟨role, -, heq⟩ := List.mem_map.1 h
      exact validEndpoint_ne_roleRecipient hfrom role heq.symm
  · rw [hnames, List.mem_append] at h
    rcases h with h | h
    · exact .inl (mem_receivingEndpoints.1 h).1
    · obtain ⟨role, hrole, rfl⟩ := List.mem_map.1 h
      obtain ⟨cap, hm⟩ := mem_receivingRoles.1 hrole
      exact .inr ⟨role, cap, rfl, hm⟩
  · rw [hnames, List.mem_append]
    by_cases heq : recipient = from'
    · exact .inl heq
    · right
      rcases hR with hR | ⟨role, cap, rfl, hm⟩
      · exact .inl (mem_receivingEndpoints.2 ⟨hR, heq⟩)
      · exact .inr (List.mem_map.2 ⟨role, mem_receivingRoles.2 ⟨cap, hm⟩, rfl⟩)
  · simpa [List.filter_append, List.filter_map, Function.comp_def] using hcharged

/-- A broadcast, and a message to one role, charge whom they address. -/
theorem appendDeliveryRecipients_perm (r : Rooms) (c from' : String) {targetRole : String}
    (h : targetRole ≠ telegramUserParticipant) :
    (appendDeliveryRecipients r c from' targetRole).Perm
      ((receivingEndpoints r c from').filter (fun _ => targetRole == "") ++
        ((receivingRoles r c).filter fun role => targetRole == "" || role == targetRole).map roleRecipient) := by
  rw [appendDeliveryRecipients, if_neg h]
  refine (List.perm_insertionSort _ _).trans ?_
  by_cases htarget : targetRole = ""
  · simp [htarget]
  · simp [htarget, beq_eq_false_iff_ne.2 htarget]

/-- A message to the Telegram user charges the gateway, unless the gateway sends it. -/
theorem appendDeliveryRecipients_telegram
    (hgateway : (r.memberships.find? (c, telegramGatewayEndpoint)).any fun cap => Capability.has cap capReceive) :
    appendDeliveryRecipients r c from' telegramUserParticipant =
      (receivingEndpoints r c from').filter (· == telegramGatewayEndpoint) := by
  rw [appendDeliveryRecipients, if_pos rfl]
  have hmem : telegramGatewayEndpoint ∈ receivingEndpoints r c from' ↔ from' ≠ telegramGatewayEndpoint := by
    rw [mem_receivingEndpoints, and_iff_right, ne_comm]
    cases hcap : r.memberships.find? (c, telegramGatewayEndpoint) with
    | none => simp [hcap] at hgateway
    | some cap => exact ⟨cap, rfl, by simpa [hcap] using hgateway⟩
  rw [List.filter_beq, (receivingEndpoints_nodup r c from').count]
  by_cases hfrom : from' = telegramGatewayEndpoint
  · rw [if_pos hfrom, if_neg (by simpa [hmem] using hfrom), List.replicate_zero]
  · rw [if_neg hfrom, if_pos (hmem.2 hfrom), List.replicate_one]

/-- A member's append serves every receiving member once and charges the addressed ones. -/
theorem AppendInput.addressing {input : AppendInput} (ok : RoomsOK r) (hfrom : validEndpoint input.fromEndpoint)
    (htarget : checkAppendTarget r input = .ok ()) :
    Addressing (Receives r) input.conversationID input.fromEndpoint
      ((input.posting E r).endpointTargets ++ (input.posting E r).roleTargets) (input.posting E r).charged := by
  refine addressing_members ok hfrom ?_
  change (appendDeliveryRecipients r input.conversationID input.fromEndpoint input.targetRole).Perm _
  by_cases huser : input.targetRole = telegramUserParticipant
  · unfold checkAppendTarget at htarget
    rw [if_pos huser] at htarget
    simp only [ok_rules] at htarget
    obtain ⟨_, -, hgateway⟩ := htarget
    rw [huser, appendDeliveryRecipients_telegram hgateway]
    have hne : (telegramUserParticipant == "") = false := by decide
    simp [hne]
  · have huser' := beq_eq_false_iff_ne.2 huser
    simpa [huser, huser', bne] using
      appendDeliveryRecipients_perm r input.conversationID input.fromEndpoint huser

theorem TelegramInboundInput.addressing {input : TelegramInboundInput} (ok : RoomsOK r)
    (hfrom : validEndpoint input.fromEndpoint) :
    Addressing (Receives r) input.conversationID input.fromEndpoint
      ((input.posting E r).endpointTargets ++ (input.posting E r).roleTargets) (input.posting E r).charged := by
  refine addressing_members ok hfrom ?_
  change (appendDeliveryRecipients r input.conversationID input.fromEndpoint "").Perm _
  have hne : ("" : String) ≠ telegramUserParticipant := by decide
  simpa using appendDeliveryRecipients_perm r input.conversationID input.fromEndpoint hne

/-! ## Postings -/

/-- The message a posting writes is of its conversation, at the given sequence, with its body. -/
structure Posting.Faithful (post : Posting) : Prop where
  conversation : ∀ n, (post.message n).conversationID = post.conversationID
  sequence : ∀ n, (post.message n).sequence = n
  body : ∀ n, (post.message n).body = post.body

theorem advanceSessionCursors_eq_ok {p : Presence} {m m' : Mail} {machineID : String}
    (he : validEndpoint endpoint) (h : advanceSessionCursors p r m machineID endpoint c now = .ok m') :
    advanceRecipientCursor r.conversations m endpoint c = .ok m' ∨ m' = m ∧ ¬ Receives r c endpoint := by
  unfold advanceSessionCursors at h
  simp only [bind_eq_ok] at h
  obtain ⟨-, -, h⟩ := h
  split at h
  · exact .inl h
  · rename_i hnot
    rw [pure_eq_ok] at h
    refine .inr ⟨h.symm, fun hR => hnot ?_⟩
    obtain ⟨cap, hcap, hreceive⟩ := (receives_endpoint he).1 hR
    simp [hcap, hreceive]

/-- Taking a sequence leaves the rooms well formed. -/
theorem RoomsOK.allocate {conversations : Table String ConversationRow} {n : ℕ} (ok : RoomsOK r)
    (h : allocateSequence r.conversations c = .ok (conversations, n)) : RoomsOK { r with conversations } := by
  obtain ⟨row, -, -, rfl⟩ := allocateSequence_eq_ok h
  refine ok.of_conversations fun c' => ?_
  rw [Table.find?_updateAt]
  split
  · rw [Option.map_map]
    rfl
  · rfl

theorem writePosting_eq_ok (h : writePosting s post ids = .ok (rooms, mail, row)) :
    ∃ m₁ conversations n m₂ m₃ m₄,
      consumeQuota s.quotaConfig s.mail post.charged post.body.utf8ByteSize = .ok m₁ ∧
      allocateSequence s.rooms.conversations post.conversationID = .ok (conversations, n) ∧
      insertMessage m₁ ids.messageID (post.message n) post.context = .ok m₂ ∧
      fanOut conversations post.conversationID ids "create delivery" m₂ post.endpointTargets = .ok m₃ ∧
      fanOut conversations post.conversationID ids "create durable role delivery" m₃ post.roleTargets = .ok m₄ ∧
      advanceSessionCursors s.presence { s.rooms with conversations } m₄ post.senderMachineID post.fromEndpoint
        post.conversationID post.now = .ok mail ∧
      rooms = { s.rooms with conversations } ∧ row = post.message n := by
  unfold writePosting at h
  simp only [ok_rules, Prod.mk.injEq] at h
  obtain ⟨m₁, hquota, ⟨conversations, n⟩, halloc, m₂, hinsert, m₃, hfan, m₄, hfan', m₅, hsession, rfl, rfl, rfl⟩ := h
  exact ⟨m₁, conversations, n, m₂, m₃, m₄, hquota, halloc, hinsert, hfan, hfan', hsession, rfl, rfl⟩

/-- **A posting** that serves its members keeps the store well formed. -/
theorem writePosting_spec (ok : StoreOK s) (hpost : post.Faithful) (hfrom : validEndpoint post.fromEndpoint)
    (haddr : Addressing (Receives s.rooms) post.conversationID post.fromEndpoint
      (post.endpointTargets ++ post.roleTargets) post.charged)
    (h : writePosting s post ids = .ok (rooms, mail, row)) :
    RoomsOK rooms ∧ MailOK rooms.conversations (Receives rooms) mail ∧ Evolves Unchanged s.mail mail ∧
      ∃ conversations n, allocateSequence s.rooms.conversations post.conversationID = .ok (conversations, n) ∧
        rooms = { s.rooms with conversations } := by
  obtain ⟨m₁, conversations, n, m₂, m₃, m₄, hquota, halloc, hinsert, hfan, hfan', hsession, rfl, rfl⟩ :=
    writePosting_eq_ok h
  have hc := hpost.conversation n
  have hn := hpost.sequence n
  rw [← hpost.body n] at hquota
  rw [← hc] at haddr hfan hfan' hsession
  have halloc' : allocateSequence s.rooms.conversations (post.message n).conversationID =
      .ok (conversations, (post.message n).sequence) := by rw [hc, hn]; exact halloc
  have hstart := Fanning.start ok.mail haddr hquota halloc' hinsert
  rw [← List.append_nil (post.endpointTargets ++ post.roleTargets), List.append_assoc] at hstart
  have hend := (hstart.fanOut hfan).fanOut hfan'
  obtain ⟨hmail, hevolves⟩ := hend.finish (advanceSessionCursors_eq_ok hfrom hsession)
  exact ⟨ok.rooms.allocate halloc, hmail, hevolves, conversations, n, halloc, rfl⟩

/-- The outcome of `postMessage`: a retry, or a new message. -/
inductive Posted (s : Store) (post : Posting) (ids : FreshIDs) : Store → Message × Bool → Prop where
  | retried {row : RetryRow} {message : MessageRow}
      (key : s.journal.idempotency.find? (post.senderMachineID, post.idempotencyKey) = some row)
      (same : row.requestHash = post.requestHash) (found : s.mail.messages.find? row.target = some message) :
      Posted s post ids s (messageOf s.mail row.target message, true)
  | written {rateBuckets : Table (RateKind × String) RateBucketRow} {rooms : Rooms} {mail : Mail}
      {row : MessageRow} {t : Table (String × String) RetryRow}
      (paced : consumeRateLimits s.rateLimitConfig s.rateBuckets post.senderMachineID post.conversationID post.now =
        .ok rateBuckets)
      (writes : writePosting s post ids = .ok (rooms, mail, row))
      (key : s.journal.idempotency.insert? (post.senderMachineID, post.idempotencyKey)
        ⟨post.requestHash, ids.messageID, unixMilli post.now⟩ = some t) :
      Posted s post ids { s with rooms, mail, rateBuckets, journal := { s.journal with idempotency := t } }
        (messageOf mail ids.messageID row, false)

theorem messageByID_eq_ok {m : Mail} {message : Message} (h : messageByID m id = .ok message) :
    ∃ row, m.messages.find? id = some row ∧ message = messageOf m id row := by
  simp only [messageByID, ok_rules] at h
  obtain ⟨row, hrow, rfl⟩ := h
  exact ⟨row, hrow, rfl⟩

theorem postMessage_eq_ok (h : postMessage s post ids = .ok (s', answer)) : Posted s post ids s' answer := by
  unfold postMessage at h
  split at h
  · rename_i existing hkey
    simp only [ok_rules, Prod.mk.injEq] at h
    obtain ⟨_, hsame, message, hmessage, rfl, rfl⟩ := h
    obtain ⟨row, hrow, rfl⟩ := messageByID_eq_ok hmessage
    exact .retried hkey hsame hrow
  · simp only [ok_rules, Prod.mk.injEq] at h
    obtain ⟨rateBuckets, hrate, ⟨rooms, mail, row⟩, hwrite, t, ht, rfl, rfl⟩ := h
    exact .written hrate hwrite ht

/-- What an accepted message does to the rooms: one sequence is taken. -/
def TookSequence (r r' : Rooms) : Prop :=
  r' = r ∨ ∃ c conversations n, allocateSequence r.conversations c = .ok (conversations, n) ∧
    r' = { r with conversations }

theorem postMessage_spec (ok : StoreOK s) (hpost : post.Faithful) (hfrom : validEndpoint post.fromEndpoint)
    (haddr : Addressing (Receives s.rooms) post.conversationID post.fromEndpoint
      (post.endpointTargets ++ post.roleTargets) post.charged) (h : postMessage s post ids = .ok (s', answer)) :
    StoreOK s' ∧ Evolves Unchanged s.mail s'.mail ∧ TookSequence s.rooms s'.rooms ∧
      s'.presence = s.presence := by
  rcases postMessage_eq_ok h with _ | ⟨-, hwrite, -⟩
  · exact ⟨ok, .refl unchanged_refl _, .inl rfl, rfl⟩
  · obtain ⟨hrooms, hmail, hevolves, conversations, n, halloc, rfl⟩ :=
      writePosting_spec ok hpost hfrom haddr hwrite
    exact ⟨⟨hrooms, hmail⟩, hevolves, .inr ⟨_, conversations, n, halloc, rfl⟩, rfl⟩

theorem appendMessage_eq_ok {input : AppendInput} (h : appendMessage E s input ids = .ok (s', answer)) :
    validEndpoint input.fromEndpoint ∧ checkAppendTarget s.rooms input = .ok () ∧
      postMessage s (input.posting E s.rooms) ids = .ok (s', answer) := by
  unfold appendMessage at h
  simp only [ok_rules] at h
  obtain ⟨-, hvalid, -, -, -, -, _, -, -, -, _, -, _, htarget, hpost⟩ := h
  exact ⟨hvalid.2.2.1, htarget, hpost⟩

theorem appendMessage_spec {input : AppendInput} (ok : StoreOK s)
    (h : appendMessage E s input ids = .ok (s', answer)) :
    StoreOK s' ∧ Evolves Unchanged s.mail s'.mail ∧ TookSequence s.rooms s'.rooms ∧
      s'.presence = s.presence := by
  obtain ⟨hfrom, htarget, hpost⟩ := appendMessage_eq_ok h
  exact postMessage_spec ok ⟨fun _ => rfl, fun _ => rfl, fun _ => rfl⟩ hfrom
    (AppendInput.addressing ok.rooms hfrom htarget) hpost

theorem appendTelegramInbound_eq_ok {input : TelegramInboundInput}
    (h : appendTelegramInbound E s input ids = .ok (s', answer)) :
    input.fromEndpoint = telegramGatewayEndpoint ∧
      postMessage s (input.posting E s.rooms) ids = .ok (s', answer) := by
  unfold appendTelegramInbound validateTelegramInbound at h
  simp only [ok_rules] at h
  obtain ⟨_, ⟨-, hvalid, -⟩, _, -, _, -, -, -, hpost⟩ := h
  exact ⟨hvalid.2.2.1, hpost⟩

theorem appendTelegramInbound_spec {input : TelegramInboundInput} (ok : StoreOK s)
    (h : appendTelegramInbound E s input ids = .ok (s', answer)) :
    StoreOK s' ∧ Evolves Unchanged s.mail s'.mail ∧ TookSequence s.rooms s'.rooms ∧
      s'.presence = s.presence := by
  obtain ⟨hfrom, hpost⟩ := appendTelegramInbound_eq_ok h
  have hvalid : validEndpoint input.fromEndpoint := by
    rw [hfrom]
    decide
  exact postMessage_spec ok ⟨fun _ => rfl, fun _ => rfl, fun _ => rfl⟩ hvalid
    (TelegramInboundInput.addressing ok.rooms hvalid) hpost

/-! ## Direct messages -/

theorem orderedDirectRolePair_eq_some {left right : String}
    (h : orderedDirectRolePair left right = some (low, high)) :
    (canonicalRoleHandle left ∧ canonicalRoleHandle right ∧ left ≠ right) ∧
      (low = left ∧ high = right ∨ low = right ∧ high = left) := by
  unfold orderedDirectRolePair at h
  split at h
  · cases h
  · rename_i hvalid
    have hpair : canonicalRoleHandle left ∧ canonicalRoleHandle right ∧ left ≠ right := by
      simpa [and_assoc] using hvalid
    split at h <;> cases h
    · exact ⟨hpair, .inl ⟨rfl, rfl⟩⟩
    · exact ⟨hpair, .inr ⟨rfl, rfl⟩⟩

theorem canonicalRoleHandle_validRole (h : canonicalRoleHandle role) : validRole role := by
  unfold canonicalRoleHandle at h
  rw [Bool.and_eq_true] at h
  exact h.1

theorem getOrCreateDirectConversation_eq_ok
    (h : getOrCreateDirectConversation r low high fromRole toRole now id = .ok (r', c)) :
    (r' = r ∧ ∃ row, r.directConversations.find? (low, high) = some row ∧ row.conversationID = c) ∨
      (c = id ∧ ∃ conversations t₁ t₂ directConversations,
        r.conversations.insert? id ⟨0, unixMilli now, none⟩ = some conversations ∧
        r.roleMemberships.insert? (id, fromRole) (capSend ||| capReceive) = some t₁ ∧
        t₁.insert? (id, toRole) (capSend ||| capReceive) = some t₂ ∧
        r.directConversations.insert? (low, high) ⟨id, unixMilli now⟩ = some directConversations ∧
        r' = { r with conversations, roleMemberships := t₂, directConversations }) := by
  unfold getOrCreateDirectConversation at h
  simp only [List.foldlM_cons, List.foldlM_nil, ok_rules] at h
  obtain ⟨conversations, hinsert, t, ⟨t₁, ht₁, t₂, ht₂, rfl⟩, h⟩ := h
  split at h
  · rename_i directConversations hdirect
    simp only [pure_eq_ok, Prod.mk.injEq] at h
    obtain ⟨rfl, rfl⟩ := h
    exact .inr ⟨rfl, conversations, t₁, t₂, directConversations, hinsert, ht₁, ht₂, hdirect, rfl⟩
  · simp only [ok_rules, Prod.mk.injEq] at h
    obtain ⟨row, hrow, rfl, rfl⟩ := h
    exact .inl ⟨rfl, row, hrow, rfl⟩

/-- The room of a pair exists afterwards, with its two roles. -/
theorem getOrCreateDirectConversation_spec (ok : StoreOK s)
    (hpair : orderedDirectRolePair fromRole toRole = some (low, high))
    (h : getOrCreateDirectConversation s.rooms low high fromRole toRole now id = .ok (r', c)) :
    RoomsOK r' ∧ MailOK r'.conversations (Receives r') s.mail ∧ DirectRoom r' c low high := by
  obtain ⟨⟨hfrom, hto, hne⟩, horder⟩ := orderedDirectRolePair_eq_some hpair
  rcases getOrCreateDirectConversation_eq_ok h with ⟨rfl, row, hrow, rfl⟩ | ⟨rfl, conversations, t₁, t₂,
    directConversations, hinsert, ht₁, ht₂, hdirect, rfl⟩
  · exact ⟨ok.rooms, ok.mail, ok.rooms.direct hrow⟩
  · have hnone := (Table.insert?_eq_some hinsert).1
    have hroles : ∀ k, t₂.find? k = if k = (c, toRole) ∨ k = (c, fromRole) then
        some (capSend ||| capReceive) else s.rooms.roleMemberships.find? k := by
      intro k
      rw [Table.find?_insert? ht₂, Table.find?_insert? ht₁]
      by_cases h₁ : k = (c, toRole) <;> by_cases h₂ : k = (c, fromRole) <;> simp [h₁, h₂]
    have habsent : ∀ {role cap}, s.rooms.roleMemberships.find? (c, role) = some cap → False := by
      intro role cap hm
      simpa [hnone] using (ok.rooms.roleMember hm).2
    have hmembers : ∀ {role cap}, t₂.find? (c, role) = some cap →
        (role = toRole ∨ role = fromRole) ∧ cap = capSend ||| capReceive := by
      intro role cap hm
      rw [hroles] at hm
      split at hm
      · rename_i hk
        cases hm
        exact ⟨by simpa using hk, rfl⟩
      · exact (habsent hm).elim
    have hjoin : Joining { s.rooms with conversations } c
        { s.rooms with conversations, roleMemberships := t₂, directConversations } := by
      refine ⟨⟨fun _ _ => rfl, fun _ _ _ => rfl, fun c' role hc => ?_, fun _ _ => rfl⟩, rfl,
        fun hm => (ok.rooms.member hm).1, fun hm => ?_⟩
      · rw [hroles, if_neg (by simp [hc])]
      · rcases (hmembers hm).1 with rfl | rfl
        · exact canonicalRoleHandle_validRole hto
        · exact canonicalRoleHandle_validRole hfrom
    have hroom : DirectRoom { s.rooms with conversations, roleMemberships := t₂, directConversations } c low
        high := by
      refine ⟨⟨_, (Table.find?_insert? hinsert c).trans (if_pos rfl), rfl⟩, ?_, fun e => ?_, fun hm => ?_, ?_, ?_, ?_⟩
      · rw [Option.eq_none_iff_forall_ne_some]
        intro claim hclaim
        simpa [hnone] using ok.rooms.claimed hclaim
      · rw [Option.eq_none_iff_forall_ne_some]
        intro cap hm
        simpa [hnone] using (ok.rooms.member hm).2
      · obtain ⟨hrole, hcap⟩ := hmembers hm
        refine ⟨?_, hcap⟩
        rcases horder with ⟨rfl, rfl⟩ | ⟨rfl, rfl⟩ <;> tauto
      · rw [hroles, if_pos]
        rcases horder with ⟨rfl, rfl⟩ | ⟨rfl, rfl⟩ <;> simp
      · rw [hroles, if_pos]
        rcases horder with ⟨rfl, rfl⟩ | ⟨rfl, rfl⟩ <;> simp
      · rcases horder with ⟨rfl, rfl⟩ | ⟨rfl, rfl⟩
        · exact ⟨hfrom, hto⟩
        · exact ⟨hto, hfrom⟩
    obtain ⟨hrooms, hmail⟩ := ok.newRoom hinsert rfl hjoin ok.mail fun {k d} hk => by
      rw [Table.find?_insert? hdirect] at hk
      split at hk
      · rename_i heq
        cases hk
        subst heq
        exact .inr hroom
      · exact .inl hk
    exact ⟨hrooms, hmail, hroom⟩

/-- In a direct conversation the two roles are all that receive. -/
theorem DirectRoom.addressing (hpair : orderedDirectRolePair fromRole toRole = some (low, high))
    (hd : DirectRoom r c low high) :
    Addressing (Receives r) c "" [(roleRecipient toRole, true), (roleRecipient fromRole, false)]
      [roleRecipient toRole] := by
  obtain ⟨⟨-, -, hne⟩, horder⟩ := orderedDirectRolePair_eq_some hpair
  have hreceive : Capability.has (capSend ||| capReceive) capReceive := by decide
  have hlow : Receives r c (roleRecipient low) := .inr ⟨low, _, rfl, hd.lowMember, hreceive⟩
  have hhigh : Receives r c (roleRecipient high) := .inr ⟨high, _, rfl, hd.highMember, hreceive⟩
  refine ⟨?_, ?_, fun hmem => ?_, fun hR => .inr ?_, ?_⟩
  · simpa using hne.symm
  · simp [roleRecipient]
  · simp only [List.map_cons, List.map_nil, List.mem_cons, List.not_mem_nil, or_false] at hmem
    rcases horder with ⟨rfl, rfl⟩ | ⟨rfl, rfl⟩ <;> rcases hmem with rfl | rfl <;> assumption
  · rcases hR with ⟨cap, hm, -⟩ | ⟨role, cap, rfl, hm, -⟩
    · rw [hd.noEndpoints] at hm
      cases hm
    · have hrole := (hd.roles hm).1
      rcases horder with ⟨rfl, rfl⟩ | ⟨rfl, rfl⟩ <;> simpa [or_comm] using hrole
  · simp

theorem writeDirectMessage_eq_ok {ids : DirectIDs}
    (h : writeDirectMessage s r input session c now ids = .ok (rooms, mail, row)) :
    ∃ m₁ conversations n m₂ roles m₃ m₄,
      consumeQuota s.quotaConfig s.mail [roleRecipient input.toRole] input.body.utf8ByteSize = .ok m₁ ∧
      allocateSequence r.conversations c = .ok (conversations, n) ∧
      insertMessage m₁ ids.messageID row "append direct message" = .ok m₂ ∧
      m₂.messageFromRoles.insert? ids.messageID input.fromRole = some roles ∧
      insertDelivery { m₂ with messageFromRoles := roles } ids.deliveryID ids.messageID
        (roleRecipient input.toRole) "create direct role delivery" = .ok m₃ ∧
      advanceRecipientCursor conversations m₃ (roleRecipient input.fromRole) c = .ok m₄ ∧
      advanceSessionCursors s.presence { r with conversations } m₄ input.senderMachineID session c now = .ok mail ∧
      rooms = { r with conversations } ∧
      row = ⟨c, n, session, input.body, unixMilli now, none, none, none, none⟩ := by
  unfold writeDirectMessage at h
  simp only [ok_rules, Prod.mk.injEq] at h
  obtain ⟨m₁, hquota, ⟨conversations, n⟩, halloc, m₂, hinsert, roles, hroles, m₃, hdeliver, m₄, hadvance, m₅,
    hsession, rfl, rfl, rfl⟩ := h
  exact ⟨m₁, conversations, n, m₂, roles, m₃, m₄, hquota, halloc, hinsert, hroles, hdeliver, hadvance, hsession, rfl,
    rfl⟩

theorem writeDirectMessage_spec {ids : DirectIDs} (ok : RoomsOK r)
    (hmail : MailOK r.conversations (Receives r) s.mail)
    (hpair : orderedDirectRolePair input.fromRole input.toRole = some (low, high)) (hd : DirectRoom r c low high)
    (h : writeDirectMessage s r input session c now ids = .ok (rooms, mail, row)) :
    RoomsOK rooms ∧ MailOK rooms.conversations (Receives rooms) mail ∧ Evolves Unchanged s.mail mail ∧
      ∃ conversations n, allocateSequence r.conversations c = .ok (conversations, n) ∧
        rooms = { r with conversations } := by
  obtain ⟨m₁, conversations, n, m₂, roles, m₃, m₄, hquota, halloc, hinsert, -, hdeliver, hadvance, hsession, rfl,
    rfl⟩ := writeDirectMessage_eq_ok h
  have hstart : Fanning conversations (Receives r) s.mail "" ids.messageID
      ⟨c, n, session, input.body, unixMilli now, none, none, none, none⟩ (lastSequence r.conversations c)
      [(roleRecipient input.toRole, true), (roleRecipient input.fromRole, false)] m₂ :=
    Fanning.start hmail (hd.addressing hpair) hquota halloc hinsert
  -- The sender's role is recorded beside the message and concerns nothing else.
  have hroles : Fanning conversations (Receives r) s.mail "" ids.messageID
      ⟨c, n, session, input.body, unixMilli now, none, none, none, none⟩ (lastSequence r.conversations c)
      [(roleRecipient input.toRole, true), (roleRecipient input.fromRole, false)]
      { m₂ with messageFromRoles := roles } :=
    { hstart with
      inv := hstart.inv.beside
      quotas := hstart.quotas.of_usage (fun _ => rfl) rfl rfl
      evolves := hstart.evolves.andThen unchanged_refl (.of_tables unchanged_refl rfl rfl rfl) }
  have hend := (hroles.deliver hdeliver).skip hadvance
  have hsession' : mail = m₄ := by
    unfold advanceSessionCursors at hsession
    simp only [ok_rules, hd.noEndpoints, Option.any_none, Bool.false_eq_true, if_false] at hsession
    obtain ⟨-, -, rfl⟩ := hsession
    rfl
  have hnobody : ¬ Receives r c "" := by
    rintro (⟨cap, hm, -⟩ | ⟨role, cap, heq, -⟩)
    · rw [hd.noEndpoints] at hm
      cases hm
    · simp [roleRecipient] at heq
  obtain ⟨hmail', hevolves⟩ := hend.finish (.inr ⟨hsession', hnobody⟩)
  exact ⟨ok.allocate halloc, hmail', hevolves, conversations, n, halloc, rfl⟩

/-- The outcome of `sendDirectMessage`: a retry, or a message in the pair's room. -/
inductive DirectlySent (E : Env) (s : Store) (input : DirectMessageInput) (ids : DirectIDs) :
    Store → Message × Bool → Prop where
  | retried {row : DirectMessageRetryRow} {message : MessageRow}
      (key : s.journal.directMessageIdempotency.find? (input.senderMachineID, input.idempotencyKey) = some row)
      (same : row.requestHash = directMessageRequestHash E input.fromRole input.toRole input.body)
      (found : s.mail.messages.find? row.messageID = some message) :
      DirectlySent E s input ids s (messageOf s.mail row.messageID message, true)
  | written {low high session conversationID : String} {rooms rooms' : Rooms} {mail : Mail} {row : MessageRow}
      {rateBuckets : Table (RateKind × String) RateBucketRow} {t : Table (String × String) DirectMessageRetryRow}
      (pair : orderedDirectRolePair input.fromRole input.toRole = some (low, high))
      (room : getOrCreateDirectConversation s.rooms low high input.fromRole input.toRole (truncateMilli input.now)
        ids.conversationID = .ok (rooms, conversationID))
      (paced : consumeRateLimits s.rateLimitConfig s.rateBuckets input.senderMachineID conversationID
        (truncateMilli input.now) = .ok rateBuckets)
      (writes : writeDirectMessage s rooms input session conversationID (truncateMilli input.now) ids =
        .ok (rooms', mail, row))
      (key : s.journal.directMessageIdempotency.insert? (input.senderMachineID, input.idempotencyKey)
        ⟨directMessageRequestHash E input.fromRole input.toRole input.body, input.fromRole, input.toRole,
          conversationID, ids.messageID, row.sequence, unixMilli (truncateMilli input.now)⟩ = some t) :
      DirectlySent E s input ids
        { s with
          rooms := rooms', mail, rateBuckets
          journal := { s.journal with directMessageIdempotency := t } }
        (messageOf mail ids.messageID row, false)

theorem sendDirectMessage_eq_ok {ids : DirectIDs} (h : sendDirectMessage E s input ids = .ok (s', answer)) :
    DirectlySent E s input ids s' answer := by
  unfold sendDirectMessage at h
  simp only [ok_rules] at h
  obtain ⟨-, -, -, -, -, -, ⟨low, high⟩, hpair, h⟩ := h
  split at h
  · rename_i existing hkey
    simp only [ok_rules, Prod.mk.injEq] at h
    obtain ⟨_, hsame, message, hmessage, rfl, rfl⟩ := h
    obtain ⟨row, hrow, rfl⟩ := messageByID_eq_ok hmessage
    exact .retried hkey hsame hrow
  · simp only [ok_rules, Prod.mk.injEq] at h
    obtain ⟨session, -, -, -, ⟨rooms, conversationID⟩, hget, rateBuckets, hrate, ⟨rooms', mail, row⟩, hwrite, t, ht,
      rfl, rfl⟩ := h
    exact .written hpair hget hrate hwrite ht

theorem sendDirectMessage_spec {ids : DirectIDs} (ok : StoreOK s)
    (h : sendDirectMessage E s input ids = .ok (s', answer)) :
    StoreOK s' ∧ Evolves Unchanged s.mail s'.mail := by
  rcases sendDirectMessage_eq_ok h with _ | ⟨hpair, hget, -, hwrite, -⟩
  · exact ⟨ok, .refl unchanged_refl _⟩
  · obtain ⟨hrooms, hmail, hdirect⟩ := getOrCreateDirectConversation_spec ok hpair hget
    obtain ⟨hrooms', hmail', hevolves, -⟩ := writeDirectMessage_spec hrooms hmail hpair hdirect hwrite
    exact ⟨⟨hrooms', hmail'⟩, hevolves⟩

end

end Punaro
