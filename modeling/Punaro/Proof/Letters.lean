import Punaro.Proof.RoomSteps

/-!
# What is written stays written

Messages, the roles they are from and the recipients of their deliveries are written
by the call that accepts the message and never change: `LettersCase` is everything
one call can do to them. Leases, acknowledgements, expiry and retirement only touch
the other columns of a delivery.
-/

namespace Punaro

open Outcome

/-- What a delivery keeps: its identifier, its message and its recipient. -/
def Mail.addressed (m : Mail) : List (String × String × String) :=
  m.deliveries.rows.map fun d => (d.1, d.2.messageID, d.2.recipientEndpoint)

/-- The letters are the same. -/
structure SameLetters (m m' : Mail) : Prop where
  messages : m'.messages = m.messages
  roles : m'.messageFromRoles = m.messageFromRoles
  addressed : m'.addressed = m.addressed

/-- Deliveries of the message `id` have been added, each given with its identifier and its recipient. -/
structure Addresses (id : String) (recipients : List (String × String)) (m m' : Mail) : Prop where
  messages : m'.messages = m.messages
  roles : m'.messageFromRoles = m.messageFromRoles
  addressed : m'.addressed = m.addressed ++ recipients.map fun d => (d.1, id, d.2)

/-- The message `id` has been written as `row`, with its deliveries. -/
structure Writes (id : String) (row : MessageRow) (recipients : List (String × String)) (m m' : Mail) : Prop where
  messages : m.messages.insert? id row = some m'.messages
  addressed : m'.addressed = m.addressed ++ recipients.map fun d => (d.1, id, d.2)

/-- The message takes the next sequence of its conversation. -/
structure Takes (row : MessageRow) (conversations conversations' : Table String ConversationRow) : Prop where
  next : row.sequence = lastSequence conversations row.conversationID + 1
  last : ∀ c, lastSequence conversations' c =
    if c = row.conversationID then row.sequence else lastSequence conversations c

/-- Everything one call can do to the letters: nothing, a message in a conversation that is not a direct
one, or a message from one role of a pair to the other, in the conversation of the pair. -/
inductive LettersCase (s s' : Store) : Prop where
  | same (letters : SameLetters s.mail s'.mail)
      (sequences : ∀ c, lastSequence s'.rooms.conversations c = lastSequence s.rooms.conversations c)
  | posted {id : String} {row : MessageRow} {recipients : List (String × String)}
      (writes : Writes id row recipients s.mail s'.mail)
      (takes : Takes row s.rooms.conversations s'.rooms.conversations)
      (roles : s'.mail.messageFromRoles = s.mail.messageFromRoles)
      (pairs : s'.rooms.directConversations = s.rooms.directConversations)
      (plain : NotDirect s.rooms row.conversationID)
  | direct {id deliveryID fromRole toRole low high : String} {created : Int} {row : MessageRow}
      (writes : Writes id row [(deliveryID, roleRecipient toRole)] s.mail s'.mail)
      (takes : Takes row s.rooms.conversations s'.rooms.conversations)
      (roles : s.mail.messageFromRoles.insert? id fromRole = some s'.mail.messageFromRoles)
      (pair : orderedDirectRolePair fromRole toRole = some (low, high))
      (room : s'.rooms.directConversations.find? (low, high) = some ⟨row.conversationID, created⟩)

section

variable {E : Env} {s s' : Store} {m m' m'' : Mail} {conversations : Table String ConversationRow}
  {c recipient endpoint machineID : String} {now : Int}
variable {id context role : String} {row : MessageRow} {ids : FreshIDs} {r r' : Rooms} {answer : Message × Bool}
  {input : DirectMessageInput}

/-! ## Calls that write no letter -/

theorem SameLetters.refl (m : Mail) : SameLetters m m := ⟨rfl, rfl, rfl⟩

theorem SameLetters.trans (h : SameLetters m m') (h' : SameLetters m' m'') : SameLetters m m'' :=
  ⟨h'.messages.trans h.messages, h'.roles.trans h.roles, h'.addressed.trans h.addressed⟩

/-- An update of deliveries that keeps their messages and recipients. -/
theorem SameLetters.update (f : String → DeliveryRow → DeliveryRow)
    (hf : ∀ id d, m.deliveries.find? id = some d →
      (f id d).messageID = d.messageID ∧ (f id d).recipientEndpoint = d.recipientEndpoint) :
    SameLetters m { m with deliveries := m.deliveries.update f } := by
  refine ⟨rfl, rfl, ?_⟩
  simp only [Mail.addressed, Table.update, List.map_map]
  refine List.map_congr_left fun d hd => ?_
  obtain ⟨hmessage, hrecipient⟩ := hf d.1 d.2 (Table.find?_eq_some_iff_mem.2 hd)
  simp [hmessage, hrecipient]

theorem SameLetters.updateAt (id : String) {f : DeliveryRow → DeliveryRow}
    (hf : ∀ d, (f d).messageID = d.messageID ∧ (f d).recipientEndpoint = d.recipientEndpoint) :
    SameLetters m { m with deliveries := m.deliveries.updateAt id f } := by
  refine .update _ fun id' d _ => ?_
  split
  · exact hf d
  · exact ⟨rfl, rfl⟩

theorem advanceRecipientCursor_letters (h : advanceRecipientCursor conversations m recipient c = .ok m') :
    SameLetters m m' := by
  obtain ⟨t, rfl⟩ := advanceRecipientCursor_frame h
  exact ⟨rfl, rfl, rfl⟩

theorem releaseQuota_letters {b : ℕ} (h : releaseQuota m recipient b = .ok m') : SameLetters m m' := by
  obtain ⟨t, i, rfl⟩ := releaseQuota_frame h
  exact ⟨rfl, rfl, rfl⟩

theorem closePendingDelivery_letters {row : PendingClose} {reason : ClosedReason} {closed : Bool}
    (h : closePendingDelivery conversations m row reason now = .ok (m', closed)) : SameLetters m m' := by
  unfold closePendingDelivery at h
  simp only [bind_eq_ok] at h
  obtain ⟨-, -, h⟩ := h
  split at h
  · simp only [ok_rules, Prod.mk.injEq] at h
    obtain ⟨m₁, hrelease, m₂, hadvance, rfl, -⟩ := h
    have hclose : SameLetters m { m with
        deliveries := m.deliveries.updateAt row.id fun d =>
          { d.unlease with ackedAt := some (unixMilli (truncateMilli now)) } } :=
      .updateAt row.id fun _ => ⟨rfl, rfl⟩
    have hrelease' := releaseQuota_letters hrelease
    exact (hclose.trans ⟨hrelease'.messages, hrelease'.roles, hrelease'.addressed⟩).trans
      (advanceRecipientCursor_letters hadvance)
  · simp only [pure_eq_ok, Prod.mk.injEq] at h
    obtain ⟨rfl, -⟩ := h
    exact .refl m

theorem retireRecipientDeliveries_letters {n : ℕ}
    (h : retireRecipientDeliveries conversations m recipient c now = .ok (m', n)) : SameLetters m m' := by
  unfold retireRecipientDeliveries at h
  refine foldlM_rule (fun _ (acc : Mail × ℕ) => SameLetters m acc.1) ?_ (.refl m) h
  intro row rows acc acc' hacc hpass
  simp only [ok_rules] at hpass
  obtain ⟨⟨m₁, closed⟩, hclose, rfl⟩ := hpass
  exact hacc.trans (closePendingDelivery_letters hclose)

theorem expireLoop_letters (conversations : Table String ConversationRow) (now cutoff : Int) (batch : ℕ) (m : Mail)
    (result : MaintenanceResult) : SameLetters m (expireLoop conversations cutoff now batch m result).1 := by
  induction batch generalizing m result with
  | zero => exact .refl m
  | succ batch ih =>
    unfold expireLoop
    split
    · exact .refl m
    · exact .refl m
    · rename_i m₁ closed hdue
      unfold expireOneDueDelivery at hdue
      split at hdue
      · cases hdue
      · simp only [ok_rules, Option.some.injEq, exists_eq_right] at hdue
        exact (closePendingDelivery_letters hdue).trans (ih _ _)

theorem pruneLoop_letters (cutoff : Int) (batch : ℕ) (m : Mail) (result : MaintenanceResult) :
    SameLetters m (pruneLoop cutoff batch m result).1 := by
  induction batch generalizing m result with
  | zero => exact .refl m
  | succ batch ih =>
    unfold pruneLoop
    split
    · exact .refl m
    · rename_i m₁ hprune
      obtain ⟨_, -, rfl⟩ := Option.map_eq_some_iff.1 hprune
      refine SameLetters.trans ?_ (ih _ _)
      exact ⟨rfl, rfl, rfl⟩

theorem maintainDeliveries_letters (s : Store) (now : Int) : SameLetters s.mail (maintainDeliveries s now).1.mail := by
  have hloop := expireLoop_letters s.rooms.conversations (truncateMilli now)
    (unixMilli (truncateMilli now - s.retentionConfig.pendingMaxAgeSeconds * 1000000000))
    s.retentionConfig.maintenanceBatch s.mail ⟨0, 0, 0⟩
  unfold maintainDeliveries
  dsimp only
  split
  · rename_i m result e heq
    rw [heq] at hloop
    exact hloop
  · rename_i m result heq
    rw [heq] at hloop
    exact hloop.trans (pruneLoop_letters _ _ _ _)

theorem closeAcked_letters {deliveryID : String} {d : DeliveryRow}
    (h : closeAcked conversations m deliveryID d now = .ok m') : SameLetters m m' := by
  unfold closeAcked at h
  by_cases hopen : d.ackedAt.isNone
  · simp only [hopen, if_true, ok_rules, recordAckedTerminal] at h
    obtain ⟨message, -, m₂, hrelease, _, ⟨_, -, _, -, rfl⟩, hadvance⟩ := h
    have hack : SameLetters m { m with
        deliveries := m.deliveries.updateAt deliveryID fun d => { d with ackedAt := some (unixMilli now) } } :=
      .updateAt deliveryID fun _ => ⟨rfl, rfl⟩
    have hrelease' := hack.trans (releaseQuota_letters hrelease)
    refine SameLetters.trans ?_ (advanceRecipientCursor_letters hadvance)
    exact ⟨hrelease'.messages, hrelease'.roles, hrelease'.addressed⟩
  · simp only [hopen, if_false, ok_rules, Bool.false_eq_true] at h
    obtain ⟨message, -, m₁, rfl, hadvance⟩ := h
    exact advanceRecipientCursor_letters hadvance

theorem ackDelivery_letters {deliveryID token : String} {generation : Int}
    (h : ackDelivery s machineID endpoint deliveryID token generation now = .ok s') :
    SameLetters s.mail s'.mail := by
  unfold ackDelivery at h
  simp only [ok_rules] at h
  obtain ⟨_, -, _, -, -, -, h⟩ := h
  split at h
  · rw [pure_eq_ok] at h
    exact h ▸ .refl s.mail
  · simp only [ok_rules] at h
    obtain ⟨_, -, _, -, mail, hclose, rfl⟩ := h
    exact closeAcked_letters hclose

theorem leaseDeliveries_letters {consumerID : String} {ttl limit : Int} {token : String → String}
    {answer : DeliveryLeasePage}
    (h : leaseDeliveries s machineID consumerID endpoint c now ttl limit token = .ok (s', answer)) :
    SameLetters s.mail s'.mail := by
  obtain ⟨_, _, _, -, -, -, -, -, rfl⟩ := leaseDeliveries_eq_ok h
  refine .update _ fun id d hd => ?_
  rcases leasedRows_eq hd with heq | ⟨-, r, -, -, rfl, heq⟩
  · rw [heq]
    exact ⟨rfl, rfl⟩
  · rw [heq, leasedRow]
    split <;> exact ⟨rfl, rfl⟩

theorem bindRoleToSession_letters {ttl : Int} (h : bindRoleToSession s machineID role endpoint now ttl = .ok s') :
    SameLetters s.mail s'.mail := by
  obtain ⟨row, -, -, -, -, -, -, -, rfl⟩ := bindRoleToSession_eq_ok h
  refine .update _ fun id d _ => ?_
  split <;> exact ⟨rfl, rfl⟩

theorem revokeReceive_letters (h : revokeReceive s endpoint c now = .ok s') : SameLetters s.mail s'.mail := by
  unfold revokeReceive at h
  simp only [ok_rules] at h
  obtain ⟨⟨m₁, n⟩, hretire, m₂, hadvance, rfl⟩ := h
  exact (retireRecipientDeliveries_letters hretire).trans (advanceRecipientCursor_letters hadvance)

theorem writeMember_letters {capabilities : Capability} (h : writeMember s c endpoint capabilities = .ok s') :
    SameLetters s.mail s'.mail := by
  unfold writeMember at h
  dsimp only at h
  split at h
  · simp only [ok_rules] at h
    obtain ⟨m', hadvance, rfl⟩ := h
    exact advanceRecipientCursor_letters hadvance
  · rw [pure_eq_ok] at h
    exact h ▸ .refl s.mail

theorem upsertMember_letters {input : ControlInput} (h : upsertMember s input = .ok s') :
    SameLetters s.mail s'.mail := by
  unfold upsertMember at h
  split at h
  · simp only [bind_eq_ok] at h
    obtain ⟨_, -, hwrite⟩ := h
    exact writeMember_letters hwrite
  · simp only [ite_bind_eq_ok] at h
    obtain ⟨-, h⟩ := h
    split at h
    · simp only [bind_eq_ok] at h
      obtain ⟨s₁, hrevoke, hwrite⟩ := h
      exact (revokeReceive_letters hrevoke).trans (writeMember_letters hwrite)
    · exact writeMember_letters h

theorem applyControl_letters {input : ControlInput} {event : ControlEvent × Bool}
    (h : applyControl E s input id = .ok (s', event)) : SameLetters s.mail s'.mail := by
  rcases applyControl_eq_ok h with rfl | ⟨s₁, t, t', -, -, -, hchange | hchange, rfl⟩
  · exact .refl _
  · have hletters := upsertMember_letters hchange
    exact hletters
  · unfold removeMember at hchange
    simp only [ok_rules, ite_bind_eq_ok] at hchange
    obtain ⟨_, -, -, s₂, hrevoke, rfl⟩ := hchange
    have hletters := revokeReceive_letters hrevoke
    exact hletters

theorem completeTelegramClaim_letters {input : TelegramClaimCompleteInput} {answer : TelegramClaim × Bool}
    (h : completeTelegramClaim s input id = .ok (s', answer)) :
    SameLetters s.mail s'.mail := by
  rcases completeTelegramClaim_eq_ok h with rfl | ⟨_, _, _, _, _, _, _, _, -, -, -, hensure, -, -, -, rfl⟩
  · exact .refl _
  · obtain ⟨t, -, -, hadvance | ⟨hsame, -⟩⟩ := ensureTelegramGatewayMembership_eq_ok hensure
    · exact advanceRecipientCursor_letters hadvance
    · exact hsame ▸ .refl _

theorem prepareTelegramAdopt_letters {input : AdoptPrepareInput} {wallClock : Int}
    (h : prepareTelegramAdopt s input wallClock = .ok s') : SameLetters s.mail s'.mail := by
  obtain ⟨_, _, _, _, _, -, -, -, -, hretire, hadvance, -, rfl⟩ := prepareTelegramAdopt_eq_ok h
  exact (retireRecipientDeliveries_letters hretire).trans (advanceRecipientCursor_letters hadvance)

theorem foldlM_addMember_conversations {members : List Member} (h : members.foldlM (addMember id) r = .ok r') :
    r'.conversations = r.conversations := by
  refine foldlM_rule (fun _ (acc : Rooms) => acc.conversations = r.conversations) ?_ rfl h
  intro member rest r₁ r₂ heq hadd
  unfold addMember at hadd
  split at hadd
  all_goals
    simp only [ok_rules] at hadd
    obtain ⟨t, -, rfl⟩ := hadd
    exact heq

/-- Only a call that accepts mail moves the last sequence of a conversation. -/
theorem RoomsCase.lastSequence {op : Op} (h : RoomsCase s op r') (hposts : op.keys ≠ [.posts])
    (hdirects : op.keys ≠ [.directs]) (c : String) :
    lastSequence r'.conversations c = lastSequence s.rooms.conversations c := by
  cases h with
  | sequence posts _ => exact absurd posts hposts
  | direct directs => exact absurd directs hdirects
  | created fresh checked insert joins =>
    rw [foldlM_addMember_conversations joins]
    unfold Punaro.lastSequence
    rw [Table.find?_insert? insert]
    split
    · rename_i heq
      rw [heq, (Table.insert?_eq_some insert).1]
      rfl
    · rfl
  | renamed _ _ | adopted _ _ _ =>
    unfold Punaro.lastSequence Rooms.rename
    rw [Table.find?_updateAt]
    split
    · rw [Option.map_map]
      rfl
    · rfl
  | same | wrote _ _ | dropped _ _ | claimed _ _ _ _ | completed _ _ _ _ _ _ => rfl

/-! ## Calls that write a letter -/

theorem Addresses.refl (id : String) (m : Mail) : Addresses id [] m m := ⟨rfl, rfl, (List.append_nil _).symm⟩

theorem Addresses.trans {l l' : List (String × String)} (h : Addresses id l m m') (h' : Addresses id l' m' m'') :
    Addresses id (l ++ l') m m'' :=
  ⟨h'.messages.trans h.messages, h'.roles.trans h.roles, by
    rw [h'.addressed, h.addressed, List.append_assoc, List.map_append]⟩

theorem SameLetters.addresses (h : SameLetters m m') : Addresses id [] m m' :=
  ⟨h.messages, h.roles, h.addressed.trans (List.append_nil _).symm⟩

theorem insertDelivery_addresses {messageID : String}
    (h : insertDelivery m id messageID recipient context = .ok m') :
    Addresses messageID [(id, recipient)] m m' := by
  unfold insertDelivery at h
  simp only [ok_rules] at h
  obtain ⟨-, -, t, ht, rfl⟩ := h
  refine ⟨rfl, rfl, ?_⟩
  rw [Mail.addressed, (Table.insert?_eq_some ht).2, List.map_append]
  rfl

theorem fanOut_addresses {targets : List (String × Bool)}
    (h : fanOut conversations c ids context m targets = .ok m') :
    ∃ recipients, Addresses ids.messageID recipients m m' := by
  refine foldlM_rule (fun _ acc => ∃ recipients, Addresses ids.messageID recipients m acc) ?_ ⟨[], .refl _ m⟩ h
  rintro target rest m₁ m₂ ⟨recipients, hacc⟩ hpass
  unfold fanOutOne at hpass
  split at hpass
  · exact ⟨_, hacc.trans (insertDelivery_addresses hpass)⟩
  · exact ⟨_, hacc.trans (advanceRecipientCursor_letters hpass).addresses⟩

theorem advanceSessionCursors_letters {p : Presence}
    (h : advanceSessionCursors p r m machineID endpoint c now = .ok m') : SameLetters m m' := by
  unfold advanceSessionCursors at h
  simp only [bind_eq_ok] at h
  obtain ⟨-, -, h⟩ := h
  split at h
  · exact advanceRecipientCursor_letters h
  · rw [pure_eq_ok] at h
    exact h ▸ .refl m

theorem consumeQuota_letters {cfg : QuotaConfig} {recipients : List String} {b : ℕ}
    (h : consumeQuota cfg m recipients b = .ok m') : SameLetters m m' := by
  obtain ⟨_, _, rfl⟩ := consumeQuota_frame h
  exact ⟨rfl, rfl, rfl⟩

/-- A message inserted between calls that write none. -/
theorem Writes.of_insert {m₁ m₂ : Mail} {recipients : List (String × String)} (before : SameLetters m m₁)
    (insert : insertMessage m₁ id row context = .ok m₂) (after : Addresses id recipients m₂ m') :
    Writes id row recipients m m' ∧ m'.messageFromRoles = m.messageFromRoles := by
  obtain ⟨t, ht, rfl⟩ := insertMessage_eq_ok insert
  rw [before.messages] at ht
  refine ⟨⟨?_, ?_⟩, after.roles.trans before.roles⟩
  · rw [after.messages]
    exact ht
  · rw [after.addressed, ← before.addressed]
    rfl

theorem Takes.of_allocate {conversations' : Table String ConversationRow} {n : ℕ}
    (h : allocateSequence conversations c = .ok (conversations', n)) (hc : row.conversationID = c)
    (hn : row.sequence = n) : Takes row conversations conversations' := by
  have hnext : n = lastSequence conversations c + 1 := by
    obtain ⟨row', hrow', heq, -⟩ := allocateSequence_eq_ok h
    rw [lastSequence_eq hrow', heq]
  refine ⟨by rw [hc, hn, hnext], fun c' => ?_⟩
  rw [lastSequence_allocate h, hc, hn, hnext]

theorem writePosting_letters {post : Posting} {rooms : Rooms} {mail : Mail} (hpost : post.Faithful)
    (h : writePosting s post ids = .ok (rooms, mail, row)) :
    ∃ recipients, Writes ids.messageID row recipients s.mail mail ∧
      mail.messageFromRoles = s.mail.messageFromRoles ∧ Takes row s.rooms.conversations rooms.conversations ∧
      row.conversationID = post.conversationID ∧ rooms.directConversations = s.rooms.directConversations := by
  obtain ⟨m₁, conversations, n, m₂, m₃, m₄, hquota, halloc, hinsert, hfan, hfan', hsession, rfl, rfl⟩ :=
    writePosting_eq_ok h
  obtain ⟨l₁, h₁⟩ := fanOut_addresses hfan
  obtain ⟨l₂, h₂⟩ := fanOut_addresses hfan'
  have hletters := (h₁.trans h₂).trans (advanceSessionCursors_letters hsession).addresses
  obtain ⟨hwrites, hroles⟩ := Writes.of_insert (consumeQuota_letters hquota) hinsert hletters
  exact ⟨_, hwrites, hroles, .of_allocate halloc (hpost.conversation n) (hpost.sequence n), hpost.conversation n, rfl⟩

theorem postMessage_letters {post : Posting} (hpost : post.Faithful)
    (hplain : NotDirect s.rooms post.conversationID) (h : postMessage s post ids = .ok (s', answer)) :
    LettersCase s s' := by
  rcases postMessage_eq_ok h with _ | ⟨-, hwrite, -⟩
  · exact .same (.refl _) fun _ => rfl
  · obtain ⟨_, hwrites, hroles, htakes, hc, hpairs⟩ := writePosting_letters hpost hwrite
    exact .posted hwrites htakes hroles hpairs (hc ▸ hplain)

theorem appendMessage_notDirect {input : AppendInput} (h : appendMessage E s input ids = .ok (s', answer)) :
    NotDirect s.rooms input.conversationID := by
  unfold appendMessage rejectDirectConversationAppend at h
  simp only [ok_rules] at h
  obtain ⟨-, -, -, -, -, -, _, -, -, -, _, hreject, -⟩ := h
  exact fun k row hk => hreject (k, row) (Table.find?_eq_some_iff_mem.1 hk)

/-- A claimed conversation is not a direct one. -/
theorem appendTelegramInbound_notDirect {input : TelegramInboundInput} (ok : RoomsOK s.rooms)
    (h : appendTelegramInbound E s input ids = .ok (s', answer)) :
    NotDirect s.rooms input.conversationID := by
  unfold appendTelegramInbound requireCompleteTelegramClaim at h
  simp only [ok_rules] at h
  obtain ⟨-, -, -, hclaim, -⟩ := h
  rintro k row hk heq
  have hnone := (ok.direct hk).unclaimed
  rw [heq] at hnone
  simp [hnone] at hclaim

/-- The pair has a conversation afterwards, and a new one has no message. -/
theorem getOrCreateDirectConversation_found {low high fromRole toRole : String}
    (h : getOrCreateDirectConversation r low high fromRole toRole now id = .ok (r', c)) :
    (∃ created, r'.directConversations.find? (low, high) = some ⟨c, created⟩) ∧
      ∀ c', lastSequence r'.conversations c' = lastSequence r.conversations c' := by
  rcases getOrCreateDirectConversation_eq_ok h with ⟨rfl, row, hrow, rfl⟩ | ⟨rfl, conversations, _, _,
    directConversations, hinsert, -, -, hdirect, rfl⟩
  · exact ⟨⟨row.createdAt, hrow⟩, fun _ => rfl⟩
  · refine ⟨⟨unixMilli now, (Table.find?_insert? hdirect _).trans (if_pos rfl)⟩, fun c' => ?_⟩
    unfold lastSequence
    rw [Table.find?_insert? hinsert]
    split
    · rename_i heq
      rw [heq, (Table.insert?_eq_some hinsert).1]
      rfl
    · rfl

theorem Takes.congr {conversations' conversations'' : Table String ConversationRow}
    (h : Takes row conversations' conversations'')
    (heq : ∀ c, lastSequence conversations' c = lastSequence conversations c) :
    Takes row conversations conversations'' :=
  ⟨by rw [h.next, heq], fun c => by rw [h.last, heq]⟩

theorem writeDirectMessage_letters {rooms : Rooms} {session : String} {ids : DirectIDs} {mail : Mail}
    (h : writeDirectMessage s r input session c now ids = .ok (rooms, mail, row)) :
    Writes ids.messageID row [(ids.deliveryID, roleRecipient input.toRole)] s.mail mail ∧
      s.mail.messageFromRoles.insert? ids.messageID input.fromRole = some mail.messageFromRoles ∧
      Takes row r.conversations rooms.conversations ∧ row.conversationID = c ∧
      rooms.directConversations = r.directConversations := by
  obtain ⟨m₁, conversations, n, m₂, roles, m₃, m₄, hquota, halloc, hinsert, hroles, hdeliver, hadvance, hsession, rfl,
    rfl⟩ := writeDirectMessage_eq_ok h
  have hafter := ((insertDelivery_addresses hdeliver).trans (advanceRecipientCursor_letters hadvance).addresses).trans
    (advanceSessionCursors_letters hsession).addresses
  have hbefore := consumeQuota_letters hquota
  obtain ⟨t, ht, rfl⟩ := insertMessage_eq_ok hinsert
  rw [hbefore.messages] at ht
  rw [hbefore.roles] at hroles
  refine ⟨⟨?_, ?_⟩, ?_, .of_allocate halloc rfl rfl, rfl, rfl⟩
  · rw [hafter.messages]
    exact ht
  · rw [hafter.addressed, ← hbefore.addressed]
    rfl
  · rw [hroles, hafter.roles]

theorem sendDirectMessage_letters {ids : DirectIDs} (h : sendDirectMessage E s input ids = .ok (s', answer)) :
    LettersCase s s' := by
  rcases sendDirectMessage_eq_ok h with _ | ⟨hpair, hroom, -, hwrite, -⟩
  · exact .same (.refl _) fun _ => rfl
  · obtain ⟨⟨created, hfound⟩, hlast⟩ := getOrCreateDirectConversation_found hroom
    obtain ⟨hwrites, hroles, htakes, hc, hpairs⟩ := writeDirectMessage_letters hwrite
    rw [← hc, ← hpairs] at hfound
    exact .direct hwrites (htakes.congr hlast) hroles hpair hfound

/-- The call takes `s` to `s'` and writes no letter. -/
def LettersKept (s s' : Store) : Prop := SameLetters s.mail s'.mail

/-- A call that accepts no mail writes no letter. -/
theorem step_lettersKept {op : Op} (hposts : op.keys ≠ [.posts]) (hdirects : op.keys ≠ [.directs]) :
    LettersKept s (step E s op).1 := by
  by_cases hw : Part.mail ∈ op.writes
  · have hsame : LettersKept s s := SameLetters.refl _
    unfold step
    cases op with
    | bindRoleToSession =>
      exact commitDone_rule hsame fun s' h => bindRoleToSession_letters h
    | leaseDeliveries =>
      exact commit_rule hsame fun s' a h => leaseDeliveries_letters h
    | applyControl =>
      exact commit_rule hsame fun s' a h => applyControl_letters h
    | completeTelegramClaim =>
      exact commit_rule hsame fun s' a h => completeTelegramClaim_letters h
    | prepareTelegramAdopt =>
      exact commitDone_rule hsame fun s' h => prepareTelegramAdopt_letters h
    | ackDelivery =>
      exact commitDone_rule hsame fun s' h => ackDelivery_letters h
    | maintainDeliveries now =>
      change LettersKept s (step E s (.maintainDeliveries now)).1
      rw [step_maintainDeliveries]
      exact maintainDeliveries_letters s now
    | reconcilePendingQuota | reopen => exact ⟨rfl, rfl, rfl⟩
    | appendMessage _ _ | appendTelegramInbound _ _ => exact absurd rfl hposts
    | sendDirectMessage => exact absurd rfl hdirects
    | _ => exact absurd hw (by simp [Op.writes])
  · unfold LettersKept
    rw [(step_frame op).mail hw]
    exact .refl _

/-- **One call** does one of these things to the letters. -/
theorem step_letters (ok : StoreOK s) (op : Op) : LettersCase s (step E s op).1 := by
  by_cases hkeys : op.keys = [.posts] ∨ op.keys = [.directs]
  · have hsame : LettersCase s s := .same (.refl _) fun _ => rfl
    unfold step
    cases op with
    | appendMessage =>
      refine commit_rule hsame fun s' a h => ?_
      exact postMessage_letters ⟨fun _ => rfl, fun _ => rfl, fun _ => rfl⟩ (appendMessage_notDirect h)
        (appendMessage_eq_ok h).2.2
    | appendTelegramInbound =>
      refine commit_rule hsame fun s' a h => ?_
      exact postMessage_letters ⟨fun _ => rfl, fun _ => rfl, fun _ => rfl⟩
        (appendTelegramInbound_notDirect ok.rooms h) (appendTelegramInbound_eq_ok h).2
    | sendDirectMessage => exact commit_rule hsame fun s' a h => sendDirectMessage_letters h
    | _ => exact absurd hkeys (by simp [Op.keys])
  · obtain ⟨hposts, hdirects⟩ := not_or.1 hkeys
    exact .same (step_lettersKept hposts hdirects) fun c => RoomsCase.lastSequence (step_rooms op) hposts hdirects c

/-- A message stays as it was written. -/
theorem LettersCase.message_stays (h : LettersCase s s') (hm : s.mail.messages.find? id = some row) :
    s'.mail.messages.find? id = some row := by
  cases h with
  | same letters _ =>
    rw [letters.messages]
    exact hm
  | posted writes _ _ _ _ | direct writes _ _ _ _ => exact Table.find?_insert?_of_some writes.messages hm

/-- The role a message is from stays as it was written. -/
theorem LettersCase.role_stays (h : LettersCase s s') (hm : s.mail.messageFromRoles.find? id = some role) :
    s'.mail.messageFromRoles.find? id = some role := by
  cases h with
  | same letters _ =>
    rw [letters.roles]
    exact hm
  | posted _ _ roles =>
    rw [roles]
    exact hm
  | direct _ _ roles => exact Table.find?_insert?_of_some roles hm

end

end Punaro
