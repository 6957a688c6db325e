import Punaro.Proof.Digests
import Punaro.Proof.Letters

/-!
# Direct conversations

Two roles that write to each other share one conversation, found under the ordered
pair of their names. Nothing marks it as direct in the tables of members and
messages: that it stays with its two roles, and that every message in it is from
one of them to the other, follows from what each call checks.
-/

namespace Punaro

open Outcome

/-- The two roles are the pair, in one order or the other. -/
def Between (low high fromRole toRole : String) : Prop :=
  fromRole = low ∧ toRole = high ∨ fromRole = high ∧ toRole = low

/-- The message is from one role of the pair, and its only delivery is to the other one. -/
def Mail.Corresponds (m : Mail) (low high id : String) : Prop :=
  ∃ fromRole toRole deliveryID, Between low high fromRole toRole ∧ m.messageFromRoles.find? id = some fromRole ∧
    m.addressed.filter (fun d => d.2.1 = id) = [(deliveryID, id, roleRecipient toRole)]

/-- What holds of direct conversations beyond `RoomsOK`: their pairs are ordered, and their messages are
between the two roles. -/
structure DirectOK (s : Store) : Prop where
  ordered : ∀ {k row}, s.rooms.directConversations.find? k = some row → orderedDirectRolePair k.1 k.2 = some k
  letters : ∀ {k row id message}, s.rooms.directConversations.find? k = some row →
    s.mail.messages.find? id = some message → message.conversationID = row.conversationID →
    s.mail.Corresponds k.1 k.2 id

/-- A retry key of a direct message stands for a message from its role, in the conversation of its pair. -/
structure DirectKeyOK (E : Env) (s : Store) (key : DirectMessageRetryRow) : Prop where
  request : ∃ body, validMessageBody body ∧
    key.requestHash = directMessageRequestHash E key.fromRole key.toRole body
  letter : ∃ k row message, orderedDirectRolePair key.fromRole key.toRole = some k ∧
    s.rooms.directConversations.find? k = some row ∧ s.mail.messages.find? key.messageID = some message ∧
    message.conversationID = row.conversationID ∧ s.mail.messageFromRoles.find? key.messageID = some key.fromRole

section

variable {E : Env} {s s' : Store} {r r' : Rooms} {op : Op} {k k' : String × String}
  {row row' : DirectConversationRow} {id left right : String}

/-! ## Ordered pairs -/

theorem orderedDirectRolePair_comm (left right : String) :
    orderedDirectRolePair left right = orderedDirectRolePair right left := by
  unfold orderedDirectRolePair
  by_cases heq : left = right
  · rw [heq]
  · have hlt : ¬ left < right ↔ right < left := by
      refine ⟨fun h => ?_, String.lt_asymm⟩
      by_contra h'
      exact heq (String.le_antisymm (String.not_lt.1 h') (String.not_lt.1 h))
    by_cases h : left < right
    · simp [heq, Ne.symm heq, h, String.lt_asymm h, or_comm]
    · simp [heq, Ne.symm heq, h, hlt.1 h, or_comm]

theorem orderedDirectRolePair_ordered (h : orderedDirectRolePair left right = some k) :
    orderedDirectRolePair k.1 k.2 = some k := by
  obtain ⟨-, ⟨hlow, hhigh⟩ | ⟨hlow, hhigh⟩⟩ := orderedDirectRolePair_eq_some h
  · rw [hlow, hhigh, h]
  · rw [hlow, hhigh, orderedDirectRolePair_comm, h]

theorem orderedDirectRolePair_between (h : orderedDirectRolePair left right = some k) : Between k.1 k.2 left right := by
  obtain ⟨-, ⟨hlow, hhigh⟩ | ⟨hlow, hhigh⟩⟩ := orderedDirectRolePair_eq_some h
  · exact .inl ⟨hlow.symm, hhigh.symm⟩
  · exact .inr ⟨hhigh.symm, hlow.symm⟩

/-- Ordered pairs of the same two roles are equal. -/
theorem ordered_eq (h : orderedDirectRolePair k.1 k.2 = some k) (h' : orderedDirectRolePair k'.1 k'.2 = some k')
    (hsame : k.1 = k'.1 ∧ k.2 = k'.2 ∨ k.1 = k'.2 ∧ k.2 = k'.1) : k = k' := by
  rcases hsame with ⟨h₁, h₂⟩ | ⟨h₁, h₂⟩
  · exact Prod.ext h₁ h₂
  · rw [h₁, h₂, orderedDirectRolePair_comm, h'] at h
    exact (Option.some.inj h).symm

/-- A conversation belongs to one pair. -/
theorem RoomsOK.pair_unique (ok : RoomsOK r)
    (ordered : ∀ {k row}, r.directConversations.find? k = some row → orderedDirectRolePair k.1 k.2 = some k)
    (hk : r.directConversations.find? k = some row) (hk' : r.directConversations.find? k' = some row')
    (hc : row.conversationID = row'.conversationID) : k = k' := by
  have hroom := ok.direct hk
  have hroom' := ok.direct hk'
  rw [hc] at hroom
  obtain ⟨⟨-, -, hne⟩, -⟩ := orderedDirectRolePair_eq_some (ordered hk)
  refine ordered_eq (ordered hk) (ordered hk') ?_
  have hlow := (hroom'.roles hroom.lowMember).1
  have hhigh := (hroom'.roles hroom.highMember).1
  rcases hlow with hlow | hlow <;> rcases hhigh with hhigh | hhigh
  · exact absurd (hlow.trans hhigh.symm) hne
  · exact .inl ⟨hlow, hhigh⟩
  · exact .inr ⟨hlow, hhigh⟩
  · exact absurd (hlow.trans hhigh.symm) hne

/-! ## One call -/

theorem foldlM_addMember_directs {members : List Member} (h : members.foldlM (addMember id) r = .ok r') :
    r'.directConversations = r.directConversations := by
  refine foldlM_rule (fun _ (acc : Rooms) => acc.directConversations = r.directConversations) ?_ rfl h
  exact fun _ _ _ _ heq hadd => (addMember_frame hadd).1.trans heq

/-- The pairs stay, and a new pair has a conversation that did not exist. -/
theorem RoomsCase.directs (h : RoomsCase s op r') :
    r'.directConversations = s.rooms.directConversations ∨
      ∃ low high d, s.rooms.directConversations.insert? (low, high) d = some r'.directConversations ∧
        orderedDirectRolePair low high = some (low, high) ∧ s.rooms.conversations.find? d.conversationID = none := by
  cases h with
  | created fresh checked insert joins =>
    have hsame := foldlM_addMember_directs joins
    exact .inl hsame
  | @direct low high fromRole toRole id c now rooms conversations n directs fresh pair room allocates =>
    rcases getOrCreateDirectConversation_eq_ok room with ⟨rfl, -⟩ | ⟨-, _, _, _, directConversations, hinsert, -, -,
      hdirect, rfl⟩
    · exact .inl rfl
    · have hnew := (Table.insert?_eq_some hinsert).1
      have hordered : orderedDirectRolePair low high = some (low, high) :=
        orderedDirectRolePair_ordered (k := (low, high)) pair
      exact .inr ⟨low, high, ⟨id, unixMilli now⟩, hdirect, hordered, hnew⟩
  | same | sequence _ _ | wrote _ _ | dropped _ _ | renamed _ _ | claimed _ _ _ _ | completed _ _ _ _ _ _
  | adopted => exact .inl rfl

theorem RoomsCase.direct_stays (h : RoomsCase s op r') (hk : s.rooms.directConversations.find? k = some row) :
    r'.directConversations.find? k = some row := by
  rcases h.directs with heq | ⟨low, high, d, hinsert, -⟩
  · rw [heq]
    exact hk
  · exact Table.find?_insert?_of_some hinsert hk

/-- A pair of afterwards was there before, or its conversation was not. -/
theorem RoomsCase.direct_old (h : RoomsCase s op r') (hk : r'.directConversations.find? k = some row) :
    s.rooms.directConversations.find? k = some row ∨
      orderedDirectRolePair k.1 k.2 = some k ∧ s.rooms.conversations.find? row.conversationID = none := by
  rcases h.directs with heq | ⟨low, high, d, hinsert, hordered, hnew⟩
  · rw [heq] at hk
    exact .inl hk
  · rw [Table.find?_insert? hinsert] at hk
    split at hk
    · rename_i heq
      cases hk
      subst heq
      exact .inr ⟨hordered, hnew⟩
    · exact .inl hk

/-- A message says which conversation exists. -/
theorem StoreOK.message_room (ok : StoreOK s) {c : String} (h : s.mail.messages.find? id = some message)
    (hc : s.rooms.conversations.find? c = none) :
    message.conversationID ≠ c := by
  rintro rfl
  obtain ⟨_, hroom, -⟩ := ok.mail.inv.placed h
  rw [hc] at hroom
  cases hroom

theorem Mail.Corresponds.same {m' : Mail} (h : m.Corresponds low high id) (hsame : SameLetters m m') :
    m'.Corresponds low high id := by
  unfold Mail.Corresponds
  rw [hsame.roles, hsame.addressed]
  exact h

/-- Another message does not concern this one. -/
theorem Writes.filter_addressed {m' : Mail} {new : String} {recipients : List (String × String)}
    (h : Writes new message recipients m m') (hne : id ≠ new) :
    m'.addressed.filter (fun d => d.2.1 = id) = m.addressed.filter fun d => d.2.1 = id := by
  rw [h.addressed, List.filter_append, List.filter_map]
  simp [Function.comp_def, Ne.symm hne]

/-- A message that did not exist had no delivery. -/
theorem StoreOK.filter_addressed (ok : StoreOK s) (h : s.mail.messages.find? id = none) :
    s.mail.addressed.filter (fun d => d.2.1 = id) = [] := by
  rw [List.filter_eq_nil_iff]
  intro d hd
  obtain ⟨⟨deliveryID, row⟩, hrow, rfl⟩ := List.mem_map.1 hd
  obtain ⟨message, hmessage⟩ := ok.mail.inv.sent (Table.find?_eq_some_iff_mem.2 hrow)
  simp only [decide_eq_true_eq]
  rintro rfl
  rw [h] at hmessage
  cases hmessage

/-- **One call** keeps the messages of direct conversations between their roles. -/
theorem step_direct (ok : StoreOK s) (direct : DirectOK s) (op : Op) : DirectOK (step E s op).1 := by
  have ok' : StoreOK (step E s op).1 := (step_keeps ok op).ok
  have hrooms : RoomsCase s op (step E s op).1.rooms := step_rooms op
  have hletters : LettersCase s (step E s op).1 := step_letters ok op
  generalize (step E s op).1 = s' at ok' hrooms hletters
  have hordered : ∀ {k row}, s'.rooms.directConversations.find? k = some row →
      orderedDirectRolePair k.1 k.2 = some k := by
    intro k row hk
    rcases hrooms.direct_old hk with hk | ⟨h, -⟩
    · exact direct.ordered hk
    · exact h
  -- A message that was there is in no new room.
  have hold : ∀ {k row id message}, s'.rooms.directConversations.find? k = some row →
      s.mail.messages.find? id = some message → message.conversationID = row.conversationID →
      s.mail.Corresponds k.1 k.2 id := by
    intro k row id message hk hm hc
    rcases hrooms.direct_old hk with hk | ⟨-, hnew⟩
    · exact direct.letters hk hm hc
    · exact absurd hc (ok.message_room hm hnew)
  refine ⟨hordered, fun {k row id message} hk hm hc => ?_⟩
  cases hletters with
  | same letters _ =>
    rw [letters.messages] at hm
    exact (hold hk hm hc).same letters
  | @posted new row' recipients writes _ roles pairs plain =>
    rw [Table.find?_insert? writes.messages] at hm
    split at hm
    · cases hm
      rw [pairs] at hk
      exact absurd hc.symm (plain k row hk)
    · rename_i hne
      unfold Mail.Corresponds
      rw [roles, writes.filter_addressed hne]
      exact hold hk hm hc
  | @direct new deliveryID fromRole toRole low high created row' writes _ roles pair room =>
    unfold Mail.Corresponds
    rw [Table.find?_insert? roles]
    rw [Table.find?_insert? writes.messages] at hm
    split at hm
    · rename_i heq
      cases hm
      subst heq
      have hpair : k = (low, high) := ok'.rooms.pair_unique hordered hk room hc.symm
      subst hpair
      refine ⟨fromRole, toRole, deliveryID, orderedDirectRolePair_between (k := (low, high)) pair, if_pos rfl, ?_⟩
      rw [writes.addressed, List.filter_append, ok.filter_addressed (Table.insert?_eq_some writes.messages).1]
      simp
    · rename_i hne
      rw [if_neg hne, writes.filter_addressed hne]
      exact hold hk hm hc

/-! ## Retry keys -/

theorem sendDirectMessage_checked {answer : Message × Bool}
    (h : sendDirectMessage E s input ids = .ok (s', answer)) :
    validMessageBody input.body ∧ ∃ k, orderedDirectRolePair input.fromRole input.toRole = some k := by
  unfold sendDirectMessage at h
  simp only [ok_rules] at h
  obtain ⟨-, -, -, -, -, hbody, k, hpair, -⟩ := h
  exact ⟨hbody, k, hpair⟩

/-- What a new direct message leaves behind. -/
theorem written_letter {session c : String} {rooms rooms' : Rooms} {mail : Mail} {now : Int}
    (hroom : getOrCreateDirectConversation s.rooms low high input.fromRole input.toRole now ids.conversationID =
      .ok (rooms, c))
    (hwrite : writeDirectMessage s rooms input session c now ids = .ok (rooms', mail, message)) :
    ∃ row, rooms'.directConversations.find? (low, high) = some row ∧
      mail.messages.find? ids.messageID = some message ∧ message.conversationID = row.conversationID ∧
      mail.messageFromRoles.find? ids.messageID = some input.fromRole := by
  obtain ⟨⟨created, hfound⟩, -⟩ := getOrCreateDirectConversation_found hroom
  obtain ⟨hwrites, hroles, -, hc, hpairs⟩ := writeDirectMessage_letters hwrite
  refine ⟨⟨c, created⟩, hpairs ▸ hfound, ?_, hc, ?_⟩
  · rw [Table.find?_insert? hwrites.messages, if_pos rfl]
  · rw [Table.find?_insert? hroles, if_pos rfl]

theorem DirectKeyOK.step (ok : StoreOK s) (h : DirectKeyOK E s key) (op : Op) : DirectKeyOK E (step E s op).1 key := by
  obtain ⟨k, row, message, hpair, hk, hm, hc, hrole⟩ := h.letter
  have hletters : LettersCase s (Punaro.step E s op).1 := step_letters ok op
  exact ⟨h.request, k, row, message, hpair, RoomsCase.direct_stays (step_rooms op) hk, hletters.message_stays hm, hc,
    hletters.role_stays hrole⟩

/-- **One call** keeps what the keys of direct messages stand for. -/
theorem step_directKeys (ok : StoreOK s)
    (hkeys : ∀ {k key}, s.journal.directMessageIdempotency.find? k = some key → DirectKeyOK E s key) (op : Op)
    {k : String × String} (h : (step E s op).1.journal.directMessageIdempotency.find? k = some key) :
    DirectKeyOK E (step E s op).1 key := by
  by_cases hop : Keys.directs ∈ op.keys
  · cases op with
    | sendDirectMessage input ids =>
      cases hx : sendDirectMessage E s input ids with
      | error e =>
        simp only [step, commit, hx] at h ⊢
        exact hkeys h
      | ok a =>
        obtain ⟨s', answer⟩ := a
        have hstep : (step E s (.sendDirectMessage input ids)).1 = s' := by simp only [step, commit, hx]
        have hold : ∀ {k key}, s.journal.directMessageIdempotency.find? k = some key →
            DirectKeyOK E (step E s (.sendDirectMessage input ids)).1 key := fun hk => (hkeys hk).step ok _
        rw [hstep] at h hold ⊢
        obtain ⟨hbody, -⟩ := sendDirectMessage_checked hx
        rcases sendDirectMessage_eq_ok hx with _ | @⟨low, high, _, c, _, _, _, _, _, _, hpair, hroom, -, hwrite, hkey⟩
        · exact hkeys h
        · dsimp only at h
          rw [Table.find?_insert? hkey] at h
          split at h
          · cases h
            obtain ⟨row, hrow, hm, hc, hrole⟩ := written_letter hroom hwrite
            exact ⟨⟨input.body, hbody, rfl⟩, (low, high), row, _, hpair, hrow, hm, hc, hrole⟩
          · exact hold h
    | _ => simp [Op.keys] at hop
  · rw [(step_keys op).directs hop] at h
    exact (hkeys h).step ok op

/-! ## Runs -/

variable {ops : List Op} {n : ℕ}
variable {key : DirectMessageRetryRow} {message : MessageRow} {m : Mail} {low high : String}
  {input : DirectMessageInput} {ids : DirectIDs}

theorem stateAt_direct (ops : List Op) (n : ℕ) : DirectOK (stateAt E ops n) := by
  refine stateAt_rule (P := DirectOK) (Nat.zero_le n) (fun k op _ _ _ direct => ?_) ?_
  · exact step_direct (stateAt_ok ops k) direct op
  · refine ⟨fun h => ?_, fun h => ?_⟩ <;> simp [stateAt_zero, Store.empty] at h

theorem stateAt_directKeys (ops : List Op) (n : ℕ) {k : String × String}
    (h : (stateAt E ops n).journal.directMessageIdempotency.find? k = some key) :
    DirectKeyOK E (stateAt E ops n) key := by
  induction n generalizing k key with
  | zero => simp [stateAt_zero, Store.empty] at h
  | succ n ih =>
    cases hop : ops[n]? with
    | none =>
      rw [stateAt_succ_of_none hop] at h ⊢
      exact ih h
    | some op =>
      rw [stateAt_succ hop] at h ⊢
      exact step_directKeys (stateAt_ok ops n) ih op h

/-- The message a key stands for is from the pair of any request with the same digest. -/
theorem DirectKeyOK.same_request {fromRole toRole body : String} (h : DirectKeyOK E s key)
    (hE : Function.Injective E.sha256Hex) (hpair : orderedDirectRolePair fromRole toRole = some k)
    (hbody : validMessageBody body) (hsame : key.requestHash = directMessageRequestHash E fromRole toRole body) :
    key.fromRole = fromRole ∧ key.toRole = toRole := by
  obtain ⟨body', hbody', hhash⟩ := h.request
  obtain ⟨k', -, -, hpair', -⟩ := h.letter
  have hplain : ∀ {left right body k}, orderedDirectRolePair left right = some k → validMessageBody body →
      ∀ part ∈ [left, right, body], Plain part := by
    intro left right body k hpair hbody
    obtain ⟨⟨hleft, hright, -⟩, -⟩ := orderedDirectRolePair_eq_some hpair
    simp only [List.forall_mem_cons]
    exact ⟨validBoundedText_plain (canonicalRoleHandle_validRole hleft),
      validBoundedText_plain (canonicalRoleHandle_validRole hright), validMessageBody_plain hbody, by simp⟩
  obtain ⟨hfrom, hto, -⟩ := directMessageRequestHash_inj hE (hplain hpair' hbody') (hplain hpair hbody)
    (hhash.symm.trans hsame)
  exact ⟨hfrom, hto⟩

/-- An accepted direct message is in the conversation of its pair, from the role that sends it. -/
theorem sendDirectMessage_room {message : Message} {duplicate : Bool}
    (hkeys : ∀ {k key}, s.journal.directMessageIdempotency.find? k = some key → DirectKeyOK E s key)
    (hE : duplicate → Function.Injective E.sha256Hex)
    (h : sendDirectMessage E s input ids = .ok (s', message, duplicate)) :
    ∃ k row, orderedDirectRolePair input.fromRole input.toRole = some k ∧
      s'.rooms.directConversations.find? k = some row ∧ message.conversationID = row.conversationID ∧
      message.fromRole = input.fromRole := by
  obtain ⟨hbody, k, hpair⟩ := sendDirectMessage_checked h
  rcases sendDirectMessage_eq_ok h with @⟨key, _, hkey, hsame, hfound⟩ | @⟨low, high, _, _, _, _, _, _, _, _, hpair',
    hroom, -, hwrite, -⟩
  · obtain ⟨hfrom, hto⟩ := (hkeys hkey).same_request (hE rfl) hpair hbody hsame
    obtain ⟨k', row, message, hpair', hk', hm, hc, hrole⟩ := (hkeys hkey).letter
    rw [hfrom, hto] at hpair'
    cases hm.symm.trans hfound
    refine ⟨k', row, hpair', hk', hc, ?_⟩
    simp only [messageOf, hrole, Option.getD_some]
    exact hfrom
  · obtain ⟨row, hrow, -, hc, hrole⟩ := written_letter hroom hwrite
    refine ⟨(low, high), row, hpair', hrow, hc, ?_⟩
    simp only [messageOf, hrole, Option.getD_some]

/-- What direct conversations keep to, in every state of the run. -/
structure DirectConversationsHold (E : Env) (ops : List Op) : Prop where
  /-- A pair is of two canonical roles. -/
  canonical : ∀ n k row, (stateAt E ops n).rooms.directConversations.find? k = some row →
    canonicalRoleHandle k.1 ∧ canonicalRoleHandle k.2 ∧ k.1 ≠ k.2
  /-- Two roles have one conversation, in whichever order they are named. -/
  onePerPair : ∀ n k k' row row', (stateAt E ops n).rooms.directConversations.find? k = some row →
    (stateAt E ops n).rooms.directConversations.find? k' = some row' → Between k'.1 k'.2 k.1 k.2 →
    k = k' ∧ row = row'
  onePerConversation : ∀ n k k' row row', (stateAt E ops n).rooms.directConversations.find? k = some row →
    (stateAt E ops n).rooms.directConversations.find? k' = some row' → row.conversationID = row'.conversationID →
    k = k'
  /-- The two roles with the rights to send and receive, no endpoint, no name, no claim. -/
  room : ∀ n k row, (stateAt E ops n).rooms.directConversations.find? k = some row →
    DirectRoom (stateAt E ops n).rooms row.conversationID k.1 k.2
  /-- A message is from one role, and its only delivery is to the other. -/
  letters : ∀ n k row id message, (stateAt E ops n).rooms.directConversations.find? k = some row →
    (stateAt E ops n).mail.messages.find? id = some message → message.conversationID = row.conversationID →
    ∃ fromRole toRole deliveryID delivery, Between k.1 k.2 fromRole toRole ∧
      (stateAt E ops n).mail.messageFromRoles.find? id = some fromRole ∧
      (stateAt E ops n).mail.deliveries.find? deliveryID = some delivery ∧ delivery.messageID = id ∧
      delivery.recipientEndpoint = roleRecipient toRole ∧
      ∀ other d, (stateAt E ops n).mail.deliveries.find? other = some d → d.messageID = id → other = deliveryID
  /-- A pair keeps its conversation. -/
  stays : ∀ m n k row, m ≤ n → (stateAt E ops m).rooms.directConversations.find? k = some row →
    (stateAt E ops n).rooms.directConversations.find? k = some row
  /-- An accepted direct message is in the conversation of its pair; that the message of a retry is the
  one the request asks for rests on the digest. -/
  uses : ∀ n input ids message duplicate, ops[n]? = some (.sendDirectMessage input ids) →
    replyAt E ops n = some (.message message duplicate) → (duplicate → Function.Injective E.sha256Hex) →
    ∃ k row, orderedDirectRolePair input.fromRole input.toRole = some k ∧
      (stateAt E ops (n + 1)).rooms.directConversations.find? k = some row ∧
      message.conversationID = row.conversationID ∧ message.fromRole = input.fromRole

/-- The only delivery, as a row of its table. -/
theorem Mail.Corresponds.delivery (h : m.Corresponds low high id) :
    ∃ fromRole toRole deliveryID delivery, Between low high fromRole toRole ∧
      m.messageFromRoles.find? id = some fromRole ∧ m.deliveries.find? deliveryID = some delivery ∧
      delivery.messageID = id ∧ delivery.recipientEndpoint = roleRecipient toRole ∧
      ∀ other d, m.deliveries.find? other = some d → d.messageID = id → other = deliveryID := by
  obtain ⟨fromRole, toRole, deliveryID, hbetween, hrole, honly⟩ := h
  have hmem : ∀ d, d ∈ m.addressed ∧ d.2.1 = id ↔ d = (deliveryID, id, roleRecipient toRole) := by
    intro d
    have hiff := congrArg (d ∈ ·) honly
    simpa only [List.mem_filter, decide_eq_true_eq, List.mem_singleton, eq_iff_iff] using hiff
  obtain ⟨hhere, -⟩ := (hmem _).2 rfl
  obtain ⟨⟨deliveryID', delivery⟩, hrow, heq⟩ := List.mem_map.1 hhere
  simp only [Prod.mk.injEq] at heq
  obtain ⟨rfl, hid, hrecipient⟩ := heq
  refine ⟨fromRole, toRole, deliveryID', delivery, hbetween, hrole, Table.find?_eq_some_iff_mem.2 hrow, hid,
    hrecipient, fun other d hd hother => ?_⟩
  have hother' := (hmem (other, d.messageID, d.recipientEndpoint)).1
    ⟨List.mem_map.2 ⟨(other, d), Table.find?_eq_some_iff_mem.1 hd, rfl⟩, hother⟩
  exact congrArg Prod.fst hother'

/-- **Direct conversations.** Whatever calls are made, two roles share one conversation that is theirs
alone, and every message in it is from one of them to the other. -/
theorem directConversations_hold (E : Env) (ops : List Op) : DirectConversationsHold E ops where
  canonical n k row hk := (orderedDirectRolePair_eq_some ((stateAt_direct ops n).ordered hk)).1
  onePerPair n k k' row row' hk hk' hsame := by
    have heq : k = k' := ordered_eq ((stateAt_direct ops n).ordered hk) ((stateAt_direct ops n).ordered hk') hsame
    subst heq
    exact ⟨rfl, Option.some.inj (hk.symm.trans hk')⟩
  onePerConversation n k k' row row' hk hk' hc :=
    (stateAt_ok ops n).rooms.pair_unique (stateAt_direct ops n).ordered hk hk' hc
  room n k row hk := (stateAt_ok ops n).rooms.direct hk
  letters n k row id message hk hm hc := ((stateAt_direct ops n).letters hk hm hc).delivery
  stays m n k row hmn hk := by
    refine stateAt_rule (P := fun s => s.rooms.directConversations.find? k = some row) hmn ?_ hk
    exact fun i op _ _ _ hi => RoomsCase.direct_stays (step_rooms op) hi
  uses n input ids message duplicate hop hreply hE := by
    rw [replyAt, hop, Option.map_some, Option.some.injEq] at hreply
    rw [stateAt_succ hop]
    cases hx : sendDirectMessage E (stateAt E ops n) input ids with
    | error e => simp [step, commit, hx] at hreply
    | ok a =>
      obtain ⟨s', message', duplicate'⟩ := a
      simp only [step, commit, hx, Reply.message.injEq] at hreply ⊢
      obtain ⟨rfl, rfl⟩ := hreply
      exact sendDirectMessage_room (stateAt_directKeys ops n) hE hx

end

end Punaro
