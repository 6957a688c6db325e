import Punaro.Proof.Digests
import Punaro.Proof.Letters

/-!
# Retries and sequences

A machine names each message it asks for by a key of its own. The table of keys
that appends and inbound messages share, and the one of direct messages, bind a key
to the digest of its request and to the message it made, once and for all: whatever
comes later under the key gets that message or a refusal. Messages of one
conversation are numbered from 1 without gaps, in the order they are accepted.
-/

namespace Punaro

open Outcome

/-- What a request for a message names: its conversation, its sender, its target and its text. A direct
message names no conversation; its sender and its target are roles. -/
structure MessageRequest where
  conversation : String
  sender : String
  target : String
  body : String
deriving DecidableEq

/-- The request of a call that accepts a message. -/
def Op.request : Op → Option MessageRequest
  | .appendMessage input _ => some ⟨input.conversationID, input.fromEndpoint, input.targetRole, input.body⟩
  | .appendTelegramInbound input _ => some ⟨input.conversationID, input.fromEndpoint, "", input.body⟩
  | .sendDirectMessage input _ => some ⟨"", input.fromRole, input.toRole, input.body⟩
  | _ => none

/-- The key of a call that accepts a message: its table, the machine and the machine's key. -/
def Op.messageKey : Op → Option (Keys × String × String)
  | .appendMessage input _ => some (.posts, input.senderMachineID, input.idempotencyKey)
  | .appendTelegramInbound input _ => some (.posts, input.senderMachineID, input.idempotencyKey)
  | .sendDirectMessage input _ => some (.directs, input.senderMachineID, input.idempotencyKey)
  | _ => none

/-- The digest that binds a request. -/
def MessageRequest.hash (E : Env) (r : MessageRequest) : Keys → String
  | .posts => appendHash E r.conversation r.sender r.target r.body
  | _ => directMessageRequestHash E r.sender r.target r.body

/-- What a key is bound to: the digest of its request and its message. -/
def Store.boundMessage? (s : Store) : Keys × String × String → Option (String × String)
  | (.posts, key) => (s.journal.idempotency.find? key).map fun row => (row.requestHash, row.target)
  | (.directs, key) => (s.journal.directMessageIdempotency.find? key).map fun row => (row.requestHash, row.messageID)
  | (.claims, _) => none

/-- The outcome of a call under a message key: a refusal, the message the key is bound to, or a new one. -/
inductive Accepted (E : Env) (s : Store) (key : Keys × String × String) (request : MessageRequest) :
    Store × Reply → Prop where
  | refused (e : Err) : Accepted E s key request (s, .refused e)
  | retried {id : String} {row : MessageRow} (bound : s.boundMessage? key = some (request.hash E key.1, id))
      (found : s.mail.messages.find? id = some row) :
      Accepted E s key request (s, .message (messageOf s.mail id row) true)
  | written {s' : Store} {id : String} {row : MessageRow} (free : s.boundMessage? key = none)
      (binds : s'.boundMessage? key = some (request.hash E key.1, id))
      (writes : s.mail.messages.insert? id row = some s'.mail.messages) :
      Accepted E s key request (s', .message (messageOf s'.mail id row) false)

section

variable {E : Env} {s s' : Store} {op : Op} {key : Keys × String × String} {request request' : MessageRequest}
  {recipients : List (String × String)}

/-! ## One call under a key -/

theorem postMessage_accepted (hpost : post.Faithful) (hhash : post.requestHash = request.hash E .posts)
    (h : postMessage s post ids = .ok (s', answer)) :
    Accepted E s (.posts, post.senderMachineID, post.idempotencyKey) request (s', .message answer.1 answer.2) := by
  rcases postMessage_eq_ok h with ⟨hkey, hsame, hfound⟩ | ⟨-, hwrite, hkey⟩
  · refine .retried ?_ hfound
    simp only [Store.boundMessage?, hkey, Option.map_some, hsame, hhash]
  · obtain ⟨_, hwrites, -⟩ := writePosting_letters hpost hwrite
    refine .written ?_ ?_ hwrites.messages
    · simp only [Store.boundMessage?, (Table.insert?_eq_some hkey).1, Option.map_none]
    · simp only [Store.boundMessage?, Table.find?_insert? hkey, if_pos, Option.map_some, hhash]

theorem sendDirectMessage_accepted {ids : DirectIDs} (h : sendDirectMessage E s input ids = .ok (s', answer)) :
    Accepted E s (.directs, input.senderMachineID, input.idempotencyKey)
      ⟨"", input.fromRole, input.toRole, input.body⟩ (s', .message answer.1 answer.2) := by
  rcases sendDirectMessage_eq_ok h with ⟨hkey, hsame, hfound⟩ | ⟨-, -, -, hwrite, hkey⟩
  · refine .retried ?_ hfound
    simp only [Store.boundMessage?, hkey, Option.map_some, hsame, MessageRequest.hash]
  · obtain ⟨hwrites, -⟩ := writeDirectMessage_letters hwrite
    refine .written ?_ ?_ hwrites.messages
    · simp only [Store.boundMessage?, (Table.insert?_eq_some hkey).1, Option.map_none]
    · simp only [Store.boundMessage?, Table.find?_insert? hkey, if_pos, Option.map_some, MessageRequest.hash]

theorem Accepted.commit {x : Except Err (Store × Message × Bool)}
    (h : ∀ s' answer, x = .ok (s', answer) → Accepted E s key request (s', .message answer.1 answer.2)) :
    Accepted E s key request (commit s x fun a => .message a.1 a.2) := by
  cases hx : x with
  | error e => exact .refused e
  | ok a => exact h a.1 a.2 hx

/-- **One call** under a message key has one of these outcomes. -/
theorem step_accepted (hkey : op.messageKey = some key) (hrequest : op.request = some request) :
    Accepted E s key request (step E s op) := by
  unfold step
  cases op
  case' appendMessage | appendTelegramInbound | sendDirectMessage =>
    cases hkey
    cases hrequest
    refine Accepted.commit fun s' answer h => ?_
  case appendMessage =>
    exact postMessage_accepted ⟨fun _ => rfl, fun _ => rfl, fun _ => rfl⟩ rfl (appendMessage_eq_ok h).2.2
  case appendTelegramInbound =>
    exact postMessage_accepted ⟨fun _ => rfl, fun _ => rfl, fun _ => rfl⟩ rfl (appendTelegramInbound_eq_ok h).2
  case sendDirectMessage => exact sendDirectMessage_accepted h
  all_goals cases hkey

/-- The keys bound in `s` are bound to the same in `s'`. -/
def KeysKept (s s' : Store) : Prop := ∀ key b, s.boundMessage? key = some b → s'.boundMessage? key = some b

theorem KeysKept.of_tables
    (hposts : ∀ k row, s.journal.idempotency.find? k = some row → s'.journal.idempotency.find? k = some row)
    (hdirects : ∀ k row, s.journal.directMessageIdempotency.find? k = some row →
      s'.journal.directMessageIdempotency.find? k = some row) : KeysKept s s' := by
  rintro ⟨_ | _ | _, k⟩ b h
  · obtain ⟨row, hrow, rfl⟩ := Option.map_eq_some_iff.1 h
    exact Option.map_eq_some_iff.2 ⟨row, hposts k row hrow, rfl⟩
  · obtain ⟨row, hrow, rfl⟩ := Option.map_eq_some_iff.1 h
    exact Option.map_eq_some_iff.2 ⟨row, hdirects k row hrow, rfl⟩
  · cases h

theorem postMessage_keysKept (h : postMessage s post ids = .ok (s', answer)) : KeysKept s s' := by
  rcases postMessage_eq_ok h with _ | ⟨-, -, hkey⟩
  · exact fun _ _ hb => hb
  · exact .of_tables (fun _ _ hrow => Table.find?_insert?_of_some hkey hrow) fun _ _ hrow => hrow

theorem sendDirectMessage_keysKept {ids : DirectIDs} (h : sendDirectMessage E s input ids = .ok (s', answer)) :
    KeysKept s s' := by
  rcases sendDirectMessage_eq_ok h with _ | ⟨-, -, -, -, hkey⟩
  · exact fun _ _ hb => hb
  · exact .of_tables (fun _ _ hrow => hrow) fun _ _ hrow => Table.find?_insert?_of_some hkey hrow

/-- **One call** keeps what the keys are bound to. -/
theorem step_keysKept (op : Op) : KeysKept s (step E s op).1 := by
  by_cases hop : Keys.posts ∈ op.keys ∨ Keys.directs ∈ op.keys
  · have hsame : KeysKept s s := fun _ _ hb => hb
    unfold step
    cases op with
    | appendMessage =>
      exact commit_rule hsame fun s' a h => postMessage_keysKept (appendMessage_eq_ok h).2.2
    | appendTelegramInbound =>
      exact commit_rule hsame fun s' a h => postMessage_keysKept (appendTelegramInbound_eq_ok h).2
    | sendDirectMessage => exact commit_rule hsame fun s' a h => sendDirectMessage_keysKept h
    | _ => simp [Op.keys] at hop
  · obtain ⟨hposts, hdirects⟩ := not_or.1 hop
    refine .of_tables (fun k row hrow => ?_) fun k row hrow => ?_
    · rw [(step_keys op).posts hposts]
      exact hrow
    · rw [(step_keys op).directs hdirects]
      exact hrow

/-! ## Refusals -/

/-- The request passes the checks of its texts, made before anything is read. -/
def Op.WellFormed : Op → Prop
  | .appendMessage input _ => trimSpace input.conversationID ≠ "" ∧ validMachineID input.senderMachineID ∧
    validEndpoint input.fromEndpoint ∧ (input.targetRole ≠ "" → validRole input.targetRole) ∧
    validRequestToken input.idempotencyKey ∧ input.artifactIDs = [] ∧ validMessageBody input.body
  | .appendTelegramInbound input _ => validMessageBody input.body
  | .sendDirectMessage input _ => validMachineID input.senderMachineID ∧ validRequestToken input.idempotencyKey ∧
    canonicalRoleForMachine input.fromRole input.senderMachineID ∧ canonicalRoleHandle input.toRole ∧
    input.fromRole ≠ input.toRole ∧ validMessageBody input.body
  | _ => True

/-- `ErrConflict` or `ErrForbidden`. -/
def Denied (e : Err) : Prop := e = .conflict ∨ e = .forbidden

theorem validMessageBody_size {body : String} (h : validMessageBody body) : body.utf8ByteSize ≤ maxMessageBodyBytes := by
  simp only [validMessageBody, Bool.and_eq_true, decide_eq_true_eq] at h
  exact h.1

@[simp] theorem endpointOwnership_denied (p : Presence) (endpoint machineID : String) (now : Int) :
    OnError Denied (endpointOwnership p endpoint machineID now) := by
  unfold endpointOwnership endpointOwnershipUntil
  split
  · simp [Denied]
  · split <;> simp [Denied]

theorem postMessage_denied {k : String × String} {row : RetryRow}
    (hk : (post.senderMachineID, post.idempotencyKey) = k) (hkey : s.journal.idempotency.find? k = some row)
    (hfound : s.mail.messages.find? row.target = some message) :
    OnError Denied (postMessage s post ids) := by
  unfold postMessage
  simp [hk, hkey, messageByID, hfound, Denied]

theorem appendMessage_denied {input : AppendInput} (hwell : (Op.appendMessage input ids).WellFormed)
    (hpost : OnError Denied (postMessage s (input.posting E s.rooms) ids)) :
    OnError Denied (appendMessage E s input ids) := by
  obtain ⟨hc, hmachine, hendpoint, htarget, hkey, hartifacts, hbody⟩ := hwell
  have hsize := validMessageBody_size hbody
  simpa [appendMessage, sessionCapabilities, rejectDirectConversationAppend, checkAppendTarget,
    requireCompleteTelegramClaim, hpost, hc, hmachine, hendpoint, hkey, hartifacts, hbody, hsize, Denied] using htarget

theorem appendTelegramInbound_denied {input : TelegramInboundInput}
    (hwell : (Op.appendTelegramInbound input ids).WellFormed)
    (hpost : OnError Denied (postMessage s (input.posting E s.rooms) ids)) :
    OnError Denied (appendTelegramInbound E s input ids) := by
  have hbody : validMessageBody input.body := hwell
  have hsize := validMessageBody_size hbody
  simp [appendTelegramInbound, validateTelegramInbound, requireCompleteTelegramClaim, sessionCapabilities, hpost, hbody,
    hsize, Denied]

theorem sendDirectMessage_denied {ids : DirectIDs} {row : DirectMessageRetryRow}
    (hwell : (Op.sendDirectMessage input ids).WellFormed)
    (hkey : s.journal.directMessageIdempotency.find? (input.senderMachineID, input.idempotencyKey) = some row)
    (hfound : s.mail.messages.find? row.messageID = some message) :
    OnError Denied (sendDirectMessage E s input ids) := by
  obtain ⟨hmachine, htoken, hfrom, hto, hne, hbody⟩ := hwell
  have hsize := validMessageBody_size hbody
  have hcanonical : canonicalRoleHandle input.fromRole := by
    simp only [canonicalRoleForMachine, Bool.and_eq_true] at hfrom
    exact hfrom.1.2
  have hpair : orderedDirectRolePair input.fromRole input.toRole ≠ none := by
    unfold orderedDirectRolePair
    rw [if_neg (by simp [hcanonical, hto, hne])]
    split <;> simp
  simp [sendDirectMessage, hmachine, htoken, hfrom, hto, hne, hbody, hsize, hpair, hkey, messageByID, hfound, Denied]

/-- A well-formed request under a bound key is denied if it is refused. -/
theorem step_denied {hash id : String} {e : Err} (hkey : op.messageKey = some key) (hwell : op.WellFormed)
    (hbound : s.boundMessage? key = some (hash, id)) (hfound : s.mail.messages.find? id = some message)
    (h : (step E s op).2 = .refused e) : Denied e := by
  cases op
  case' appendMessage | appendTelegramInbound | sendDirectMessage =>
    cases hkey
    simp only [step] at h
    obtain ⟨row, hrow, heq⟩ := Option.map_eq_some_iff.1 hbound
    cases heq
  case appendMessage =>
    exact appendMessage_denied hwell (postMessage_denied rfl hrow hfound) e (commit_refused (by simp) h)
  case appendTelegramInbound =>
    exact appendTelegramInbound_denied hwell (postMessage_denied rfl hrow hfound) e (commit_refused (by simp) h)
  case sendDirectMessage => exact sendDirectMessage_denied hwell hrow hfound e (commit_refused (by simp) h)
  all_goals cases hkey

/-! ## What a digest tells apart -/

/-- Every conversation has a plain identifier. -/
def PlainRooms (r : Rooms) : Prop := ∀ c, (r.conversations.find? c).isSome → Plain c

/-- The texts of the request have no NUL character. -/
structure MessageRequest.Plain (r : MessageRequest) : Prop where
  conversation : Punaro.Plain r.conversation
  sender : Punaro.Plain r.sender
  target : Punaro.Plain r.target
  body : Punaro.Plain r.body

theorem plain_empty : Plain "" := by
  unfold Plain
  decide

/-- Only a new conversation has a new identifier. -/
theorem RoomsCase.room_old {r' : Rooms} (h : RoomsCase s op r') {c : String} (hc : (r'.conversations.find? c).isSome) :
    (s.rooms.conversations.find? c).isSome ∨ op.newRoom? = some c := by
  have hallocate : ∀ {conversations conversations' : Table String ConversationRow} {c' : String} {n : ℕ},
      allocateSequence conversations c' = .ok (conversations', n) → (conversations'.find? c).isSome →
      (conversations.find? c).isSome := by
    intro conversations conversations' c' n h hc
    obtain ⟨_, -, -, rfl⟩ := allocateSequence_eq_ok h
    rw [Table.find?_updateAt] at hc
    split at hc <;> simpa using hc
  cases h with
  | sequence _ allocates => exact .inl (hallocate allocates hc)
  | created fresh _ insert joins =>
    rw [foldlM_addMember_conversations joins, Table.find?_insert? insert] at hc
    split at hc
    · rename_i heq
      exact .inr (heq ▸ fresh)
    · exact .inl hc
  | renamed _ _ | adopted _ _ _ =>
    unfold Rooms.rename at hc
    rw [Table.find?_updateAt] at hc
    split at hc
    · exact .inl (by simpa [Rooms.dropRole] using hc)
    · exact .inl hc
  | direct _ fresh _ room allocates =>
    have hc := hallocate allocates hc
    rcases getOrCreateDirectConversation_eq_ok room with ⟨rfl, -⟩ | ⟨-, _, _, _, _, hinsert, -, -, -, rfl⟩
    · exact .inl hc
    · dsimp only at hc
      rw [Table.find?_insert? hinsert] at hc
      split at hc
      · rename_i heq
        exact .inr (heq ▸ fresh)
      · exact .inl hc
  | same | wrote _ _ | dropped _ _ | claimed _ _ _ _ | completed _ _ _ _ _ _ => exact .inl hc

/-- Who may send is a member of the conversation, which therefore exists. -/
theorem sessionCapabilities_room {p : Presence} {r : Rooms} {c machineID endpoint : String} {now : Int}
    {capabilities : Capability} (ok : RoomsOK r)
    (h : sessionCapabilities p r c machineID endpoint now = .ok capabilities)
    (hsend : Capability.has capabilities capSend) : (r.conversations.find? c).isSome := by
  by_contra hnone
  unfold sessionCapabilities at h
  simp only [ok_rules] at h
  obtain ⟨generation, -, rfl⟩ := h
  refine absurd hsend ?_
  rw [Bool.not_eq_true]
  refine has_foldl_or ?_ fun m hm => ?_
  · cases hm : r.memberships.find? (c, endpoint) with
    | none => decide
    | some cap => exact absurd (ok.member hm).2 hnone
  · rw [List.mem_filter, Bool.and_eq_true, beq_iff_eq] at hm
    obtain ⟨hmem, rfl, -⟩ := hm
    exact absurd (ok.roleMember (Table.find?_eq_some_iff_mem.2 hmem)).2 hnone

theorem appendMessage_plain {input : AppendInput} (ok : RoomsOK s.rooms) (hrooms : PlainRooms s.rooms)
    (h : appendMessage E s input ids = .ok (s', answer)) :
    MessageRequest.Plain ⟨input.conversationID, input.fromEndpoint, input.targetRole, input.body⟩ := by
  unfold appendMessage at h
  simp only [ok_rules] at h
  obtain ⟨-, ⟨-, -, hendpoint, htarget, -⟩, -, -, -, hbody, capabilities, hcap, -, hsend, -⟩ := h
  refine ⟨hrooms _ (sessionCapabilities_room ok hcap hsend), validBoundedText_plain hendpoint, ?_,
    validMessageBody_plain hbody⟩
  by_cases hempty : input.targetRole = ""
  · exact hempty ▸ plain_empty
  · exact validBoundedText_plain (htarget hempty)

theorem appendTelegramInbound_plain {input : TelegramInboundInput} (ok : RoomsOK s.rooms)
    (hrooms : PlainRooms s.rooms) (h : appendTelegramInbound E s input ids = .ok (s', answer)) :
    MessageRequest.Plain ⟨input.conversationID, input.fromEndpoint, "", input.body⟩ := by
  obtain ⟨hfrom, -⟩ := appendTelegramInbound_eq_ok h
  unfold appendTelegramInbound validateTelegramInbound at h
  simp only [ok_rules] at h
  obtain ⟨-, ⟨-, -, -, -, -, -, -, -, -, hbody, -⟩, -, -, capabilities, hcap, -, hsend, -⟩ := h
  have hgateway : Plain telegramGatewayEndpoint := validBoundedText_plain (by decide : validEndpoint _)
  rw [← hfrom] at hgateway
  exact ⟨hrooms _ (sessionCapabilities_room ok hcap hsend), hgateway, plain_empty, validMessageBody_plain hbody⟩

theorem sendDirectMessage_plain {ids : DirectIDs} (h : sendDirectMessage E s input ids = .ok (s', answer)) :
    MessageRequest.Plain ⟨"", input.fromRole, input.toRole, input.body⟩ := by
  unfold sendDirectMessage at h
  simp only [ok_rules] at h
  obtain ⟨-, -, -, -, -, hbody, ⟨low, high⟩, hpair, -⟩ := h
  obtain ⟨⟨hfrom, hto, -⟩, -⟩ := orderedDirectRolePair_eq_some hpair
  exact ⟨plain_empty, validBoundedText_plain (canonicalRoleHandle_validRole hfrom),
    validBoundedText_plain (canonicalRoleHandle_validRole hto), validMessageBody_plain hbody⟩

/-- An accepted request is plain. -/
theorem step_plain {message : Message} {duplicate : Bool} (ok : RoomsOK s.rooms) (hrooms : PlainRooms s.rooms)
    (hrequest : op.request = some request) (h : (step E s op).2 = .message message duplicate) : request.Plain := by
  cases op with
  | appendMessage input ids =>
    cases hrequest
    cases hx : appendMessage E s input ids with
    | error e => simp [step, commit, hx] at h
    | ok a => exact appendMessage_plain ok hrooms hx
  | appendTelegramInbound input ids =>
    cases hrequest
    cases hx : appendTelegramInbound E s input ids with
    | error e => simp [step, commit, hx] at h
    | ok a => exact appendTelegramInbound_plain ok hrooms hx
  | sendDirectMessage input ids =>
    cases hrequest
    cases hx : sendDirectMessage E s input ids with
    | error e => simp [step, commit, hx] at h
    | ok a => exact sendDirectMessage_plain hx
  | _ => cases hrequest

/-- A direct message names no conversation. -/
theorem request_conversation (hkey : op.messageKey = some key) (hrequest : op.request = some request) :
    key.1 = .posts ∨ key.1 = .directs ∧ request.conversation = "" := by
  cases op with
  | appendMessage input ids | appendTelegramInbound input ids =>
    cases hkey
    exact .inl rfl
  | sendDirectMessage =>
    cases hkey
    cases hrequest
    exact .inr ⟨rfl, rfl⟩
  | _ => cases hkey

/-- Plain requests under one key with one digest are the same. -/
theorem MessageRequest.hash_inj {op' : Op} (hE : Function.Injective E.sha256Hex) (hkey : op.messageKey = some key)
    (hrequest : op.request = some request) (hkey' : op'.messageKey = some key)
    (hrequest' : op'.request = some request') (hplain : request.Plain) (hplain' : request'.Plain)
    (h : request.hash E key.1 = request'.hash E key.1) : request = request' := by
  obtain ⟨conversation, sender, target, body⟩ := request
  obtain ⟨conversation', sender', target', body'⟩ := request'
  obtain ⟨hc, hs, ht, hb⟩ := hplain
  obtain ⟨hc', hs', ht', hb'⟩ := hplain'
  dsimp only at hc hs ht hb hc' hs' ht' hb'
  rcases request_conversation hkey hrequest with hposts | ⟨hdirects, hempty⟩
  · rw [hposts] at h
    obtain ⟨rfl, rfl, rfl, rfl⟩ := appendHash_inj hE (by simp [hc, hs, ht, hb]) (by simp [hc', hs', ht', hb']) h
    rfl
  · rcases request_conversation hkey' hrequest' with hposts | ⟨-, hempty'⟩
    · rw [hdirects] at hposts
      cases hposts
    · dsimp only at hempty hempty'
      rw [hdirects] at h
      obtain ⟨rfl, rfl, rfl⟩ := directMessageRequestHash_inj hE (by simp [hs, ht, hb]) (by simp [hs', ht', hb']) h
      rw [hempty, hempty']

/-! ## Sequences -/

/-- The sequences of the messages of a conversation, in the order of their rows. -/
def Mail.sequences (m : Mail) (c : String) : List ℕ :=
  (m.messages.rows.filter fun message => message.2.conversationID = c).map fun message => message.2.sequence

/-- The messages of every conversation are numbered from 1 to its last sequence. -/
def Numbered (s : Store) : Prop :=
  ∀ c, s.mail.sequences c = List.range' 1 (lastSequence s.rooms.conversations c)

theorem Writes.sequences {m m' : Mail} {id : String} (h : Writes id row recipients m m') (c : String) :
    m'.sequences c = m.sequences c ++ if row.conversationID = c then [row.sequence] else [] := by
  unfold Mail.sequences
  rw [(Table.insert?_eq_some h.messages).2, List.filter_append, List.map_append]
  by_cases hc : row.conversationID = c <;> simp [hc]

theorem Numbered.write {id : String} (h : Numbered s) (writes : Writes id row recipients s.mail s'.mail)
    (takes : Takes row s.rooms.conversations s'.rooms.conversations) : Numbered s' := by
  intro c
  rw [writes.sequences, takes.last, h c]
  by_cases hc : row.conversationID = c
  · rw [if_pos hc, if_pos hc.symm, takes.next, hc, List.range'_1_concat, Nat.add_comm 1]
  · rw [if_neg hc, if_neg (Ne.symm hc), List.append_nil]

/-- **One call** keeps the messages numbered. -/
theorem LettersCase.numbered (h : LettersCase s s') (hs : Numbered s) : Numbered s' := by
  cases h with
  | same letters sequences =>
    intro c
    rw [Mail.sequences, letters.messages, sequences c]
    exact hs c
  | posted writes takes _ _ _ | direct writes takes _ _ _ => exact hs.write writes takes

/-! ## Runs -/

variable {ops : List Op} {i j : ℕ} {id : String}
variable {ids : FreshIDs} {answer : Message × Bool} {row message : MessageRow} {input : DirectMessageInput}
  {post : Posting}

/-- The identifiers drawn for new conversations are plain, as those of `uuid.NewString` are. -/
def PlainIDs (ops : List Op) : Prop := ∀ op ∈ ops, ∀ id, op.newRoom? = some id → Plain id

theorem stateAt_plainRooms (h : PlainIDs ops) (n : ℕ) : PlainRooms (stateAt E ops n).rooms := by
  refine stateAt_rule (P := fun s => PlainRooms s.rooms) (Nat.zero_le n) (fun k op _ _ hop hrooms c hc => ?_) ?_
  · rcases RoomsCase.room_old (step_rooms op) hc with hc | hnew
    · exact hrooms c hc
    · exact h op (List.mem_of_getElem? hop) c hnew
  · intro c hc
    simp [stateAt_zero, Store.empty] at hc

theorem stateAt_numbered (ops : List Op) (n : ℕ) : Numbered (stateAt E ops n) := by
  refine stateAt_rule (P := Numbered) (Nat.zero_le n) (fun k op _ _ _ hs => ?_) ?_
  · exact (step_letters (stateAt_ok ops k) op).numbered hs
  · intro c
    have hlast : lastSequence Store.empty.rooms.conversations c = 0 := by simp [Store.empty, lastSequence]
    rw [stateAt_zero, hlast]
    rfl

theorem stateAt_bound {b : String × String} (hij : i ≤ j) (h : (stateAt E ops i).boundMessage? key = some b) :
    (stateAt E ops j).boundMessage? key = some b :=
  stateAt_rule (P := fun s => s.boundMessage? key = some b) hij (fun _ op _ _ _ hs => step_keysKept op key b hs) h

theorem stateAt_message (hij : i ≤ j) (h : (stateAt E ops i).mail.messages.find? id = some row) :
    (stateAt E ops j).mail.messages.find? id = some row :=
  stateAt_rule (P := fun s => s.mail.messages.find? id = some row) hij
    (fun k op _ _ _ hs => (step_letters (stateAt_ok ops k) op).message_stays hs) h

/-- Call number `n` creates the message `id`, under the key and for the request. -/
structure CreatesAt (E : Env) (ops : List Op) (n : ℕ) (key : Keys × String × String) (request : MessageRequest)
    (id : String) : Prop where
  call : ∃ op, ops[n]? = some op ∧ op.messageKey = some key ∧ op.request = some request
  new : (stateAt E ops n).mail.messages.find? id = none
  made : (stateAt E ops (n + 1)).mail.messages.find? id ≠ none

/-- What follows once a message has been created. -/
structure Created (E : Env) (ops : List Op) (n : ℕ) (key : Keys × String × String) (request : MessageRequest)
    (id : String) (row : MessageRow) : Prop where
  free : (stateAt E ops n).boundMessage? key = none
  binds : (stateAt E ops (n + 1)).boundMessage? key = some (request.hash E key.1, id)
  found : (stateAt E ops (n + 1)).mail.messages.find? id = some row
  only : ∀ id', (stateAt E ops n).mail.messages.find? id' = none →
    (stateAt E ops (n + 1)).mail.messages.find? id' ≠ none → id' = id
  reply : replyAt E ops n = some (.message (messageOf (stateAt E ops (n + 1)).mail id row) false)

theorem CreatesAt.created (h : CreatesAt E ops i key request id) : ∃ row, Created E ops i key request id row := by
  obtain ⟨⟨op, hop, hkey, hrequest⟩, hnew, hmade⟩ := h
  have haccepted : Accepted E (stateAt E ops i) key request (step E (stateAt E ops i) op) := step_accepted hkey hrequest
  have hreply : replyAt E ops i = some (step E (stateAt E ops i) op).2 := by rw [replyAt, hop, Option.map_some]
  rw [stateAt_succ hop] at hmade
  generalize hx : step E (stateAt E ops i) op = x at *
  cases haccepted with
  | refused e | retried bound found => exact absurd hnew hmade
  | @written s' id' row free binds writes =>
    have honly : ∀ id₁, (stateAt E ops i).mail.messages.find? id₁ = none → s'.mail.messages.find? id₁ ≠ none →
        id₁ = id' := by
      intro id₁ hnone hsome
      rw [Table.find?_insert? writes] at hsome
      by_contra hne
      rw [if_neg hne] at hsome
      exact hsome hnone
    have hstate : stateAt E ops (i + 1) = s' := by rw [stateAt_succ hop, hx]
    obtain rfl := honly id hnew hmade
    refine ⟨row, free, ?_, ?_, ?_, ?_⟩ <;> rw [hstate]
    · exact binds
    · rw [Table.find?_insert? writes, if_pos rfl]
    · exact honly
    · exact hreply

/-- What retries keep to, in every run. `Scope` says of which requests the kind of refusal is promised. -/
structure RetriesHold (E : Env) (ops : List Op) (Scope : Op → Prop) : Prop where
  /-- A key makes one message. -/
  once : ∀ i j key request request' id id', CreatesAt E ops i key request id → CreatesAt E ops j key request' id' →
    i = j ∧ id = id'
  /-- A retry that is accepted answers with the message and changes nothing. -/
  accepted : ∀ i j key request id op message duplicate, CreatesAt E ops i key request id → i < j →
    ops[j]? = some op → op.messageKey = some key → replyAt E ops j = some (.message message duplicate) →
    duplicate = true ∧ stateAt E ops (j + 1) = stateAt E ops j ∧
      ∃ first, replyAt E ops i = some (.message first false) ∧ first.id = id ∧ message.id = id ∧
        message.sequence = first.sequence
  /-- A request that differs is refused and changes nothing. Requests are told apart by their digests, so
  this rests on the digest having no collisions. -/
  differs : Function.Injective E.sha256Hex → PlainIDs ops → ∀ i j key request request' id op,
    CreatesAt E ops i key request id → i < j → ops[j]? = some op → op.messageKey = some key →
    op.request = some request' → request' ≠ request →
    stateAt E ops (j + 1) = stateAt E ops j ∧ ∃ e, replyAt E ops j = some (.refused e) ∧ (Scope op → Denied e)
  /-- Messages are kept in the order they are accepted, -/
  appends : ∀ n, (stateAt E ops (n + 1)).mail.messages = (stateAt E ops n).mail.messages ∨
    ∃ id row, (stateAt E ops (n + 1)).mail.messages.rows = (stateAt E ops n).mail.messages.rows ++ [(id, row)]
  /-- and in that order those of one conversation are numbered from 1 to its last sequence. -/
  sequences : ∀ n c row, (stateAt E ops n).rooms.conversations.find? c = some row →
    (stateAt E ops n).mail.sequences c = List.range' 1 row.nextSequence

/-- The key of a created message is bound from then on. -/
theorem Created.bound (h : Created E ops i key request id row) (hij : i < j) :
    (stateAt E ops j).boundMessage? key = some (request.hash E key.1, id) :=
  stateAt_bound hij h.binds

/-- A later call under the key of a created message is refused or answers with that message, and changes
nothing. -/
theorem Created.later (h : Created E ops i key request id row) (hij : i < j) (hop : ops[j]? = some op)
    (hkey : op.messageKey = some key) (hrequest : op.request = some request') :
    stateAt E ops (j + 1) = stateAt E ops j ∧
      ((∃ e, replyAt E ops j = some (.refused e)) ∨
        replyAt E ops j = some (.message (messageOf (stateAt E ops j).mail id row) true) ∧
          request.hash E key.1 = request'.hash E key.1) := by
  have haccepted : Accepted E (stateAt E ops j) key request' (step E (stateAt E ops j) op) := step_accepted hkey hrequest
  have hreply : replyAt E ops j = some (step E (stateAt E ops j) op).2 := by rw [replyAt, hop, Option.map_some]
  have hbound := h.bound hij
  rw [stateAt_succ hop]
  generalize step E (stateAt E ops j) op = x at *
  cases haccepted with
  | refused e => exact ⟨rfl, .inl ⟨e, hreply⟩⟩
  | @retried id' row' bound found =>
    obtain ⟨hhash, rfl⟩ : request.hash E key.1 = request'.hash E key.1 ∧ id = id' := by
      simpa only [Option.some.injEq, Prod.mk.injEq] using hbound.symm.trans bound
    obtain rfl : row' = row := Option.some.inj (found.symm.trans (stateAt_message hij h.found))
    exact ⟨rfl, .inr ⟨hreply, hhash⟩⟩
  | written free =>
    rw [hbound] at free
    cases free

theorem messageKey_request (hkey : op.messageKey = some key) : ∃ request, op.request = some request := by
  cases op with
  | appendMessage input ids | appendTelegramInbound input ids | sendDirectMessage input ids => exact ⟨_, rfl⟩
  | _ => cases hkey

end

/-- A message, and under its key a request for a text the relay does not carry. -/
def unportableRun : List Op :=
  [.advertiseEndpoints "desk" ["desk/alice"] 0 60000000000,
    .createConversation "desk/alice" [⟨"desk/alice", "", "", 15⟩] 0 "room",
    .appendMessage ⟨"room", "desk", "desk/alice", "", "hello", [], "key", 0⟩ ⟨"message", fun _ => "delivery"⟩,
    .appendMessage ⟨"room", "desk", "desk/alice", "", "\x00", [], "key", 0⟩ ⟨"other", fun _ => "delivery"⟩]

end Punaro
