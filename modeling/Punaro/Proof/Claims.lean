import Punaro.Proof.RoomSteps

/-!
# Telegram claims

Four tables say that a room is claimed: the claim itself, the participant, the
claim event and the gateway's membership. `ClaimOK` ties them together for one
conversation; every call keeps it, because nobody but the completion of a claim may
write the gateway's membership, and because an unnamed room with the gateway in it,
which an adoption asks for, does not exist.
-/

namespace Punaro

open Outcome

/-- The conversation has a name. -/
def Rooms.named (r : Rooms) (c : String) : Prop :=
  ∃ row, r.conversations.find? c = some row ∧ row.displayName.getD "" ≠ ""

/-- The conversation has a complete claim. -/
def Rooms.completed (r : Rooms) (c : String) : Bool :=
  (r.telegramClaims.find? c).any fun claim => claim.status == .complete

/-- The claim events of the conversation. -/
def Rooms.claimEvents (r : Rooms) (c : String) : List (String × TelegramClaimEventRow) :=
  r.telegramClaimEvents.rows.filter fun event => event.2.conversationID == c

/-- The tables of the conversation agree on whether its claim is complete. -/
structure ClaimOK (r : Rooms) (c : String) : Prop where
  named : (r.telegramClaims.find? c).isSome → r.named c
  participant : (r.telegramParticipants.find? c).isSome = r.completed c
  events : (r.claimEvents c).length = if r.completed c then 1 else 0
  gateway : r.memberships.find? (c, telegramGatewayEndpoint) =
    if r.completed c then some telegramGatewayCapabilities else none

section

variable {E : Env} {s s' : Store} {op : Op} {r r' : Rooms} {c c' id creator : String}
  {conversations : Table String ConversationRow} {row : ConversationRow}

/-! ## Names stay -/

theorem Rooms.named.insert (h : r.named c) (hinsert : r.conversations.insert? id row = some conversations)
    (hr' : r'.conversations = conversations) : r'.named c := by
  obtain ⟨row', hrow', hname⟩ := h
  exact ⟨row', hr' ▸ Table.find?_insert?_of_some hinsert hrow', hname⟩

theorem Rooms.named.updateAt {f : ConversationRow → ConversationRow} (h : r.named c)
    (hf : ∀ row, row.displayName.getD "" ≠ "" → (f row).displayName.getD "" ≠ "") :
    Rooms.named { r with conversations := r.conversations.updateAt c' f } c := by
  obtain ⟨row, hrow, hname⟩ := h
  by_cases hc : c = c'
  · refine ⟨f row, ?_, hf row hname⟩
    simp only [Table.find?_updateAt, if_pos hc, hrow, Option.map_some]
  · exact ⟨row, by simp only [Table.find?_updateAt, if_neg hc, hrow], hname⟩

theorem Rooms.named.allocate {n : ℕ} (h : r.named c)
    (halloc : allocateSequence r.conversations c' = .ok (conversations, n)) :
    Rooms.named { r with conversations } c := by
  obtain ⟨row', -, -, rfl⟩ := allocateSequence_eq_ok halloc
  exact h.updateAt fun _ hname => hname

/-! ## What leaves claims alone -/

/-- The tables of claims are the same, so is the gateway's membership, and no name is lost. -/
structure SameClaims (r r' : Rooms) : Prop where
  claims : r'.telegramClaims = r.telegramClaims
  participants : r'.telegramParticipants = r.telegramParticipants
  events : r'.telegramClaimEvents = r.telegramClaimEvents
  gateway : ∀ c, r'.memberships.find? (c, telegramGatewayEndpoint) =
    r.memberships.find? (c, telegramGatewayEndpoint)
  names : ∀ c, r.named c → r'.named c

theorem SameClaims.claimOK (h : SameClaims r r') (hc : ClaimOK r c) : ClaimOK r' c := by
  obtain ⟨hnamed, hparticipant, hevents, hgateway⟩ := hc
  have hcompleted : r'.completed c = r.completed c := by rw [Rooms.completed, Rooms.completed, h.claims]
  refine ⟨fun hclaim => h.names c (hnamed (h.claims ▸ hclaim)), ?_, ?_, ?_⟩
  · rw [h.participants, hcompleted, hparticipant]
  · rw [Rooms.claimEvents, h.events, hcompleted]
    exact hevents
  · rw [h.gateway, hcompleted, hgateway]

theorem checkMember_unreserved {seen seen' : List String × List String × Bool} {member : Member}
    (h : checkMember creator seen member = .ok seen') : member.endpoint ≠ telegramGatewayEndpoint := by
  unfold checkMember at h
  simp only [ok_rules] at h
  obtain ⟨-, -, h⟩ := h
  split at h
  · simp only [ok_rules] at h
    obtain ⟨-, hvalid, -⟩ := h
    intro heq
    simp [reservedRelayMember, heq] at hvalid
  · split at h
    · rename_i hrole
      rw [hrole.1]
      decide
    · cases h

theorem SameClaims.addMember {member : Member} {r'' : Rooms} (h : SameClaims r r')
    (hm : member.endpoint ≠ telegramGatewayEndpoint) (ha : addMember id r' member = .ok r'') : SameClaims r r'' := by
  unfold Punaro.addMember at ha
  split at ha
  · simp only [ok_rules] at ha
    obtain ⟨t, ht, rfl⟩ := ha
    refine { h with gateway := fun c => ?_ }
    rw [Table.find?_insert? ht, if_neg (by simp [Ne.symm hm])]
    exact h.gateway c
  · simp only [ok_rules] at ha
    obtain ⟨t, ht, rfl⟩ := ha
    exact { h with }

/-- Members of a new room are never the gateway. -/
theorem SameClaims.addMembers {members : List Member} {seen seen' : List String × List String × Bool} {r'' : Rooms}
    (h : SameClaims r r') (hcheck : members.foldlM (checkMember creator) seen = .ok seen')
    (hjoin : members.foldlM (Punaro.addMember id) r' = .ok r'') : SameClaims r r'' := by
  have hmembers : ∀ member ∈ members, member.endpoint ≠ telegramGatewayEndpoint := by
    intro member hm
    obtain ⟨_, _, hone⟩ := foldlM_mem hcheck member hm
    exact checkMember_unreserved hone
  obtain ⟨-, hsame⟩ := foldlM_rule
    (fun l r' => (∀ member ∈ l, member.endpoint ≠ telegramGatewayEndpoint) ∧ SameClaims r r')
    (fun member l r₁ r₂ ⟨hl, hr⟩ hadd => ⟨fun m hm => hl m (List.mem_cons_of_mem _ hm),
      hr.addMember (hl member List.mem_cons_self) hadd⟩) ⟨hmembers, h⟩ hjoin
  exact hsame

theorem SameClaims.insert (hinsert : r.conversations.insert? id row = some conversations)
    (hr' : r'.conversations = conversations) (claims : r'.telegramClaims = r.telegramClaims)
    (participants : r'.telegramParticipants = r.telegramParticipants)
    (events : r'.telegramClaimEvents = r.telegramClaimEvents) (members : r'.memberships = r.memberships) :
    SameClaims r r' :=
  ⟨claims, participants, events, fun _ => by rw [members], fun _ hn => hn.insert hinsert hr'⟩

theorem SameClaims.allocate {n : ℕ} (h : SameClaims r r')
    (halloc : allocateSequence r'.conversations c' = .ok (conversations, n)) :
    SameClaims r { r' with conversations } :=
  { h with names := fun c hn => (h.names c hn).allocate halloc }

theorem SameClaims.refl (r : Rooms) : SameClaims r r := ⟨rfl, rfl, rfl, fun _ => rfl, fun _ h => h⟩

theorem SameClaims.setMember {t : Table (String × String) Capability} {endpoint : String}
    (hne : ¬ reservedRelayMember endpoint) (ht : ∀ k, k ≠ (c, endpoint) → t.find? k = r.memberships.find? k) :
    SameClaims r { r with memberships := t } := by
  refine { SameClaims.refl r with gateway := fun c' => ht _ ?_ }
  intro heq
  cases heq
  exact hne (by decide)

/-! ## Claiming and completing -/

/-- A first claim is pending. -/
theorem ClaimOK.claim {claim : TelegramClaimRow} {t : Table String TelegramClaimRow} (hc : ClaimOK r c)
    (hnamed : r.named c') (hpending : claim.status = .pending) (ht : r.telegramClaims.insert? c' claim = some t) :
    ClaimOK { r with telegramClaims := t } c := by
  obtain ⟨hnames, hparticipant, hevents, hgateway⟩ := hc
  have hcompleted : Rooms.completed { r with telegramClaims := t } c = r.completed c := by
    unfold Rooms.completed
    rw [Table.find?_insert? ht]
    split
    · rename_i heq
      rw [heq, (Table.insert?_eq_some ht).1]
      simp [hpending]
    · rfl
  refine ⟨fun hclaim => ?_, ?_, ?_, ?_⟩
  · by_cases heq : c = c'
    · exact heq ▸ hnamed
    · rw [Table.find?_insert? ht, if_neg heq] at hclaim
      exact hnames hclaim
  · rw [hcompleted]
    exact hparticipant
  · rw [hcompleted]
    exact hevents
  · rw [hcompleted]
    exact hgateway

/-- A completed claim has its participant, its event and its member. -/
theorem ClaimOK.complete {claim : TelegramClaimRow} {at' : Int} {event : TelegramClaimEventRow}
    {memberships : Table (String × String) Capability} {participants : Table String Int}
    {events : Table String TelegramClaimEventRow} (hc : ClaimOK r c) (found : r.telegramClaims.find? c' = some claim)
    (pending : claim.status ≠ .complete)
    (joins : Wrote r c' telegramGatewayEndpoint telegramGatewayCapabilities memberships)
    (participant : r.telegramParticipants.insert? c' at' = some participants)
    (records : r.telegramClaimEvents.insert? id event = some events) (room : event.conversationID = c') :
    ClaimOK { r with
      memberships, telegramParticipants := participants, telegramClaimEvents := events
      telegramClaims := r.telegramClaims.updateAt c' fun row =>
        { row with status := .complete, completedAt := some at' } } c := by
  obtain ⟨hnames, hparticipant, hevents, hgateway⟩ := hc
  have hrows := (Table.insert?_eq_some records).2
  by_cases heq : c = c'
  · subst heq
    have hbefore : r.completed c = false := by simp [Rooms.completed, found, pending]
    rw [hbefore] at hevents
    refine ⟨fun _ => hnames (by simp [found]), ?_, ?_, ?_⟩
    · simp [Rooms.completed, Table.find?_insert? participant, found]
    · simp only [Rooms.completed, Rooms.claimEvents, Table.find?_updateAt, found, hrows, List.filter_append,
        List.length_append, Option.map_some, Option.any_some, if_true, beq_self_eq_true]
      have hnone : (r.claimEvents c).length = 0 := hevents
      rw [show (r.telegramClaimEvents.rows.filter _).length = 0 from hnone]
      simp [room]
    · simp [Rooms.completed, joins (c, telegramGatewayEndpoint), found]
  · have hcompleted : (r.telegramClaims.updateAt c' fun row : TelegramClaimRow =>
        { row with status := .complete, completedAt := some at' }).find? c = r.telegramClaims.find? c := by
      rw [Table.find?_updateAt, if_neg heq]
    refine ⟨fun hclaim => hnames (hcompleted ▸ hclaim), ?_, ?_, ?_⟩
    · rw [Rooms.completed, hcompleted, Table.find?_insert? participant, if_neg heq]
      exact hparticipant
    · have hother : event.conversationID ≠ c := fun h => heq (h.symm.trans room)
      have hlist : ∀ r' : Rooms, r'.telegramClaimEvents = events → r'.claimEvents c = r.claimEvents c := by
        intro r' hr'
        simp [Rooms.claimEvents, hr', hrows, hother]
      rw [hlist _ rfl, Rooms.completed, hcompleted]
      exact hevents
    · rw [Rooms.completed, hcompleted, joins, if_neg (by simp [heq])]
      exact hgateway

/-- An unnamed room does not have the gateway in it. -/
theorem ClaimOK.not_adopted (hc : ClaimOK r c) (room : r.conversations.find? c = some row)
    (unnamed : row.displayName.getD "" = "") (gateway : (r.memberships.find? (c, telegramGatewayEndpoint)).isSome) :
    False := by
  rw [hc.gateway] at gateway
  split at gateway
  · rename_i hcompleted
    have hclaim : (r.telegramClaims.find? c).isSome := by
      obtain ⟨claim, hclaim, -⟩ := Option.any_eq_true _ _ |>.1 hcompleted
      simp [hclaim]
    obtain ⟨row', hrow', hname⟩ := hc.named hclaim
    cases room.symm.trans hrow'
    exact hname unnamed
  · cases gateway

/-- **One call** keeps the tables of claims in agreement. -/
theorem RoomsCase.claimOK (h : RoomsCase s op r') (hc : ∀ c, ClaimOK s.rooms c) (c : String) : ClaimOK r' c := by
  cases h with
  | same => exact hc c
  | sequence posts allocates => exact ((SameClaims.refl _).allocate allocates).claimOK (hc c)
  | created fresh checked insert joins =>
    have hnew : SameClaims s.rooms { s.rooms with conversations := _ } := .insert insert rfl rfl rfl rfl rfl
    exact (hnew.addMembers checked joins).claimOK (hc c)
  | @wrote c' endpoint capabilities unreserved guard =>
    refine SameClaims.claimOK (.setMember (c := c') unreserved fun k hk => ?_) (hc c)
    rw [Table.find?_put, if_neg hk]
  | @dropped c' endpoint unreserved guard =>
    refine SameClaims.claimOK (.setMember (c := c') unreserved fun k hk => ?_) (hc c)
    ext cap
    rw [Table.find?_deleteWhere_eq_some]
    simp [hk]
  | @renamed c' displayName row room named =>
    have hnames : ∀ c, s.rooms.named c → (s.rooms.rename c' displayName).named c :=
      fun c hn => hn.updateAt fun _ _ => by simpa using named
    have hsame : SameClaims s.rooms (s.rooms.rename c' displayName) := ⟨rfl, rfl, rfl, fun _ => rfl, hnames⟩
    exact hsame.claimOK (hc c)
  | claimed room named pending insert => exact (hc c).claim ⟨_, room, named⟩ pending insert
  | completed found pending joins participant records event_room =>
    exact (hc c).complete found pending joins participant records event_room
  | adopted room unnamed gateway => exact ((hc _).not_adopted room unnamed gateway).elim
  | @direct low high fromRole toRole id c' now rooms conversations n directs fresh pair room allocates =>
    refine SameClaims.claimOK (.allocate ?_ allocates) (hc c)
    rcases getOrCreateDirectConversation_eq_ok room with ⟨rfl, -⟩ | ⟨-, _, _, _, _, hinsert, -, -, -, rfl⟩
    · exact .refl _
    · exact .insert hinsert rfl rfl rfl rfl rfl

/-- A claim stays, and once complete stays complete. -/
theorem RoomsCase.claim_stays (h : RoomsCase s op r') (hc : ∀ c, ClaimOK s.rooms c) {claim : TelegramClaimRow}
    (hclaim : s.rooms.telegramClaims.find? c = some claim) :
    ∃ claim', r'.telegramClaims.find? c = some claim' ∧ (claim.status = .complete → claim'.status = .complete) := by
  have hsame : r'.telegramClaims = s.rooms.telegramClaims → ∃ claim', r'.telegramClaims.find? c = some claim' ∧
      (claim.status = .complete → claim'.status = .complete) := fun heq => ⟨claim, heq ▸ hclaim, fun h => h⟩
  cases h with
  | same => exact hsame rfl
  | sequence => exact hsame rfl
  | created fresh checked insert joins =>
    have hnew : SameClaims s.rooms { s.rooms with conversations := _ } := .insert insert rfl rfl rfl rfl rfl
    exact hsame (hnew.addMembers checked joins).claims
  | wrote | dropped | renamed => exact hsame rfl
  | claimed room named pending insert =>
    exact ⟨claim, Table.find?_insert?_of_some insert hclaim, fun h => h⟩
  | @completed c' _ _ at' =>
    by_cases heq : c = c'
    · refine ⟨{ claim with status := .complete, completedAt := some at' }, (Table.find?_updateAt _).trans ?_,
        fun _ => rfl⟩
      rw [if_pos heq, hclaim, Option.map_some]
    · refine ⟨claim, (Table.find?_updateAt _).trans ?_, fun h => h⟩
      rw [if_neg heq, hclaim]
  | adopted room unnamed gateway => exact ((hc _).not_adopted room unnamed gateway).elim
  | direct directs fresh pair room allocates =>
    rcases getOrCreateDirectConversation_eq_ok room with ⟨rfl, -⟩ | ⟨-, _, _, _, _, -, -, -, -, rfl⟩
    · exact hsame rfl
    · exact hsame rfl

/-! ## Retry keys of claims -/

/-- A key that is bound stays bound. -/
theorem step_claimKey {k : String × String} {row : RetryRow} (op : Op)
    (hkey : s.journal.telegramClaimIdempotency.find? k = some row) :
    (step E s op).1.journal.telegramClaimIdempotency.find? k = some row := by
  by_cases hw : Keys.claims ∈ op.keys
  · unfold step
    cases op with
    | reserveTelegramClaim input =>
      refine commit_rule (P := fun s' => s'.journal.telegramClaimIdempotency.find? k = some row) hkey fun s' a h => ?_
      rcases reserveTelegramClaim_eq_ok h with _ | ⟨-, hinsert⟩ | ⟨-, -, -, -, -, hinsert⟩
      · exact hkey
      · exact Table.find?_insert?_of_some hinsert hkey
      · exact Table.find?_insert?_of_some hinsert hkey
    | reopen => exact Table.find?_foldl_insertOrIgnore_of_some _ _ _ hkey
    | _ => exact absurd hw (by simp [Op.keys])
  · rw [(step_keys op).claims hw]
    exact hkey

/-- An accepted reservation answers the claim its key is bound to. -/
theorem Reserved.resolves {input : TelegramClaimInput} {answer : TelegramClaim} (h : Reserved s input answer s') :
    ∃ row, s'.journal.telegramClaimIdempotency.find? (input.machineID, input.idempotencyKey) = some row ∧
      answer.conversationID = row.target := by
  cases h with
  | bound key found =>
    obtain ⟨_, _, -, -, rfl⟩ := telegramClaimByConversation_eq_some found
    exact ⟨_, key, rfl⟩
  | joined found key =>
    obtain ⟨_, _, -, -, rfl⟩ := telegramClaimByConversation_eq_some found
    exact ⟨_, (Table.find?_insert? key _).trans (if_pos rfl), rfl⟩
  | reserved room named free pending insert key answers =>
    exact ⟨_, (Table.find?_insert? key _).trans (if_pos rfl), answers⟩

/-! ## Over a run -/

variable {ops : List Op} {j k n : ℕ}

theorem claimOK_empty (c : String) : ClaimOK Store.empty.rooms c := by
  refine ⟨fun h => ?_, rfl, rfl, rfl⟩
  cases h

theorem stateAt_claimOK (ops : List Op) (n : ℕ) : ∀ c, ClaimOK (stateAt E ops n).rooms c :=
  stateAt_rule (P := fun s => ∀ c, ClaimOK s.rooms c) (Nat.zero_le n)
    (fun _ op _ _ _ h => (step_rooms op).claimOK h) claimOK_empty

/-- What the tables of a conversation say of its claim. -/
structure ClaimTables (r : Rooms) (c : String) : Prop where
  participant : r.completed c ↔ (r.telegramParticipants.find? c).isSome
  event : r.completed c ↔ (r.claimEvents c).length = 1
  member : r.completed c ↔ (r.memberships.find? (c, telegramGatewayEndpoint)).isSome
  capabilities : ∀ cap, r.memberships.find? (c, telegramGatewayEndpoint) = some cap → cap = capSend ||| capReceive
  named : ∀ claim, r.telegramClaims.find? c = some claim → r.named c

theorem ClaimOK.tables (h : ClaimOK r c) : ClaimTables r c := by
  obtain ⟨hnamed, hparticipant, hevents, hgateway⟩ := h
  cases hcompleted : r.completed c with
  | false =>
    rw [hcompleted] at hparticipant hevents hgateway
    refine ⟨?_, ?_, ?_, fun cap hcap => ?_, fun claim hclaim => hnamed (by simp [hclaim])⟩
    · simp [hcompleted, hparticipant]
    · simp [hcompleted, hevents]
    · simp [hcompleted, hgateway]
    · simp [hgateway] at hcap
  | true =>
    rw [hcompleted] at hparticipant hevents hgateway
    refine ⟨?_, ?_, ?_, fun cap hcap => ?_, fun claim hclaim => hnamed (by simp [hclaim])⟩
    · simp [hcompleted, hparticipant]
    · simp [hcompleted, hevents]
    · simp [hcompleted, hgateway]
    · rw [hgateway, if_pos rfl, Option.some.injEq] at hcap
      exact hcap.symm

/-- What holds of claims over a run: the tables agree, a claim stays and stays complete, a machine's key stays
bound to one conversation, and an accepted reservation answers that conversation's claim. -/
structure ClaimsHold (E : Env) (ops : List Op) : Prop where
  tables : ∀ n c, ClaimTables (stateAt E ops n).rooms c
  stays : ∀ j k c claim, j ≤ k → (stateAt E ops j).rooms.telegramClaims.find? c = some claim →
    ∃ claim', (stateAt E ops k).rooms.telegramClaims.find? c = some claim' ∧
      (claim.status = .complete → claim'.status = .complete)
  bound : ∀ j k key row, j ≤ k → (stateAt E ops j).journal.telegramClaimIdempotency.find? key = some row →
    (stateAt E ops k).journal.telegramClaimIdempotency.find? key = some row
  resolves : ∀ n input claim duplicate, ops[n]? = some (.reserveTelegramClaim input) →
    replyAt E ops n = some (.claim claim duplicate) →
    ∃ row, (stateAt E ops (n + 1)).journal.telegramClaimIdempotency.find? (input.machineID, input.idempotencyKey) =
      some row ∧ claim.conversationID = row.target

/-- **Telegram claims**, in every run from the empty store. -/
theorem claims_hold (E : Env) (ops : List Op) : ClaimsHold E ops where
  tables n c := (stateAt_claimOK ops n c).tables
  stays j k c claim hjk hclaim :=
    stateAt_rule (P := fun s => ∃ claim', s.rooms.telegramClaims.find? c = some claim' ∧
      (claim.status = .complete → claim'.status = .complete)) hjk
      (fun n op _ _ _ ⟨claim', hclaim', hstatus⟩ => by
        obtain ⟨claim'', hclaim'', hstatus'⟩ := (step_rooms op).claim_stays (stateAt_claimOK ops n) hclaim'
        exact ⟨claim'', hclaim'', fun h => hstatus' (hstatus h)⟩) ⟨claim, hclaim, fun h => h⟩
  bound j k key row hjk hkey :=
    stateAt_rule (P := fun s => s.journal.telegramClaimIdempotency.find? key = some row) hjk
      (fun _ op _ _ _ h => step_claimKey op h) hkey
  resolves n input claim duplicate hop hreply := by
    rw [replyAt, hop, Option.map_some, Option.some.injEq] at hreply
    rw [stateAt_succ hop]
    cases hx : reserveTelegramClaim E (stateAt E ops n) input with
    | error e => simp [step, commit, hx] at hreply
    | ok a =>
      simp only [step, commit, hx, Reply.claim.injEq] at hreply ⊢
      obtain ⟨rfl, -⟩ := hreply
      exact (reserveTelegramClaim_eq_ok hx).resolves

end

end Punaro
