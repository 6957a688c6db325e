import Punaro.Proof.Steps

/-!
# What a call does to the rooms

`RoomsCase` is everything one call can do to conversations, members and claims, with
the checks that let it through; `step_rooms` says that every call does one of these
things. Invariants of rooms are then proved case by case, without a look at the
calls themselves.
-/

namespace Punaro

open Outcome

/-- The identifier a call draws for a new conversation. -/
def Op.newRoom? : Op → Option String
  | .createConversation _ _ _ id | .createConversationIdempotent _ id => some id
  | .sendDirectMessage _ ids => some ids.conversationID
  | _ => none

/-- Everything one call can do to the rooms. Only a call that accepts mail takes a sequence. -/
inductive RoomsCase (s : Store) (op : Op) : Rooms → Prop where
  | same : RoomsCase s op s.rooms
  | sequence {c : String} {conversations : Table String ConversationRow} {n : ℕ} (posts : op.keys = [.posts])
      (allocates : allocateSequence s.rooms.conversations c = .ok (conversations, n)) :
      RoomsCase s op { s.rooms with conversations }
  | created {creator displayName id : String} {members : List Member} {endpoints roles : List String} {now : Int}
      {conversations : Table String ConversationRow} {rooms : Rooms} (fresh : op.newRoom? = some id)
      (checked : members.foldlM (checkMember creator) ([], [], false) = .ok (endpoints, roles, true))
      (insert : s.rooms.conversations.insert? id ⟨0, unixMilli now, nullableText displayName⟩ = some conversations)
      (joins : members.foldlM (addMember id) { s.rooms with conversations } = .ok rooms) : RoomsCase s op rooms
  | wrote {c endpoint : String} {capabilities : Capability} (unreserved : ¬ reservedRelayMember endpoint)
      (guard : ∀ previous, s.rooms.memberships.find? (c, endpoint) = some previous →
        Capability.has previous capAdmin → ¬ Capability.has capabilities capAdmin →
        remainingAdmins s.rooms c endpoint ≠ 0) :
      RoomsCase s op { s.rooms with memberships := s.rooms.memberships.put (c, endpoint) capabilities }
  | dropped {c endpoint : String} (unreserved : ¬ reservedRelayMember endpoint)
      (guard : ∀ previous, s.rooms.memberships.find? (c, endpoint) = some previous →
        Capability.has previous capAdmin → remainingAdmins s.rooms c endpoint ≠ 0) :
      RoomsCase s op { s.rooms with memberships := s.rooms.memberships.deleteWhere fun k _ => k == (c, endpoint) }
  | renamed {c displayName : String} {row : ConversationRow} (room : s.rooms.conversations.find? c = some row)
      (named : displayName ≠ "") : RoomsCase s op (s.rooms.rename c displayName)
  | claimed {c : String} {row : ConversationRow} {claim : TelegramClaimRow}
      {telegramClaims : Table String TelegramClaimRow} (room : s.rooms.conversations.find? c = some row)
      (named : row.displayName.getD "" ≠ "") (pending : claim.status = .pending)
      (insert : s.rooms.telegramClaims.insert? c claim = some telegramClaims) :
      RoomsCase s op { s.rooms with telegramClaims }
  | completed {c id : String} {claim : TelegramClaimRow} {at' : Int} {event : TelegramClaimEventRow}
      {memberships : Table (String × String) Capability} {telegramParticipants : Table String Int}
      {telegramClaimEvents : Table String TelegramClaimEventRow}
      (found : s.rooms.telegramClaims.find? c = some claim) (pending : claim.status ≠ .complete)
      (joins : Wrote s.rooms c telegramGatewayEndpoint telegramGatewayCapabilities memberships)
      (participant : s.rooms.telegramParticipants.insert? c at' = some telegramParticipants)
      (records : s.rooms.telegramClaimEvents.insert? id event = some telegramClaimEvents)
      (event_room : event.conversationID = c) :
      RoomsCase s op { s.rooms with
        memberships, telegramParticipants, telegramClaimEvents
        telegramClaims := s.rooms.telegramClaims.updateAt c fun row =>
          { row with status := .complete, completedAt := some at' } }
  | adopted {c displayName : String} {row : ConversationRow} (room : s.rooms.conversations.find? c = some row)
      (unnamed : row.displayName.getD "" = "")
      (gateway : (s.rooms.memberships.find? (c, telegramGatewayEndpoint)).isSome) :
      RoomsCase s op ((s.rooms.dropRole c telegramCodexRole).rename c displayName)
  | direct {low high fromRole toRole id c : String} {now : Int} {rooms : Rooms}
      {conversations : Table String ConversationRow} {n : ℕ} (directs : op.keys = [.directs])
      (fresh : op.newRoom? = some id) (pair : orderedDirectRolePair fromRole toRole = some (low, high))
      (room : getOrCreateDirectConversation s.rooms low high fromRole toRole now id = .ok (rooms, c))
      (allocates : allocateSequence rooms.conversations c = .ok (conversations, n)) :
      RoomsCase s op { rooms with conversations }

/-- The call takes `s` to `s'`. -/
def RoomsStep (s : Store) (op : Op) (s' : Store) : Prop := RoomsCase s op s'.rooms

section

variable {E : Env} {s s' : Store} {op : Op}

theorem postMessage_rooms {post : Posting} {ids : FreshIDs} {answer : Message × Bool}
    (hop : op.keys = [.posts]) (h : postMessage s post ids = .ok (s', answer)) : RoomsStep s op s' := by
  rcases postMessage_eq_ok h with _ | ⟨-, hwrite, -⟩
  · exact RoomsCase.same
  · obtain ⟨_, conversations, n, _, _, _, -, halloc, -, -, -, -, rfl, -⟩ := writePosting_eq_ok hwrite
    exact RoomsCase.sequence hop halloc

theorem createConversation_rooms {input : CreateConversationInput} {conversation : Conversation} {id : String}
    (hop : op.newRoom? = some id) (h : createConversation E s input id = .ok (s', conversation)) :
    RoomsStep s op s' := by
  rcases createConversation_eq_ok h with rfl | ⟨name, endpoints, roles, s₁, t, -, hcheck, hcreate, rfl⟩
  · exact RoomsCase.same
  · obtain ⟨-, -, presence, conversations, rooms, hinsert, hjoin, -, rfl⟩ := createRoom_eq_ok hcreate
    exact RoomsCase.created hop hcheck hinsert hjoin

theorem applyControl_rooms {input : ControlInput} {id : String} {event : ControlEvent × Bool}
    (h : applyControl E s input id = .ok (s', event)) : RoomsStep s op s' := by
  rcases applyControl_eq_ok h with rfl | ⟨s₁, t, t', -, hfree, -, hchange | hchange, rfl⟩
  · exact RoomsCase.same
  · have hguard := fun previous => @upsertMember_guard _ _ _ previous hchange
    obtain ⟨-, mail, invocations, -, rfl⟩ := upsertMember_frame hchange
    exact RoomsCase.wrote hfree hguard
  · have hguard := fun previous => @removeMember_guard _ _ _ previous hchange
    obtain ⟨mail, rfl⟩ := removeMember_frame hchange
    exact RoomsCase.dropped hfree hguard

/-- **One call** does one of these things to the rooms. -/
theorem step_rooms (op : Op) : RoomsStep s op (step E s op).1 := by
  by_cases hw : Part.rooms ∈ op.writes
  · have hsame : RoomsStep s op s := RoomsCase.same
    unfold step
    cases op with
    | createConversation =>
      exact commit_rule hsame fun s' a h => createConversation_rooms rfl h
    | createConversationIdempotent =>
      exact commit_rule hsame fun s' a h => createConversation_rooms rfl (createConversationIdempotent_eq_ok h)
    | applyControl =>
      exact commit_rule hsame fun s' a h => applyControl_rooms h
    | setConversationDisplayName input =>
      refine commit_rule hsame fun s' a h => ?_
      rcases setConversationDisplayName_eq_ok h with ⟨_, rfl⟩ | ⟨row, name, _, hrow, hname, -, -, rfl⟩
      · exact RoomsCase.same
      · exact RoomsCase.renamed hrow hname
    | reserveTelegramClaim input =>
      refine commit_rule hsame fun s' a h => ?_
      rcases reserveTelegramClaim_eq_ok h with _ | _ | ⟨hrow, hname, -, hpending, hinsert⟩
      · exact RoomsCase.same
      · exact RoomsCase.same
      · exact RoomsCase.claimed hrow hname hpending hinsert
    | completeTelegramClaim =>
      refine commit_rule hsame fun s' a h => ?_
      rcases completeTelegramClaim_eq_ok h with rfl | ⟨_, _, _, _, _, _, _, _, hfound, hpending, -, hensure,
        hparticipant, hrecords, hevent, rfl⟩
      · exact RoomsCase.same
      · obtain ⟨_, rfl, hwrote, -⟩ := ensureTelegramGatewayMembership_eq_ok hensure
        exact RoomsCase.completed hfound hpending hwrote hparticipant hrecords hevent
    | prepareTelegramAdopt =>
      refine commitDone_rule hsame fun s' h => ?_
      obtain ⟨_, _, _, _, _, -, hrow, hunnamed, -, -, -, hreject, rfl⟩ := prepareTelegramAdopt_eq_ok h
      simp only [rejectAdoptPrepareOccupancy, ok_rules] at hreject
      obtain ⟨_, -, _, hgateway, -⟩ := hreject
      exact RoomsCase.adopted hrow hunnamed hgateway
    | appendMessage =>
      exact commit_rule hsame fun s' a h =>
        postMessage_rooms rfl (appendMessage_eq_ok h).2.2
    | appendTelegramInbound =>
      exact commit_rule hsame fun s' a h =>
        postMessage_rooms rfl (appendTelegramInbound_eq_ok h).2
    | sendDirectMessage =>
      refine commit_rule hsame fun s' a h => ?_
      rcases sendDirectMessage_eq_ok h with _ | ⟨hpair, hroom, -, hwrite, -⟩
      · exact RoomsCase.same
      · obtain ⟨_, _, _, _, _, _, _, -, halloc, -, -, -, -, -, rfl, -⟩ := writeDirectMessage_eq_ok hwrite
        exact RoomsCase.direct rfl rfl hpair hroom halloc
    | _ => exact absurd hw (by simp [Op.writes])
  · unfold RoomsStep
    rw [(step_frame op).rooms hw]
    exact RoomsCase.same

end

end Punaro
