import Mathlib.Data.List.Induction
import Punaro.Proof.Presence

/-!
# Exclusive occupancy

`Occupies p r endpoint c now`: the endpoint is a member of the conversation, or a
role that is a member is live-bound to it at `now`. `OccupiesOne`: no endpoint but
the Telegram gateway occupies two exclusive conversations.

Time only takes occupancy away (`Occupies.earlier`), and of the calls that change
presence only binding a role adds any, after checking (`step_liveRoleSession`,
`bindRoleToSession_occupies`). A call that changes the rooms changes one
conversation, and whoever occupies it anew is checked against all others
(`Guarded`). So the invariant holds at every instant after the last call, in every
run whose clocks do not go back.
-/

namespace Punaro

open Outcome

/-- The endpoint is a member, or a role that is a member is live-bound to it. -/
def Occupies (p : Presence) (r : Rooms) (endpoint c : String) (now : Int) : Prop :=
  (r.memberships.find? (c, endpoint)).isSome ∨
    ∃ role, (r.roleMemberships.find? (c, role)).isSome ∧ liveRoleSession p role now = some endpoint

/-- No endpoint but the gateway occupies two exclusive conversations. -/
def OccupiesOne (p : Presence) (r : Rooms) (now : Int) : Prop :=
  ∀ endpoint, endpoint ≠ telegramPrimaryEndpoint → ∀ c c', exclusiveConversation r c → exclusiveConversation r c' →
    Occupies p r endpoint c now → Occupies p r endpoint c' now → c = c'

section

variable {E : Env} {s s' : Store} {p : Presence} {r r' : Rooms} {endpoint c c' role : String} {now t : Int} {op : Op}
variable {id displayName : String} {input : CreateConversationInput} {answer : TelegramClaim × Bool}

/-! ## The guards -/

theorem mem_membersOf {m : Table (String × String) Capability} {member : String} :
    c ∈ (m.rows.filter fun row => row.1.2 == member).map (fun row => row.1.1) ↔ (m.find? (c, member)).isSome := by
  simp only [List.mem_map, List.mem_filter, beq_iff_eq, Option.isSome_iff_exists, Table.find?_eq_some_iff_mem]
  constructor
  · rintro ⟨⟨⟨c', e⟩, cap⟩, ⟨hm, rfl⟩, rfl⟩
    exact ⟨cap, hm⟩
  · rintro ⟨cap, hm⟩
    exact ⟨_, ⟨hm, rfl⟩, rfl⟩

theorem mem_memberConversations : c ∈ memberConversations r endpoint ↔ (r.memberships.find? (c, endpoint)).isSome :=
  mem_membersOf

theorem mem_roleConversations : c ∈ roleConversations r role ↔ (r.roleMemberships.find? (c, role)).isSome :=
  mem_membersOf

theorem mem_boundConversations {except : Option String} : c ∈ boundConversations p r endpoint except now ↔
    ∃ role, (r.roleMemberships.find? (c, role)).isSome ∧ liveRoleSession p role now = some endpoint ∧
      some role ≠ except := by
  simp only [boundConversations, List.mem_map, List.mem_filter, Bool.and_eq_true, beq_iff_eq, bne_iff_ne,
    Option.isSome_iff_exists, Table.find?_eq_some_iff_mem]
  constructor
  · rintro ⟨⟨⟨c', role⟩, cap⟩, ⟨hm, hlive⟩, rfl⟩
    exact ⟨role, ⟨cap, hm⟩, hlive⟩
  · rintro ⟨role, ⟨cap, hm⟩, hlive⟩
    exact ⟨_, ⟨hm, hlive⟩, rfl⟩

theorem mem_conversationOccupants : endpoint ∈ conversationOccupants p r c now ↔ Occupies p r endpoint c now := by
  simp only [conversationOccupants, Occupies, List.mem_append, List.mem_map, List.mem_filterMap, List.mem_filter,
    beq_iff_eq, Option.isSome_iff_exists, Table.find?_eq_some_iff_mem]
  refine or_congr ⟨?_, ?_⟩ ⟨?_, ?_⟩
  · rintro ⟨⟨⟨c', e⟩, cap⟩, ⟨hm, rfl⟩, rfl⟩
    exact ⟨cap, hm⟩
  · rintro ⟨cap, hm⟩
    exact ⟨_, ⟨hm, rfl⟩, rfl⟩
  · rintro ⟨⟨⟨c', role⟩, cap⟩, ⟨hm, rfl⟩, hlive⟩
    exact ⟨role, ⟨cap, hm⟩, hlive⟩
  · rintro ⟨role, ⟨cap, hm⟩, hlive⟩
    exact ⟨_, ⟨hm, rfl⟩, hlive⟩

/-- A session that passes the guard occupies no other exclusive conversation. -/
theorem sessionOccupies_eq_ok (he : endpoint ≠ telegramPrimaryEndpoint)
    (h : sessionOccupiesOtherExclusiveConversation p r endpoint c now = .ok ()) (hc : c' ≠ c)
    (hx : exclusiveConversation r c') : ¬Occupies p r endpoint c' now := by
  rw [sessionOccupiesOtherExclusiveConversation, if_neg he, require_eq_ok, List.any_eq_true] at h
  rintro (hm | ⟨role, hm, hlive⟩)
  · refine h ⟨c', List.mem_append_left _ (mem_memberConversations.2 hm), ?_⟩
    simp [hc, hx]
  · refine h ⟨c', List.mem_append_right _ (mem_boundConversations.2 ⟨role, hm, hlive, by simp⟩), ?_⟩
    simp [hc, hx]

theorem rejectExclusiveOccupants_eq_ok (he : endpoint ≠ telegramPrimaryEndpoint)
    (h : rejectExclusiveOccupants p r c now = .ok ()) (ho : Occupies p r endpoint c now) (hc : c' ≠ c)
    (hx : exclusiveConversation r c') : ¬Occupies p r endpoint c' now :=
  sessionOccupies_eq_ok he (forM_eq_ok.1 h endpoint (mem_conversationOccupants.2 ho)) hc hx

/-! ## Time and presence -/

theorem liveRoleSession_eq_some : liveRoleSession p role now = some endpoint ↔
    ∃ b, p.roleBindings.find? role = some b ∧ liveBinding p b now ∧ b.sessionEndpoint = endpoint := by
  simp only [liveRoleSession, Option.bind_eq_some_iff, Option.ite_none_right_eq_some, Option.some.injEq]

theorem liveBinding_iff {b : RoleBindingRow} : liveBinding p b now ↔ unixMilli now < b.leaseUntil ∧
    ∃ row, p.endpoints.find? b.sessionEndpoint = some row ∧ row.machineID = b.machineID ∧
      row.ownershipGeneration = b.ownershipGeneration ∧ unixMilli now < row.leaseUntil := by
  simp only [liveBinding, Bool.and_eq_true, decide_eq_true_eq, Option.any_eq_true, beq_iff_eq, and_assoc]

/-- A binding that is live later is live now. -/
theorem liveBinding_earlier {b : RoleBindingRow} (hle : now ≤ t) (h : liveBinding p b t) : liveBinding p b now := by
  have hmono := unixMilli_mono hle
  obtain ⟨hlive, row, hrow, hmachine, hgeneration, hrowlive⟩ := liveBinding_iff.1 h
  exact liveBinding_iff.2 ⟨by omega, row, hrow, hmachine, hgeneration, by omega⟩

theorem Occupies.earlier (hle : now ≤ t) (h : Occupies p r endpoint c t) : Occupies p r endpoint c now := by
  refine h.imp_right ?_
  rintro ⟨role, hm, hlive⟩
  obtain ⟨b, hb, hlive, hsession⟩ := liveRoleSession_eq_some.1 hlive
  exact ⟨role, hm, liveRoleSession_eq_some.2 ⟨b, hb, liveBinding_earlier hle hlive, hsession⟩⟩

/-- **No call but binding a role makes its session live**: what is live afterwards was live before. -/
theorem step_liveRoleSession (pok : PresenceOK s.presence) (hclock : ∀ now, op.clock = some now → now ≤ t)
    (hbind : ∀ machineID session now ttl, op ≠ .bindRoleToSession machineID role session now ttl)
    (h : liveRoleSession (step E s op).1.presence role t = some endpoint) :
    liveRoleSession s.presence role (op.clock.getD t) = some endpoint := by
  obtain ⟨b', hb', hlive', hsession⟩ := liveRoleSession_eq_some.1 h
  have hle : op.clock.getD t ≤ t := by
    cases hc : op.clock with
    | none => exact le_rfl
    | some now => exact hclock now hc
  have hmono := unixMilli_mono hle
  cases step_rebound (E := E) pok op role with
  | same hkeeps =>
    refine liveRoleSession_eq_some.2 ⟨b', hkeeps ▸ hb', ?_, hsession⟩
    obtain ⟨hlive, row', hrow', hmachine, hgeneration, hrowlive⟩ := liveBinding_iff.1 hlive'
    obtain ⟨row, hrow, hle'⟩ := pok.binding (hkeeps ▸ hb')
    obtain ⟨row₁, hrow₁, hnext⟩ := step_endpoints (E := E) op hrow
    cases hrow'.symm.trans hrow₁
    -- The session has reached the binding's generation and is not past it.
    have hle₁ := hnext.generation_le
    have hsame : row'.ownershipGeneration = row.ownershipGeneration := by omega
    refine liveBinding_iff.2 ⟨by omega, row, hrow, (hnext.machine hsame).symm.trans hmachine, by omega, ?_⟩
    rcases hnext.lease hsame with hlease | ⟨now, hnow, hlease⟩
    · omega
    · rw [hnow]
      exact hlease
  | renewed hnow hwas hlive his =>
    cases hb'.symm.trans his
    rw [hnow]
    exact liveRoleSession_eq_some.2 ⟨_, hwas, hlive, hsession⟩
  | bound call _ => exact absurd call (hbind _ _ _ _)

/-- Rooms in which everybody occupies one exclusive conversation stay so across a call that is not a
binding. -/
theorem OccupiesOne.across (pok : PresenceOK s.presence) (hclock : ∀ now, op.clock = some now → now ≤ t)
    (hbind : ∀ machineID role session now ttl, op ≠ .bindRoleToSession machineID role session now ttl)
    (h : OccupiesOne s.presence (step E s op).1.rooms (op.clock.getD t)) :
    OccupiesOne (step E s op).1.presence (step E s op).1.rooms t := by
  have hbefore : ∀ {endpoint c}, Occupies (step E s op).1.presence (step E s op).1.rooms endpoint c t →
      Occupies s.presence (step E s op).1.rooms endpoint c (op.clock.getD t) := by
    rintro endpoint c (hm | ⟨role, hm, hlive⟩)
    · exact .inl hm
    · exact .inr ⟨role, hm, step_liveRoleSession pok hclock (fun m e n l => hbind m role e n l) hlive⟩
  intro endpoint he c c' hx hx' ho ho'
  exact h endpoint he c c' hx hx' (hbefore ho) (hbefore ho')

theorem eq_of_length_le_one {l : List String} (h : l.length ≤ 1) (hc : c ∈ l) (hc' : c' ∈ l) : c = c' := by
  rcases l with _ | ⟨a, _ | ⟨b, l⟩⟩
  · cases hc
  · rw [List.mem_singleton.1 hc, List.mem_singleton.1 hc']
  · simp at h

/-- **Binding a role** checks all that its session will occupy. -/
theorem bindRoleToSession_occupies {machineID session : String} {ttl : Int} (pok : PresenceOK s.presence)
    (hop : op = .bindRoleToSession machineID role session now ttl) (hle : now ≤ t)
    (h : OccupiesOne s.presence s.rooms now) :
    OccupiesOne (step E s op).1.presence (step E s op).1.rooms t := by
  have hrole : ∀ {role'}, role' ≠ role → ∀ {endpoint},
      liveRoleSession (step E s op).1.presence role' t = some endpoint →
      liveRoleSession s.presence role' now = some endpoint := by
    intro role' hne endpoint hlive
    have hnow : op.clock = some now := by
      rw [hop]
      rfl
    have hclock : ∀ now', op.clock = some now' → now' ≤ t := by
      intro now' hnow'
      cases hnow.symm.trans hnow'
      exact hle
    have hbind : ∀ m e n l, op ≠ .bindRoleToSession m role' e n l := by
      rintro m e n l heq
      cases hop.symm.trans heq
      exact hne rfl
    have hbefore := step_liveRoleSession pok hclock hbind hlive
    rwa [hnow] at hbefore
  cases hx : bindRoleToSession s machineID role session now ttl with
  | error e =>
    have hstep : (step E s op).1 = s := by simp [hop, step, commitDone, commit, hx, Except.map]
    rw [hstep]
    exact fun endpoint he c c' hc hc' ho ho' => h endpoint he c c' hc hc' (ho.earlier hle) (ho'.earlier hle)
  | ok s' =>
    have hstep : (step E s op).1 = s' := by simp [hop, step, commitDone, commit, hx, Except.map]
    obtain ⟨row, -, -, -, -, -, hreject, -, hs'⟩ := bindRoleToSession_eq_ok hx
    have hrooms : s'.rooms = s.rooms := by rw [hs']
    have hbinding : ∀ {endpoint}, liveRoleSession s'.presence role t = some endpoint → endpoint = session := by
      intro endpoint hlive
      obtain ⟨b, hb, -, hsession⟩ := liveRoleSession_eq_some.1 hlive
      rw [hs'] at hb
      simp only [Table.find?_put, if_true, Option.some.injEq] at hb
      rw [← hsession, ← hb]
    rw [hstep] at hrole ⊢
    rw [hrooms]
    intro endpoint he c c' hc hc' ho ho'
    by_cases hsession : endpoint = session
    · subst hsession
      rw [rejectExclusiveBindOccupancy, if_neg he, require_eq_ok] at hreject
      -- Whatever the session occupies afterwards is on the list that was counted.
      have hlisted : ∀ {c}, exclusiveConversation s.rooms c → Occupies s'.presence s.rooms endpoint c t →
          c ∈ ((memberConversations s.rooms endpoint ++
            boundConversations s.presence s.rooms endpoint (some role) now ++
            roleConversations s.rooms role).filter (exclusiveConversation s.rooms)).dedup := by
        intro c hc ho
        rw [List.mem_dedup, List.mem_filter, List.mem_append, List.mem_append]
        refine ⟨?_, hc⟩
        rcases ho with hm | ⟨role', hm, hlive⟩
        · exact .inl (.inl (mem_memberConversations.2 hm))
        · by_cases hne : role' = role
          · exact .inr (mem_roleConversations.2 (hne ▸ hm))
          · exact .inl (.inr (mem_boundConversations.2 ⟨role', hm, hrole hne hlive, by simpa using hne⟩))
      exact eq_of_length_le_one hreject (hlisted hc ho) (hlisted hc' ho')
    · have hbefore : ∀ {c}, Occupies s'.presence s.rooms endpoint c t → Occupies s.presence s.rooms endpoint c now := by
        rintro c (hm | ⟨role', hm, hlive⟩)
        · exact .inl hm
        · by_cases hne : role' = role
          · subst hne
            exact absurd (hbinding hlive) hsession
          · exact .inr ⟨role', hm, hrole hne hlive⟩
      exact h endpoint he c c' hc hc' (hbefore ho) (hbefore ho')

/-! ## Rooms -/

/-- No conversation has the empty identifier. -/
abbrev Rooms.Identified (r : Rooms) : Prop := r.conversations.find? "" = none

/-- A call changes one conversation only, and whoever occupies it anew as an exclusive one occupies no
other. -/
structure Guarded (p : Presence) (r : Rooms) (now : Int) (c : String) (r' : Rooms) : Prop where
  same : SameElsewhere r c r'
  identified : r'.conversations.find? "" = none
  guard : ∀ endpoint, endpoint ≠ telegramPrimaryEndpoint → exclusiveConversation r' c →
    Occupies p r' endpoint c now →
    exclusiveConversation r c ∧ Occupies p r endpoint c now ∨
      ∀ c', c' ≠ c → exclusiveConversation r c' → ¬Occupies p r endpoint c' now

theorem SameElsewhere.occupies (h : SameElsewhere r c r') (hc : c' ≠ c) :
    Occupies p r' endpoint c' now ↔ Occupies p r endpoint c' now := by
  simp only [Occupies, h.members c' endpoint hc, h.roleMembers c' _ hc]

theorem SameElsewhere.exclusive (h : SameElsewhere r c r') (hc : c' ≠ c) :
    exclusiveConversation r' c' = exclusiveConversation r c' := by
  simp only [exclusiveConversation, exclusiveConversationPredicate, h.conversations c' hc, h.claims c' hc]

theorem Guarded.refl (hid : r.Identified) (c : String) : Guarded p r now c r :=
  ⟨⟨fun _ _ => rfl, fun _ _ _ => rfl, fun _ _ _ => rfl, fun _ _ => rfl⟩, hid, fun _ _ hx ho => .inl ⟨hx, ho⟩⟩

theorem Guarded.occupiesOne (hg : Guarded p r now c r') (h : OccupiesOne p r now) : OccupiesOne p r' now := by
  intro endpoint he c₁ c₂ hx₁ hx₂ ho₁ ho₂
  -- Of two conversations at most one is the changed one.
  have hone : ∀ {c₂}, c₂ ≠ c → exclusiveConversation r' c → exclusiveConversation r' c₂ →
      Occupies p r' endpoint c now → Occupies p r' endpoint c₂ now → c = c₂ := by
    intro c₂ hne hx hx₂ ho ho₂
    rw [hg.same.exclusive hne] at hx₂
    rw [hg.same.occupies hne] at ho₂
    rcases hg.guard endpoint he hx ho with ⟨hx', ho'⟩ | hnone
    · exact h endpoint he c c₂ hx' hx₂ ho' ho₂
    · exact absurd ho₂ (hnone c₂ hne hx₂)
  by_cases h₁ : c₁ = c <;> by_cases h₂ : c₂ = c
  · rw [h₁, h₂]
  · subst h₁
    exact hone h₂ hx₁ hx₂ ho₁ ho₂
  · subst h₂
    exact (hone h₁ hx₂ hx₁ ho₂ ho₁).symm
  · rw [hg.same.exclusive h₁] at hx₁
    rw [hg.same.exclusive h₂] at hx₂
    rw [hg.same.occupies h₁] at ho₁
    rw [hg.same.occupies h₂] at ho₂
    exact h endpoint he c₁ c₂ hx₁ hx₂ ho₁ ho₂

theorem exclusiveConversation_iff : exclusiveConversation r c ↔ ∃ row, r.conversations.find? c = some row ∧
    (row.displayName.getD "" ≠ "" ∨ (r.telegramClaims.find? c).isSome) := by
  simp only [exclusiveConversation, exclusiveConversationPredicate, Option.any_eq_true, Bool.or_eq_true]
  refine exists_congr fun row => and_congr_right fun _ => or_congr_left ?_
  cases row.displayName <;> simp

/-- A call that brings nobody into the conversation and does not make it exclusive. -/
theorem Guarded.fewer (same : SameElsewhere r c r') (identified : r'.Identified)
    (hx : exclusiveConversation r' c → exclusiveConversation r c)
    (ho : ∀ endpoint, endpoint ≠ telegramPrimaryEndpoint → Occupies p r' endpoint c now →
      Occupies p r endpoint c now) : Guarded p r now c r' :=
  ⟨same, identified, fun endpoint he hx' ho' => .inl ⟨hx hx', ho endpoint he ho'⟩⟩

theorem Guarded.allocate {conversations : Table String ConversationRow} {n : ℕ}
    (hid : r.Identified) (h : allocateSequence r.conversations c = .ok (conversations, n)) :
    Guarded p r now c { r with conversations } := by
  obtain ⟨row, hrow, -, rfl⟩ := allocateSequence_eq_ok h
  refine .fewer ⟨fun c' hc => by simp [hc], fun _ _ _ => rfl, fun _ _ _ => rfl, fun _ _ => rfl⟩ (by simp [Rooms.Identified, hid])
    (fun hx => ?_) fun _ _ ho => ho
  obtain ⟨row', hrow', hx⟩ := exclusiveConversation_iff.1 hx
  simp only [Table.find?_updateAt, if_true, hrow, Option.map_some, Option.some.injEq] at hrow'
  subst hrow'
  exact exclusiveConversation_iff.2 ⟨row, hrow, hx⟩

theorem TookSequence.guarded (hid : r.Identified) (h : TookSequence r r') : ∃ c, Guarded p r now c r' := by
  rcases h with rfl | ⟨c, conversations, n, halloc, rfl⟩
  · exact ⟨"", .refl hid ""⟩
  · exact ⟨c, .allocate hid halloc⟩

/-- Naming a conversation: its occupants are checked unless it was named before. -/
theorem Guarded.rename {row : ConversationRow} (hid : r.Identified) (hrow : r.conversations.find? c = some row)
    (hcheck : row.displayName.getD "" = "" → rejectExclusiveRenameOccupancy p r c now = .ok ()) :
    Guarded p r now c (r.rename c displayName) := by
  refine ⟨⟨fun c' hc => ?_, fun _ _ _ => rfl, fun _ _ _ => rfl, fun _ _ => rfl⟩, ?_, fun endpoint he _ ho => ?_⟩
  · simp [Rooms.rename, hc]
  · simp [Rooms.rename, hid]
  · have ho' : Occupies p r endpoint c now := ho
    by_cases hnamed : row.displayName.getD "" = ""
    · exact .inr fun c' hc hx => rejectExclusiveOccupants_eq_ok he (hcheck hnamed) ho' hc hx
    · exact .inl ⟨exclusiveConversation_iff.2 ⟨row, hrow, .inl hnamed⟩, ho'⟩

/-- Writing a member: a new one is checked if the conversation is exclusive. -/
theorem Guarded.member {t : Table (String × String) Capability} {capabilities : Capability}
    (hid : r.Identified) (ht : Wrote r c endpoint capabilities t)
    (hcheck : endpoint ≠ telegramPrimaryEndpoint → r.memberships.find? (c, endpoint) = none →
      exclusiveConversation r c → sessionOccupiesOtherExclusiveConversation p r endpoint c now = .ok ()) :
    Guarded p r now c { r with memberships := t } := by
  refine ⟨⟨fun _ _ => rfl, fun c' e hc => ht.else _ (by simp [hc]), fun _ _ _ => rfl, fun _ _ => rfl⟩, hid,
    fun e he hx ho => ?_⟩
  by_cases hnew : e = endpoint ∧ r.memberships.find? (c, endpoint) = none
  · obtain ⟨rfl, hnone⟩ := hnew
    exact .inr fun c' hc hx' => sessionOccupies_eq_ok he (hcheck he hnone hx) hc hx'
  · refine .inl ⟨hx, ho.imp_left fun hm => ?_⟩
    by_cases heq : e = endpoint
    · subst heq
      exact Option.isSome_iff_ne_none.2 fun h => hnew ⟨rfl, h⟩
    · have hsame := ht.else (c, e) (by simp [heq])
      rwa [show Table.find? _ _ = _ from hsame] at hm

theorem Guarded.dropMember (hid : r.Identified) (k : String × String) :
    Guarded p r now k.1 { r with memberships := r.memberships.deleteWhere fun k' _ => k' == k } := by
  have hsub : ∀ {k'}, ((r.memberships.deleteWhere fun k' _ => k' == k).find? k').isSome →
      (r.memberships.find? k').isSome := by
    intro k' h
    obtain ⟨cap, hcap⟩ := Option.isSome_iff_exists.1 h
    exact Option.isSome_iff_exists.2 ⟨cap, (Table.find?_deleteWhere_eq_some.1 hcap).1⟩
  refine .fewer ⟨fun _ _ => rfl, fun c' e hc => ?_, fun _ _ _ => rfl, fun _ _ => rfl⟩ hid id
    fun e _ ho => ho.imp_left hsub
  ext cap
  rw [Table.find?_deleteWhere_eq_some]
  simp [show (c', e) ≠ k by rintro rfl; exact hc rfl]

/-! ## New rooms -/

/-- The members that were checked are on the lists the guard goes through. -/
theorem checkMember_listed {creator : String} {members : List Member} {seen : List String × List String × Bool}
    {endpoints roles : List String} {admin : Bool}
    (h : members.foldlM (checkMember creator) seen = .ok (endpoints, roles, admin)) :
    seen.1 ⊆ endpoints ∧ seen.2.1 ⊆ roles ∧ ∀ member ∈ members,
      (member.endpoint ≠ "" → member.endpoint ∈ endpoints) ∧ (member.endpoint = "" → member.role ∈ roles) := by
  induction members generalizing seen with
  | nil =>
    cases h
    simp
  | cons member rest ih =>
    rw [List.foldlM_cons, bind_eq_ok] at h
    obtain ⟨seen', hcheck, h⟩ := h
    obtain ⟨hendpoints, hroles, hrest⟩ := ih h
    simp only [checkMember, ok_rules] at hcheck
    obtain ⟨-, -, hcheck⟩ := hcheck
    split at hcheck
    · rename_i hkind
      simp only [ok_rules] at hcheck
      obtain ⟨-, -, -, -, rfl⟩ := hcheck
      refine ⟨fun e he => hendpoints (List.mem_append_left _ he), hroles, List.forall_mem_cons.2 ⟨⟨fun _ => ?_,
        fun hempty => absurd hempty hkind.1⟩, hrest⟩⟩
      exact hendpoints (List.mem_append_right _ (List.mem_singleton_self _))
    · split at hcheck
      · rename_i hkind
        simp only [ok_rules] at hcheck
        obtain ⟨-, -, -, -, rfl⟩ := hcheck
        refine ⟨hendpoints, fun e he => hroles (List.mem_append_left _ he), List.forall_mem_cons.2
          ⟨⟨fun hne => absurd hkind.1 hne, fun _ => ?_⟩, hrest⟩⟩
        exact hroles (List.mem_append_right _ (List.mem_singleton_self _))
      · cases hcheck

/-- The members of a room after some were added are the old ones and those. -/
theorem addMember_members {members : List Member} (h : members.foldlM (addMember id) r = .ok r') :
    (∀ e, (r'.memberships.find? (id, e)).isSome → (r.memberships.find? (id, e)).isSome ∨
      ∃ member ∈ members, member.endpoint ≠ "" ∧ member.endpoint = e) ∧
    ∀ role, (r'.roleMemberships.find? (id, role)).isSome → (r.roleMemberships.find? (id, role)).isSome ∨
      ∃ member ∈ members, member.endpoint = "" ∧ member.role = role := by
  induction members generalizing r with
  | nil =>
    cases h
    exact ⟨fun _ => .inl, fun _ => .inl⟩
  | cons member rest ih =>
    rw [List.foldlM_cons, bind_eq_ok] at h
    obtain ⟨r₁, hadd, h⟩ := h
    obtain ⟨hmembers, hroles⟩ := ih h
    have hlater : ∀ {P : Member → Prop}, (∃ m ∈ rest, P m) → ∃ m ∈ member :: rest, P m :=
      fun ⟨m, hm, hP⟩ => ⟨m, List.mem_cons_of_mem _ hm, hP⟩
    simp only [addMember] at hadd
    split at hadd
    · rename_i hkind
      simp only [ok_rules] at hadd
      obtain ⟨t, ht, rfl⟩ := hadd
      refine ⟨fun e he => ?_, fun role hr => (hroles role hr).imp_right hlater⟩
      rcases hmembers e he with he | he
      · by_cases heq : e = member.endpoint
        · exact .inr ⟨member, List.mem_cons_self, hkind, heq.symm⟩
        · exact .inl (by simpa [Table.find?_insert? ht, heq] using he)
      · exact .inr (hlater he)
    · rename_i hkind
      simp only [ok_rules] at hadd
      obtain ⟨t, ht, rfl⟩ := hadd
      refine ⟨fun e he => (hmembers e he).imp_right hlater, fun role hr => ?_⟩
      rcases hroles role hr with hr | hr
      · by_cases heq : role = member.role
        · exact .inr ⟨member, List.mem_cons_self, not_not.1 hkind, heq.symm⟩
        · exact .inl (by simpa [Table.find?_insert? ht, heq] using hr)
      · exact .inr (hlater hr)

theorem SameElsewhere.identified (h : SameElsewhere r c r') (hc : c ≠ "") (hid : r.Identified) : r'.Identified :=
  (h.conversations "" hc.symm).trans hid

/-- **A new room**: an unnamed one is not exclusive, and the members of a named one are checked. -/
theorem createRoom_guarded {endpoints roles : List String} {admin : Bool} (ok : StoreOK s) (hid : s.rooms.Identified)
    (hfresh : id ≠ "") (hcheck : input.members.foldlM (checkMember input.creatorEndpoint) ([], [], false) =
      .ok (endpoints, roles, admin)) (h : createRoom s input endpoints roles displayName id = .ok s') :
    Guarded s.presence s.rooms input.now id s'.rooms := by
  obtain ⟨-, hreject, presence, conversations, rooms, hinsert, hjoin, -, rfl⟩ := createRoom_eq_ok h
  have hnone := (Table.insert?_eq_some hinsert).1
  obtain ⟨hjoining, -, hclaims⟩ := joining_members ok.rooms hinsert (checked_of_checkMember hcheck) hjoin
  have hsame := hjoining.elsewhere hinsert
  refine ⟨hsame, hsame.identified hfresh hid, fun endpoint he hx ho => .inr ?_⟩
  -- The room is new, so it is exclusive because it is named.
  obtain ⟨row, hrow, hx⟩ := exclusiveConversation_iff.1 hx
  have hnamed : displayName ≠ "" := by
    rintro rfl
    rw [hjoining.conversations, Table.find?_insert? hinsert, if_pos rfl, Option.some.injEq] at hrow
    rcases hx with hx | hx
    · exact hx (by rw [← hrow]; rfl)
    · obtain ⟨claim, hclaim⟩ := Option.isSome_iff_exists.1 hx
      rw [hclaims] at hclaim
      simpa [hnone] using ok.rooms.claimed hclaim
  -- Whoever occupies it is one of its members or the session of one of its roles.
  obtain ⟨-, -, hlisted⟩ := checkMember_listed hcheck
  obtain ⟨hadded, haddedRoles⟩ := addMember_members hjoin
  have hsession : endpoint ∈ endpoints ++ roles.filterMap fun role => liveRoleSession s.presence role input.now := by
    rw [List.mem_append, List.mem_filterMap]
    rcases ho with hm | ⟨role, hm, hlive⟩
    · rcases hadded endpoint hm with hold | ⟨member, hmem, hne, rfl⟩
      · obtain ⟨cap, hcap⟩ := Option.isSome_iff_exists.1 hold
        exact absurd (ok.rooms.member hcap).2 (by simp [hnone])
      · exact .inl ((hlisted member hmem).1 hne)
    · rcases haddedRoles role hm with hold | ⟨member, hmem, hempty, rfl⟩
      · obtain ⟨cap, hcap⟩ := Option.isSome_iff_exists.1 hold
        exact absurd (ok.rooms.roleMember hcap).2 (by simp [hnone])
      · exact .inr ⟨member.role, (hlisted member hmem).2 hempty, hlive⟩
  intro c' _ hx'
  refine sessionOccupies_eq_ok he (forM_eq_ok.1 (hreject hnamed) endpoint hsession) ?_ hx'
  rintro rfl
  obtain ⟨row', hrow', -⟩ := exclusiveConversation_iff.1 hx'
  rw [hid] at hrow'
  cases hrow'

/-- **A direct room** has no name and no claim. -/
theorem getOrCreateDirectConversation_guarded {low high fromRole toRole : String} {now' : Int} (ok : StoreOK s)
    (hid : s.rooms.Identified) (hfresh : id ≠ "")
    (h : getOrCreateDirectConversation s.rooms low high fromRole toRole now' id = .ok (r', c)) :
    r' = s.rooms ∨ c = id ∧ SameElsewhere s.rooms id r' ∧ r'.Identified ∧
      exclusiveConversation r' id = false := by
  rcases getOrCreateDirectConversation_eq_ok h with ⟨rfl, -⟩ | ⟨rfl, conversations, t₁, t₂, direct, hinsert, ht₁, ht₂,
    -, rfl⟩
  · exact .inl rfl
  · have hnone := (Table.insert?_eq_some hinsert).1
    have hsame : SameElsewhere s.rooms c { s.rooms with
        conversations, roleMemberships := t₂, directConversations := direct } := by
      refine ⟨fun c' hc => ?_, fun _ _ _ => rfl, fun c' role hc => ?_, fun _ _ => rfl⟩
      · simp [Table.find?_insert? hinsert, hc]
      · simp [Table.find?_insert? ht₂, Table.find?_insert? ht₁, hc]
    refine .inr ⟨rfl, hsame, hsame.identified hfresh hid, ?_⟩
    rw [← Bool.not_eq_true, exclusiveConversation_iff]
    rintro ⟨row, hrow, hx⟩
    simp only [Table.find?_insert? hinsert, if_true, Option.some.injEq] at hrow
    rcases hx with hx | hx
    · exact hx (by rw [← hrow]; rfl)
    · obtain ⟨claim, hclaim⟩ := Option.isSome_iff_exists.1 hx
      simpa [hnone] using ok.rooms.claimed hclaim

theorem sendDirectMessage_guarded {input : DirectMessageInput} {ids : DirectIDs} {answer : Message × Bool}
    (ok : StoreOK s) (hid : s.rooms.Identified) (hfresh : ids.conversationID ≠ "")
    (h : sendDirectMessage E s input ids = .ok (s', answer)) :
    ∃ c, Guarded p s.rooms now c s'.rooms := by
  rcases sendDirectMessage_eq_ok h with _ | ⟨hpair, hget, -, hwrite, -⟩
  · exact ⟨"", .refl hid ""⟩
  · obtain ⟨hrooms, hmail, hdirect⟩ := getOrCreateDirectConversation_spec ok hpair hget
    obtain ⟨-, -, -, conversations, n, halloc, rfl⟩ := writeDirectMessage_spec hrooms hmail hpair hdirect hwrite
    rcases getOrCreateDirectConversation_guarded ok hid hfresh hget with rfl | ⟨rfl, hsame, hid', hx⟩
    · exact ⟨_, .allocate hid halloc⟩
    · have hg : Guarded p _ now ids.conversationID _ := .allocate hid' halloc
      refine ⟨ids.conversationID, hsame.trans hg.same, hg.identified, fun endpoint he hx' ho => ?_⟩
      rcases hg.guard endpoint he hx' ho with ⟨hx'', -⟩ | hnone
      · rw [hx] at hx''
        cases hx''
      · exact .inr fun c' hc hx'' ho' => hnone c' hc (by rwa [hsame.exclusive hc]) ((hsame.occupies hc).2 ho')

/-! ## Changed rooms -/

theorem applyControl_guarded {input : ControlInput} {event : ControlEvent × Bool}
    (hid : s.rooms.Identified) (h : applyControl E s input id = .ok (s', event)) :
    ∃ c, Guarded s.presence s.rooms input.now c s'.rooms := by
  rcases applyControl_eq_ok h with rfl | ⟨s₁, t, t', -, -, -, hchange | hchange, rfl⟩
  · exact ⟨"", .refl hid ""⟩
  · obtain ⟨hnew, mail, invocations, -, rfl⟩ := upsertMember_frame hchange
    refine ⟨input.conversationID, .member hid (fun k => Table.find?_put) fun _ hnone hx => ?_⟩
    have hcheck := hnew hnone
    simp only [checkNewMember, conversationIsExclusive, ok_rules] at hcheck
    obtain ⟨_, -, _, -, _, ⟨row, hrow, rfl⟩, hcheck⟩ := hcheck
    have hexclusive : exclusiveConversationPredicate s.rooms input.conversationID row := by
      simpa [exclusiveConversation, hrow] using hx
    rwa [if_pos hexclusive] at hcheck
  · obtain ⟨mail, rfl⟩ := removeMember_frame hchange
    exact ⟨_, .dropMember hid (input.conversationID, input.member.endpoint)⟩

theorem setConversationDisplayName_guarded {input : SetDisplayNameInput} {answer : Conversation × Bool}
    (hid : s.rooms.Identified) (h : setConversationDisplayName E s input = .ok (s', answer)) :
    ∃ c, Guarded s.presence s.rooms input.now c s'.rooms := by
  rcases setConversationDisplayName_eq_ok h with ⟨_, rfl⟩ | ⟨row, name, _, hrow, -, -, hcheck, rfl⟩
  · exact ⟨"", .refl hid ""⟩
  · exact ⟨input.conversationID, .rename hid hrow hcheck⟩

theorem reserveTelegramClaim_guarded {input : TelegramClaimInput} (hid : s.rooms.Identified)
    (h : reserveTelegramClaim E s input = .ok (s', answer)) : ∃ c, Guarded p s.rooms now c s'.rooms := by
  rcases reserveTelegramClaim_eq_ok h with _ | _ | ⟨hrow, hnamed, -, -, hinsert⟩
  · exact ⟨"", .refl hid ""⟩
  · exact ⟨"", .refl hid ""⟩
  · refine ⟨input.conversationID, .fewer ⟨fun _ _ => rfl, fun _ _ _ => rfl, fun _ _ _ => rfl, fun c' hc => ?_⟩ hid
      (fun _ => exclusiveConversation_iff.2 ⟨_, hrow, .inl hnamed⟩) fun _ _ ho => ho⟩
    simp [Table.find?_insert? hinsert, hc]

theorem completeTelegramClaim_guarded {input : TelegramClaimCompleteInput} (hid : s.rooms.Identified)
    (h : completeTelegramClaim s input id = .ok (s', answer)) : ∃ c, Guarded p s.rooms now c s'.rooms := by
  rcases completeTelegramClaim_eq_ok h with rfl | ⟨claim, _, rooms, mail, _, _, participants, events, hclaim, -, hrow,
    hensure, -, -, -, rfl⟩
  · exact ⟨"", .refl hid ""⟩
  · obtain ⟨t, rfl, hwrote, -⟩ := ensureTelegramGatewayMembership_eq_ok hensure
    refine ⟨input.conversationID, .fewer ⟨fun _ _ => rfl, fun c' e hc => hwrote.else _ (by simp [hc]),
      fun _ _ _ => rfl, fun c' hc => by simp [hc]⟩ hid (fun hx => ?_) fun e he ho => ho.imp_left fun hm => ?_⟩
    · exact exclusiveConversation_iff.2 ⟨_, hrow, .inr (by simp [hclaim])⟩
    · have hne : (input.conversationID, e) ≠ (input.conversationID, telegramGatewayEndpoint) := by
        simpa [telegramPrimaryEndpoint] using he
      rwa [show Table.find? _ _ = _ from hwrote.else _ hne] at hm

theorem prepareTelegramAdopt_guarded {input : AdoptPrepareInput} {wallClock : Int}
    (hid : s.rooms.Identified) (h : prepareTelegramAdopt s input wallClock = .ok s') :
    ∃ c, Guarded s.presence s.rooms (if input.now = zeroTime then wallClock else input.now) c s'.rooms := by
  obtain ⟨row, name, m₁, n, m₂, -, hrow, hunnamed, -, -, -, hreject, rfl⟩ := prepareTelegramAdopt_eq_ok h
  simp only [rejectAdoptPrepareOccupancy, bind_eq_ok] at hreject
  obtain ⟨_, -, _, -, hreject⟩ := hreject
  have hdrop : SameElsewhere s.rooms input.nonKeeperID (s.rooms.dropRole input.nonKeeperID telegramCodexRole) := by
    refine ⟨fun _ _ => rfl, fun _ _ _ => rfl, fun c' role hc => ?_, fun _ _ => rfl⟩
    ext cap
    rw [find?_dropRole]
    simp [hc]
  have hg : Guarded s.presence (s.rooms.dropRole input.nonKeeperID telegramCodexRole)
      (if input.now = zeroTime then wallClock else input.now) input.nonKeeperID
      ((s.rooms.dropRole input.nonKeeperID telegramCodexRole).rename input.nonKeeperID name) :=
    .rename hid hrow fun _ => hreject
  refine ⟨input.nonKeeperID, hdrop.trans hg.same, hg.identified, fun endpoint he hx ho => ?_⟩
  -- The occupants were checked after the role was dropped; elsewhere that changed nothing.
  exact .inr fun c' hc hx' ho' => rejectExclusiveOccupants_eq_ok he hreject ho hc
    (by rwa [hdrop.exclusive hc]) ((hdrop.occupies hc).2 ho')

/-! ## Runs -/

/-- A fresh identifier of a conversation is not empty (`uuid.NewString`). -/
def Op.Identified : Op → Prop
  | .createConversation _ _ _ id | .createConversationIdempotent _ id => id ≠ ""
  | .sendDirectMessage _ ids => ids.conversationID ≠ ""
  | _ => True

instance (op : Op) : Decidable op.Identified := by
  unfold Op.Identified
  split <;> infer_instance

theorem createConversation_guarded {conversation : Conversation} (ok : StoreOK s) (hid : s.rooms.Identified)
    (hfresh : id ≠ "") (h : createConversation E s input id = .ok (s', conversation)) :
    ∃ c, Guarded s.presence s.rooms input.now c s'.rooms := by
  rcases createConversation_eq_ok h with rfl | ⟨name, endpoints, roles, s₁, t, -, hcheck, hcreate, rfl⟩
  · exact ⟨"", .refl hid ""⟩
  · have hg := createRoom_guarded ok hid hfresh hcheck hcreate
    exact ⟨id, hg⟩

/-- The rooms of the store differ in one conversation, guarded. -/
def GuardedStore (p : Presence) (r : Rooms) (now : Int) (s' : Store) : Prop := ∃ c, Guarded p r now c s'.rooms

theorem GuardedStore.of_eq (hid : r.Identified) (h : s'.rooms = r) : GuardedStore p r now s' := by
  subst h
  exact ⟨"", .refl hid ""⟩

/-- **Every call changes at most one conversation, and checks who occupies it.** -/
theorem step_guarded (ok : StoreOK s) (hid : s.rooms.Identified) (hop : op.Identified) (t : Int) :
    GuardedStore s.presence s.rooms (op.clock.getD t) (step E s op).1 := by
  by_cases hw : Part.rooms ∈ op.writes
  · have hsame : GuardedStore s.presence s.rooms (op.clock.getD t) s := .of_eq hid rfl
    unfold step
    cases op with
    | createConversation =>
      exact commit_rule hsame fun s' a h => createConversation_guarded ok hid hop h
    | createConversationIdempotent =>
      exact commit_rule hsame fun s' a h => createConversation_guarded ok hid hop (createConversationIdempotent_eq_ok h)
    | applyControl => exact commit_rule hsame fun s' a h => applyControl_guarded hid h
    | setConversationDisplayName input =>
      exact commit_rule hsame fun s' a h => setConversationDisplayName_guarded hid h
    | reserveTelegramClaim input => exact commit_rule hsame fun s' a h => reserveTelegramClaim_guarded hid h
    | completeTelegramClaim => exact commit_rule hsame fun s' a h => completeTelegramClaim_guarded hid h
    | prepareTelegramAdopt =>
      exact commitDone_rule hsame fun s' h => prepareTelegramAdopt_guarded hid h
    | appendMessage =>
      exact commit_rule hsame fun s' a h => (appendMessage_spec ok h).2.2.1.guarded hid
    | appendTelegramInbound =>
      exact commit_rule hsame fun s' a h => (appendTelegramInbound_spec ok h).2.2.1.guarded hid
    | sendDirectMessage =>
      exact commit_rule hsame fun s' a h => sendDirectMessage_guarded ok hid hop h
    | _ => exact absurd hw (by simp [Op.writes])
  · exact .of_eq hid ((step_frame op).rooms hw)

theorem run_presenceOK (ops : List Op) : PresenceOK (run E Store.empty ops).presence := by
  simpa [stateAt] using stateAt_presenceOK (E := E) ops ops.length

/-- One call, whichever it is, keeps the invariant from its own instant on. -/
theorem step_occupiesOne (ok : StoreOK s) (pok : PresenceOK s.presence) (hid : s.rooms.Identified)
    (hop : op.Identified) (hclock : ∀ now, op.clock = some now → now ≤ t)
    (h : OccupiesOne s.presence s.rooms (op.clock.getD t)) :
    OccupiesOne (step E s op).1.presence (step E s op).1.rooms t ∧
      (step E s op).1.rooms.Identified := by
  obtain ⟨c, hg⟩ := step_guarded (E := E) ok hid hop t
  refine ⟨?_, hg.identified⟩
  by_cases hbind : ∃ machineID role session now ttl, op = .bindRoleToSession machineID role session now ttl
  · obtain ⟨machineID, role, session, now, ttl, hcall⟩ := hbind
    have hnow : op.clock = some now := by
      rw [hcall]
      rfl
    rw [hnow] at h
    exact bindRoleToSession_occupies pok hcall (hclock now hnow) h
  · exact (hg.occupiesOne h).across pok hclock fun m role e n l heq => hbind ⟨m, role, e, n, l, heq⟩

theorem run_occupiesOne {ops : List Op} (hclock : Ordered ops) (hids : ∀ op ∈ ops, op.Identified)
    (ht : ∀ now ∈ ops.filterMap Op.clock, now ≤ t) :
    OccupiesOne (run E Store.empty ops).presence (run E Store.empty ops).rooms t ∧
      (run E Store.empty ops).rooms.Identified := by
  induction ops using List.reverseRecOn generalizing t with
  | nil =>
    refine ⟨fun endpoint _ c c' hx => ?_, rfl⟩
    cases hx
  | append_singleton ops op ih =>
    rw [Ordered, List.filterMap_append, List.pairwise_append] at hclock
    obtain ⟨hordered, -, hlast⟩ := hclock
    simp only [List.filterMap_append, List.mem_append] at ht
    have hbefore : ∀ now ∈ ops.filterMap Op.clock, now ≤ op.clock.getD t := by
      intro now hnow
      cases hc : op.clock with
      | none => exact ht now (.inl hnow)
      | some now' => exact hlast now hnow now' (by simp [hc])
    obtain ⟨hone, hid⟩ := ih hordered (fun o ho => hids o (List.mem_append_left _ ho)) hbefore
    have hrun : run E Store.empty (ops ++ [op]) = (step E (run E Store.empty ops) op).1 := by
      simp [run]
    rw [hrun]
    exact step_occupiesOne (run_ok ops) (run_presenceOK ops) hid
      (hids op (List.mem_append_right _ (List.mem_singleton_self _)))
      (fun now hnow => ht now (.inr (by simp [hnow]))) hone

/-! ## The session's topic -/

theorem sessionTopics_length_le_one (he : endpoint ≠ telegramPrimaryEndpoint) (h : OccupiesOne p r now) :
    (sessionTopics p r endpoint now).length ≤ 1 := by
  unfold sessionTopics
  rw [List.length_map]
  have hoccupied : ∀ topic ∈ r.conversations.rows.filter fun c => exclusiveConversationPredicate r c.1 c.2 &&
      ((r.memberships.find? (c.1, endpoint)).isSome || c.1 ∈ boundConversations p r endpoint none now),
      exclusiveConversation r topic.1 ∧ Occupies p r endpoint topic.1 now := by
    intro topic htopic
    simp only [List.mem_filter, Bool.and_eq_true, Bool.or_eq_true, decide_eq_true_eq, mem_boundConversations] at htopic
    obtain ⟨hmem, hx, ho⟩ := htopic
    refine ⟨?_, ho.imp_right (Exists.imp fun _ h => ⟨h.1, h.2.1⟩)⟩
    rw [exclusiveConversation, Table.find?_eq_some_iff_mem.2 hmem]
    exact hx
  have hnodup := r.conversations.nodup.sublist (List.Sublist.map Prod.fst (List.filter_sublist
    (p := fun c : String × ConversationRow => exclusiveConversationPredicate r c.1 c.2 &&
      ((r.memberships.find? (c.1, endpoint)).isSome || c.1 ∈ boundConversations p r endpoint none now))))
  generalize r.conversations.rows.filter _ = topics at hoccupied hnodup ⊢
  rcases topics with _ | ⟨a, _ | ⟨b, topics⟩⟩
  · exact Nat.zero_le 1
  · exact le_rfl
  · obtain ⟨hxa, hoa⟩ := hoccupied a (by simp)
    obtain ⟨hxb, hob⟩ := hoccupied b (by simp)
    have hab := h endpoint he a.1 b.1 hxa hxb hoa hob
    simp [hab] at hnodup

theorem sessionTopic_ne_conflict {machineID : String} (he : endpoint ≠ telegramPrimaryEndpoint)
    (h : OccupiesOne s.presence s.rooms now) : sessionTopic s machineID endpoint now ≠ .error .conflict := by
  have hlength := sessionTopics_length_le_one he h
  have hsafe : OnError (· ≠ Err.conflict) (sessionTopic s machineID endpoint now) := by
    simp only [sessionTopic, endpointOwnedBy, endpointOwnership, onError_bind, onError_require]
    refine ⟨fun _ => by simp, fun _ _ => ⟨⟨⟨?_, by simp⟩, by simp⟩, fun _ _ => ?_⟩⟩
    · unfold endpointOwnershipUntil
      split <;> simp
    · generalize sessionTopics s.presence s.rooms endpoint now = topics at hlength ⊢
      rcases topics with _ | ⟨_, _ | _⟩
      · simp
      · simp
      · simp at hlength
  exact fun hconflict => hsafe _ hconflict rfl

/-- **Exclusive occupancy.** At every instant after the calls, no endpoint but the gateway occupies two
exclusive conversations, and no session's topic is ambiguous. -/
theorem exclusive_occupancy (E : Env) (ops : List Op) (hclock : Ordered ops) (hids : ∀ op ∈ ops, op.Identified)
    (now : Int) (hnow : ∀ t ∈ ops.filterMap Op.clock, t ≤ now) :
    let s := run E Store.empty ops
    OccupiesOne s.presence s.rooms now ∧
      ∀ machineID endpoint, endpoint ≠ telegramPrimaryEndpoint →
        sessionTopic s machineID endpoint now ≠ .error .conflict := by
  obtain ⟨hone, -⟩ := run_occupiesOne (E := E) hclock hids hnow
  exact ⟨hone, fun machineID endpoint he => sessionTopic_ne_conflict he hone⟩

/-- A session opens a named room, and may not open a second one. -/
def occupiedRun : List Op :=
  [.advertiseEndpoints "desk" ["desk/alice"] 0 60000000000,
    .createConversationIdempotent
      ⟨"desk", "", "first", "desk/alice", "Lobby", [⟨"desk/alice", "", "", 7⟩], 1000000000⟩ "lobby",
    .createConversationIdempotent
      ⟨"desk", "", "second", "desk/alice", "Attic", [⟨"desk/alice", "", "", 7⟩], 2000000000⟩ "attic"]

theorem exclusive_occupancy_occupiedRun :
    sessionTopic (run ⟨fun x => x, fun _ => true⟩ Store.empty occupiedRun) "desk" "desk/alice" 3000000000 =
      .ok ⟨"lobby", "Lobby", false⟩ ∧
    OccupiesOne (run ⟨fun x => x, fun _ => true⟩ Store.empty occupiedRun).presence
      (run ⟨fun x => x, fun _ => true⟩ Store.empty occupiedRun).rooms 3000000000 :=
  ⟨by decide +kernel, (exclusive_occupancy ⟨fun x => x, fun _ => true⟩ occupiedRun (by decide) (by decide)
    3000000000 (by decide)).1⟩

end

end Punaro
