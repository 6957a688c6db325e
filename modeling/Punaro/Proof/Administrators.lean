import Punaro.Proof.Claims

/-!
# Every room has an administrator

A room is created by one of its administrators, and a call that would take the right
to administer from the last one is refused. Direct conversations have none.
-/

namespace Punaro

open Outcome

/-- Some member, an endpoint or a role, may administer the conversation. -/
def Administered (r : Rooms) (c : String) : Prop :=
  (∃ endpoint cap, r.memberships.find? (c, endpoint) = some cap ∧ Capability.has cap capAdmin) ∨
    ∃ role cap, r.roleMemberships.find? (c, role) = some cap ∧ Capability.has cap capAdmin

/-- Every conversation that is not a direct one has an administrator. -/
def AllAdministered (r : Rooms) : Prop :=
  ∀ c, (r.conversations.find? c).isSome → NotDirect r c → Administered r c

section

variable {E : Env} {s s' : Store} {op : Op} {r r' : Rooms} {c endpoint : String}
variable {members : List Member} {conversations : Table String ConversationRow}
  {t : Table (String × String) Capability}

theorem Administered.congr (h : Administered r c)
    (hmembers : ∀ e, r'.memberships.find? (c, e) = r.memberships.find? (c, e))
    (hroles : ∀ role, r'.roleMemberships.find? (c, role) = r.roleMemberships.find? (c, role)) :
    Administered r' c := by
  simpa only [Administered, hmembers, hroles] using h

/-! ## The administrators that remain -/

theorem exists_of_remainingAdmins (h : remainingAdmins r c endpoint ≠ 0) :
    (∃ e cap, e ≠ endpoint ∧ r.memberships.find? (c, e) = some cap ∧ Capability.has cap capAdmin) ∨
      ∃ role cap, r.roleMemberships.find? (c, role) = some cap ∧ Capability.has cap capAdmin := by
  have hsplit : (r.memberships.rows.filter fun m => m.1.1 == c && Capability.has m.2 capAdmin &&
      m.1.2 != endpoint) ≠ [] ∨
      (r.roleMemberships.rows.filter fun m => m.1.1 == c && Capability.has m.2 capAdmin) ≠ [] := by
    unfold remainingAdmins at h
    by_contra hnone
    rw [not_or, not_not, not_not] at hnone
    rw [hnone.1, hnone.2] at h
    exact h rfl
  rcases hsplit with hne | hne
  · obtain ⟨⟨⟨c', e⟩, cap⟩, hmem⟩ := List.exists_mem_of_ne_nil _ hne
    simp only [List.mem_filter, Bool.and_eq_true, beq_iff_eq, bne_iff_ne] at hmem
    obtain ⟨hrow, ⟨rfl, hadmin⟩, hother⟩ := hmem
    exact .inl ⟨e, cap, hother, Table.find?_eq_some_iff_mem.2 hrow, hadmin⟩
  · obtain ⟨⟨⟨c', role⟩, cap⟩, hmem⟩ := List.exists_mem_of_ne_nil _ hne
    simp only [List.mem_filter, Bool.and_eq_true, beq_iff_eq] at hmem
    obtain ⟨hrow, rfl, hadmin⟩ := hmem
    exact .inr ⟨role, cap, Table.find?_eq_some_iff_mem.2 hrow, hadmin⟩

/-- Writing one membership leaves an administrator, if whoever loses the right is not the last to have it. -/
theorem Administered.setMember (h : Administered r c)
    (ht : ∀ k, k ≠ (c, endpoint) → t.find? k = r.memberships.find? k)
    (hloses : ∀ previous, r.memberships.find? (c, endpoint) = some previous → Capability.has previous capAdmin →
      (∃ cap, t.find? (c, endpoint) = some cap ∧ Capability.has cap capAdmin) ∨ remainingAdmins r c endpoint ≠ 0) :
    Administered { r with memberships := t } c := by
  have hother : ∀ {e cap}, e ≠ endpoint → r.memberships.find? (c, e) = some cap → Capability.has cap capAdmin →
      Administered { r with memberships := t } c := by
    intro e cap hne hrow hadmin
    exact .inl ⟨e, cap, (ht (c, e) (by simpa using hne)).trans hrow, hadmin⟩
  rcases h with ⟨e, cap, hrow, hadmin⟩ | hrole
  · by_cases he : e = endpoint
    · subst he
      rcases hloses cap hrow hadmin with ⟨cap', hcap', hadmin'⟩ | hremaining
      · exact .inl ⟨e, cap', hcap', hadmin'⟩
      · rcases exists_of_remainingAdmins hremaining with ⟨e', cap', hne, hrow', hadmin'⟩ | hrole
        · exact hother hne hrow' hadmin'
        · exact .inr hrole
    · exact hother he hrow hadmin
  · exact .inr hrole

/-! ## New rooms -/

theorem has_admin_of_full {cap : Capability}
    (h : cap &&& (capSend ||| capReceive ||| capAdmin) = capSend ||| capReceive ||| capAdmin) :
    Capability.has cap capAdmin := by
  have hmask : (capSend ||| capReceive ||| capAdmin) &&& capAdmin = capAdmin := by decide
  have hcap : cap &&& capAdmin = capAdmin := by
    rw [← hmask, ← UInt8.and_assoc, h]
  rw [Capability.has, hcap]
  decide

/-- A creator that passes the check is listed with the right to administer. -/
theorem checkMember_creator {creator : String} {seen : List String × List String × Bool}
    {endpoints roles : List String}
    (h : members.foldlM (checkMember creator) seen = .ok (endpoints, roles, true)) :
    seen.2.2 = true ∨ ∃ member ∈ members, member.endpoint ≠ "" ∧ Capability.has member.capabilities capAdmin := by
  induction members generalizing seen with
  | nil =>
    cases h
    exact .inl rfl
  | cons member rest ih =>
    rw [List.foldlM_cons, bind_eq_ok] at h
    obtain ⟨seen', hcheck, h⟩ := h
    rcases ih h with hseen | ⟨other, hmem, hother⟩
    · simp only [checkMember, ok_rules] at hcheck
      obtain ⟨-, -, hcheck⟩ := hcheck
      split at hcheck
      · rename_i hkind
        simp only [ok_rules] at hcheck
        obtain ⟨-, -, -, -, rfl⟩ := hcheck
        rw [Bool.or_eq_true, Bool.and_eq_true, beq_iff_eq, beq_iff_eq] at hseen
        refine hseen.imp_right fun h => ⟨member, List.mem_cons_self, hkind.1, has_admin_of_full h.2⟩
      · split at hcheck
        · simp only [ok_rules] at hcheck
          obtain ⟨-, -, -, -, rfl⟩ := hcheck
          exact .inl hseen
        · cases hcheck
    · exact .inr ⟨other, List.mem_cons_of_mem _ hmem, hother⟩

/-- Adding members keeps the endpoints that are there and writes the listed ones. -/
theorem addMember_writes {id : String} (h : members.foldlM (addMember id) r = .ok r') :
    (∀ k cap, r.memberships.find? k = some cap → r'.memberships.find? k = some cap) ∧
      ∀ member ∈ members, member.endpoint ≠ "" →
        r'.memberships.find? (id, member.endpoint) = some member.capabilities := by
  induction members generalizing r with
  | nil =>
    cases h
    exact ⟨fun _ _ hrow => hrow, fun _ hmem => absurd hmem List.not_mem_nil⟩
  | cons member rest ih =>
    rw [List.foldlM_cons, bind_eq_ok] at h
    obtain ⟨r₁, hadd, h⟩ := h
    obtain ⟨hkeep, hwrites⟩ := ih h
    simp only [addMember] at hadd
    split at hadd
    · simp only [ok_rules] at hadd
      obtain ⟨t, ht, rfl⟩ := hadd
      refine ⟨fun k cap hrow => hkeep k cap (Table.find?_insert?_of_some ht hrow),
        List.forall_mem_cons.2 ⟨fun _ => hkeep _ _ ?_, hwrites⟩⟩
      exact (Table.find?_insert? ht _).trans (if_pos rfl)
    · rename_i hkind
      simp only [ok_rules] at hadd
      obtain ⟨t, ht, rfl⟩ := hadd
      exact ⟨hkeep, List.forall_mem_cons.2 ⟨fun hne => absurd hne hkind, hwrites⟩⟩

/-- A new room is administered, and the others are as they were. -/
theorem AllAdministered.create {creator id : String} {endpoints roles : List String} {row : ConversationRow}
    (h : AllAdministered r) (ok : RoomsOK r)
    (checked : members.foldlM (checkMember creator) ([], [], false) = .ok (endpoints, roles, true))
    (insert : r.conversations.insert? id row = some conversations)
    (joins : members.foldlM (addMember id) { r with conversations } = .ok r') : AllAdministered r' := by
  have hchecked : ∀ member ∈ members, member.Checked := by
    intro member hm
    obtain ⟨_, _, hone⟩ := foldlM_mem checked member hm
    exact checkMember_checked hone
  obtain ⟨hjoining, hdirect, -⟩ := joining_members ok insert hchecked joins
  have hsame := hjoining.elsewhere insert
  intro c hc hd
  by_cases hid : c = id
  · subst hid
    rcases checkMember_creator checked with hflag | ⟨member, hmem, hne, hadmin⟩
    · cases hflag
    · exact .inl ⟨member.endpoint, member.capabilities, (addMember_writes joins).2 member hmem hne, hadmin⟩
  · rw [hsame.conversations c hid] at hc
    have hadministered := h c hc fun k d hk => hd k d (hdirect ▸ hk)
    exact hadministered.congr (fun e => hsame.members c e hid) fun role => hsame.roleMembers c role hid

/-! ## One call -/

/-- Only the rows of conversations change, and none of them is new. -/
theorem AllAdministered.of_conversations (h : AllAdministered r)
    (hsome : ∀ c, (conversations.find? c).isSome = (r.conversations.find? c).isSome) :
    AllAdministered { r with conversations } :=
  fun c hc hd => h c (hsome c ▸ hc) hd

theorem isSome_updateAt {t : Table String ConversationRow} (f : ConversationRow → ConversationRow) (c' c : String) :
    ((t.updateAt c' f).find? c).isSome = (t.find? c).isSome := by
  rw [Table.find?_updateAt]
  split
  · rw [Option.isSome_map]
  · rfl

theorem AllAdministered.allocate {n : ℕ} (h : AllAdministered r)
    (halloc : allocateSequence r.conversations c = .ok (conversations, n)) :
    AllAdministered { r with conversations } := by
  obtain ⟨_, -, -, rfl⟩ := allocateSequence_eq_ok halloc
  exact h.of_conversations fun c' => isSome_updateAt _ c c'

/-- Writing one membership. -/
theorem AllAdministered.setMember (h : AllAdministered r)
    (ht : ∀ k, k ≠ (c, endpoint) → t.find? k = r.memberships.find? k)
    (hloses : ∀ previous, r.memberships.find? (c, endpoint) = some previous → Capability.has previous capAdmin →
      (∃ cap, t.find? (c, endpoint) = some cap ∧ Capability.has cap capAdmin) ∨ remainingAdmins r c endpoint ≠ 0) :
    AllAdministered { r with memberships := t } := by
  intro c' hc' hd
  have hadministered := h c' hc' hd
  by_cases heq : c' = c
  · subst heq
    exact hadministered.setMember ht hloses
  · exact hadministered.congr (fun e => ht (c', e) (by simp [heq])) fun _ => rfl

/-- **One call** leaves every room an administrator. -/
theorem RoomsCase.administered (h : RoomsCase s op r') (ok : RoomsOK s.rooms) (hc : ∀ c, ClaimOK s.rooms c)
    (hall : AllAdministered s.rooms) : AllAdministered r' := by
  cases h with
  | same => exact hall
  | sequence posts allocates => exact hall.allocate allocates
  | created fresh checked insert joins => exact hall.create ok checked insert joins
  | @wrote c endpoint capabilities unreserved guard =>
    refine hall.setMember (fun k (hk : k ≠ (c, endpoint)) => by rw [Table.find?_put, if_neg hk])
      fun previous hprevious hadmin => ?_
    by_cases hkeeps : Capability.has capabilities capAdmin
    · exact .inl ⟨capabilities, by rw [Table.find?_put, if_pos rfl], hkeeps⟩
    · exact .inr (guard previous hprevious hadmin hkeeps)
  | @dropped c endpoint unreserved guard =>
    refine hall.setMember (fun k (hk : k ≠ (c, endpoint)) => ?_)
      fun previous hprevious hadmin => .inr (guard previous hprevious hadmin)
    ext cap
    rw [Table.find?_deleteWhere_eq_some]
    simp [hk]
  | @renamed c displayName => exact hall.of_conversations fun c' => isSome_updateAt _ c c'
  | claimed => exact hall
  | @completed c id claim at' event memberships participants events found pending joins =>
    -- The gateway was no member before, so it takes nobody's place.
    have hnone : s.rooms.memberships.find? (c, telegramGatewayEndpoint) = none := by
      rw [(hc c).gateway, if_neg]
      simp [Rooms.completed, found, pending]
    have hwritten := hall.setMember (t := memberships) joins.else fun previous hprevious => by
      rw [hnone] at hprevious
      cases hprevious
    exact hwritten
  | adopted room unnamed gateway => exact ((hc _).not_adopted room unnamed gateway).elim
  | @direct low high fromRole toRole id c now rooms conversations n directs fresh pair room allocates =>
    refine AllAdministered.allocate ?_ allocates
    rcases getOrCreateDirectConversation_eq_ok room with
      ⟨rfl, -⟩ | ⟨rfl, _, t₁, t₂, _, hinsert, ht₁, ht₂, hdirect, rfl⟩
    · exact hall
    · intro c' hc' hd
      have hnew : c' ≠ c := by
        rintro rfl
        exact hd (low, high) ⟨c', unixMilli now⟩ ((Table.find?_insert? hdirect _).trans (if_pos rfl)) rfl
      rw [Table.find?_insert? hinsert, if_neg hnew] at hc'
      have hadministered := hall c' hc' fun k d hk => hd k d (Table.find?_insert?_of_some hdirect hk)
      refine hadministered.congr (fun _ => rfl) fun role => ?_
      rw [Table.find?_insert? ht₂, Table.find?_insert? ht₁, if_neg (by simp [hnew]), if_neg (by simp [hnew])]

/-! ## Over a run -/

theorem stateAt_administered (ops : List Op) (n : ℕ) : AllAdministered (stateAt E ops n).rooms :=
  stateAt_rule (P := fun s => AllAdministered s.rooms) (Nat.zero_le n)
    (fun k op _ _ _ h => (step_rooms op).administered (stateAt_ok ops k).rooms (stateAt_claimOK ops k) h)
    fun c hc => by
      rw [stateAt_zero] at hc
      cases hc

/-- Rooms stay administered, and a refused control call changes nothing. -/
structure Administrable (E : Env) (ops : List Op) : Prop where
  administered : ∀ n c, ((stateAt E ops n).rooms.conversations.find? c).isSome →
    NotDirect (stateAt E ops n).rooms c → Administered (stateAt E ops n).rooms c
  refused : ∀ n input id e, ops[n]? = some (.applyControl input id) → replyAt E ops n = some (.refused e) →
    stateAt E ops (n + 1) = stateAt E ops n

/-- **Administrability**, over any calls of any actors. -/
theorem administrable (E : Env) (ops : List Op) : Administrable E ops where
  administered n := stateAt_administered ops n
  refused n input id e hop hreply := by
    rw [replyAt, hop, Option.map_some, Option.some.injEq] at hreply
    have hx := commit_refused (fun _ => by simp) hreply
    rw [stateAt_succ hop]
    simp only [step, commit, hx]

end

end Punaro
