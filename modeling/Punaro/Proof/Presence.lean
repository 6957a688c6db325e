import Punaro.Proof.Steps

/-!
# How presence moves

Three calls change endpoints and bindings: advertising, binding a role and leasing
(`PresenceCase`). An endpoint keeps its row for ever. Its generations never go down,
and while the ownership generation stands still the machine is the same and the
lease is only extended before it runs out (`EndpointRow.Next`). A binding is
replaced by binding the role again, and otherwise only renewed while it is live
together with its session (`Rebound`).
-/

namespace Punaro

open Outcome

section

variable {E : Env} {s s' : Store} {machineID : String} {endpoints : List String} {now ttl leaseUntil : Int}
variable {row row' : EndpointRow} {id e : String} {input : CreateConversationInput}

/-! ## Advertising -/

theorem checkEndpoints_eq_ok {seen : List String} (h : checkEndpoints seen endpoints = .ok ()) :
    endpoints.Nodup ∧ (∀ e ∈ endpoints, validEndpoint e) ∧ ∀ e ∈ endpoints, e ∉ seen := by
  induction endpoints generalizing seen with
  | nil => simp
  | cons e rest ih =>
    simp only [checkEndpoints, ok_rules] at h
    obtain ⟨-, hvalid, -, hseen, h⟩ := h
    obtain ⟨hnodup, hrest, hnew⟩ := ih h
    refine ⟨List.nodup_cons.2 ⟨fun he => hnew e he List.mem_cons_self, hnodup⟩, ?_, ?_⟩
    · simpa using ⟨hvalid, hrest⟩
    · simpa using ⟨hseen, fun a ha => fun h => hnew a ha (List.mem_cons_of_mem _ h)⟩

theorem find?_endpoints_advertised (hnodup : endpoints.Nodup) (p : Presence) (e : String) :
    (endpoints.foldl (advertiseEndpoint machineID now leaseUntil) p).endpoints.find? e =
      if e ∈ endpoints then some (advertisedRow (p.endpoints.find? e) machineID now leaseUntil)
      else p.endpoints.find? e := by
  induction endpoints generalizing p with
  | nil => simp
  | cons x rest ih =>
    obtain ⟨hx, hrest⟩ := List.nodup_cons.1 hnodup
    rw [List.foldl_cons, ih hrest]
    by_cases he : e = x
    · subst he
      simp [hx, advertiseEndpoint]
    · simp [he, advertiseEndpoint]

/-- A binding after its session was advertised. -/
def renewedBinding (p : Presence) (machineID : String) (endpoints : List String) (now leaseUntil : Int)
    (b : RoleBindingRow) : RoleBindingRow :=
  if b.sessionEndpoint ∈ endpoints ∧ b.boundTo machineID b.sessionEndpoint
      (advertisedRow (p.endpoints.find? b.sessionEndpoint) machineID now leaseUntil).ownershipGeneration now then
    { b with leaseUntil }
  else b

theorem find?_roleBindings_advertised (hnodup : endpoints.Nodup) (p : Presence) (role : String) :
    (endpoints.foldl (advertiseEndpoint machineID now leaseUntil) p).roleBindings.find? role =
      (p.roleBindings.find? role).map (renewedBinding p machineID endpoints now leaseUntil) := by
  induction endpoints generalizing p with
  | nil =>
    have hid : renewedBinding p machineID [] now leaseUntil = id := by
      funext b
      simp [renewedBinding]
    simp [hid]
  | cons x rest ih =>
    obtain ⟨hx, hrest⟩ := List.nodup_cons.1 hnodup
    rw [List.foldl_cons, ih hrest]
    simp only [advertiseEndpoint, Table.find?_update, Option.map_map]
    congr 1
    funext b
    -- Only the pass of the binding's own session can touch it.
    by_cases hb : b.sessionEndpoint = x
    · by_cases hbound : b.boundTo machineID x
        (advertisedRow (p.endpoints.find? x) machineID now leaseUntil).ownershipGeneration now
      · simp [renewedBinding, hb, hx, hbound]
      · simp [renewedBinding, hb, hx, hbound]
    · have hnot : ∀ generation, b.boundTo machineID x generation now = false := by
        simp [RoleBindingRow.boundTo, hb]
      simp [renewedBinding, hb, hnot]

/-! ## Endpoints -/

/-- A later row of the same endpoint. -/
structure EndpointRow.Later (row row' : EndpointRow) : Prop where
  generation_le : row.ownershipGeneration ≤ row'.ownershipGeneration
  consumer_le : row.consumerGeneration ≤ row'.consumerGeneration
  machine : row'.ownershipGeneration = row.ownershipGeneration → row'.machineID = row.machineID
  consumer : row'.ownershipGeneration = row.ownershipGeneration →
    row'.consumerGeneration = row.consumerGeneration → row'.consumerID = row.consumerID

theorem EndpointRow.Later.refl (row : EndpointRow) : row.Later row :=
  ⟨le_rfl, le_rfl, fun _ => rfl, fun _ _ => rfl⟩

theorem EndpointRow.Later.trans {row'' : EndpointRow} (h : row.Later row') (h' : row'.Later row'') :
    row.Later row'' := by
  have hg := h.generation_le
  have hg' := h'.generation_le
  have hc := h.consumer_le
  have hc' := h'.consumer_le
  refine ⟨by omega, by omega, fun heq => ?_, fun heq hceq => ?_⟩
  · exact (h'.machine (by omega)).trans (h.machine (by omega))
  · exact (h'.consumer (by omega) (by omega)).trans (h.consumer (by omega) (by omega))

/-- What a call at `clock` may make of an endpoint row. -/
structure EndpointRow.Next (clock : Option Int) (row row' : EndpointRow) : Prop extends row.Later row' where
  lease : row'.ownershipGeneration = row.ownershipGeneration →
    row'.leaseUntil = row.leaseUntil ∨ ∃ now, clock = some now ∧ unixMilli now < row.leaseUntil

theorem EndpointRow.Next.refl (clock : Option Int) (row : EndpointRow) : row.Next clock row :=
  ⟨.refl row, fun _ => .inl rfl⟩

/-- A row under a new ownership generation. -/
theorem EndpointRow.Next.bump {clock : Option Int} (hg : row.ownershipGeneration < row'.ownershipGeneration)
    (hc : row.consumerGeneration ≤ row'.consumerGeneration) : row.Next clock row' :=
  ⟨⟨hg.le, hc, fun h => absurd h hg.ne', fun h => absurd h hg.ne'⟩, fun h => absurd h hg.ne'⟩

theorem advertisedRow_next (row : EndpointRow) :
    row.Next (some now) (advertisedRow (some row) machineID now leaseUntil) := by
  unfold advertisedRow
  dsimp only
  split
  · exact .bump (Nat.lt_succ_self _) le_rfl
  · rename_i hlive
    rw [not_or, not_not, not_le] at hlive
    exact ⟨⟨le_rfl, le_rfl, fun _ => hlive.1.symm, fun _ _ => rfl⟩, fun _ => .inr ⟨now, rfl, hlive.2⟩⟩

theorem claimConsumer_next {consumerID : String} (h : claimConsumer row consumerID now ttl = .ok row') :
    row.Next (some now) row' ∧ row'.machineID = row.machineID ∧ row'.leaseUntil = row.leaseUntil ∧
      row'.ownershipGeneration = row.ownershipGeneration ∧ row'.consumerID = some consumerID := by
  simp only [claimConsumer, ok_rules] at h
  obtain ⟨-, -, rfl⟩ := h
  refine ⟨⟨⟨le_rfl, ?_, fun _ => rfl, fun _ heq => ?_⟩, fun _ => .inl rfl⟩, rfl, rfl, rfl, rfl⟩
  · dsimp only
    split <;> omega
  · dsimp only at heq
    split at heq
    · rename_i hsame
      exact hsame.1.symm
    · omega

/-! ## The calls that change presence -/

inductive PresenceCase (op : Op) (s s' : Store) : Prop where
  | same (endpoints : s'.presence.endpoints = s.presence.endpoints)
      (bindings : s'.presence.roleBindings = s.presence.roleBindings)
  | advertised {machineID : String} {endpoints : List String} {now ttl : Int}
      (call : op = .advertiseEndpoints machineID endpoints now ttl)
      (done : advertiseEndpoints s machineID endpoints now ttl = .ok s')
  | bound {machineID role session : String} {now ttl : Int}
      (call : op = .bindRoleToSession machineID role session now ttl)
      (done : bindRoleToSession s machineID role session now ttl = .ok s')
  | leased {machineID consumerID endpoint c : String} {now ttl limit : Int} {token : String → String}
      {page : DeliveryLeasePage} (call : op = .leaseDeliveries machineID consumerID endpoint c now ttl limit token)
      (done : leaseDeliveries s machineID consumerID endpoint c now ttl limit token = .ok (s', page))

theorem PresenceCase.of_eq {op : Op} (h : s'.presence = s.presence) : PresenceCase op s s' :=
  .same (by rw [h]) (by rw [h])

theorem createRoom_presence {endpoints roles : List String} {displayName : String}
    (h : createRoom s input endpoints roles displayName id = .ok s') :
    s'.presence.endpoints = s.presence.endpoints ∧ s'.presence.roleBindings = s.presence.roleBindings := by
  obtain ⟨-, -, presence, conversations, rooms, -, -, hclaims, rfl⟩ := createRoom_eq_ok h
  refine foldlM_rule (fun _ p => p.endpoints = s.presence.endpoints ∧ p.roleBindings = s.presence.roleBindings)
    (fun member l p p' hp h => ?_) ⟨rfl, rfl⟩ hclaims
  split at h
  · cases h
    exact hp
  · obtain ⟨he, hb⟩ := claimRole_frame h
    exact ⟨he.trans hp.1, hb.trans hp.2⟩

theorem createConversation_presence {conversation : Conversation}
    (h : createConversation E s input id = .ok (s', conversation)) :
    s'.presence.endpoints = s.presence.endpoints ∧ s'.presence.roleBindings = s.presence.roleBindings := by
  rcases createConversation_eq_ok h with rfl | ⟨_, _, _, s₁, t, -, -, hcreate, rfl⟩
  · exact ⟨rfl, rfl⟩
  · have hframe := createRoom_presence hcreate
    exact hframe

/-- **Every call** leaves presence alone or is one of the three. -/
theorem step_presence (op : Op) : PresenceCase op s (step E s op).1 := by
  by_cases hw : Part.presence ∈ op.writes
  · have hsame : PresenceCase op s s := .of_eq rfl
    unfold step
    cases op with
    | registerRoleProfile input =>
      refine commit_rule hsame fun s' a h => ?_
      obtain ⟨_, _, rfl, he, hb⟩ := registerRoleProfile_eq_ok h
      exact .same he hb
    | advertiseEndpoints =>
      exact commitDone_rule hsame fun s' h => .advertised rfl h
    | bindRoleToSession =>
      exact commitDone_rule hsame fun s' h => .bound rfl h
    | createConversation =>
      refine commit_rule hsame fun s' a h => ?_
      obtain ⟨he, hb⟩ := createConversation_presence h
      exact .same he hb
    | createConversationIdempotent =>
      refine commit_rule hsame fun s' a h => ?_
      obtain ⟨he, hb⟩ := createConversation_presence (createConversationIdempotent_eq_ok h)
      exact .same he hb
    | leaseDeliveries =>
      exact commit_rule hsame fun s' page h => .leased rfl h
    | _ => exact absurd hw (by simp [Op.writes])
  · exact .of_eq ((step_frame op).presence hw)

/-! ## Endpoints and bindings across a call -/

theorem find?_endpoints_detached {p : Presence} (he : e ∈ endpoints) :
    (detachEndpoints machineID endpoints now p).endpoints.find? e = p.endpoints.find? e := by
  simp [detachEndpoints, he]

/-- What advertising leaves at every endpoint and every role. -/
theorem advertiseEndpoints_presence (h : advertiseEndpoints s machineID endpoints now ttl = .ok s') :
    (∀ e ∈ endpoints, validEndpoint e ∧ s'.presence.endpoints.find? e =
      some (advertisedRow (s.presence.endpoints.find? e) machineID now (unixMilli (now + ttl)))) ∧
    (∀ e ∉ endpoints, s'.presence.endpoints.find? e =
      (detachEndpoints machineID endpoints now s.presence).endpoints.find? e) ∧
    ∀ role, s'.presence.roleBindings.find? role = (s.presence.roleBindings.find? role).map
      (renewedBinding s.presence machineID endpoints now (unixMilli (now + ttl))) := by
  obtain ⟨-, hcheck, rfl⟩ := advertiseEndpoints_eq_ok h
  obtain ⟨hnodup, hvalid, -⟩ := checkEndpoints_eq_ok hcheck
  refine ⟨fun e he => ⟨hvalid e he, ?_⟩, fun e he => ?_, fun role => ?_⟩
  · rw [find?_endpoints_advertised hnodup, if_pos he, find?_endpoints_detached he]
  · rw [find?_endpoints_advertised hnodup, if_neg he]
  · rw [find?_roleBindings_advertised hnodup]
    congr 1
    funext b
    unfold renewedBinding
    by_cases hb : b.sessionEndpoint ∈ endpoints
    · simp only [find?_endpoints_detached hb]
    · simp [hb]

theorem advertiseEndpoints_next (h : advertiseEndpoints s machineID endpoints now ttl = .ok s')
    (hrow : s.presence.endpoints.find? e = some row) :
    ∃ row', s'.presence.endpoints.find? e = some row' ∧ row.Next (some now) row' := by
  obtain ⟨hin, hout, -⟩ := advertiseEndpoints_presence h
  by_cases he : e ∈ endpoints
  · refine ⟨_, (hin e he).2, ?_⟩
    rw [hrow]
    exact advertisedRow_next row
  · rw [hout e he, detachEndpoints, Table.find?_update, hrow]
    refine ⟨_, rfl, ?_⟩
    dsimp only
    split
    · exact .bump (Nat.lt_succ_self _) le_rfl
    · exact .refl _ row

/-- **An endpoint's row moves forward only.** -/
theorem step_endpoints (op : Op) (hrow : s.presence.endpoints.find? e = some row) :
    ∃ row', (step E s op).1.presence.endpoints.find? e = some row' ∧ row.Next op.clock row' := by
  cases step_presence (E := E) (s := s) op with
  | same he _ => exact ⟨row, he ▸ hrow, .refl _ row⟩
  | advertised call done =>
    subst call
    exact advertiseEndpoints_next done hrow
  | bound call done =>
    obtain ⟨_, -, -, -, -, -, -, -, hs'⟩ := bindRoleToSession_eq_ok done
    rw [hs']
    exact ⟨row, hrow, .refl _ row⟩
  | leased call done =>
    subst call
    obtain ⟨row₀, row', _, hrow₀, -, -, hclaim, -, hs'⟩ := leaseDeliveries_eq_ok done
    rw [hs']
    simp only [Table.find?_updateAt]
    split
    · rename_i heq
      subst heq
      cases hrow.symm.trans hrow₀
      exact ⟨row', by rw [hrow]; rfl, (claimConsumer_next hclaim).1⟩
    · exact ⟨row, hrow, .refl _ row⟩

/-- Endpoints are valid, and a binding's generation is one its session has reached. -/
structure PresenceOK (p : Presence) : Prop where
  endpoint : ∀ {e row}, p.endpoints.find? e = some row → validEndpoint e
  binding : ∀ {role b}, p.roleBindings.find? role = some b →
    ∃ row, p.endpoints.find? b.sessionEndpoint = some row ∧ b.ownershipGeneration ≤ row.ownershipGeneration

/-- What a call may do to the binding of a role: nothing, renew it while it is live, or bind the role. -/
inductive Rebound (op : Op) (role : String) (s s' : Store) : Prop where
  | same (keeps : s'.presence.roleBindings.find? role = s.presence.roleBindings.find? role)
  | renewed {b : RoleBindingRow} {now leaseUntil : Int} (clock : op.clock = some now)
      (was : s.presence.roleBindings.find? role = some b) (live : liveBinding s.presence b now)
      (is : s'.presence.roleBindings.find? role = some { b with leaseUntil })
  | bound {machineID session : String} {now ttl : Int}
      (call : op = .bindRoleToSession machineID role session now ttl)
      (done : bindRoleToSession s machineID role session now ttl = .ok s')

/-- A renewed binding was live: its generation is the one its session had before, so the session was
renewed and not taken over. -/
theorem renewedBinding_live {p : Presence} (ok : PresenceOK p) {role : String} {b : RoleBindingRow}
    (hb : p.roleBindings.find? role = some b)
    (hbound : b.boundTo machineID b.sessionEndpoint
      (advertisedRow (p.endpoints.find? b.sessionEndpoint) machineID now leaseUntil).ownershipGeneration now) :
    liveBinding p b now := by
  obtain ⟨row, hrow, hle⟩ := ok.binding hb
  simp only [RoleBindingRow.boundTo, Bool.and_eq_true, beq_iff_eq, decide_eq_true_eq, hrow,
    advertisedRow] at hbound
  obtain ⟨⟨⟨hmachine, -⟩, hgeneration⟩, hlive⟩ := hbound
  split at hgeneration
  · simp only at hgeneration
    omega
  · rename_i hrow'
    rw [not_or, not_not, not_le] at hrow'
    simp [liveBinding, hrow, hlive, hmachine, hrow', hgeneration]

theorem step_rebound (pok : PresenceOK s.presence) (op : Op) (role : String) : Rebound op role s (step E s op).1 := by
  cases step_presence (E := E) (s := s) op with
  | same _ hb => exact .same (by rw [hb])
  | advertised call done =>
    obtain ⟨-, -, hbindings⟩ := advertiseEndpoints_presence done
    cases hb : s.presence.roleBindings.find? role with
    | none => exact .same (by rw [hbindings, hb]; rfl)
    | some b =>
      have hb' := hbindings role
      rw [hb, Option.map_some, renewedBinding] at hb'
      split at hb'
      · rename_i hrenewed
        exact .renewed (by rw [call]; rfl) hb (renewedBinding_live pok hb hrenewed.2) hb'
      · exact .same (hb'.trans hb.symm)
  | @bound machineID role' session now ttl call done =>
    by_cases hrole : role = role'
    · subst hrole
      exact .bound call done
    · obtain ⟨_, -, -, -, -, -, -, -, hs'⟩ := bindRoleToSession_eq_ok done
      refine .same ?_
      rw [hs']
      simp [hrole]
  | leased call done =>
    obtain ⟨_, _, _, -, -, -, -, -, hs'⟩ := leaseDeliveries_eq_ok done
    exact .same (by rw [hs'])

theorem step_presenceOK (pok : PresenceOK s.presence) (op : Op) : PresenceOK (step E s op).1.presence := by
  constructor
  · intro e row he
    cases hold : s.presence.endpoints.find? e with
    | some row₀ => exact pok.endpoint hold
    | none =>
      cases step_presence (E := E) (s := s) op with
      | same hsame _ =>
        rw [hsame, hold] at he
        cases he
      | @advertised machineID endpoints now ttl call done =>
        obtain ⟨hin, hout, -⟩ := advertiseEndpoints_presence done
        by_cases hmem : e ∈ endpoints
        · exact (hin e hmem).1
        · rw [hout e hmem, detachEndpoints, Table.find?_update, hold] at he
          cases he
      | bound call done =>
        obtain ⟨_, -, -, -, -, -, -, -, hs'⟩ := bindRoleToSession_eq_ok done
        rw [hs', hold] at he
        cases he
      | leased call done =>
        obtain ⟨_, _, _, -, -, -, -, -, hs'⟩ := leaseDeliveries_eq_ok done
        rw [hs'] at he
        simp only [Table.find?_updateAt, hold] at he
        split at he <;> cases he
  · intro role b' hb'
    -- The session's row has only moved forward, so what bounded the generation still does.
    have hforward : ∀ {b : RoleBindingRow}, s.presence.roleBindings.find? role = some b →
        ∃ row, (step E s op).1.presence.endpoints.find? b.sessionEndpoint = some row ∧
          b.ownershipGeneration ≤ row.ownershipGeneration := by
      intro b hb
      obtain ⟨row, hrow, hle⟩ := pok.binding hb
      obtain ⟨row', hrow', hnext⟩ := step_endpoints (E := E) op hrow
      exact ⟨row', hrow', hle.trans hnext.generation_le⟩
    cases step_rebound (E := E) pok op role with
    | same hkeeps => exact hforward (hkeeps ▸ hb')
    | renewed _ hwas _ his =>
      cases hb'.symm.trans his
      have hsession := hforward hwas
      exact hsession
    | bound call done =>
      obtain ⟨row, hrow, -, -, -, -, -, -, hs'⟩ := bindRoleToSession_eq_ok done
      rw [hs'] at hb' ⊢
      simp only [Table.find?_put, if_true, Option.some.injEq] at hb'
      subst hb'
      exact ⟨row, hrow, le_rfl⟩

theorem presenceOK_empty : PresenceOK Store.empty.presence := by
  constructor <;> simp [Store.empty]

theorem stateAt_presenceOK (ops : List Op) (n : ℕ) : PresenceOK (stateAt E ops n).presence :=
  stateAt_rule (P := fun s => PresenceOK s.presence) (Nat.zero_le n)
    (fun _ op _ _ _ h => step_presenceOK h op) presenceOK_empty

end

end Punaro
