import Punaro.Proof.Leases

/-!
# Every run keeps the store well formed

`Op.writes` lists the parts of the store a call may write; `step_frame` says that
every other part is as it was. `Op.keys` and `step_keys` say the same of the tables
of retry keys. `step_keeps`: one call, of any kind, with any arguments, accepted or
refused, keeps `StoreOK` and changes the mail by an `Evolves` of the call's own kind
(`Op.change`). `run_ok` is the whole run from the empty database.
-/

namespace Punaro

open Outcome

/-- What a call may do to a pending delivery. -/
def Op.change : Op → String → DeliveryRow → DeliveryRow → Prop
  | .applyControl .. | .prepareTelegramAdopt .. | .maintainDeliveries .. => Retired
  | .ackDelivery _ _ deliveryID .. => Acknowledged deliveryID
  | .bindRoleToSession .. => Unleased
  | .leaseDeliveries .. => Leased
  | _ => Unchanged

theorem Op.change_refl (op : Op) (id : String) (d : DeliveryRow) : op.change id d d := by
  cases op
  case applyControl | prepareTelegramAdopt | maintainDeliveries | ackDelivery | bindRoleToSession |
    leaseDeliveries => exact .inl rfl
  all_goals exact rfl

/-- The parts of the store. -/
inductive Part where
  | presence
  | rooms
  | mail
  | journal
  | requestNonces
  | rateBuckets
  | invocations
  | policies
deriving DecidableEq

/-- The parts a call may write. -/
def Op.writes : Op → List Part
  | .registerRoleProfile .. => [.presence, .journal]
  | .advertiseEndpoints .. => [.presence]
  | .bindRoleToSession .. | .leaseDeliveries .. => [.presence, .mail]
  | .createConversation .. | .createConversationIdempotent .. => [.presence, .rooms, .journal]
  | .applyControl .. => [.rooms, .mail, .journal, .invocations]
  | .setConversationDisplayName .. | .reserveTelegramClaim .. => [.rooms, .journal]
  | .completeTelegramClaim .. | .prepareTelegramAdopt .. => [.rooms, .mail]
  | .appendMessage .. | .appendTelegramInbound .. | .sendDirectMessage .. =>
    [.rooms, .mail, .journal, .rateBuckets]
  | .ackDelivery .. | .maintainDeliveries .. | .reconcilePendingQuota => [.mail]
  | .consumeRequestNonce .. => [.requestNonces]
  | .requestInvocation .. | .leaseInvocations .. | .reportInvocation .. | .rejectInvocation .. => [.invocations]
  | .setRateLimits .. | .setQuotaLimits .. | .setRetentionPolicy .. => [.policies]
  | .reopen => [.mail, .journal, .policies]

/-- The parts that are not written are the same. -/
structure SameParts (written : List Part) (s s' : Store) : Prop where
  presence : .presence ∉ written → s'.presence = s.presence
  rooms : .rooms ∉ written → s'.rooms = s.rooms
  mail : .mail ∉ written → s'.mail = s.mail
  journal : .journal ∉ written → s'.journal = s.journal
  requestNonces : .requestNonces ∉ written → s'.requestNonces = s.requestNonces
  rateBuckets : .rateBuckets ∉ written → s'.rateBuckets = s.rateBuckets
  invocations : .invocations ∉ written → s'.invocations = s.invocations

/-- The tables of retry keys that bind a message or a claim. -/
inductive Keys where
  | posts
  | directs
  | claims
deriving DecidableEq

/-- The retry keys a call may write. -/
def Op.keys : Op → List Keys
  | .appendMessage .. | .appendTelegramInbound .. => [.posts]
  | .sendDirectMessage .. => [.directs]
  | .reserveTelegramClaim .. | .reopen => [.claims]
  | _ => []

/-- The tables of retry keys that are not written are the same. -/
structure SameKeys (written : List Keys) (s s' : Store) : Prop where
  posts : .posts ∉ written → s'.journal.idempotency = s.journal.idempotency
  directs : .directs ∉ written → s'.journal.directMessageIdempotency = s.journal.directMessageIdempotency
  claims : .claims ∉ written → s'.journal.telegramClaimIdempotency = s.journal.telegramClaimIdempotency

/-- What a call does not write is the same. -/
def Op.Spares (op : Op) (s s' : Store) : Prop := SameParts op.writes s s' ∧ SameKeys op.keys s s'

section

variable {E : Env} {s s' : Store} {x : Except Err Store} {P : Store → Prop} {input : CreateConversationInput}
  {id machineID : String}

/-! ## Committing -/

theorem commit_rule {α : Type} {x : Except Err (Store × α)} {reply : α → Reply} (hs : P s)
    (h : ∀ s' a, x = .ok (s', a) → P s') : P (commit s x reply).1 := by
  unfold commit
  split
  · exact h _ _ rfl
  · exact hs

theorem commitDone_done (h : (commitDone s x).2 = .done) : x = .ok (commitDone s x).1 := by
  cases x with
  | error e => cases h
  | ok s₁ => rfl

theorem commitDone_rule (hs : P s) (h : ∀ s', x = .ok s' → P s') : P (commitDone s x).1 := by
  refine commit_rule hs fun s' _ hx => h s' ?_
  cases x with
  | error e => cases hx
  | ok s₁ => cases hx; rfl

theorem commit_refused {α : Type} {x : Except Err (Store × α)} {reply : α → Reply} {e : Err}
    (hr : ∀ a, reply a ≠ .refused e) (h : (commit s x reply).2 = .refused e) : x = .error e := by
  unfold commit at h
  split at h
  · exact absurd h (hr _)
  · cases h
    rfl

theorem commitDone_refused {e : Err} (h : (commitDone s x).2 = .refused e) : x = .error e := by
  have := commit_refused (fun _ => by simp) h
  cases x with
  | error e' => cases this; rfl
  | ok s₁ => cases this

/-! ## One call -/

/-- Calls that touch neither rooms nor mail. -/
theorem StoreOK.of_frame (ok : StoreOK s) (hrooms : s'.rooms = s.rooms) (hmail : s'.mail = s.mail) : StoreOK s' :=
  ⟨hrooms ▸ ok.rooms, hrooms ▸ hmail ▸ ok.mail⟩

theorem claimRole_frame {p p' : Presence} {role : String} (h : claimRole p role machineID = .ok p') :
    p'.endpoints = p.endpoints ∧ p'.roleBindings = p.roleBindings := by
  unfold claimRole at h
  split at h
  · simp only [ok_rules] at h
    obtain ⟨_, -, rfl⟩ := h
    exact ⟨rfl, rfl⟩
  · split at h
    · cases h
      exact ⟨rfl, rfl⟩
    · cases h

/-- Registering a role touches the role tables and its own retry keys only. -/
theorem registerRoleProfile_eq_ok {input : RegisterRoleInput} {answer : RoleProfile × Bool}
    (h : registerRoleProfile E s input = .ok (s', answer)) :
    ∃ presence t, s' = { s with presence, journal := { s.journal with roleProfileIdempotency := t } } ∧
      presence.endpoints = s.presence.endpoints ∧ presence.roleBindings = s.presence.roleBindings := by
  unfold registerRoleProfile at h
  simp only [ok_rules] at h
  obtain ⟨_, -, -, -, h⟩ := h
  split at h
  · simp only [ok_rules, Prod.mk.injEq] at h
    obtain ⟨_, -, rfl, -⟩ := h
    exact ⟨_, _, rfl, rfl, rfl⟩
  · simp only [ok_rules, Prod.mk.injEq] at h
    obtain ⟨p, hclaim, _, -, rfl, -⟩ := h
    obtain ⟨he, hb⟩ := claimRole_frame hclaim
    exact ⟨_, _, rfl, he, hb⟩

theorem advertiseEndpoints_eq_ok {endpoints : List String} {now ttl : Int}
    (h : advertiseEndpoints s machineID endpoints now ttl = .ok s') :
    0 < ttl ∧ checkEndpoints [] endpoints = .ok () ∧
      s' = { s with
        presence := endpoints.foldl (advertiseEndpoint machineID now (unixMilli (now + ttl)))
          (detachEndpoints machineID endpoints now s.presence) } := by
  unfold advertiseEndpoints at h
  simp only [ok_rules] at h
  obtain ⟨-, hvalid, _, hcheck, h⟩ := h
  split at h
  · simp only [ok_rules] at h
    obtain ⟨-, -, rfl⟩ := h
    exact ⟨hvalid.2, hcheck, rfl⟩
  · rw [pure_eq_ok] at h
    exact ⟨hvalid.2, hcheck, h.symm⟩

theorem step_maintainDeliveries (now : Int) :
    (step E s (.maintainDeliveries now)).1 = (maintainDeliveries s now).1 := by
  simp only [step]
  split <;> simp [*]

/-! ## What a call leaves alone -/

theorem SameParts.refl (written : List Part) (s : Store) : SameParts written s s :=
  ⟨fun _ => rfl, fun _ => rfl, fun _ => rfl, fun _ => rfl, fun _ => rfl, fun _ => rfl, fun _ => rfl⟩

theorem SameKeys.refl (written : List Keys) (s : Store) : SameKeys written s s := ⟨fun _ => rfl, fun _ => rfl, fun _ => rfl⟩

theorem createRoom_frame {endpoints roles : List String} {name : String}
    (h : createRoom s input endpoints roles name id = .ok s') :
    ∃ presence rooms, s' = { s with presence, rooms } := by
  obtain ⟨-, -, presence, _, rooms, -, -, -, rfl⟩ := createRoom_eq_ok h
  exact ⟨presence, rooms, rfl⟩

theorem createConversation_frame {conversation : Conversation}
    (h : createConversation E s input id = .ok (s', conversation)) :
    ∃ presence rooms t, s' = { s with presence, rooms, journal := { s.journal with conversationIdempotency := t } } := by
  rcases createConversation_eq_ok h with rfl | ⟨_, _, _, s₁, t, -, -, hcreate, rfl⟩
  · exact ⟨_, _, _, rfl⟩
  · obtain ⟨presence, rooms, rfl⟩ := createRoom_frame hcreate
    exact ⟨presence, rooms, t, rfl⟩

theorem applyControl_frame {input : ControlInput} {event : ControlEvent × Bool}
    (h : applyControl E s input id = .ok (s', event)) :
    ∃ rooms mail invocations t t', s' = { s with rooms, mail, invocations, journal :=
      { s.journal with conversationControls := t, conversationControlIdempotency := t' } } := by
  rcases applyControl_eq_ok h with rfl | ⟨s₁, t, t', -, -, -, hchange | hchange, rfl⟩
  · exact ⟨_, _, _, _, _, rfl⟩
  · obtain ⟨-, mail, invocations, -, rfl⟩ := upsertMember_frame hchange
    exact ⟨_, mail, invocations, t, t', rfl⟩
  · obtain ⟨mail, rfl⟩ := removeMember_frame hchange
    exact ⟨_, mail, _, t, t', rfl⟩

theorem postMessage_frame {post : Posting} {ids : FreshIDs} {answer : Message × Bool}
    (h : postMessage s post ids = .ok (s', answer)) :
    ∃ rooms mail rateBuckets t, s' =
      { s with rooms, mail, rateBuckets, journal := { s.journal with idempotency := t } } := by
  rcases postMessage_eq_ok h with _ | _ <;> exact ⟨_, _, _, _, rfl⟩

theorem ackDelivery_frame {endpoint deliveryID token : String} {generation now : Int}
    (h : ackDelivery s machineID endpoint deliveryID token generation now = .ok s') :
    ∃ mail, s' = { s with mail } := by
  unfold ackDelivery at h
  simp only [ok_rules] at h
  obtain ⟨_, -, _, -, -, -, h⟩ := h
  split at h
  · rw [pure_eq_ok] at h
    exact ⟨s.mail, h.symm⟩
  · simp only [ok_rules] at h
    obtain ⟨_, -, _, -, mail, -, rfl⟩ := h
    exact ⟨mail, rfl⟩

theorem maintainDeliveries_frame (s : Store) (now : Int) : ∃ mail, (maintainDeliveries s now).1 = { s with mail } := by
  unfold maintainDeliveries
  dsimp only
  split <;> exact ⟨_, rfl⟩

/-- **Every call** leaves the parts and the retry keys it does not write as they were. -/
theorem step_spares (op : Op) : op.Spares s (step E s op).1 := by
  have hsame : op.Spares s s := ⟨.refl _ s, .refl _ s⟩
  unfold step
  cases op
  case' registerRoleProfile input =>
    refine commit_rule hsame fun s' a h => ?_
    obtain ⟨_, _, rfl, -, -⟩ := registerRoleProfile_eq_ok h
  case' advertiseEndpoints =>
    refine commitDone_rule hsame fun s' h => ?_
    obtain ⟨-, -, rfl⟩ := advertiseEndpoints_eq_ok h
  case' bindRoleToSession =>
    refine commitDone_rule hsame fun s' h => ?_
    obtain ⟨_, -, -, -, -, -, -, -, rfl⟩ := bindRoleToSession_eq_ok h
  case' createConversation =>
    refine commit_rule hsame fun s' a h => ?_
    obtain ⟨_, _, _, rfl⟩ := createConversation_frame h
  case' createConversationIdempotent =>
    refine commit_rule hsame fun s' a h => ?_
    obtain ⟨_, _, _, rfl⟩ := createConversation_frame (createConversationIdempotent_eq_ok h)
  case' applyControl =>
    refine commit_rule hsame fun s' a h => ?_
    obtain ⟨_, _, _, _, _, rfl⟩ := applyControl_frame h
  case' setConversationDisplayName input =>
    refine commit_rule hsame fun s' a h => ?_
    rcases setConversationDisplayName_eq_ok h with ⟨_, rfl⟩ | ⟨_, _, _, -, -, -, -, rfl⟩
  case' reserveTelegramClaim input =>
    refine commit_rule hsame fun s' a h => ?_
    rcases reserveTelegramClaim_eq_ok h with _ | _ | _
  case' completeTelegramClaim =>
    refine commit_rule hsame fun s' a h => ?_
    rcases completeTelegramClaim_eq_ok h with rfl | ⟨_, _, _, _, _, _, _, _, -, -, -, -, -, -, -, rfl⟩
  case' prepareTelegramAdopt =>
    refine commitDone_rule hsame fun s' h => ?_
    obtain ⟨_, _, _, _, _, -, -, -, -, -, -, -, rfl⟩ := prepareTelegramAdopt_eq_ok h
  case' appendMessage =>
    refine commit_rule hsame fun s' a h => ?_
    obtain ⟨_, _, _, _, rfl⟩ := postMessage_frame (appendMessage_eq_ok h).2.2
  case' appendTelegramInbound =>
    refine commit_rule hsame fun s' a h => ?_
    obtain ⟨_, _, _, _, rfl⟩ := postMessage_frame (appendTelegramInbound_eq_ok h).2
  case' sendDirectMessage =>
    refine commit_rule hsame fun s' a h => ?_
    rcases sendDirectMessage_eq_ok h with _ | _
  case' leaseDeliveries =>
    refine commit_rule hsame fun s' page h => ?_
    obtain ⟨_, _, _, -, -, -, -, -, rfl⟩ := leaseDeliveries_eq_ok h
  case' ackDelivery =>
    refine commitDone_rule hsame fun s' h => ?_
    obtain ⟨_, rfl⟩ := ackDelivery_frame h
  case' maintainDeliveries now =>
    obtain ⟨_, hs'⟩ := maintainDeliveries_frame s now
    change Op.Spares _ s (step E s (.maintainDeliveries now)).1
    rw [step_maintainDeliveries, hs']
  case' requestInvocation =>
    dsimp only
    split
  case' leaseInvocations =>
    refine commit_rule hsame fun s' a h => ?_
    obtain ⟨_, -, hs'⟩ := map_eq_ok.1 h
    cases hs'
  case' consumeRequestNonce | reportInvocation | rejectInvocation | setRateLimits | setQuotaLimits |
    setRetentionPolicy =>
    refine commitDone_rule hsame fun s' h => ?_
    obtain ⟨_, -, rfl⟩ := map_eq_ok.1 h
  all_goals
    refine ⟨?_, ?_⟩ <;> constructor <;> intro hw <;> first | rfl | simp [Op.writes, Op.keys] at hw

theorem step_frame (op : Op) : SameParts op.writes s (step E s op).1 := (step_spares op).1

theorem step_keys (op : Op) : SameKeys op.keys s (step E s op).1 := (step_spares op).2

/-! ## What a call keeps -/

/-- The store stays well formed, and its mail changes by `change`. -/
structure Keeps (change : String → DeliveryRow → DeliveryRow → Prop) (s s' : Store) : Prop where
  ok : StoreOK s'
  evolves : Evolves change s.mail s'.mail

/-- **One call keeps the store well formed.** -/
theorem step_keeps (ok : StoreOK s) (op : Op) : Keeps op.change s (step E s op).1 := by
  have hsame : Keeps op.change s s := ⟨ok, .refl op.change_refl _⟩
  have hmail : ∀ {s'}, StoreOK s' ∧ s'.mail = s.mail → Keeps op.change s s' :=
    fun h => ⟨h.1, h.2 ▸ hsame.evolves⟩
  have hspares := step_frame (E := E) (s := s) op
  have heq : ∀ {s'}, StoreOK s' ∧ Evolves op.change s.mail s'.mail → Keeps op.change s s' :=
    fun h => ⟨h.1, h.2⟩
  cases op with
  | bindRoleToSession =>
    exact commitDone_rule hsame fun s' h => heq (bindRoleToSession_spec ok h)
  | createConversation =>
    exact commit_rule hsame fun s' a h => hmail (createConversation_spec ok h)
  | createConversationIdempotent =>
    exact commit_rule hsame fun s' a h => hmail (createConversation_spec ok (createConversationIdempotent_eq_ok h))
  | applyControl => exact commit_rule hsame fun s' a h => heq (applyControl_spec ok h)
  | setConversationDisplayName input =>
    exact commit_rule hsame fun s' a h => hmail (setConversationDisplayName_spec ok h)
  | reserveTelegramClaim input =>
    exact commit_rule hsame fun s' a h => hmail (reserveTelegramClaim_spec ok h)
  | completeTelegramClaim =>
    exact commit_rule hsame fun s' a h => heq (completeTelegramClaim_spec ok h)
  | prepareTelegramAdopt =>
    exact commitDone_rule hsame fun s' h => heq (prepareTelegramAdopt_spec ok h)
  | appendMessage =>
    refine commit_rule hsame fun s' a h => ?_
    obtain ⟨hok, hevolves, -⟩ := appendMessage_spec ok h
    exact ⟨hok, hevolves⟩
  | appendTelegramInbound =>
    refine commit_rule hsame fun s' a h => ?_
    obtain ⟨hok, hevolves, -⟩ := appendTelegramInbound_spec ok h
    exact ⟨hok, hevolves⟩
  | sendDirectMessage => exact commit_rule hsame fun s' a h => heq (sendDirectMessage_spec ok h)
  | leaseDeliveries =>
    exact commit_rule hsame fun s' a h => heq (leaseDeliveries_spec ok h)
  | ackDelivery =>
    exact commitDone_rule hsame fun s' h => heq (ackDelivery_spec ok h)
  | maintainDeliveries now =>
    obtain ⟨m', hs', hok, hevolves, -⟩ := maintainDeliveries_spec now ok.mail
    rw [step_maintainDeliveries, hs']
    exact ⟨⟨ok.rooms, hok⟩, hevolves⟩
  | reconcilePendingQuota =>
    exact ⟨⟨ok.rooms, ok.mail.inv.beside, .of_reconcile _ _⟩, .of_tables unchanged_refl rfl rfl rfl⟩
  | reopen =>
    exact ⟨⟨ok.rooms, ok.mail.inv.beside, ok.mail.quotas.bootstrapPendingQuota⟩, .of_tables unchanged_refl rfl rfl rfl⟩
  | _ =>
    -- the other calls write neither rooms nor mail
    exact hmail ⟨ok.of_frame (hspares.rooms (by simp [Op.writes])) (hspares.mail (by simp [Op.writes])),
      hspares.mail (by simp [Op.writes])⟩

/-! ## Runs -/

theorem storeOK_empty : StoreOK Store.empty := by
  have hjoined : Store.empty.mail.joined = [] := rfl
  have hreceives : ∀ c recipient, ¬Receives Store.empty.rooms c recipient := by
    simp [Receives, Store.empty]
  refine ⟨?_, ⟨?_, ?_⟩⟩
  · constructor <;> simp [Store.empty]
  · constructor
    case exact => exact fun h => absurd h (hreceives _ _)
    case received => simp [hjoined]
    case reach => simp [Mail.opened, hjoined]
    all_goals simp [Store.empty, Mail.cursor]
  · refine ⟨rfl, ?_, ?_⟩ <;> simp [Mail.usage, Store.empty]

theorem run_ok_from (ok : StoreOK s) (ops : List Op) : StoreOK (run E s ops) := by
  induction ops generalizing s with
  | nil => exact ok
  | cons op ops ih => exact ih (step_keeps ok op).ok

/-- **Every reachable store is well formed.** -/
theorem run_ok (ops : List Op) : StoreOK (run E Store.empty ops) := run_ok_from storeOK_empty ops

variable {ops : List Op} {op : Op} {i j n : ℕ}

theorem stateAt_ok (ops : List Op) (n : ℕ) : StoreOK (stateAt E ops n) := run_ok _

theorem stateAt_zero : stateAt E ops 0 = Store.empty := rfl

theorem stateAt_succ (h : ops[n]? = some op) : stateAt E ops (n + 1) = (step E (stateAt E ops n) op).1 := by
  unfold stateAt run
  rw [List.take_add_one, h, List.foldl_append]
  rfl

theorem stateAt_succ_of_none (h : ops[n]? = none) : stateAt E ops (n + 1) = stateAt E ops n := by
  unfold stateAt
  rw [List.take_add_one, h, Option.toList_none, List.append_nil]

theorem stateAt_keeps (h : ops[n]? = some op) : Keeps op.change (stateAt E ops n) (stateAt E ops (n + 1)) :=
  stateAt_succ h ▸ step_keeps (stateAt_ok ops n) op

/-- What the calls from number `i` on preserve holds from number `i` on. -/
theorem stateAt_rule (hij : i ≤ j) (pass : ∀ k op, i ≤ k → k < j → ops[k]? = some op → P (stateAt E ops k) →
      P (step E (stateAt E ops k) op).1) (h : P (stateAt E ops i)) : P (stateAt E ops j) := by
  induction j, hij using Nat.le_induction with
  | base => exact h
  | succ k hk ih =>
    have hP := ih fun k' op hk' hlt => pass k' op hk' (by omega)
    cases hop : ops[k]? with
    | none => exact stateAt_succ_of_none hop ▸ hP
    | some op => exact stateAt_succ hop ▸ pass k op hk (by omega) hop hP

end

/-! ## Clocks -/

/-- Clocks do not go back: the instants of the calls that carry one never decrease. -/
def Ordered (ops : List Op) : Prop := (ops.filterMap Op.clock).Pairwise (· ≤ ·)

instance (ops : List Op) : Decidable (Ordered ops) := inferInstanceAs (Decidable (List.Pairwise _ _))

theorem Ordered.le {ops : List Op} {op op' : Op} {i j : ℕ} {now now' : Int} (h : Ordered ops) (hij : i ≤ j)
    (hi : ops[i]? = some op) (hj : ops[j]? = some op') (hnow : op.clock = some now)
    (hnow' : op'.clock = some now') : now ≤ now' := by
  rcases hij.eq_or_lt with rfl | hlt
  · cases hi.symm.trans hj
    cases hnow.symm.trans hnow'
    exact le_rfl
  · obtain ⟨hi', rfl⟩ := List.getElem?_eq_some_iff.1 hi
    obtain ⟨hj', rfl⟩ := List.getElem?_eq_some_iff.1 hj
    rw [Ordered, List.pairwise_filterMap, List.pairwise_iff_getElem] at h
    exact h i j hi' hj' hlt now hnow now' hnow'

end Punaro
