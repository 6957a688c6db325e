import Punaro.Proof.Steps

/-!
# How invocations move

An invocation's row is opened by a request, and from then on only its status, its
counters and its lease change (`InvocationRow.origin`). A pending row is leased, put
back for a retry, or ended; an ended row is never written again, and goes when it is
past retention. `RowCase` is everything one call can do to one row, and
`step_invocation` says that every call does one of these things.
-/

namespace Punaro

open Outcome

/-- The row of an invocation. -/
def Store.invocation? (s : Store) (id : String) : Option InvocationRow :=
  s.invocations.bind fun i => i.invocations.find? id

/-- What a row keeps from its request on: everything but its status, its counters and its lease. -/
def InvocationRow.origin (r : InvocationRow) : InvocationRow :=
  { r with
    status := .pending, attempts := 0, notBefore := 0, leaseMachineID := none, leaseConsumerID := none,
    leaseToken := none, leaseGeneration := 0, recoveryOnly := false, leaseUntil := none, lastActivityAt := 0,
    terminalAt := none }

/-- The row once it is ended without its lease. -/
def InvocationRow.ended (r : InvocationRow) (status : InvocationStatus) (now : Int) : InvocationRow :=
  { r.unlease with status, terminalAt := some (unixMilli now) }

/-- The row once it has failed for want of anything to read. -/
def InvocationRow.staled (r : InvocationRow) (now : Int) : InvocationRow :=
  { r with status := .failed, terminalAt := some (unixMilli now) }

section

variable {E : Env} {s s' : Store} {i i' : Invocations} {id machineID consumerID : String} {now ttl : Int}
  {r r' r'' : InvocationRow} {p : Presence} {m : Mail}
variable {action : InvocationAction} {token : String} {generation : Int} {q : InvocationRow → Bool}
  {status : InvocationStatus}

/-! ## Clean-up passes -/

@[simp] theorem recordInvocationAudit_invocations (i : Invocations) (id : String) (action : InvocationAction)
    (now : Int) : (recordInvocationAudit i id action now).invocations = i.invocations := rfl

@[simp] theorem recordInvocationAudit_idempotency (i : Invocations) (id : String) (action : InvocationAction)
    (now : Int) :
    (recordInvocationAudit i id action now).invocationIdempotency = i.invocationIdempotency := rfl

theorem mem_ids : id ∈ i.ids q ↔ ∃ r, i.invocations.find? id = some r ∧ q r := by
  unfold Invocations.ids
  simp only [List.mem_map, List.mem_filter, Prod.exists, exists_and_right, exists_eq_right,
    Table.find?_eq_some_iff_mem]

/-- A loop that writes the rows at `ids`, each with an audit record. -/
theorem find?_foldl_close (f : InvocationRow → InvocationRow) (hf : ∀ r, f (f r) = f r) (ids : List String)
    (i : Invocations) (id : String) :
    (ids.foldl (fun i id => recordInvocationAudit { i with invocations := i.invocations.updateAt id f } id action
      now) i).invocations.find? id =
      if id ∈ ids then (i.invocations.find? id).map f else i.invocations.find? id := by
  induction ids generalizing i with
  | nil => simp
  | cons x ids ih =>
    rw [List.foldl_cons, ih]
    simp only [recordInvocationAudit_invocations, Table.find?_updateAt, List.mem_cons]
    by_cases hx : id = x
    · subst hx
      by_cases hid : id ∈ ids
      · simp only [hid, if_true, true_or, Option.map_map]
        congr 1
        exact funext hf
      · simp [hid]
    · simp [hx]

theorem find?_endInvocations (ids : List String) (i : Invocations) (id : String) :
    (endInvocations i ids status action now).invocations.find? id =
      if id ∈ ids then (i.invocations.find? id).map (InvocationRow.ended · status now)
      else i.invocations.find? id :=
  find?_foldl_close (InvocationRow.ended · status now) (fun _ => rfl) ids i id

/-- A pass selects rows and writes each selected one. -/
theorem find?_pass (f : InvocationRow → InvocationRow) (q : InvocationRow → Bool) (hf : ∀ r, f (f r) = f r)
    (i : Invocations) (id : String) :
    ((i.ids q).foldl (fun i id => recordInvocationAudit { i with invocations := i.invocations.updateAt id f } id
      action now) i).invocations.find? id = (i.invocations.find? id).map fun r => if q r then f r else r := by
  rw [find?_foldl_close f hf]
  cases hr : i.invocations.find? id with
  | none => simp
  | some r =>
    have hmem : id ∈ i.ids q ↔ q r := by
      rw [mem_ids, hr]
      simp
    by_cases hq : q r
    · rw [if_pos (hmem.2 hq)]
      simp [hq]
    · rw [if_neg fun h => hq (hmem.1 h)]
      simp [hq]

/-- What the clean-up passes of a call may make of a row: only a pending one is ended. -/
inductive InvocationRow.Settled (now : Int) (r : InvocationRow) : InvocationRow → Prop where
  | same : r.Settled now r
  | ended {status : InvocationStatus} (was : r.status = .pending) (ends : status ≠ .pending)
      (fails : status ≠ .succeeded) : r.Settled now (r.ended status now)
  | staled (was : r.status = .pending) : r.Settled now (r.staled now)

/-- An ended row stays as it is, so a later pass adds nothing. -/
theorem InvocationRow.Settled.trans (h : r.Settled now r') (h' : r'.Settled now r'') : r.Settled now r'' := by
  cases h with
  | same => exact h'
  | ended was ends fails =>
    cases h' with
    | same => exact .ended was ends fails
    | ended was' => exact absurd was' ends
    | staled was' => exact absurd was' ends
  | staled was =>
    cases h' with
    | same => exact .staled was
    | ended was' => cases was'
    | staled was' => cases was'

theorem InvocationRow.Settled.pending (h : r.Settled now r') (hp : r'.status = .pending) : r' = r := by
  cases h with
  | same => rfl
  | ended was ends => exact absurd hp ends
  | staled was => cases hp

/-- What clean-up passes leave at an invocation; `q` is what they say of a row they leave pending. -/
def Passed (now : Int) (q : InvocationRow → Prop) (i i' : Invocations) (id : String) : Prop :=
  (i.invocations.find? id = none ∧ i'.invocations.find? id = none) ∨
    ∃ r r', i.invocations.find? id = some r ∧ i'.invocations.find? id = some r' ∧ r.Settled now r' ∧
      (r'.status = .pending → q r)

theorem Passed.mono {q q' : InvocationRow → Prop} (h : Passed now q i i' id) (hq : ∀ r, q r → q' r) :
    Passed now q' i i' id :=
  h.imp_right fun ⟨r, r', hr, hr', hsettled, h⟩ => ⟨r, r', hr, hr', hsettled, fun hp => hq r (h hp)⟩

theorem Passed.andThen {q q' : InvocationRow → Prop} {i'' : Invocations} (h : Passed now q i i' id)
    (h' : Passed now q' i' i'' id) : Passed now (fun r => q r ∧ q' r) i i'' id := by
  rcases h with ⟨hnone, hnone'⟩ | ⟨r, r₁, hr, hr₁, hsettled, hq⟩
  · rcases h' with ⟨-, hnone''⟩ | ⟨_, _, hr', -⟩
    · exact .inl ⟨hnone, hnone''⟩
    · rw [hnone'] at hr'
      cases hr'
  · rcases h' with ⟨hnone', -⟩ | ⟨r₁', r₂, hr₁', hr₂, hsettled', hq'⟩
    · rw [hr₁] at hnone'
      cases hnone'
    · cases hr₁.symm.trans hr₁'
      refine .inr ⟨r, r₂, hr, hr₂, hsettled.trans hsettled', fun hp => ?_⟩
      have h₂ := hsettled'.pending hp
      rw [h₂] at hp
      have h₁ := hsettled.pending hp
      exact ⟨hq hp, h₁ ▸ hq' (h₂ ▸ hp)⟩

/-- A pass that ends the pending rows it selects. -/
theorem passed_endInvocations (hq : ∀ r, q r → r.status = .pending) (ends : status ≠ .pending)
    (fails : status ≠ .succeeded) (i : Invocations) (id : String) :
    Passed now (fun r => q r = false) i (endInvocations i (i.ids q) status action now) id := by
  have hfind : (endInvocations i (i.ids q) status action now).invocations.find? id = _ :=
    find?_pass (InvocationRow.ended · status now) q (fun _ => rfl) i id
  cases hr : i.invocations.find? id with
  | none => exact .inl ⟨hr, by rw [hfind, hr]; rfl⟩
  | some r =>
    rw [hr, Option.map_some] at hfind
    refine .inr ⟨r, _, hr, hfind, ?_⟩
    by_cases h : q r
    · rw [if_pos h]
      exact ⟨.ended (hq r h) ends fails, fun hp => absurd hp ends⟩
    · rw [if_neg h]
      exact ⟨.same, fun _ => by simpa using h⟩

theorem passed_failStale (m : Mail) (i : Invocations) (machineID : String) (now : Int) (id : String) :
    Passed now (fun r => r.targetMachineID = machineID → r.status = .pending → r.unleasedAt now →
      ∃ id d, m.deliveries.find? id = some d ∧ d.recipientEndpoint = r.targetEndpoint ∧ d.ackedAt = none)
      i (failStale m i machineID now) id := by
  have hfind : (failStale m i machineID now).invocations.find? id = _ :=
    find?_pass (InvocationRow.staled · now) _ (fun _ => rfl) i id
  cases hr : i.invocations.find? id with
  | none => exact .inl ⟨hr, by rw [hfind, hr]; rfl⟩
  | some r =>
    rw [hr, Option.map_some] at hfind
    refine .inr ⟨r, _, hr, hfind, ?_⟩
    split
    · rename_i h
      simp only [Bool.and_eq_true, beq_iff_eq] at h
      exact ⟨.staled h.1.1.2, fun hp => by cases hp⟩
    · rename_i h
      refine ⟨.same, fun _ hmachine hp hun => ?_⟩
      simp only [hmachine, hp, hun, beq_self_eq_true, Bool.true_and, Bool.not_eq_true', Bool.not_eq_false,
        List.any_eq_true, Bool.and_eq_true, beq_iff_eq, Option.isNone_iff_eq_none] at h
      obtain ⟨⟨id', d⟩, hd, hrecipient, hopen⟩ := h
      exact ⟨id', d, Table.find?_eq_some_iff_mem.2 hd, hrecipient, hopen⟩

/-- What a machine may start an invocation for: the target is its own, under the generation recorded by the
request, it is not attached, and it has something to read. -/
structure Startable (p : Presence) (m : Mail) (r : InvocationRow) (now : Int) : Prop where
  target : ∃ e, p.endpoints.find? r.targetEndpoint = some e ∧ e.machineID = r.targetMachineID ∧
    e.ownershipGeneration = r.targetOwnershipGeneration ∧ e.leaseUntil ≤ unixMilli now
  work : ∃ id d, m.deliveries.find? id = some d ∧ d.recipientEndpoint = r.targetEndpoint ∧ d.ackedAt = none

/-- The tables after the four passes of a lease request. -/
def cleanedInvocations (p : Presence) (m : Mail) (i : Invocations) (machineID : String) (now : Int) :
    Invocations :=
  consumeOnline p (failStale m (failStaleOwners p (expireAbandonedLeasedInvocations i machineID now) machineID now)
    machineID now) machineID now

/-- A row that is left pending without a live lease may be started. -/
theorem passed_cleanedInvocations (p : Presence) (m : Mail) (i : Invocations) (machineID : String) (now : Int)
    (id : String) :
    Passed now (fun r => r.targetMachineID = machineID → r.status = .pending → r.unleasedAt now →
      Startable p m r now) i (cleanedInvocations p m i machineID now) id := by
  have hexpire : Passed now _ i (expireAbandonedLeasedInvocations i machineID now) id :=
    passed_endInvocations (fun r h => by simp_all) (by decide) (by decide) i id
  have howner : Passed now _ (expireAbandonedLeasedInvocations i machineID now) (failStaleOwners p _ machineID now)
      id := passed_endInvocations (fun r h => by simp_all) (by decide) (by decide) _ id
  have hstale := passed_failStale m (failStaleOwners p (expireAbandonedLeasedInvocations i machineID now) machineID now)
    machineID now id
  have honline : Passed now _ _ (cleanedInvocations p m i machineID now) id :=
    passed_endInvocations (fun r h => by simp_all) (by decide) (by decide) _ id
  refine (((hexpire.andThen howner).andThen hstale).andThen honline).mono ?_
  rintro r ⟨⟨⟨-, howned⟩, hwork⟩, hoffline⟩ hmachine hp hun
  refine ⟨?_, hwork hmachine hp hun⟩
  subst hmachine
  cases he : p.endpoints.find? r.targetEndpoint with
  | none => simp [hp, hun, he] at howned
  | some e =>
    simp only [hp, hun, he, beq_self_eq_true, Bool.true_and, Option.all_some, Option.any_some,
      Bool.or_eq_false_iff, bne_eq_false_iff_eq, Bool.and_eq_false_iff, decide_eq_false_iff_not, not_le,
      not_lt, beq_eq_false_iff_ne] at howned hoffline
    obtain ⟨hm, hg⟩ := howned
    have huntil : e.leaseUntil ≤ unixMilli now := hoffline.resolve_left fun h => h hm
    have hgeneration := hg.resolve_right fun h => absurd h (not_lt.2 huntil)
    exact ⟨e, rfl, hm, hgeneration, huntil⟩

/-! ## Leasing -/

/-- What a lease answers of the row it has written. -/
def InvocationRow.issued (r : InvocationRow) (id token : String) (leaseUntil : Int) : Invocation :=
  ⟨id, r.conversationID, r.targetEndpoint, r.targetMachineID, r.fence, .pending, token, r.leaseGeneration,
    leaseUntil, r.recoveryOnly⟩

/-- The loop over the selected rows: each is leased under a token of its own and answered, the others stay. -/
theorem leaseLoop_spec (machineID consumerID : String) (now ttl : Int) (tokens : ℕ → String)
    {l : List (String × InvocationRow)} (hl : (l.map Prod.fst).Nodup)
    (acc : Invocations × List Invocation) (hacc : ∀ sel ∈ l, acc.1.invocations.find? sel.1 ≠ none) :
    let out := l.foldl (leaseInvocation machineID consumerID now ttl tokens) acc
    (∀ id ∉ l.map Prod.fst, out.1.invocations.find? id = acc.1.invocations.find? id) ∧
      (∀ sel ∈ l, ∃ token,
        out.1.invocations.find? sel.1 = some (sel.2.leased machineID consumerID token now ttl) ∧
        (sel.2.leased machineID consumerID token now ttl).issued sel.1 token (now + ttl) ∈ out.2) ∧
      out.2.map Invocation.id = acc.2.map Invocation.id ++ l.map Prod.fst ∧ ∀ inv ∈ acc.2, inv ∈ out.2 := by
  induction l generalizing acc with
  | nil => simp
  | cons sel l ih =>
    obtain ⟨hsel, hl⟩ := List.nodup_cons.1 hl
    set acc' := leaseInvocation machineID consumerID now ttl tokens acc sel with hacc'
    have hfind : ∀ id, acc'.1.invocations.find? id = if id = sel.1 then
        (acc.1.invocations.find? id).map fun _ =>
          sel.2.leased machineID consumerID (tokens acc.2.length) now ttl
        else acc.1.invocations.find? id := by
      intro id
      simp only [hacc', leaseInvocation]
      split <;> exact Table.find?_updateAt _
    have hlist : acc'.2 = acc.2 ++ [(sel.2.leased machineID consumerID (tokens acc.2.length) now ttl).issued sel.1
        (tokens acc.2.length) (now + ttl)] := rfl
    have hexists : ∀ sel' ∈ l, acc'.1.invocations.find? sel'.1 ≠ none := by
      intro sel' hmem
      have hne : sel'.1 ≠ sel.1 := fun heq => hsel (heq ▸ List.mem_map_of_mem hmem)
      rw [hfind, if_neg hne]
      exact hacc sel' (List.mem_cons_of_mem _ hmem)
    obtain ⟨hout, hin, hids, hkeep⟩ := ih hl acc' hexists
    simp only [List.foldl_cons, ← hacc']
    refine ⟨fun id hid => ?_, fun sel' hmem => ?_, ?_, fun inv hinv => ?_⟩
    · rw [List.map_cons, List.mem_cons, not_or] at hid
      rw [hout id hid.2, hfind, if_neg hid.1]
    · rcases List.mem_cons.1 hmem with rfl | hmem
      · refine ⟨tokens acc.2.length, ?_, hkeep _ ?_⟩
        · obtain ⟨r, hr⟩ := Option.ne_none_iff_exists'.1 (hacc sel' List.mem_cons_self)
          rw [hout _ hsel, hfind, if_pos rfl, hr]
          rfl
        · rw [hlist]
          exact List.mem_append_right _ List.mem_cons_self
      · exact hin sel' hmem
    · rw [hids, hlist]
      simp [InvocationRow.issued]
    · refine hkeep inv ?_
      rw [hlist]
      exact List.mem_append_left _ hinv

/-- What a lease request asks of a row it selects. -/
structure Leasable (s : Store) (machineID consumerID : String) (now : Int) (r : InvocationRow) : Prop where
  pending : r.status = .pending
  machine : r.targetMachineID = machineID
  due : r.notBefore ≤ unixMilli now
  free : r.leaseUntil.all (· ≤ unixMilli now) ∨
    r.leaseMachineID = some machineID ∧ r.leaseConsumerID = some consumerID
  startable : r.unleasedAt now → Startable s.presence s.mail r now

theorem mem_leasableInvocations {limit : ℕ} {sel : String × InvocationRow}
    (h : sel ∈ leasableInvocations p i machineID consumerID now limit) :
    i.invocations.find? sel.1 = some sel.2 ∧ sel.2.targetMachineID = machineID ∧ sel.2.status = .pending ∧
      sel.2.notBefore ≤ unixMilli now ∧ (sel.2.leaseUntil.all (· ≤ unixMilli now) ∨
        sel.2.leaseMachineID = some machineID ∧ sel.2.leaseConsumerID = some consumerID) := by
  have h := (List.mem_insertionSort _).1 (List.mem_of_mem_take h)
  simp only [List.mem_filter, Bool.and_eq_true, Bool.or_eq_true, beq_iff_eq, decide_eq_true_eq] at h
  obtain ⟨hmem, ⟨⟨⟨hmachine, hp⟩, hdue⟩, hfree⟩, -⟩ := h
  exact ⟨Table.find?_eq_some_iff_mem.2 hmem, hmachine, hp, hdue, hfree⟩

theorem leasableInvocations_nodup (p : Presence) (i : Invocations) (machineID consumerID : String) (now : Int)
    (limit : ℕ) : ((leasableInvocations p i machineID consumerID now limit).map Prod.fst).Nodup := by
  unfold leasableInvocations
  refine List.Nodup.sublist ((List.take_sublist _ _).map _) ?_
  refine ((List.perm_insertionSort _ _).map Prod.fst).nodup_iff.2 ?_
  exact i.invocations.nodup.sublist (List.filter_sublist.map _)

theorem leaseInvocations_eq_ok {limit : Int} {tokens : ℕ → String} {i' : Option Invocations} {l : List Invocation}
    (h : leaseInvocations s machineID consumerID now ttl limit tokens = .ok (i', l)) :
    (s.invocations = none ∧ i' = none ∧ l = []) ∨ ∃ i out, s.invocations = some i ∧
      (leasableInvocations s.presence (cleanedInvocations s.presence s.mail i machineID now) machineID consumerID now
        limit.toNat).foldl (leaseInvocation machineID consumerID now ttl tokens)
          (cleanedInvocations s.presence s.mail i machineID now, []) = out ∧
      i' = some out.1 ∧ l = out.2 := by
  unfold leaseInvocations at h
  split at h
  · rename_i hnone
    cases h
    exact .inl ⟨hnone, rfl, rfl⟩
  · rename_i i hi
    simp only [ok_rules, Prod.mk.injEq] at h
    obtain ⟨-, -, rfl, rfl⟩ := h
    exact .inr ⟨i, _, hi, rfl, rfl, rfl⟩

/-- **A lease request**, if the tables are there: what it leaves at every row, and what it answers. -/
theorem leaseInvocations_spec {limit : Int} {tokens : ℕ → String} {i' : Option Invocations} {l : List Invocation}
    (h : leaseInvocations s machineID consumerID now ttl limit tokens = .ok (i', l)) :
    (∀ id, i'.bind (fun i => i.invocations.find? id) = s.invocation? id ∨ ∃ r r', s.invocation? id = some r ∧
      i'.bind (fun i => i.invocations.find? id) = some r' ∧ (r.Settled now r' ∨
        Leasable s machineID consumerID now r ∧ ∃ token, r' = r.leased machineID consumerID token now ttl)) ∧
      (l.map Invocation.id).Nodup ∧
      ∀ inv ∈ l, ∃ r, s.invocation? inv.id = some r ∧ Leasable s machineID consumerID now r ∧
        i'.bind (fun i => i.invocations.find? inv.id) =
          some (r.leased machineID consumerID inv.leaseToken now ttl) ∧
        inv = (r.leased machineID consumerID inv.leaseToken now ttl).issued inv.id inv.leaseToken (now + ttl) := by
  rcases leaseInvocations_eq_ok h with ⟨hnone, rfl, rfl⟩ | ⟨i, out, hi, hfold, rfl, rfl⟩
  · simp [Store.invocation?, hnone]
  set page := leasableInvocations s.presence (cleanedInvocations s.presence s.mail i machineID now) machineID
    consumerID now limit.toNat with hpage
  have hnodup : (page.map Prod.fst).Nodup := leasableInvocations_nodup _ _ _ _ _ _
  have hrow : ∀ id, s.invocation? id = i.invocations.find? id := by simp [Store.invocation?, hi]
  -- A selected row is pending, so no clean-up pass has touched it.
  have hsel : ∀ sel ∈ page, s.invocation? sel.1 = some sel.2 ∧ Leasable s machineID consumerID now sel.2 := by
    intro sel hmem
    obtain ⟨hfind, hmachine, hp, hdue, hfree⟩ := mem_leasableInvocations hmem
    rcases passed_cleanedInvocations s.presence s.mail i machineID now sel.1 with
      ⟨-, hnone⟩ | ⟨r, r', hr, hr', hsettled, hstart⟩
    · rw [hfind] at hnone
      cases hnone
    · cases hfind.symm.trans hr'
      have heq := hsettled.pending hp
      subst heq
      exact ⟨(hrow _).trans hr, hp, hmachine, hdue, hfree, hstart hp hmachine hp⟩
  have hloop := leaseLoop_spec machineID consumerID now ttl tokens hnodup
    (cleanedInvocations s.presence s.mail i machineID now, [])
    fun sel hmem => by simp [(mem_leasableInvocations hmem).1]
  rw [hfold] at hloop
  obtain ⟨hout, hin, hids, -⟩ := hloop
  refine ⟨fun id => ?_, ?_, fun inv hinv => ?_⟩
  · by_cases hid : id ∈ page.map Prod.fst
    · obtain ⟨sel, hmem, rfl⟩ := List.mem_map.1 hid
      obtain ⟨token, htoken, -⟩ := hin sel hmem
      obtain ⟨hfind, hleasable⟩ := hsel sel hmem
      exact .inr ⟨sel.2, _, hfind, htoken, .inr ⟨hleasable, token, rfl⟩⟩
    · rw [hrow, Option.bind_some, hout id hid]
      rcases passed_cleanedInvocations s.presence s.mail i machineID now id with
        ⟨hnone, hnone'⟩ | ⟨r, r', hr, hr', hsettled, -⟩
      · exact .inl (hnone'.trans hnone.symm)
      · exact .inr ⟨r, r', hr, hr', .inl hsettled⟩
  · rw [hids]
    exact hnodup
  · have hid : inv.id ∈ page.map Prod.fst := by
      have hmem := List.mem_map_of_mem (f := Invocation.id) hinv
      rwa [hids] at hmem
    obtain ⟨sel, hmem, hsame⟩ := List.mem_map.1 hid
    obtain ⟨token, htoken, hissued⟩ := hin sel hmem
    obtain ⟨hfind, hleasable⟩ := hsel sel hmem
    -- Identifiers in an answer are distinct, so this is the answer to the selected row.
    have heq : inv = (sel.2.leased machineID consumerID token now ttl).issued sel.1 token (now + ttl) := by
      refine List.inj_on_of_nodup_map ?_ hinv hissued hsame.symm
      rw [hids]
      exact hnodup
    subst heq
    exact ⟨sel.2, hfind, hleasable, htoken, rfl⟩

/-! ## Reporting -/

/-- The presented lease is the live one of a pending row. -/
structure LiveLease (r : InvocationRow) (machineID token : String) (generation now : Int) : Prop where
  pending : r.status = .pending
  machine : r.leaseMachineID = some machineID
  token : r.leaseToken = some token
  generation : (r.leaseGeneration : Int) = generation
  live : r.leaseUntil.any (unixMilli now < ·)

/-- The row once its start is reported. -/
def InvocationRow.reported (r : InvocationRow) (accepted : Bool) (now : Int) : InvocationRow :=
  if accepted then
    { r.unlease with
      status := .succeeded, notBefore := unixMilli (now + maxInvocationBackoff),
      terminalAt := some (unixMilli now) }
  else
    { r.unlease with
      status := if maxInvocationAttempts ≤ r.attempts then .failed else .pending
      notBefore := unixMilli (if maxInvocationAttempts ≤ r.attempts then now else now + invocationBackoff r.attempts)
      terminalAt := if maxInvocationAttempts ≤ r.attempts then some (unixMilli now) else none }

theorem leasedInvocation_eq_ok (h : leasedInvocation s machineID id token generation now = .ok (i, r)) :
    s.invocations = some i ∧ i.invocations.find? id = some r ∧ LiveLease r machineID token generation now := by
  simp only [leasedInvocation, ok_rules, Prod.mk.injEq] at h
  obtain ⟨-, -, _, hi, _, hr, -, ⟨hp, hm, ht, hg, hl⟩, rfl, rfl⟩ := h
  exact ⟨hi, hr, hp, hm, ht, hg, hl⟩

theorem reportInvocation_eq_ok {accepted : Bool}
    (h : reportInvocation s machineID id token generation accepted now = .ok i') :
    ∃ i r, s.invocations = some i ∧ i.invocations.find? id = some r ∧ LiveLease r machineID token generation now ∧
      i'.invocationIdempotency = i.invocationIdempotency ∧
      ∀ id', i'.invocations.find? id' =
        if id' = id then some (r.reported accepted now) else i.invocations.find? id' := by
  unfold reportInvocation at h
  simp only [bind_eq_ok] at h
  obtain ⟨⟨i, r⟩, hlease, h⟩ := h
  obtain ⟨hi, hr, hlive⟩ := leasedInvocation_eq_ok hlease
  refine ⟨i, r, hi, hr, hlive, ?_⟩
  cases accepted
  all_goals
    simp only [Bool.false_eq_true, if_true, if_false, pure_eq_ok] at h
    subst h
    refine ⟨rfl, fun id' => ?_⟩
    rw [recordInvocationAudit_invocations, Table.find?_updateAt]
    split
    · rename_i heq
      rw [heq, hr]
      simp [InvocationRow.reported, InvocationRow.unlease]
    · rfl

theorem rejectInvocation_eq_ok (h : rejectInvocation s machineID id token generation now = .ok i') :
    ∃ i r, s.invocations = some i ∧ i.invocations.find? id = some r ∧ LiveLease r machineID token generation now ∧
      i'.invocationIdempotency = i.invocationIdempotency ∧
      ∀ id', i'.invocations.find? id' =
        if id' = id then some (r.ended .failed now) else i.invocations.find? id' := by
  simp only [rejectInvocation, ok_rules] at h
  obtain ⟨⟨i, r⟩, hlease, rfl⟩ := h
  obtain ⟨hi, hr, hlive⟩ := leasedInvocation_eq_ok hlease
  refine ⟨i, r, hi, hr, hlive, rfl, fun id' => ?_⟩
  rw [find?_endInvocations]
  simp only [List.mem_singleton]
  split
  · rename_i heq
    rw [heq, hr]
    rfl
  · rfl

/-! ## Requesting -/

/-- The row is past retention and goes with the next request. -/
def InvocationRow.pastRetention (r : InvocationRow) (now : Int) : Bool :=
  r.terminalAt.any (· < unixMilli (now - invocationTerminalRetention))

/-- A pending row without activity for a day whose lease is not live. -/
def InvocationRow.abandoned (r : InvocationRow) (now : Int) : Bool :=
  (if 0 < r.lastActivityAt then r.lastActivityAt else r.createdAt) < unixMilli (now - invocationPendingRetention) &&
    r.leaseUntil.all (· ≤ unixMilli now)

/-- The row stands for a start of the endpoint under its present owner that a request may join. -/
def InvocationRow.joinable (r : InvocationRow) (endpoint : String) (target : EndpointRow) (now : Int) : Bool :=
  r.targetEndpoint == endpoint && r.targetMachineID == target.machineID &&
    r.targetOwnershipGeneration == target.ownershipGeneration &&
    (r.status == .pending || (r.status == .succeeded && unixMilli now < r.notBefore))

theorem find?_pruneExpiredTerminalInvocations :
    (pruneExpiredTerminalInvocations i now).invocations.find? id = some r ↔
      i.invocations.find? id = some r ∧ r.pastRetention now = false :=
  Table.find?_deleteWhere_eq_some

/-- The tables a new request works on. -/
def requestTables (i : Invocations) (input : InvokeInput) : Invocations :=
  expireAbandonedInvocations (pruneExpiredTerminalInvocations i input.now) input.targetEndpoint input.now

theorem passed_expireAbandonedInvocations (i : Invocations) (endpoint : String) (now : Int) (id : String) :
    Passed now (fun r => r.targetEndpoint = endpoint → r.status = .pending → r.abandoned now = false) i
      (expireAbandonedInvocations i endpoint now) id := by
  have h : Passed now _ i (expireAbandonedInvocations i endpoint now) id :=
    passed_endInvocations (fun r h => by simp_all) (by decide) (by decide) i id
  refine h.mono fun r hq hendpoint hp => ?_
  simpa [hendpoint, hp, InvocationRow.abandoned, Bool.and_assoc] using hq

/-- What a caller sees of a row. -/
def InvocationRow.view (r : InvocationRow) (id : String) : Invocation :=
  ⟨id, r.conversationID, r.targetEndpoint, r.targetMachineID, r.fence, r.status, "", 0, zeroTime, false⟩

theorem invocationByID_eq_ok {invocation : Invocation} (h : invocationByID i id = .ok invocation) :
    ∃ r, i.invocations.find? id = some r ∧ invocation = r.view id := by
  simp only [invocationByID, ok_rules] at h
  obtain ⟨r, hr, rfl⟩ := h
  exact ⟨r, hr, rfl⟩

/-- The outcome of an accepted request: a retry of its key, a start it joins, or an invocation of its own. -/
inductive Requested (s : Store) (i : Invocations) (input : InvokeInput) (requestHash id fence : String)
    (i' : Invocations) (answer : Invocation) : Bool → Prop where
  | retried {existing : InvocationRetryRow} {r : InvocationRow}
      (bound : (pruneExpiredTerminalInvocations i input.now).invocationIdempotency.find?
        (input.senderMachineID, input.idempotencyKey) = some existing)
      (found : (pruneExpiredTerminalInvocations i input.now).invocations.find? existing.invocationID = some r)
      (answers : answer = invocationForCaller (r.view existing.invocationID) input)
      (tables : i' = pruneExpiredTerminalInvocations i input.now) :
      Requested s i input requestHash id fence i' answer true
  | joined {target : EndpointRow} {id' : String} {r : InvocationRow}
      (new : (pruneExpiredTerminalInvocations i input.now).invocationIdempotency.find?
        (input.senderMachineID, input.idempotencyKey) = none)
      (owner : s.presence.endpoints.find? input.targetEndpoint = some target)
      (offline : target.leaseUntil ≤ unixMilli input.now)
      (found : (requestTables i input).invocations.find? id' = some r)
      (joins : r.joinable input.targetEndpoint target input.now)
      (answers : answer = invocationForCaller (r.view id') input)
      (tables : i'.invocations = (requestTables i input).invocations)
      (binds : i'.invocationIdempotency.find? (input.senderMachineID, input.idempotencyKey) =
        some ⟨requestHash, id'⟩) :
      Requested s i input requestHash id fence i' answer true
  | opened {target : EndpointRow} {status : InvocationStatus} {terminalAt : Option Int}
      (new : (pruneExpiredTerminalInvocations i input.now).invocationIdempotency.find?
        (input.senderMachineID, input.idempotencyKey) = none)
      (owner : s.presence.endpoints.find? input.targetEndpoint = some target)
      (state : status = .alreadyRunning ∧ terminalAt = some (unixMilli input.now) ∧
          unixMilli input.now < target.leaseUntil ∨
        status = .pending ∧ terminalAt = none ∧ target.leaseUntil ≤ unixMilli input.now ∧
          ∀ id' r, (requestTables i input).invocations.find? id' = some r →
            r.joinable input.targetEndpoint target input.now = false)
      (absent : (requestTables i input).invocations.find? id = none)
      (tables : ∀ id', i'.invocations.find? id' =
        if id' = id then some (input.row target fence status terminalAt)
        else (requestTables i input).invocations.find? id')
      (binds : i'.invocationIdempotency.find? (input.senderMachineID, input.idempotencyKey) =
        some ⟨requestHash, id⟩) :
      Requested s i input requestHash id fence i' answer false

theorem openInvocation_eq_ok {input : InvokeInput} {requestHash context : String} {answer : Invocation}
    {duplicate : Bool}
    (h : openInvocation i input requestHash id r context action = .ok (i', answer, duplicate)) :
    duplicate = false ∧ i.invocations.find? id = none ∧
      (∀ id', i'.invocations.find? id' = if id' = id then some r else i.invocations.find? id') ∧
      i'.invocationIdempotency.find? (input.senderMachineID, input.idempotencyKey) = some ⟨requestHash, id⟩ := by
  simp only [openInvocation, insertInvocation, insertInvocationIdempotency, ok_rules, Prod.mk.injEq] at h
  obtain ⟨_, ⟨-, -, t, ht, rfl⟩, _, ⟨t', ht', rfl⟩, rfl, -, rfl⟩ := h
  refine ⟨rfl, (Table.insert?_eq_some ht).1, Table.find?_insert? ht, ?_⟩
  rw [recordInvocationAudit_idempotency, Table.find?_insert? ht', if_pos rfl]

theorem requestInvocationWithSchema_eq_ok {input : InvokeInput} {requestHash fence : String} {answer : Invocation}
    {duplicate : Bool}
    (h : requestInvocationWithSchema s i input requestHash id fence = .ok (i', answer, duplicate)) :
    Requested s i input requestHash id fence i' answer duplicate := by
  unfold requestInvocationWithSchema at h
  simp only [bind_eq_ok] at h
  obtain ⟨_, -, _, -, h⟩ := h
  split at h
  · rename_i existing hbound
    simp only [ok_rules, Prod.mk.injEq] at h
    obtain ⟨_, -, _, hfound, rfl, rfl, rfl⟩ := h
    obtain ⟨r, hr, rfl⟩ := invocationByID_eq_ok hfound
    exact .retried hbound hr rfl rfl
  · rename_i hnew
    simp only [ok_rules] at h
    obtain ⟨_, -, target, howner, _, -, h⟩ := h
    split at h
    · rename_i hlive
      obtain ⟨rfl, habsent, htables, hbinds⟩ := openInvocation_eq_ok h
      exact .opened hnew howner (.inl ⟨rfl, rfl, hlive⟩) habsent htables hbinds
    · rename_i hoffline
      rw [not_lt] at hoffline
      split at h
      · rename_i existing hhead
        have hmem := (List.mem_insertionSort _).1 (List.mem_of_mem_head? hhead)
        obtain ⟨hrow, hjoins⟩ := List.mem_filter.1 hmem
        have hfind := Table.find?_eq_some_iff_mem.2 hrow
        simp only [ok_rules, Prod.mk.injEq, insertInvocationIdempotency] at h
        obtain ⟨_, hfound, _, ⟨t, ht, rfl⟩, rfl, rfl, rfl⟩ := h
        obtain ⟨r, hr, rfl⟩ := invocationByID_eq_ok hfound
        cases hr.symm.trans hfind
        refine .joined hnew howner hoffline hr hjoins rfl rfl ?_
        rw [recordInvocationAudit_idempotency, Table.find?_insert? ht, if_pos rfl]
      · rename_i hhead
        obtain ⟨rfl, habsent, htables, hbinds⟩ := openInvocation_eq_ok h
        refine .opened hnew howner (.inr ⟨rfl, rfl, hoffline, fun id' r hr => ?_⟩) habsent htables hbinds
        by_contra hjoins
        have hnil : (((requestTables i input).invocations.rows.filter fun r =>
            r.2.joinable input.targetEndpoint target input.now).insertionSort fun a b =>
              invocationOlderFirst a b) = [] := List.head?_eq_none_iff.1 hhead
        have hmem : (id', r) ∈ (requestTables i input).invocations.rows.filter fun r =>
            r.2.joinable input.targetEndpoint target input.now :=
          List.mem_filter.2 ⟨Table.find?_eq_some_iff_mem.1 hr, by simpa using hjoins⟩
        rw [← List.mem_insertionSort fun a b => invocationOlderFirst a b, hnil] at hmem
        exact List.not_mem_nil hmem

end

end Punaro
