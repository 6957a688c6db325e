import Punaro.Proof.Invocations

/-!
# Starting offline roles

`RowCase` is everything one call can do to one invocation. From it follow, over
every run, what the relay promises an adapter (`StartsSafely`): the fence of an
invocation never changes, it is handed out for a fresh start at most three times,
after a recovery lease only recovery leases follow, an ended invocation stays as it
ended, and a fresh lease is given only for a target that is the leasing machine's,
offline, and has something to read.
-/

namespace Punaro

open Outcome

/-- Everything one call can do to one invocation. -/
inductive RowCase (s : Store) (op : Op) (id : String) (s' : Store) : Prop where
  | same (is : s'.invocation? id = s.invocation? id)
  | opened {input : InvokeInput} {fence : String} {target : EndpointRow} {status : InvocationStatus}
      {terminalAt : Option Int} (call : op = .requestInvocation input id fence)
      (gone : ∀ r, s.invocation? id = some r → r.pastRetention input.now)
      (owner : s.presence.endpoints.find? input.targetEndpoint = some target)
      (is : s'.invocation? id = some (input.row target fence status terminalAt))
      (state : status = .alreadyRunning ∧ terminalAt = some (unixMilli input.now) ∨
        status = .pending ∧ terminalAt = none ∧ ∀ id' r, id' ≠ id → s'.invocation? id' = some r →
          r.joinable input.targetEndpoint target input.now = false)
  | pruned {input : InvokeInput} {id' fence : String} {r : InvocationRow}
      (call : op = .requestInvocation input id' fence) (was : s.invocation? id = some r)
      (past : r.pastRetention input.now) (is : s'.invocation? id = none)
  | settled {now : Int} {r r' : InvocationRow} (clock : op.clock = some now) (was : s.invocation? id = some r)
      (is : s'.invocation? id = some r') (settles : r.Settled now r')
  | leased {machineID consumerID token : String} {now ttl limit : Int} {tokens : ℕ → String} {r : InvocationRow}
      (call : op = .leaseInvocations machineID consumerID now ttl limit tokens)
      (was : s.invocation? id = some r) (leasable : Leasable s machineID consumerID now r)
      (is : s'.invocation? id = some (r.leased machineID consumerID token now ttl))
  | reported {machineID token : String} {generation now : Int} {accepted : Bool} {r : InvocationRow}
      (call : op = .reportInvocation machineID id token generation accepted now)
      (was : s.invocation? id = some r) (live : LiveLease r machineID token generation now)
      (is : s'.invocation? id = some (r.reported accepted now))

section

variable {E : Env} {s s' : Store} {i i' : Invocations} {id : String} {now : Int} {r r' : InvocationRow} {op : Op}
  {input : InvokeInput}

/-! ## One call -/

theorem invocation?_ensure (s : Store) (id : String) :
    (ensureInvocationSchema s.invocations).invocations.find? id = s.invocation? id := by
  unfold ensureInvocationSchema Store.invocation?
  cases s.invocations with
  | none => rfl
  | some i => rfl

/-- A request that is refused touches no row. -/
theorem requestInvocation_cases (E : Env) (s : Store) (input : InvokeInput) (id fence : String) :
    (∃ i e, requestInvocation E s input id fence = (i, .error e) ∧
      ∀ id', i.bind (fun i => i.invocations.find? id') = s.invocation? id') ∨
    ∃ i' answer duplicate, requestInvocation E s input id fence = (some i', .ok (answer, duplicate)) ∧
      Requested s (ensureInvocationSchema s.invocations) input
        (stableHash E [input.conversationID, input.fromEndpoint, input.targetEndpoint]) id fence i' answer
        duplicate := by
  unfold requestInvocation
  split
  · exact .inl ⟨_, _, rfl, fun _ => rfl⟩
  · dsimp only
    split
    · exact .inl ⟨_, _, rfl, fun id' => invocation?_ensure s id'⟩
    · rename_i i' answer duplicate h
      exact .inr ⟨i', answer, duplicate, rfl, requestInvocationWithSchema_eq_ok h⟩

/-- What the clean-up of a request leaves at a row. -/
theorem requestTables_cases (i : Invocations) (input : InvokeInput) (id : String) :
    ((requestTables i input).invocations.find? id = none ∧
      ∀ r, i.invocations.find? id = some r → r.pastRetention input.now) ∨
    ∃ r r', i.invocations.find? id = some r ∧ (requestTables i input).invocations.find? id = some r' ∧
      r.Settled input.now r' ∧ r.pastRetention input.now = false ∧
      (r'.status = .pending → r.targetEndpoint = input.targetEndpoint → r.abandoned input.now = false) := by
  rcases passed_expireAbandonedInvocations (pruneExpiredTerminalInvocations i input.now) input.targetEndpoint
    input.now id with ⟨hpruned, hnone⟩ | ⟨r, r', hr, hr', hsettled, hq⟩
  · refine .inl ⟨hnone, fun r hr => ?_⟩
    by_contra hpast
    have hkept := find?_pruneExpiredTerminalInvocations.2 ⟨hr, by simpa using hpast⟩
    rw [hpruned] at hkept
    cases hkept
  · obtain ⟨hr, hkept⟩ := find?_pruneExpiredTerminalInvocations.1 hr
    refine .inr ⟨r, r', hr, hr', hsettled, hkept, fun hp hendpoint => hq hp hendpoint ?_⟩
    rw [← hsettled.pending hp]
    exact hp

/-- An accepted request: the rows it leaves. -/
theorem Requested.rowCase {requestHash id' fence : String} {answer : Invocation} {duplicate : Bool}
    (hi : ∀ id, i.invocations.find? id = s.invocation? id)
    (h : Requested s i input requestHash id' fence i' answer duplicate) (id : String) :
    RowCase s (.requestInvocation input id' fence) id { s with invocations := some i' } := by
  -- A row the request neither opens nor drops is what the clean-up leaves of it.
  have hkept : i'.invocations.find? id = (requestTables i input).invocations.find? id →
      RowCase s (.requestInvocation input id' fence) id { s with invocations := some i' } := by
    intro heq
    rcases requestTables_cases i input id with ⟨hnone, hpast⟩ | ⟨r, r', hr, hr', hsettled, -⟩
    · cases hr : s.invocation? id with
      | none => exact .same (by rw [hr]; exact heq.trans hnone)
      | some r => exact .pruned rfl hr (hpast r ((hi id).trans hr)) (heq.trans hnone)
    · exact .settled rfl ((hi id).symm.trans hr) (heq.trans hr') hsettled
  cases h with
  | retried bound found answers tables =>
    subst tables
    cases hr : s.invocation? id with
    | none =>
      refine .same ?_
      rw [hr, Option.eq_none_iff_forall_ne_some]
      intro r hkept
      have hr' := (find?_pruneExpiredTerminalInvocations.1 hkept).1
      rw [hi, hr] at hr'
      cases hr'
    | some r =>
      by_cases hpast : r.pastRetention input.now
      · refine .pruned rfl hr hpast ?_
        rw [Option.eq_none_iff_forall_ne_some]
        intro r' hkept
        obtain ⟨hr', hkeep⟩ := find?_pruneExpiredTerminalInvocations.1 hkept
        rw [hi, hr] at hr'
        cases hr'
        rw [hkeep] at hpast
        cases hpast
      · refine .same ?_
        rw [hr]
        exact find?_pruneExpiredTerminalInvocations.2 ⟨(hi id).trans hr, by simpa using hpast⟩
  | joined new owner offline found joins answers tables binds => exact hkept (by rw [tables])
  | @opened target status terminalAt new owner state absent tables binds =>
    by_cases hid : id = id'
    · subst hid
      refine .opened rfl (fun r hr => ?_) owner ((tables id).trans (if_pos rfl)) ?_
      · rcases requestTables_cases i input id with ⟨-, hpast⟩ | ⟨_, _, -, hr', -⟩
        · exact hpast r ((hi id).trans hr)
        · rw [absent] at hr'
          cases hr'
      · rcases state with ⟨hstatus, hat, -⟩ | ⟨hstatus, hat, -, halone⟩
        · exact .inl ⟨hstatus, hat⟩
        · refine .inr ⟨hstatus, hat, fun id' r hne hr => halone id' r ?_⟩
          exact ((tables id').trans (if_neg hne)).symm.trans hr
    · exact hkept ((tables id).trans (if_neg hid))

theorem failRevokedInvocations_rowCase {c endpoint : String} (clock : op.clock = some now)
    (hs' : s'.invocations = failRevokedInvocations s.invocations c endpoint now) (id : String) :
    RowCase s op id s' := by
  unfold failRevokedInvocations at hs'
  cases hi : s.invocations with
  | none =>
    rw [hi] at hs'
    exact .same (by simp [Store.invocation?, hi, hs'])
  | some i =>
    rw [hi, Option.map_some] at hs'
    have hpass : Passed now _ i (endInvocations i (i.ids fun r => r.conversationID == c &&
        r.targetEndpoint == endpoint && r.status == .pending) .failed .failed now) id :=
      passed_endInvocations (fun r h => by simp_all) (by decide) (by decide) i id
    rcases hpass with ⟨hnone, hnone'⟩ | ⟨r, r', hr, hr', hsettled, -⟩
    · refine .same ?_
      simp only [Store.invocation?, hi, hs', Option.bind_some]
      exact hnone'.trans hnone.symm
    · refine .settled (r := r) clock ?_ ?_ hsettled
      · simpa [Store.invocation?, hi] using hr
      · simp only [Store.invocation?, hs', Option.bind_some]
        exact hr'

/-- **One call** does one of these things to an invocation. -/
theorem step_invocation (op : Op) (id : String) : RowCase s op id (step E s op).1 := by
  by_cases hw : Part.invocations ∈ op.writes
  · have hsame : RowCase s op id s := .same rfl
    unfold step
    cases op with
    | applyControl =>
      refine commit_rule hsame fun s' a h => ?_
      rcases applyControl_eq_ok h with rfl | ⟨s₁, t, t', -, -, -, hchange | hchange, rfl⟩
      · exact .same rfl
      · obtain ⟨-, mail, invocations, rfl | rfl, rfl⟩ := upsertMember_frame hchange
        · exact .same rfl
        · exact failRevokedInvocations_rowCase rfl rfl id
      · obtain ⟨mail, rfl⟩ := removeMember_frame hchange
        exact failRevokedInvocations_rowCase rfl rfl id
    | requestInvocation input id' fence =>
      dsimp only
      rcases requestInvocation_cases E s input id' fence with ⟨i, e, heq, hrows⟩ | ⟨i', answer, duplicate, heq, h⟩
      · rw [heq]
        exact .same (hrows id)
      · rw [heq]
        exact h.rowCase (invocation?_ensure s) id
    | leaseInvocations =>
      refine commit_rule hsame fun s' l h => ?_
      obtain ⟨⟨i', l'⟩, hlease, hs'⟩ := map_eq_ok.1 h
      cases hs'
      rcases (leaseInvocations_spec hlease).1 id with hkeep | ⟨r, r', hr, hr', hsettled | ⟨hleasable, token, rfl⟩⟩
      · exact .same hkeep
      · exact .settled rfl hr hr' hsettled
      · exact .leased rfl hr hleasable hr'
    | reportInvocation machineID invocationID =>
      refine commitDone_rule hsame fun s' h => ?_
      obtain ⟨i', hreport, rfl⟩ := map_eq_ok.1 h
      obtain ⟨i, r, hi, hr, hlive, -, hrows⟩ := reportInvocation_eq_ok hreport
      by_cases hid : id = invocationID
      · subst hid
        refine .reported rfl ?_ hlive ((hrows id).trans (if_pos rfl))
        simpa [Store.invocation?, hi] using hr
      · refine .same ?_
        simpa [Store.invocation?, hi, hid] using hrows id
    | rejectInvocation machineID invocationID =>
      refine commitDone_rule hsame fun s' h => ?_
      obtain ⟨i', hreject, rfl⟩ := map_eq_ok.1 h
      obtain ⟨i, r, hi, hr, hlive, -, hrows⟩ := rejectInvocation_eq_ok hreject
      by_cases hid : id = invocationID
      · subst hid
        refine .settled rfl ?_ ((hrows id).trans (if_pos rfl)) (.ended hlive.pending (by decide) (by decide))
        simpa [Store.invocation?, hi] using hr
      · refine .same ?_
        simpa [Store.invocation?, hi, hid] using hrows id
    | _ => exact absurd hw (by simp [Op.writes])
  · refine .same ?_
    unfold Store.invocation?
    rw [(step_frame op).invocations hw]

/-! ## Rows over a run -/

/-- A row as every run leaves it. -/
structure InvocationRow.OK (r : InvocationRow) : Prop where
  attempts : r.attempts ≤ maxInvocationAttempts
  recovery : r.recoveryOnly → r.attempts = maxInvocationAttempts
  lease : r.status = .pending → (r.leaseMachineID = none ↔ r.leaseUntil = none)
  pending : r.status = .pending → r.terminalAt = none
  succeeded : r.status = .succeeded → ∃ t, r.terminalAt = some t ∧ r.notBefore = t + 60000

/-- A row that ends without success keeps its counters, and nothing else is asked of it. -/
theorem InvocationRow.OK.ends (h : r.OK) (hattempts : r'.attempts = r.attempts)
    (hrecovery : r'.recoveryOnly = r.recoveryOnly) (hpending : r'.status ≠ .pending)
    (hsucceeded : r'.status ≠ .succeeded) : r'.OK := by
  refine ⟨hattempts ▸ h.attempts, fun hr => ?_, fun hp => absurd hp hpending, fun hp => absurd hp hpending,
    fun hp => absurd hp hsucceeded⟩
  rw [hattempts]
  exact h.recovery (hrecovery ▸ hr)

theorem InvocationRow.OK.settled (h : r.OK) (hs : r.Settled now r') : r'.OK := by
  cases hs with
  | same => exact h
  | ended was ends fails => exact h.ends rfl rfl ends fails
  | staled was => exact h.ends rfl rfl (by simp [InvocationRow.staled]) (by simp [InvocationRow.staled])

theorem InvocationRow.OK.leased {machineID consumerID token : String} {ttl : Int} (h : r.OK)
    (hp : r.status = .pending) : (r.leased machineID consumerID token now ttl).OK := by
  have hattempts := h.attempts
  refine ⟨?_, fun hr => ?_, fun _ => by simp [InvocationRow.leased], fun _ => h.pending hp, fun hs => ?_⟩
  · simp only [InvocationRow.leased]
    split
    · rename_i hspend
      simp only [Bool.and_eq_true, Bool.not_eq_true', decide_eq_false_iff_not, not_le] at hspend
      omega
    · exact hattempts
  · simp only [InvocationRow.leased] at hr ⊢
    by_cases hspent : maxInvocationAttempts ≤ r.attempts
    · simp only [hspent, decide_true, Bool.not_true, Bool.and_false, Bool.false_eq_true, if_false]
      omega
    · simp only [hspent, decide_false, Bool.and_false, Bool.false_eq_true, if_false] at hr
      exact absurd (h.recovery hr).ge hspent
  · rw [InvocationRow.leased, hp] at hs
    cases hs

theorem unixMilli_add_backoff (now : Int) : unixMilli (now + maxInvocationBackoff) = unixMilli now + 60000 := by
  unfold unixMilli maxInvocationBackoff
  omega

theorem InvocationRow.OK.reported {accepted : Bool} (h : r.OK) : (r.reported accepted now).OK := by
  unfold InvocationRow.reported
  split
  · refine ⟨h.attempts, h.recovery, fun hp => ?_, fun hp => ?_, fun _ => ?_⟩
    · cases hp
    · cases hp
    · exact ⟨unixMilli now, rfl, unixMilli_add_backoff now⟩
  · by_cases hspent : maxInvocationAttempts ≤ r.attempts
    · exact h.ends rfl rfl (by simp [hspent]) (by simp [hspent])
    · simp only [hspent, if_false]
      refine ⟨h.attempts, h.recovery, fun _ => ?_, fun _ => rfl, fun hp => ?_⟩
      · simp [InvocationRow.unlease]
      · cases hp

theorem RowCase.ok (h : RowCase s op id s') (hok : ∀ r, s.invocation? id = some r → r.OK)
    (hr' : s'.invocation? id = some r') : r'.OK := by
  cases h with
  | same is => exact hok r' (is ▸ hr')
  | @opened input fence target status terminalAt call gone owner is state =>
    cases is.symm.trans hr'
    refine ⟨Nat.zero_le _, fun h => ?_, fun _ => ?_, fun hp => ?_, fun hp => ?_⟩
    · cases h
    · simp [InvokeInput.row]
    · rcases state with ⟨hstatus, -⟩ | ⟨-, hat, -⟩
      · cases hstatus.symm.trans hp
      · exact hat
    · rcases state with ⟨hstatus, -⟩ | ⟨hstatus, -⟩ <;> cases hstatus.symm.trans hp
  | pruned call was past is =>
    rw [is] at hr'
    cases hr'
  | settled clock was is settles =>
    cases is.symm.trans hr'
    exact (hok _ was).settled settles
  | leased call was leasable is =>
    cases is.symm.trans hr'
    exact (hok _ was).leased leasable.pending
  | reported call was live is =>
    cases is.symm.trans hr'
    exact (hok _ was).reported

variable {ops : List Op} {j k n : ℕ}
variable {machineID consumerID : String} {ttl limit : Int} {tokens : ℕ → String} {page : List Invocation}

/-- An invocation that is there after a call was there before, or its identifier is drawn by the call. -/
theorem RowCase.stored (h : RowCase s op id s') (hstored : s'.invocation? id ≠ none) :
    s.invocation? id ≠ none ∨ op.invocationID = some id := by
  cases h with
  | same is => exact .inl (is ▸ hstored)
  | opened call => exact .inr (by rw [call]; rfl)
  | pruned _ _ _ is => exact absurd is hstored
  | settled _ was => exact .inl (by rw [was]; simp)
  | leased _ was => exact .inl (by rw [was]; simp)
  | reported _ was => exact .inl (by rw [was]; simp)

/-- An invocation that is pending after a call was pending before, or its identifier is drawn by the call. -/
theorem RowCase.pending {r' : InvocationRow} (h : RowCase s op id s') (hr' : s'.invocation? id = some r')
    (hp : r'.status = .pending) :
    (∃ r, s.invocation? id = some r ∧ r.status = .pending) ∨ op.invocationID = some id := by
  cases h with
  | same is => exact .inl ⟨r', is ▸ hr', hp⟩
  | opened call => exact .inr (by rw [call]; rfl)
  | pruned _ _ _ is =>
    rw [is] at hr'
    cases hr'
  | settled _ was is settles =>
    cases is.symm.trans hr'
    have heq := settles.pending hp
    exact .inl ⟨_, was, heq ▸ hp⟩
  | leased _ was leasable => exact .inl ⟨_, was, leasable.pending⟩
  | reported _ was live => exact .inl ⟨_, was, live.pending⟩

/-- An invocation that is reported to be started is no longer pending. -/
theorem reportInvocation_done {token : String} {generation : Int}
    (h : (step E s (.reportInvocation machineID id token generation true now)).2 = .done) :
    ∃ r, (step E s (.reportInvocation machineID id token generation true now)).1.invocation? id = some r ∧
      r.status = .succeeded := by
  have hrun := commitDone_done h
  simp only [exceptMap_eq_ok] at hrun
  obtain ⟨i, hreport, hs⟩ := hrun
  obtain ⟨_, r, -, -, -, -, hrows⟩ := reportInvocation_eq_ok hreport
  refine ⟨r.reported true now, ?_, rfl⟩
  change (commitDone s _).1.invocation? id = _
  rw [← hs]
  exact (hrows id).trans (if_pos rfl)

theorem stateAt_invocationOK (ops : List Op) (n : ℕ) (id : String) :
    ∀ r, (stateAt E ops n).invocation? id = some r → r.OK :=
  stateAt_rule (P := fun s => ∀ r, s.invocation? id = some r → r.OK) (Nat.zero_le n)
    (fun _ op _ _ _ h _ hr => (step_invocation op id).ok h hr) fun r hr => by
      rw [stateAt_zero] at hr
      cases hr

/-- A later row of the same invocation. -/
structure InvocationRow.Later (r r' : InvocationRow) : Prop where
  origin : r'.origin = r.origin
  ended : r.status ≠ .pending → r' = r
  recovery : r.recoveryOnly → r'.recoveryOnly
  attempts : r.attempts ≤ r'.attempts

theorem InvocationRow.Later.refl (r : InvocationRow) : r.Later r := ⟨rfl, fun _ => rfl, fun h => h, le_rfl⟩

theorem InvocationRow.Later.trans {r'' : InvocationRow} (h : r.Later r') (h' : r'.Later r'') : r.Later r'' := by
  refine ⟨h'.origin.trans h.origin, fun hended => ?_, fun hr => h'.recovery (h.recovery hr),
    h.attempts.trans h'.attempts⟩
  have heq := h.ended hended
  rw [heq] at h'
  exact h'.ended hended

theorem InvocationRow.Later.fence (h : r.Later r') : r'.fence = r.fence := by
  have horigin : r'.origin.fence = r.origin.fence := congrArg InvocationRow.fence h.origin
  exact horigin

/-- A row that a call finds and leaves has only moved forward, unless the call is a request that reuses its
identifier. -/
theorem RowCase.later (h : RowCase s op id s') (hr : s.invocation? id = some r) (hr' : s'.invocation? id = some r') :
    r.Later r' ∨ ∃ input fence, op = .requestInvocation input id fence := by
  cases h with
  | same is =>
    cases hr.symm.trans (is.symm.trans hr')
    exact .inl (.refl r)
  | opened call => exact .inr ⟨_, _, call⟩
  | pruned call was past is =>
    rw [is] at hr'
    cases hr'
  | settled clock was is settles =>
    cases hr.symm.trans was
    cases is.symm.trans hr'
    cases settles with
    | same => exact .inl (.refl r)
    | ended was' => exact .inl ⟨rfl, fun hne => absurd was' hne, fun h => h, le_rfl⟩
    | staled was' => exact .inl ⟨rfl, fun hne => absurd was' hne, fun h => h, le_rfl⟩
  | leased call was leasable is =>
    cases hr.symm.trans was
    cases is.symm.trans hr'
    refine .inl ⟨rfl, fun hne => absurd leasable.pending hne, fun h => ?_, ?_⟩
    · simp only [InvocationRow.leased]
      split
      · rfl
      · exact h
    · simp only [InvocationRow.leased]
      split <;> omega
  | @reported _ _ _ _ accepted _ call was live is =>
    cases hr.symm.trans was
    cases is.symm.trans hr'
    refine .inl ?_
    unfold InvocationRow.reported
    split <;> exact ⟨rfl, fun hne => absurd live.pending hne, fun h => h, le_rfl⟩

/-- The identifiers drawn for invocations are distinct (`uuid.NewString`). -/
def DistinctInvocations (ops : List Op) : Prop := (ops.filterMap Op.invocationID).Nodup

instance (ops : List Op) : Decidable (DistinctInvocations ops) := inferInstanceAs (Decidable (List.Nodup _))

theorem DistinctInvocations.eq (h : DistinctInvocations ops) {input' : InvokeInput} {fence fence' : String}
    (hj : ops[j]? = some (.requestInvocation input id fence))
    (hk : ops[k]? = some (.requestInvocation input' id fence')) : j = k := by
  by_contra hne
  wlog hlt : j < k generalizing j k input input' fence fence'
  · exact this hk hj (Ne.symm hne) (by omega)
  obtain ⟨hj', hj⟩ := List.getElem?_eq_some_iff.1 hj
  obtain ⟨hk', hk⟩ := List.getElem?_eq_some_iff.1 hk
  rw [DistinctInvocations, List.Nodup, List.pairwise_filterMap, List.pairwise_iff_getElem] at h
  exact h j k hj' hk' hlt id (by rw [hj]; rfl) id (by rw [hk]; rfl) rfl

/-- Every row was opened by a request, under the owner the target had then. -/
theorem invocation_requested (h : (stateAt E ops n).invocation? id = some r) :
    ∃ k input fence target, k < n ∧ ops[k]? = some (.requestInvocation input id fence) ∧
      (stateAt E ops k).presence.endpoints.find? input.targetEndpoint = some target ∧
      r.origin = (input.row target fence .pending none).origin := by
  induction n generalizing r with
  | zero =>
    rw [stateAt_zero] at h
    cases h
  | succ n ih =>
    cases hop : ops[n]? with
    | none =>
      rw [stateAt_succ_of_none hop] at h
      obtain ⟨k, input, fence, target, hk, hrest⟩ := ih h
      exact ⟨k, input, fence, target, by omega, hrest⟩
    | some op =>
      have hcase := step_invocation (E := E) (s := stateAt E ops n) op id
      rw [← stateAt_succ hop] at hcase
      -- A row the call found is an earlier one moved forward; any other is opened by the call itself.
      have hearlier : ∀ {r₀}, (stateAt E ops n).invocation? id = some r₀ → r.origin = r₀.origin →
          ∃ k input fence target, k < n + 1 ∧ ops[k]? = some (.requestInvocation input id fence) ∧
            (stateAt E ops k).presence.endpoints.find? input.targetEndpoint = some target ∧
            r.origin = (input.row target fence .pending none).origin := by
        intro r₀ hr₀ horigin
        obtain ⟨k, input, fence, target, hk, hcall, howner, heq⟩ := ih hr₀
        exact ⟨k, input, fence, target, by omega, hcall, howner, horigin.trans heq⟩
      cases hcase with
      | same is => exact hearlier (is ▸ h) rfl
      | opened call gone owner is state =>
        cases is.symm.trans h
        exact ⟨n, _, _, _, Nat.lt_succ_self n, call ▸ hop, owner, rfl⟩
      | pruned call was past is =>
        rw [is] at h
        cases h
      | settled clock was is settles =>
        cases is.symm.trans h
        refine hearlier was ?_
        cases settles <;> rfl
      | leased call was leasable is =>
        cases is.symm.trans h
        exact hearlier was rfl
      | reported call was live is =>
        cases is.symm.trans h
        refine hearlier was ?_
        unfold InvocationRow.reported
        split <;> rfl

/-- A request does not draw the identifier of an invocation that has been there before. -/
theorem DistinctInvocations.not_again (hids : DistinctInvocations ops) {fence : String}
    (hr : (stateAt E ops j).invocation? id = some r) (hjk : j ≤ k) :
    ops[k]? ≠ some (.requestInvocation input id fence) := by
  intro hk
  obtain ⟨k₀, _, _, _, hlt, hk₀, -⟩ := invocation_requested hr
  have := hids.eq hk₀ hk
  omega

/-- **Over a run** an invocation's row only moves forward. -/
theorem invocation_later (hids : DistinctInvocations ops) (hjk : j ≤ k)
    (hr : (stateAt E ops j).invocation? id = some r) (hr' : (stateAt E ops k).invocation? id = some r') :
    r.Later r' := by
  refine stateAt_rule (P := fun s => ∀ r', s.invocation? id = some r' → r.Later r') hjk
    (fun n op hjn _ hop ih r'' hr'' => ?_) (fun r'' h => ?_) r' hr'
  · have hcase := step_invocation (E := E) (s := stateAt E ops n) op id
    have hagain : ∀ {input fence}, op ≠ .requestInvocation input id fence :=
      fun heq => hids.not_again hr hjn (heq ▸ hop)
    cases hn : (stateAt E ops n).invocation? id with
    | some r₁ =>
      rcases hcase.later hn hr'' with hlater | ⟨input, fence, hcall⟩
      · exact (ih r₁ hn).trans hlater
      · exact absurd hcall hagain
    | none =>
      cases hcase with
      | same is =>
        rw [is, hn] at hr''
        cases hr''
      | opened call => exact absurd call hagain
      | pruned call was => cases hn.symm.trans was
      | settled clock was => cases hn.symm.trans was
      | leased call was => cases hn.symm.trans was
      | reported call was => cases hn.symm.trans was
  · cases hr.symm.trans h
    exact .refl r

/-! ## What an adapter is given -/

theorem leaseInvocations_eq_reply
    (h : (step E s (.leaseInvocations machineID consumerID now ttl limit tokens)).2 = .invocations page) :
    leaseInvocations s machineID consumerID now ttl limit tokens =
      .ok ((step E s (.leaseInvocations machineID consumerID now ttl limit tokens)).1.invocations, page) := by
  cases hx : leaseInvocations s machineID consumerID now ttl limit tokens with
  | error e => simp [step, commit, hx, Except.map] at h
  | ok a =>
    simp only [step, commit, hx, Except.map, Reply.invocations.injEq] at h ⊢
    rw [← h]

/-- What is leased is pending, and each invocation is leased once. -/
theorem leaseInvocations_reply
    (h : (step E s (.leaseInvocations machineID consumerID now ttl limit tokens)).2 = .invocations page) :
    (page.map Invocation.id).Nodup ∧ ∀ inv ∈ page,
      ∃ r, (step E s (.leaseInvocations machineID consumerID now ttl limit tokens)).1.invocation? inv.id = some r ∧
        r.status = .pending := by
  obtain ⟨-, hnodup, hrows⟩ := leaseInvocations_spec (leaseInvocations_eq_reply h)
  refine ⟨hnodup, fun inv hmem => ?_⟩
  obtain ⟨r, -, hleasable, hrow, -⟩ := hrows inv hmem
  exact ⟨_, hrow, hleasable.pending⟩

theorem leaseInvocations_replyAt
    (hop : ops[n]? = some (.leaseInvocations machineID consumerID now ttl limit tokens))
    (h : replyAt E ops n = some (.invocations page)) :
    leaseInvocations (stateAt E ops n) machineID consumerID now ttl limit tokens =
      .ok ((stateAt E ops (n + 1)).invocations, page) := by
  rw [replyAt, hop, Option.map_some, Option.some.injEq] at h
  rw [stateAt_succ hop]
  exact leaseInvocations_eq_reply h

/-- Call number `n` leases the invocation to the machine. -/
def LeasedAt (E : Env) (ops : List Op) (n : ℕ) (machineID : String) (now : Int) (invocation : Invocation) : Prop :=
  ∃ consumerID ttl limit tokens page,
    ops[n]? = some (.leaseInvocations machineID consumerID now ttl limit tokens) ∧
    replyAt E ops n = some (.invocations page) ∧ invocation ∈ page

theorem LeasedAt.row {inv : Invocation} (h : LeasedAt E ops n machineID now inv) :
    ∃ consumerID ttl r, (stateAt E ops n).invocation? inv.id = some r ∧
      Leasable (stateAt E ops n) machineID consumerID now r ∧
      (stateAt E ops (n + 1)).invocation? inv.id =
        some (r.leased machineID consumerID inv.leaseToken now ttl) ∧
      inv = (r.leased machineID consumerID inv.leaseToken now ttl).issued inv.id inv.leaseToken (now + ttl) := by
  obtain ⟨consumerID, ttl, limit, tokens, page, hop, hreply, hmem⟩ := h
  obtain ⟨r, hr, hleasable, hr', hinv⟩ :=
    (leaseInvocations_spec (leaseInvocations_replyAt hop hreply)).2.2 inv hmem
  exact ⟨consumerID, ttl, r, hr, hleasable, hr', hinv⟩

/-- The invocation's last lease, if it has one, has run out. -/
def Store.unleasedInvocation (s : Store) (id : String) (now : Int) : Bool :=
  (s.invocation? id).any fun r => r.leaseUntil.all (· ≤ unixMilli now)

/-- The fresh leases of an invocation with which call number `n` allows a start. -/
def freshStarts (E : Env) (ops : List Op) (id : String) (n : ℕ) : List Invocation :=
  match ops[n]?, replyAt E ops n with
  | some (.leaseInvocations _ _ now _ _ _), some (.invocations page) =>
    page.filter fun inv => inv.id == id && !inv.recoveryOnly && (stateAt E ops n).unleasedInvocation id now
  | _, _ => []

/-- Each call gives at most one such lease, and it spends an attempt. -/
theorem freshStarts_cases (E : Env) (ops : List Op) (id : String) (n : ℕ) :
    freshStarts E ops id n = [] ∨ (freshStarts E ops id n).length = 1 ∧
      ∃ r r', (stateAt E ops n).invocation? id = some r ∧ (stateAt E ops (n + 1)).invocation? id = some r' ∧
        r'.attempts = r.attempts + 1 := by
  unfold freshStarts
  split
  · rename_i machineID consumerID now ttl limit tokens page hop hreply
    obtain ⟨-, hnodup, hpage⟩ := leaseInvocations_spec (leaseInvocations_replyAt hop hreply)
    set starts := page.filter fun inv =>
      inv.id == id && !inv.recoveryOnly && (stateAt E ops n).unleasedInvocation id now with hstarts
    rcases List.eq_nil_or_concat starts with hnil | ⟨rest, inv, hlast⟩
    · exact .inl hnil
    right
    have hmem : inv ∈ starts := by simp [hlast]
    have hids : ∀ inv' ∈ starts, inv'.id = id := by
      intro inv' hinv'
      have := (List.mem_filter.1 hinv').2
      simp only [Bool.and_eq_true, beq_iff_eq] at this
      exact this.1.1
    have hsub : (starts.map Invocation.id).Nodup := hnodup.sublist (List.filter_sublist.map _)
    constructor
    · -- Two such leases would carry the same identifier.
      have hall : starts.map Invocation.id = List.replicate starts.length id :=
        List.eq_replicate_iff.2 ⟨List.length_map _, fun x hx => by
          obtain ⟨inv', hinv', rfl⟩ := List.mem_map.1 hx
          exact hids inv' hinv'⟩
      rw [hall, List.nodup_replicate] at hsub
      have hpos := List.length_pos_of_mem hmem
      omega
    · obtain ⟨hin, hfresh⟩ := List.mem_filter.1 hmem
      simp only [Bool.and_eq_true, beq_iff_eq, Bool.not_eq_true'] at hfresh
      obtain ⟨⟨rfl, hstart⟩, hunleased⟩ := hfresh
      obtain ⟨r, hr, hleasable, hr', hinv⟩ := hpage inv hin
      refine ⟨r, _, hr, hr', ?_⟩
      rw [Store.unleasedInvocation, hr, Option.any_some] at hunleased
      rw [hinv] at hstart
      simp only [InvocationRow.issued, InvocationRow.leased, hunleased, Bool.true_and, decide_eq_true_eq] at hstart
      simp only [InvocationRow.leased, hunleased, Bool.true_and]
      split at hstart
      · cases hstart
      · rename_i hspent
        simp [hspent]
  · exact .inl rfl

/-- The fresh leases for a start given in the first `n` calls. -/
def startsBefore (E : Env) (ops : List Op) (id : String) (n : ℕ) : List Invocation :=
  (List.range n).flatMap (freshStarts E ops id)

theorem startsBefore_succ (E : Env) (ops : List Op) (id : String) (n : ℕ) :
    startsBefore E ops id (n + 1) = startsBefore E ops id n ++ freshStarts E ops id n := by
  simp [startsBefore, List.range_succ]

/-- A row that a call finds missing and leaves is the one it opens. -/
theorem invocation_opened (hnone : (stateAt E ops n).invocation? id = none)
    (hr : (stateAt E ops (n + 1)).invocation? id = some r) :
    ∃ input fence, ops[n]? = some (.requestInvocation input id fence) := by
  cases hop : ops[n]? with
  | none =>
    rw [stateAt_succ_of_none hop, hnone] at hr
    cases hr
  | some op =>
    rw [stateAt_succ hop] at hr
    cases step_invocation (E := E) (s := stateAt E ops n) op id with
    | same is =>
      rw [is, hnone] at hr
      cases hr
    | opened call => exact ⟨_, _, congrArg some call⟩
    | pruned call was => cases hnone.symm.trans was
    | settled clock was => cases hnone.symm.trans was
    | leased call was => cases hnone.symm.trans was
    | reported call was => cases hnone.symm.trans was

/-- Every such lease is counted in the row's attempts. -/
theorem startsBefore_le (hids : DistinctInvocations ops) (n : ℕ) :
    (startsBefore E ops id n).length ≤ maxInvocationAttempts ∧
      (∀ r, (stateAt E ops n).invocation? id = some r → (startsBefore E ops id n).length ≤ r.attempts) ∧
      ((∀ k < n, ∀ input fence, ops[k]? ≠ some (.requestInvocation input id fence)) →
        startsBefore E ops id n = []) := by
  induction n with
  | zero => simp [startsBefore]
  | succ n ih =>
    obtain ⟨hmax, hrow, hnew⟩ := ih
    rw [startsBefore_succ]
    rcases freshStarts_cases E ops id n with hnil | ⟨hone, r, r', hr, hr', hspent⟩
    · rw [hnil, List.append_nil]
      refine ⟨hmax, fun r' hr' => ?_, fun h => hnew fun k hk => h k (by omega)⟩
      cases hn : (stateAt E ops n).invocation? id with
      | some r => exact (hrow r hn).trans (invocation_later hids n.le_succ hn hr').attempts
      | none =>
        -- The call opens the row, so no earlier call drew its identifier.
        obtain ⟨input, fence, hop⟩ := invocation_opened hn hr'
        have hfirst : startsBefore E ops id n = [] := hnew fun k hk _ _ hk' => by
          have := hids.eq hk' hop
          omega
        simp [hfirst]
    · have hbound := hrow r hr
      have hok := (stateAt_invocationOK ops (n + 1) id r' hr').attempts
      rw [List.length_append, hone]
      refine ⟨by omega, fun r'' hr'' => ?_, fun h => ?_⟩
      · cases hr'.symm.trans hr''
        omega
      · obtain ⟨k, input, fence, _, hk, hcall, -⟩ := invocation_requested hr
        exact absurd hcall (h k (by omega) input fence)

/-- What the relay promises of every invocation of a run. -/
structure StartsSafely (E : Env) (ops : List Op) : Prop where
  /-- The fence never changes, and is the one every lease carries. -/
  fence : ∀ j k id r r', (stateAt E ops j).invocation? id = some r → (stateAt E ops k).invocation? id = some r' →
    r'.fence = r.fence
  leasedFence : ∀ n machineID now inv, LeasedAt E ops n machineID now inv →
    ∃ r, (stateAt E ops n).invocation? inv.id = some r ∧ inv.fence = r.fence
  /-- At most three fresh leases allow a start. -/
  starts : ∀ id, (startsBefore E ops id ops.length).length ≤ 3
  /-- After a recovery lease there are only recovery leases. -/
  recovery : ∀ j k machineID machineID' now now' inv inv', j ≤ k → LeasedAt E ops j machineID now inv →
    LeasedAt E ops k machineID' now' inv' → inv'.id = inv.id → inv.recoveryOnly → inv'.recoveryOnly
  /-- An ended invocation stays as it ended. -/
  ended : ∀ j k id r r', j ≤ k → (stateAt E ops j).invocation? id = some r → r.status ≠ .pending →
    (stateAt E ops k).invocation? id = some r' → r' = r
  /-- A fresh lease finds the target as the request left it: owned by the leasing machine under the generation of
  then, not attached, and with something to read. -/
  fresh : ∀ n machineID now inv, LeasedAt E ops n machineID now inv →
    (stateAt E ops n).unleasedInvocation inv.id now →
    ∃ k input fence requested target delivery d, k < n ∧
      ops[k]? = some (.requestInvocation input inv.id fence) ∧ inv.targetEndpoint = input.targetEndpoint ∧
      (stateAt E ops k).presence.endpoints.find? inv.targetEndpoint = some requested ∧
      (stateAt E ops n).presence.endpoints.find? inv.targetEndpoint = some target ∧
      target.machineID = machineID ∧ target.ownershipGeneration = requested.ownershipGeneration ∧
      target.leaseUntil ≤ unixMilli now ∧ (stateAt E ops n).mail.deliveries.find? delivery = some d ∧
      d.recipientEndpoint = inv.targetEndpoint ∧ d.ackedAt = none

/-- The columns of a lease are null together, so a lease that is not live leaves the row unleased. -/
theorem InvocationRow.OK.unleasedAt (h : r.OK) (hp : r.status = .pending)
    (hfree : r.leaseUntil.all (· ≤ unixMilli now)) : r.unleasedAt now := by
  unfold InvocationRow.unleasedAt
  cases hu : r.leaseUntil with
  | none => simp [(h.lease hp).2 hu]
  | some t =>
    rw [hu, Option.all_some] at hfree
    simpa using Or.inr hfree

/-- **Starts are safe.** Over any calls in any order, with any clocks. -/
theorem starts_safely (E : Env) (ops : List Op) (hids : DistinctInvocations ops) : StartsSafely E ops where
  fence j k id r r' hr hr' := by
    rcases le_total j k with hjk | hkj
    · exact (invocation_later hids hjk hr hr').fence
    · exact (invocation_later hids hkj hr' hr).fence.symm
  leasedFence n machineID now inv h := by
    obtain ⟨_, _, r, hr, -, -, hinv⟩ := h.row
    exact ⟨r, hr, by rw [hinv]; rfl⟩
  starts id := (startsBefore_le hids ops.length).1
  recovery j k machineID machineID' now now' inv inv' hjk h h' hid hrecovery := by
    obtain ⟨consumerID, ttl, r, hr, -, hr₁, hinv⟩ := h.row
    obtain ⟨consumerID', ttl', r', hr', -, hr₁', hinv'⟩ := h'.row
    rw [hid] at hr₁'
    have hlater := invocation_later hids (by omega : j + 1 ≤ k + 1) hr₁ hr₁'
    rw [hinv']
    rw [hinv] at hrecovery
    exact hlater.recovery hrecovery
  ended j k id r r' hjk hr hended hr' := (invocation_later hids hjk hr hr').ended hended
  fresh n machineID now inv h hunleased := by
    obtain ⟨_, _, r, hr, hleasable, -, hinv⟩ := h.row
    have htarget : inv.targetEndpoint = r.targetEndpoint := by rw [hinv]; rfl
    rw [Store.unleasedInvocation, hr, Option.any_some] at hunleased
    have hok := stateAt_invocationOK ops n inv.id r hr
    obtain ⟨⟨target, hfind, hmachine, hgeneration, hoffline⟩, delivery, d, hd, hrecipient, hopen⟩ :=
      hleasable.startable (hok.unleasedAt hleasable.pending hunleased)
    obtain ⟨k, input, fence, requested, hk, hcall, howner, horigin⟩ := invocation_requested hr
    have hendpoint : r.targetEndpoint = input.targetEndpoint := congrArg InvocationRow.targetEndpoint horigin
    have hrecorded : r.targetOwnershipGeneration = requested.ownershipGeneration :=
      congrArg InvocationRow.targetOwnershipGeneration horigin
    rw [htarget]
    refine ⟨k, input, fence, requested, target, delivery, d, hk, hcall, hendpoint, hendpoint ▸ howner, hfind,
      hmachine.trans hleasable.machine, hgeneration.trans hrecorded, hoffline, hd, hrecipient, hopen⟩

/-- A role that left mail unread is started three times; the fourth lease is for recovery only. -/
def startedRun : List Op :=
  [.advertiseEndpoints "desk" ["desk/alice"] 0 60000000000,
    .advertiseEndpoints "den" ["den/bob"] 0 1000000000,
    .createConversation "desk/alice" [⟨"desk/alice", "", "", 15⟩, ⟨"den/bob", "", "", 3⟩] 0 "room",
    .appendMessage ⟨"room", "desk", "desk/alice", "", "hello", [], "key", 0⟩ ⟨"message", fun _ => "delivery"⟩,
    .requestInvocation ⟨"room", "desk", "desk/alice", "den/bob", "wake", 2000000000⟩ "invocation" "fence",
    .leaseInvocations "den" "consumer" 3000000000 10000000000 10 fun _ => "token",
    .leaseInvocations "den" "consumer" 14000000000 10000000000 10 fun _ => "token",
    .leaseInvocations "den" "consumer" 25000000000 10000000000 10 fun _ => "token",
    .leaseInvocations "den" "consumer" 36000000000 10000000000 10 fun _ => "token"]

theorem starts_safely_startedRun : DistinctInvocations startedRun ∧
    StartsSafely ⟨fun x => x, fun _ => true⟩ startedRun ∧
    (startsBefore ⟨fun x => x, fun _ => true⟩ startedRun "invocation" 9).length = 3 ∧
    ((stateAt ⟨fun x => x, fun _ => true⟩ startedRun 9).invocation? "invocation").any
      InvocationRow.recoveryOnly :=
  ⟨by decide, starts_safely _ _ (by decide), by decide +kernel, by decide +kernel⟩

end

end Punaro
