import Mathlib.Data.Finset.Dedup
import Mathlib.Data.Finset.Order
import Punaro.Proof.Starts

/-!
# Requests converge on one start

At most one start of a target stands open at a time (`OneOpen`): a pending one, or
one that succeeded less than a minute ago. A request for the target joins it,
whoever asks and in whichever room. The exception is a pending start nobody has
worked on for a day: the request that finds it gives it up and opens another.
-/

namespace Punaro

open Outcome

/-- What an invocation is to start: the endpoint, its machine and its ownership generation. -/
def InvocationRow.target (r : InvocationRow) : String × String × ℕ :=
  (r.targetEndpoint, r.targetMachineID, r.targetOwnershipGeneration)

/-- The start stands open: it is pending, or it succeeded and its back-off has not run out. -/
def InvocationRow.standing (r : InvocationRow) (now : Int) : Bool :=
  r.status == .pending || (r.status == .succeeded && unixMilli now < r.notBefore)

/-- The same, but for a pending start that is given up. -/
def InvocationRow.kept (r : InvocationRow) (now : Int) : Bool :=
  r.standing now && !(r.status == .pending && r.abandoned now)

/-- Of each target at most one start stands open. -/
def OneOpen (now : Int) (s : Store) : Prop :=
  ∀ id id' r r', s.invocation? id = some r → s.invocation? id' = some r' → r.standing now → r'.standing now →
    r.target = r'.target → id = id'

section

variable {E : Env} {s s' : Store} {i i' : Invocations} {id id' : String} {now now' : Int} {r r' : InvocationRow}
  {op : Op} {target : EndpointRow} {endpoint : String}

theorem InvocationRow.joinable_iff : r.joinable endpoint target now ↔
    r.target = (endpoint, target.machineID, target.ownershipGeneration) ∧ r.standing now := by
  simp only [InvocationRow.joinable, InvocationRow.target, InvocationRow.standing, Bool.and_eq_true, beq_iff_eq,
    Prod.mk.injEq, and_assoc]

theorem InvocationRow.standing_of_pending (h : r.status = .pending) : r.standing now := by
  simp [InvocationRow.standing, h]

theorem InvocationRow.standing_mono (h : r.standing now') (hle : now ≤ now') : r.standing now := by
  have hms : unixMilli now ≤ unixMilli now' := Int.ediv_le_ediv (by decide) hle
  simp only [InvocationRow.standing, Bool.or_eq_true, Bool.and_eq_true, beq_iff_eq, decide_eq_true_eq] at h ⊢
  exact h.imp_right fun ⟨hs, hlt⟩ => ⟨hs, by omega⟩

/-- An open start that a clean-up has passed over is untouched. -/
theorem InvocationRow.Settled.standing (h : r.Settled now r') (hopen : r'.standing now') : r' = r := by
  cases h with
  | same => rfl
  | ended was ends fails => simp [InvocationRow.standing, InvocationRow.ended, ends, fails] at hopen
  | staled was => simp [InvocationRow.standing, InvocationRow.staled] at hopen

/-- A start that is open after a call was open before it, or the call has opened it where none was. -/
theorem RowCase.standing (h : RowCase s op id s') (hr' : s'.invocation? id = some r') (hopen : r'.standing now) :
    (∃ r, s.invocation? id = some r ∧ r.standing now ∧ r.target = r'.target) ∨
      ∃ now₀, op.clock = some now₀ ∧ ∀ id' r, id' ≠ id → s'.invocation? id' = some r → r.standing now₀ →
        r.target ≠ r'.target := by
  cases h with
  | same is => exact .inl ⟨r', is ▸ hr', hopen, rfl⟩
  | @opened input fence target status terminalAt call gone owner is state =>
    cases is.symm.trans hr'
    rcases state with ⟨rfl, -⟩ | ⟨-, -, halone⟩
    · simp [InvocationRow.standing, InvokeInput.row] at hopen
    · refine .inr ⟨input.now, call ▸ rfl, fun id' r hne hr hstanding htarget => ?_⟩
      have hjoins : r.joinable input.targetEndpoint target input.now :=
        InvocationRow.joinable_iff.2 ⟨htarget, hstanding⟩
      rw [halone id' r hne hr] at hjoins
      cases hjoins
  | pruned call was past is =>
    rw [is] at hr'
    cases hr'
  | settled clock was is settles =>
    cases is.symm.trans hr'
    have heq := settles.standing hopen
    exact .inl ⟨_, was, heq ▸ hopen, by rw [heq]⟩
  | leased call was leasable is =>
    cases is.symm.trans hr'
    exact .inl ⟨_, was, InvocationRow.standing_of_pending leasable.pending, rfl⟩
  | reported call was live is =>
    cases is.symm.trans hr'
    refine .inl ⟨_, was, InvocationRow.standing_of_pending live.pending, ?_⟩
    unfold InvocationRow.reported
    split <;> rfl

/-- **One call** no later than `now` keeps it at one open start. -/
theorem step_oneOpen (h : OneOpen now s) (hclock : ∀ now₀, op.clock = some now₀ → now₀ ≤ now) :
    OneOpen now (step E s op).1 := by
  intro id id' r r' hr hr' hopen hopen' htarget
  by_contra hne
  rcases (step_invocation op id).standing hr hopen with ⟨r₀, hr₀, hopen₀, htarget₀⟩ | ⟨now₀, hnow₀, halone⟩
  · rcases (step_invocation op id').standing hr' hopen' with ⟨r₁, hr₁, hopen₁, htarget₁⟩ | ⟨now₀, hnow₀, halone⟩
    · refine hne (h id id' r₀ r₁ hr₀ hr₁ hopen₀ hopen₁ ?_)
      rw [htarget₀, htarget₁, htarget]
    · exact halone id r hne hr (InvocationRow.standing_mono hopen (hclock now₀ hnow₀)) htarget
  · exact halone id' r' (Ne.symm hne) hr' (InvocationRow.standing_mono hopen' (hclock now₀ hnow₀)) htarget.symm

variable {ops : List Op} {n : ℕ}

/-- **Over a run**, at any instant after its calls. -/
theorem stateAt_oneOpen (E : Env)
    (hclock : ∀ k op now₀, k < n → ops[k]? = some op → op.clock = some now₀ → now₀ ≤ now) :
    OneOpen now (stateAt E ops n) :=
  stateAt_rule (Nat.zero_le n)
    (fun k op _ hk hop h => step_oneOpen h fun now₀ => hclock k op now₀ hk hop)
    fun _ _ _ _ hr => by
      rw [stateAt_zero] at hr
      cases hr

/-- Some instant is no earlier than any call of the run. -/
theorem exists_clock_bound (ops : List Op) :
    ∃ now, ∀ (k : ℕ) (op : Op) (now₀ : Int), ops[k]? = some op → op.clock = some now₀ → now₀ ≤ now := by
  obtain ⟨now, hbound⟩ := (ops.filterMap Op.clock).toFinset.exists_le
  refine ⟨now, fun k op now₀ hop hclock => hbound now₀ ?_⟩
  exact List.mem_toFinset.2 (List.mem_filterMap.2 ⟨op, List.mem_of_getElem? hop, hclock⟩)

/-! ## What a request finds -/

/-- The invocation a caller's key stands for, once records past retention are gone. -/
def Store.boundKey? (s : Store) (machineID key : String) (now : Int) : Option InvocationRetryRow :=
  (pruneExpiredTerminalInvocations (ensureInvocationSchema s.invocations) now).invocationIdempotency.find?
    (machineID, key)

/-- A start that stands open and is not given up is there when a request looks for one. -/
theorem requestTables_kept {input : InvokeInput} (hok : r.OK) (hr : i.invocations.find? id = some r)
    (hkept : r.kept input.now) :
    (requestTables i input).invocations.find? id = some r := by
  simp only [InvocationRow.kept, InvocationRow.standing, Bool.and_eq_true, Bool.or_eq_true, beq_iff_eq,
    decide_eq_true_eq, Bool.not_eq_true', Bool.and_eq_false_iff, beq_eq_false_iff_ne] at hkept
  obtain ⟨hopen, hactive⟩ := hkept
  have hpast : r.pastRetention input.now = false := by
    unfold InvocationRow.pastRetention
    rcases hopen with hp | ⟨hs, hlt⟩
    · simp [hok.pending hp]
    · obtain ⟨t, ht, hbefore⟩ := hok.succeeded hs
      simp only [ht, Option.any_some, decide_eq_false_iff_not, not_lt]
      unfold unixMilli invocationTerminalRetention at *
      omega
  have hpruned := find?_pruneExpiredTerminalInvocations.2 ⟨hr, hpast⟩
  have hfind : (requestTables i input).invocations.find? id = _ :=
    find?_pass (InvocationRow.ended · .failed input.now) _ (fun _ => rfl)
      (pruneExpiredTerminalInvocations i input.now) id
  rw [hfind, hpruned, Option.map_some, if_neg]
  intro hgiven
  simp only [Bool.and_eq_true, beq_iff_eq, decide_eq_true_eq] at hgiven
  obtain ⟨⟨⟨-, hp⟩, hold⟩, hfree⟩ := hgiven
  have hnot := hactive.resolve_left fun h => h hp
  simp [InvocationRow.abandoned, hold, hfree] at hnot

theorem requestInvocation_replyAt {input : InvokeInput} {fence : String} {answer : Invocation} {duplicate : Bool}
    (hop : ops[n]? = some (.requestInvocation input id fence))
    (h : replyAt E ops n = some (.invocation answer duplicate)) :
    ∃ i', (stateAt E ops (n + 1)).invocations = some i' ∧
      Requested (stateAt E ops n) (ensureInvocationSchema (stateAt E ops n).invocations) input
        (stableHash E [input.conversationID, input.fromEndpoint, input.targetEndpoint]) id fence i' answer
        duplicate := by
  rw [replyAt, hop, Option.map_some, Option.some.injEq] at h
  rw [stateAt_succ hop]
  unfold step at h ⊢
  dsimp only at h ⊢
  rcases requestInvocation_cases E (stateAt E ops n) input id fence with ⟨i, e, heq, -⟩ | ⟨i', a, d, heq, hreq⟩
  · rw [heq] at h
    cases h
  · rw [heq] at h ⊢
    cases h
    exact ⟨i', rfl, hreq⟩

/-- The request at call `n` opens no invocation; its key stands for the invocation `id`, and that is what its
caller is told of. -/
structure JoinsAt (E : Env) (ops : List Op) (n : ℕ) (input : InvokeInput) (answer : Invocation) (duplicate : Bool)
    (id : String) (r : InvocationRow) : Prop where
  none_opened : ∀ id', (stateAt E ops (n + 1)).invocation? id' ≠ none → (stateAt E ops n).invocation? id' ≠ none
  found : (stateAt E ops n).invocation? id = some r
  stays : (stateAt E ops (n + 1)).invocation? id = some r
  bound : ∃ i hash, (stateAt E ops (n + 1)).invocations = some i ∧
    i.invocationIdempotency.find? (input.senderMachineID, input.idempotencyKey) = some ⟨hash, id⟩
  answered : answer = invocationForCaller (r.view id) input ∧ duplicate = true

/-- Requests converge: of each target at most one invocation is pending; and while a start of a target stands, in
the sense of `stands`, every accepted request with a new key for the offline target joins an open start of that
target. With clocks that do not go back it is that start. -/
structure StartsConverge (E : Env) (ops : List Op) (stands : InvocationRow → Int → Bool) : Prop where
  one : ∀ n id id' r r', (stateAt E ops n).invocation? id = some r → (stateAt E ops n).invocation? id' = some r' →
    r.status = .pending → r'.status = .pending → r.target = r'.target → id = id'
  joins : ∀ n input id fence answer duplicate target id₀ r₀,
    ops[n]? = some (.requestInvocation input id fence) → replyAt E ops n = some (.invocation answer duplicate) →
    (stateAt E ops n).boundKey? input.senderMachineID input.idempotencyKey input.now = none →
    (stateAt E ops n).presence.endpoints.find? input.targetEndpoint = some target →
    target.leaseUntil ≤ unixMilli input.now → (stateAt E ops n).invocation? id₀ = some r₀ →
    r₀.target = (input.targetEndpoint, target.machineID, target.ownershipGeneration) → stands r₀ input.now →
    ∃ id' r', JoinsAt E ops n input answer duplicate id' r' ∧ r'.target = r₀.target ∧ r'.standing input.now ∧
      (Ordered ops → id' = id₀)

/-- **Requests converge** while a start is pending and not given up, or has just succeeded. -/
theorem starts_converge (E : Env) (ops : List Op) : StartsConverge E ops InvocationRow.kept where
  one n id id' r r' hr hr' hp hp' htarget := by
    obtain ⟨now, hbound⟩ := exists_clock_bound ops
    exact stateAt_oneOpen E (fun k op now₀ _ => hbound k op now₀) id id' r r' hr hr'
      (InvocationRow.standing_of_pending hp) (InvocationRow.standing_of_pending hp') htarget
  joins n input id fence answer duplicate target id₀ r₀ hop hreply hnew howner hoffline hr₀ htarget hkept := by
    obtain ⟨i', hi', hreq⟩ := requestInvocation_replyAt hop hreply
    have hrow := invocation?_ensure (stateAt E ops n)
    have hfind₀ := requestTables_kept (stateAt_invocationOK ops n id₀ r₀ hr₀) ((hrow id₀).trans hr₀) hkept
    have hopen₀ : r₀.standing input.now := (Bool.and_eq_true _ _ ▸ hkept).1
    cases hreq with
    | retried bound =>
      rw [Store.boundKey?, bound] at hnew
      cases hnew
    | @opened target' status terminalAt new owner state absent tables binds =>
      -- The open start would have been joined.
      cases howner.symm.trans owner
      rcases state with ⟨-, -, hlive⟩ | ⟨-, -, -, halone⟩
      · omega
      · have hjoins := InvocationRow.joinable_iff.2 ⟨htarget, hopen₀⟩
        rw [halone id₀ r₀ hfind₀] at hjoins
        cases hjoins
    | @joined target' id' r' new owner offline found joins answers tables binds =>
      cases howner.symm.trans owner
      obtain ⟨htarget', hopen'⟩ := InvocationRow.joinable_iff.1 joins
      rcases requestTables_cases (ensureInvocationSchema (stateAt E ops n).invocations) input id' with
        ⟨hnone, -⟩ | ⟨r, r'', hr, hr'', hsettled, -⟩
      · cases hnone.symm.trans found
      cases hr''.symm.trans found
      have heq := hsettled.standing hopen'
      subst heq
      have hfound : (stateAt E ops n).invocation? id' = some r' := (hrow id').symm.trans hr
      have hafter : ∀ id', (stateAt E ops (n + 1)).invocation? id' =
          (requestTables (ensureInvocationSchema (stateAt E ops n).invocations) input).invocations.find? id' := by
        intro id'
        rw [Store.invocation?, hi', Option.bind_some, tables]
      refine ⟨id', r', ⟨fun id'' hsome => ?_, hfound, (hafter id').trans found, ⟨i', _, hi', binds⟩, answers, rfl⟩,
        htarget'.trans htarget.symm, hopen', fun hordered => ?_⟩
      · rcases requestTables_cases (ensureInvocationSchema (stateAt E ops n).invocations) input id'' with
          ⟨hnone, -⟩ | ⟨r, -, hr, -⟩
        · exact absurd ((hafter id'').trans hnone) hsome
        · rw [← hrow, hr]
          simp
      · refine stateAt_oneOpen E (fun k op now₀ hk hcall hclock => ?_) id' id₀ r' r₀ hfound hr₀ hopen' hopen₀
          (htarget'.trans htarget.symm)
        exact hordered.le hk.le hcall hop hclock rfl

/-- Two requests for one offline role, a second apart. -/
def joinedRun : List Op :=
  [.advertiseEndpoints "desk" ["desk/alice"] 0 60000000000,
    .advertiseEndpoints "den" ["den/bob"] 0 1000000000,
    .createConversation "desk/alice" [⟨"desk/alice", "", "", 15⟩, ⟨"den/bob", "", "", 3⟩] 0 "room",
    .appendMessage ⟨"room", "desk", "desk/alice", "", "hello", [], "key", 0⟩ ⟨"message", fun _ => "delivery"⟩,
    .requestInvocation ⟨"room", "desk", "desk/alice", "den/bob", "wake", 2000000000⟩ "first" "fence",
    .requestInvocation ⟨"room", "desk", "desk/alice", "den/bob", "again", 3000000000⟩ "second" "another"]

theorem starts_converge_joinedRun : ∃ r, r.fence = "fence" ∧
    JoinsAt ⟨fun x => x, fun _ => true⟩ joinedRun 5
      ⟨"room", "desk", "desk/alice", "den/bob", "again", 3000000000⟩
      ⟨"first", "room", "den/bob", "den", "fence", .pending, "", 0, zeroTime, false⟩ true "first" r := by
  obtain ⟨id, r, hjoins, -, -, hsame⟩ := (starts_converge ⟨fun x => x, fun _ => true⟩ joinedRun).joins 5
    ⟨"room", "desk", "desk/alice", "den/bob", "again", 3000000000⟩ "second" "another"
    ⟨"first", "room", "den/bob", "den", "fence", .pending, "", 0, zeroTime, false⟩ true
    ⟨"den", 1000, 1, none, 0, none⟩ "first"
    (InvokeInput.row ⟨"room", "desk", "desk/alice", "den/bob", "wake", 2000000000⟩
      ⟨"den", 1000, 1, none, 0, none⟩ "fence" .pending none)
    rfl (by rfl) (by decide +kernel) (by decide +kernel) (by decide) (by decide +kernel) rfl (by decide)
  cases hsame (by decide)
  have hrow : (stateAt ⟨fun x => x, fun _ => true⟩ joinedRun 5).invocation? "first" =
      some (InvokeInput.row ⟨"room", "desk", "desk/alice", "den/bob", "wake", 2000000000⟩
        ⟨"den", 1000, 1, none, 0, none⟩ "fence" .pending none) := by decide +kernel
  cases hrow.symm.trans hjoins.found
  exact ⟨_, rfl, hjoins⟩

/-- A start nobody takes up for 25 hours, and a second request for it. -/
def abandonedRun : List Op :=
  [.advertiseEndpoints "desk" ["desk/alice"] 0 60000000000,
    .advertiseEndpoints "den" ["den/bob"] 0 1000000000,
    .createConversation "desk/alice" [⟨"desk/alice", "", "", 15⟩, ⟨"den/bob", "", "", 3⟩] 0 "room",
    .appendMessage ⟨"room", "desk", "desk/alice", "", "hello", [], "key", 0⟩ ⟨"message", fun _ => "delivery"⟩,
    .requestInvocation ⟨"room", "desk", "desk/alice", "den/bob", "wake", 2000000000⟩ "first" "fence",
    .advertiseEndpoints "desk" ["desk/alice"] 90000000000000 60000000000,
    .requestInvocation ⟨"room", "desk", "desk/alice", "den/bob", "again", 90000000000000⟩ "second" "another"]

/-- The first start is still pending when the second request comes, and it opens another. -/
theorem starts_diverge : Ordered abandonedRun ∧
    ¬ StartsConverge ⟨fun x => x, fun _ => true⟩ abandonedRun InvocationRow.standing := by
  refine ⟨by decide, fun h => ?_⟩
  have hopened : (stateAt ⟨fun x => x, fun _ => true⟩ abandonedRun 7).invocation? "second" ≠ none := by
    decide +kernel
  obtain ⟨id, r, hjoins, -⟩ := h.joins 6
    ⟨"room", "desk", "desk/alice", "den/bob", "again", 90000000000000⟩ "second" "another"
    ⟨"second", "room", "den/bob", "den", "another", .pending, "", 0, zeroTime, false⟩ false
    ⟨"den", 1000, 1, none, 0, none⟩ "first"
    (InvokeInput.row ⟨"room", "desk", "desk/alice", "den/bob", "wake", 2000000000⟩
      ⟨"den", 1000, 1, none, 0, none⟩ "fence" .pending none)
    rfl (by rfl) (by decide +kernel) (by decide +kernel) (by decide) (by decide +kernel) rfl (by decide)
  exact hjoins.none_opened "second" hopened (by decide +kernel)

end

end Punaro
