import Punaro.Proof.Progress

/-!
# Completed claims in runs

As long as no task overwrites a claim another task is at work on, what the tasks have
seen of their claims holds (`RoutedOK`). So every write is licensed, and completed
claims stay complete and routed.
-/

namespace Punaro.Telegram

open Outcome Prog

/-! ## The condition -/

/-- The conversation whose claim the call overwrites. -/
def Call.overwrites : Call → Option String
  | .state (.beginClaimCreating c _) => some c
  | .state (.persistClaimThread c _ _) => some c
  | .state (.persistClaimRoute _ _ c) => some c
  | .state (.adoptExistingRoute c _) => some c
  | _ => none

section

variable {ι : Type}

/-- The conversation whose claim a task is at work on. -/
def atWork (σ : GatewayConfig ι) (i : ι) : Option String :=
  match σ.thread i with
  | some (.call next _) => next.about
  | _ => none

/-- The conversation whose claim a task is about to overwrite. -/
def overwriting (σ : GatewayConfig ι) (i : ι) : Option String :=
  match σ.thread i with
  | some (.call next _) => next.overwrites
  | _ => none

/-- No claim is overwritten that another task is at work on. -/
def Undisturbed (σ : GatewayConfig ι) : Cue ι Task Reaction Empty → Prop
  | .call i _ => ∀ c ∈ overwriting σ i, ∀ j, j ≠ i → atWork σ j ≠ some c
  | _ => True

end

/-! ## What is seen and still holds -/

/-- The claim the task has seen is still as it was. -/
def Knows (s : State) (q : Progress) : Prop :=
  ∀ c ∈ q.conversation, ∃ row, s.claimExecutions.find? c = some row ∧ q.Fits row

section

variable {s : State} {q : Progress} {call : Call} {o : Reaction} {c : String}
variable {s' : State} {m : StateCall}

/-- A method that is allowed to who knows its claim is licensed. -/
theorem licensed_of_allows (hallows : claiming.Allows q (.state m))
    (hknows : (Call.state m).about = q.conversation → Knows s q) : Licensed s m := by
  have hfits : ∀ {c row}, (Call.state m).about = q.conversation → q.conversation = some c →
      s.claimExecutions.find? c = some row → q.Fits row := by
    intro c row habout hc hrow
    obtain ⟨row', hrow', hfits⟩ := hknows habout c hc
    rw [hrow'] at hrow
    cases hrow
    exact hfits
  cases m with
  | beginClaimCreating c | persistClaimThread c =>
    cases (show q = .opened c from hallows)
    exact fun row hrow => hfits rfl rfl hrow
  | persistClaimRoute chatID threadID c =>
    cases (show q = .threaded c chatID threadID from hallows)
    exact fun row hrow => hfits rfl rfl hrow
  | markClaimComplete c =>
    intro row hrow
    rcases hallows with rfl | rfl
    · exact hfits rfl rfl hrow
    · exact hfits rfl rfl hrow
  | _ => trivial

/-- What a licensed method does to a claim it does not overwrite. -/
theorem touch_aside {row : ExecutionRow} (licensed : Licensed s m) (hrow : s.claimExecutions.find? c = some row)
    (hover : (Call.state m).overwrites ≠ some c) :
    (m.touch s c row).phase = row.phase ∧ (m.touch s c row).threadID = row.threadID ∧
        (m.touch s c row).chatID = row.chatID ∨
      row.phase = .creating ∧ (m.touch s c row).phase.settled = false ∨
      row.phase.settled ∧ (m.touch s c row).phase.settled := by
  cases m with
  | setRoute chatID threadID c' | clearClaimCreating c' =>
    simp only [StateCall.touch]
    split
    · rename_i hcreating
      exact .inr (.inl ⟨hcreating.2.1, rfl⟩)
    · exact .inl ⟨rfl, rfl, rfl⟩
  | persistClaimDisplayName =>
    simp only [StateCall.touch]
    split <;> exact .inl ⟨rfl, rfl, rfl⟩
  | beginClaimCreating c' | persistClaimThread c' | adoptExistingRoute c' | persistClaimRoute _ _ c' =>
    have hc : c ≠ c' := fun hc => hover (congrArg some hc.symm)
    simp only [StateCall.touch, if_neg hc]
    exact .inl ⟨trivial, trivial, trivial⟩
  | persistClaimAdoptReserved c' =>
    simp only [StateCall.touch]
    split
    · rename_i hadopting
      rw [hadopting.2]
      exact .inr (.inr ⟨rfl, rfl⟩)
    · exact .inl ⟨rfl, rfl, rfl⟩
  | markClaimComplete c' =>
    simp only [StateCall.touch]
    split
    · rename_i hc
      subst hc
      exact .inr (.inr ⟨licensed row hrow, rfl⟩)
    · exact .inl ⟨rfl, rfl, rfl⟩
  | _ => exact .inl ⟨rfl, rfl, rfl⟩

/-- What a task has seen of a claim survives every licensed method that does not overwrite the claim. -/
theorem Knows.run {a : m.Result} (hknows : Knows s q) (licensed : Licensed s m) (h : s.run m = .ok (s', a))
    (hover : ∀ c ∈ q.conversation, (Call.state m).overwrites ≠ some c) : Knows s' q := by
  intro c hc
  obtain ⟨row, hrow, hfits⟩ := hknows c hc
  refine ⟨_, (run_effect h).kept hrow, ?_⟩
  rcases touch_aside licensed hrow (hover c hc) with ⟨hphase, hthread, hchat⟩ | ⟨hphase, hunsettled⟩ | ⟨hphase, hsettled⟩
  · cases q with
    | idle => trivial
    | _ => simpa [Progress.Fits, hphase, hthread, hchat] using hfits
  · cases q with
    | idle => trivial
    | opened c => exact hunsettled
    | threaded => simp [Progress.Fits, hphase] at hfits
    | settled c | adopted c => simp [Progress.Fits, hphase, ClaimPhase.settled] at hfits
  · cases q with
    | idle => trivial
    | opened c => simp [Progress.Fits, hphase] at hfits
    | threaded => simp [hfits.1, ClaimPhase.settled] at hphase
    | settled c | adopted c => exact hsettled

/-- What has been settled is known for good. -/
theorem Knows.settled (h : Knows s (.settled c)) (hkept : SettledKept s s') : Knows s' (.settled c) := by
  rintro _ ⟨⟩
  obtain ⟨row, hrow, hfits⟩ := h c rfl
  obtain ⟨-, row', hrow', hsettled, -⟩ := hkept _ _ hrow hfits
  exact ⟨row', hrow', hsettled⟩

/-- A claim that is read is as it was seen. -/
theorem knows_progress {row : ExecutionRow} (ok : ClaimsOK s) (hrow : s.claimExecutions.find? c = some row) :
    Knows s (scanClaimExecution c row).progress := by
  intro c' hc'
  rw [conversation_progress] at hc'
  cases hc'
  refine ⟨row, hrow, ?_⟩
  unfold ClaimExecution.progress
  split
  · rename_i hsettled
    exact hsettled
  · rename_i hsettled
    split
    · rename_i hthread
      have hphase : row.phase = .topicCreated := by
        by_contra hne
        have hlater : row.phase.later = false := by
          cases hphase : row.phase <;> simp_all [scanClaimExecution, ClaimPhase.settled, ClaimPhase.later]
        have hbare := ok.bare hrow hlater
        rcases hthread with hthread | hthread
        · rw [show (scanClaimExecution c row).phase = row.phase from rfl, hlater] at hthread
          cases hthread
        · unfold ExecutionRow.unthreaded at hbare
          cases hid : row.threadID <;> simp_all [scanClaimExecution]
          omega
      exact ⟨hphase, rfl, rfl⟩
    · exact Bool.eq_false_iff.2 hsettled

theorem knows_idle : Knows s .idle := nofun

/-- A task that is not moved on knows what it knew. -/
theorem knows_unmoved (h : call.about = q.conversation → Knows s q) :
    Knows s (if call.about = q.conversation then q else .idle) := by
  split
  · rename_i habout
    exact h habout
  · exact knows_idle

/-- A claim that begins to be created. -/
theorem knows_begun {allowedUserID : Int} {a : Int × Int × Bool} (h : Knows s (.opened c))
    (hrun : s.run (.beginClaimCreating c allowedUserID) = .ok (s', a)) :
    Knows s' (claiming.next (.opened c) (.state (.beginClaimCreating c allowedUserID)) (.ok a)) := by
  obtain ⟨row, hrow, -⟩ := h c rfl
  have hrow' := (run_effect hrun).kept hrow
  simp only [State.run, State.beginClaimCreating, bind_eq_ok] at hrun
  obtain ⟨-, -, hrun⟩ := hrun
  split at hrun <;> rename_i htopic
  · rename_i chatID threadID
    simp only [ok_rules, Prod.mk.injEq] at hrun
    obtain ⟨-, -, -, rfl⟩ := hrun
    change Knows s' (.threaded c chatID threadID)
    rintro _ ⟨⟩
    exact ⟨_, hrow', by simp [StateCall.touch, htopic, Progress.Fits]⟩
  · simp only [ok_rules, Prod.mk.injEq] at hrun
    obtain ⟨-, -, -, rfl⟩ := hrun
    change Knows s' (.opened c)
    rintro _ ⟨⟩
    exact ⟨_, hrow', by simp [StateCall.touch, htopic, Progress.Fits, ClaimPhase.settled]⟩

/-- A route that is adopted. -/
theorem knows_adopted {allowedUserID threadID : Int}
    (hrun : s.run (.adoptExistingRoute c allowedUserID) = .ok (s', threadID)) : Knows s' (.adopted c) := by
  simp only [State.run, State.adoptExistingRoute, ok_rules, Prod.mk.injEq] at hrun
  obtain ⟨-, -, ⟨chatID, threadID⟩, -, -, -, rfl, -⟩ := hrun
  rintro _ ⟨⟩
  rw [Table.find?_upsert, if_pos rfl]
  cases s.claimExecutions.find? c with
  | none => exact ⟨_, rfl, rfl⟩
  | some row =>
    refine ⟨_, rfl, ?_⟩
    change (ExecutionRow.phase (if row.phase = .complete then _ else _)).settled = true
    split
    · rename_i hphase
      exact congrArg ClaimPhase.settled hphase
    · rfl

/-- What a task knows after a call of its own. -/
theorem knows_next (ok : ClaimsOK s) (hallows : claiming.Allows q call) (hq : q.free)
    (hknows : call.about = q.conversation → Knows s q) :
    Knows (s.answer o call).1 (claiming.next q call (s.answer o call).2) := by
  cases call with
  | state m =>
    unfold State.answer
    dsimp only
    cases o.fault with
    | some e =>
      rw [next_error hq]
      exact knows_unmoved hknows
    | none =>
      have licensed := licensed_of_allows hallows hknows
      rcases perform_cases s m with ⟨s', a, hrun, hperform⟩ | ⟨e, hrun, hperform⟩
      · simp only [hperform]
        cases m with
        | claimExecution c =>
          cases hrun
          cases hrow : s.claimExecutions.find? c with
          | none =>
            have hnone : s.claimExecution c = none := by simp [State.claimExecution, hrow]
            rw [hnone]
            have hnext : claiming.next q (.state (.claimExecution c)) (.ok none) =
                if (Call.state (.claimExecution c)).about = q.conversation then q else .idle := by
              cases q with
              | adopted c => cases hq
              | _ => rfl
            rw [hnext]
            exact knows_unmoved hknows
          | some row =>
            have hsome : s.claimExecution c = some (scanClaimExecution c row) := by simp [State.claimExecution, hrow]
            rw [hsome]
            have hnext : claiming.next q (.state (.claimExecution c)) (.ok (some (scanClaimExecution c row))) =
                (scanClaimExecution c row).progress := by
              cases q with
              | adopted c => cases hq
              | _ => rfl
            rw [hnext]
            exact knows_progress ok hrow
        | beginClaimCreating c allowedUserID =>
          cases (show q = .opened c from hallows)
          exact knows_begun (hknows rfl) hrun
        | persistClaimThread c chatID threadID =>
          cases (show q = .opened c from hallows)
          obtain ⟨row, hrow, -⟩ := hknows rfl c rfl
          change Knows s' (.threaded c chatID threadID)
          rintro _ ⟨⟩
          exact ⟨_, (run_effect hrun).kept hrow, by simp [StateCall.touch, Progress.Fits]⟩
        | persistClaimRoute chatID threadID c =>
          cases (show q = .threaded c chatID threadID from hallows)
          obtain ⟨row, hrow, -⟩ := hknows rfl c rfl
          rintro _ ⟨⟩
          refine ⟨_, (run_effect hrun).kept hrow, ?_⟩
          simp only [StateCall.touch, if_true]
          split <;> rfl
        | adoptExistingRoute c allowedUserID =>
          have hnext : claiming.next q (.state (.adoptExistingRoute c allowedUserID)) (.ok a) = .adopted c := by
            cases q with
            | adopted c => cases hq
            | _ => rfl
          rw [hnext]
          exact knows_adopted hrun
        | markClaimComplete c =>
          rw [next_quiet hq (.inr ⟨c, rfl⟩)]
          exact knows_unmoved fun habout => (hknows habout).run licensed hrun (by rintro _ - ⟨⟩)
        | _ =>
          rw [next_quiet hq (.inl rfl)]
          exact knows_unmoved fun habout => (hknows habout).run licensed hrun (by rintro _ - ⟨⟩)
      · simp only [hperform]
        rw [next_error hq]
        exact knows_unmoved hknows
  | _ =>
    rw [next_quiet hq (.inl rfl)]
    exact knows_unmoved hknows

end

/-! ## Runs -/

section

variable {ι : Type} {σ : GatewayConfig ι} {τ : ι → Progress} {i : ι}

/-- The claims are routed, and what the tasks have seen holds while they are at work. -/
structure RoutedOK (σ : GatewayConfig ι) (τ : ι → Progress) : Prop where
  claims : ClaimsOK σ.state.1
  knows : ∀ i, atWork σ i = (τ i).conversation → Knows σ.state.1 (τ i)
  adopted : ∀ i c, τ i = .adopted c → Knows σ.state.1 (.adopted c)

variable {call : Call} {k : call.Reply → Program Unit}

theorem RoutedOK.licensed (ok : RoutedOK σ τ) (hi : σ.thread i = some (.call call k))
    (hallows : claiming.Allows (τ i) call) {m : StateCall} (hm : call = .state m) : Licensed σ.state.1 m := by
  subst hm
  refine licensed_of_allows hallows fun habout => ok.knows i ?_
  unfold atWork
  rw [hi]
  exact habout

/-- What a call leaves of the claims. -/
theorem RoutedOK.kept (ok : RoutedOK σ τ) (hi : σ.thread i = some (.call call k))
    (hallows : claiming.Allows (τ i) call) (o : Reaction) :
    ClaimsOK (σ.state.1.answer o call).1 ∧ SettledKept σ.state.1 (σ.state.1.answer o call).1 := by
  rcases answer_cases o σ.state.1 call with hsame | ⟨m, a, hm, hrun, -⟩
  · rw [hsame]
    exact ⟨ok.claims, fun _ _ hrow hsettled => ⟨rfl, _, hrow, hsettled, id⟩⟩
  · have licensed := ok.licensed hi hallows hm
    exact ⟨ok.claims.run licensed hrun, ok.claims.settledKept licensed hrun⟩

variable [DecidableEq ι]

theorem atWork_update {s : GatewayState} {p : Option (Program Unit)} {j : ι} (hij : j ≠ i) :
    atWork ⟨s, Function.update σ.thread i p⟩ j = atWork σ j := by
  unfold atWork
  dsimp only
  rw [Function.update_of_ne hij]

/-- A task that starts or stops. -/
theorem RoutedOK.idle (ok : RoutedOK σ τ) (p : Option (Program Unit)) :
    RoutedOK { σ with thread := Function.update σ.thread i p } (Function.update τ i .idle) where
  claims := ok.claims
  knows j hj := by
    by_cases hij : j = i
    · subst hij
      rw [Function.update_self]
      exact knows_idle
    · rw [atWork_update hij] at hj
      rw [Function.update_of_ne hij] at hj ⊢
      exact ok.knows j hj
  adopted j c hj := by
    by_cases hij : j = i
    · subst hij
      rw [Function.update_self] at hj
      cases hj
    · rw [Function.update_of_ne hij] at hj
      exact ok.adopted j c hj

/-- A call of a task. -/
theorem RoutedOK.called (ok : RoutedOK σ τ) (hi : σ.thread i = some (.call call k))
    (hallows : claiming.Allows (τ i) call) (o : Reaction)
    (hundisturbed : ∀ c ∈ call.overwrites, ∀ j, j ≠ i → atWork σ j ≠ some c) :
    RoutedOK ⟨(recorded State.answer o σ.state call).1, Function.update σ.thread i
        (some (k (recorded State.answer o σ.state call).2))⟩
      (Function.update τ i (claiming.next (τ i) call (recorded State.answer o σ.state call).2)) := by
  obtain ⟨hclaims, hkept⟩ := ok.kept hi hallows o
  have hadopted : ∀ {j c}, τ j = .adopted c → Knows (σ.state.1.answer o call).1 (.adopted c) :=
    fun hj => Knows.settled (ok.adopted _ _ hj) hkept
  -- the task itself knows what it has just seen
  have hself : Knows (σ.state.1.answer o call).1 (claiming.next (τ i) call (σ.state.1.answer o call).2) := by
    cases hfree : (τ i).free with
    | false =>
      cases hq : τ i with
      | adopted c => exact hadopted hq
      | _ => simp [hq, Progress.free] at hfree
    | true =>
      refine knows_next ok.claims hallows hfree fun habout => ok.knows i ?_
      unfold atWork
      rw [hi]
      exact habout
  refine ⟨hclaims, fun j hj => ?_, fun j c hj => ?_⟩
  · by_cases hij : j = i
    · subst hij
      rw [Function.update_self]
      exact hself
    · rw [atWork_update hij] at hj
      rw [Function.update_of_ne hij] at hj ⊢
      have hknows := ok.knows j hj
      change Knows (σ.state.1.answer o call).1 (τ j)
      rcases answer_cases o σ.state.1 call with hsame | ⟨m, a, rfl, hrun, -⟩
      · rwa [hsame]
      · refine hknows.run (ok.licensed hi hallows rfl) hrun fun c hc hover => ?_
        exact hundisturbed c hover j hij (Eq.trans hj hc)
  · by_cases hij : j = i
    · subst hij
      rw [Function.update_self] at hj
      rw [← hj]
      exact hself
    · rw [Function.update_of_ne hij] at hj
      exact hadopted hj

/-- Every undisturbed move keeps the claims. -/
theorem RoutedOK.play (ok : RoutedOK σ τ) (htracks : System.Tracks claiming σ τ) {cue : Cue ι Task Reaction Empty}
    (hcue : Undisturbed σ cue) :
    RoutedOK (gateway.play σ cue) (gateway.advance claiming .idle σ τ cue) ∧
      SettledKept σ.state.1 (gateway.play σ cue).state.1 := by
  have hsame : SettledKept σ.state.1 σ.state.1 := fun _ _ hrow hsettled => ⟨rfl, _, hrow, hsettled, id⟩
  cases cue with
  | start i task =>
    unfold System.play System.advance
    dsimp only
    cases hi : σ.thread i with
    | none => exact ⟨ok.idle _, hsame⟩
    | some p => exact ⟨ok, hsame⟩
  | call i o =>
    unfold System.play System.advance
    dsimp only
    cases hi : σ.thread i with
    | none => exact ⟨ok, hsame⟩
    | some p =>
      cases p with
      | call =>
        have hallows := (htracks i _ hi).1
        refine ⟨ok.called hi hallows o ?_, (ok.kept hi hallows o).2⟩
        intro c' hover
        refine hcue c' ?_
        unfold overwriting
        rw [hi]
        exact hover
      | done a => exact ⟨ok, hsame⟩
      | fail e => exact ⟨ok, hsame⟩
  | stop i => exact ⟨ok.idle _, hsame⟩
  | env x => exact x.elim

/-- Completed claims keep their phase and their topic to the end of the run, and there every claim with a route has
the topic it is routed to. -/
structure ClaimsRouted (s : State) (cues : List (Cue ι Task Reaction Empty)) : Prop where
  stable : ∀ {before after c row}, cues = before ++ after →
    (gateway.run (s, []) before).state.1.claimExecutions.find? c = some row → row.phase = .complete →
    (gateway.run (s, []) cues).state.1.topicRoutes.topic c = (gateway.run (s, []) before).state.1.topicRoutes.topic c ∧
      ∃ row', (gateway.run (s, []) cues).state.1.claimExecutions.find? c = some row' ∧ row'.phase = .complete
  routed : ∀ {c row}, (gateway.run (s, []) cues).state.1.claimExecutions.find? c = some row →
    row.phase = .routePersisted ∨ row.phase = .complete →
    RoutedRow (gateway.run (s, []) cues).state.1.topicRoutes c row
  consistent : (gateway.run (s, []) cues).state.1.routesConsistent

/-- The claims after a run, and what it has kept of them. -/
theorem RoutedOK.foldl (ok : RoutedOK σ τ) (htracks : System.Tracks claiming σ τ)
    {cues : List (Cue ι Task Reaction Empty)} (hcues : gateway.Meets Undisturbed σ cues) :
    ∃ τ', System.Tracks claiming (cues.foldl gateway.play σ) τ' ∧ RoutedOK (cues.foldl gateway.play σ) τ' ∧
      SettledKept σ.state.1 (cues.foldl gateway.play σ).state.1 := by
  refine System.tracked (A := Undisturbed) (J := fun σ' τ' => RoutedOK σ' τ' ∧ SettledKept σ.state.1 σ'.state.1)
    (fun task => (obeys_program task).follows) ?_ htracks
    ⟨ok, fun _ _ hrow hsettled => ⟨rfl, _, hrow, hsettled, id⟩⟩ hcues
  intro σ' τ' cue htracks' hJ hcue
  obtain ⟨ok', hkept⟩ := hJ.1.play htracks' hcue
  exact ⟨ok', hJ.2.trans hkept⟩

/-- **Completed claims are stable and routed**, in every run in which no claim is overwritten that another task is at
work on. -/
theorem claims_routed {s : State} (hs : ClaimsOK s) {cues : List (Cue ι Task Reaction Empty)}
    (hcues : gateway.Meets Undisturbed ⟨(s, []), fun _ => none⟩ cues) : ClaimsRouted s cues := by
  have hstart : RoutedOK (⟨(s, []), fun _ => none⟩ : GatewayConfig ι) fun _ => .idle :=
    ⟨hs, fun _ _ => knows_idle, nofun⟩
  obtain ⟨τ, -, ok, -⟩ := hstart.foldl nofun hcues
  refine ⟨?_, fun hrow hphase => ok.claims.routed hrow ?_, ok.claims.routesConsistent⟩
  · rintro before after c row rfl hrow hphase
    obtain ⟨hbefore, hafter⟩ := System.meets_append.1 hcues
    obtain ⟨τ', htracks, ok', -⟩ := hstart.foldl nofun hbefore
    obtain ⟨-, -, -, hkept⟩ := ok'.foldl htracks hafter
    obtain ⟨htopic, row', hrow', -, hcomplete⟩ := hkept _ _ hrow (by rw [hphase]; rfl)
    rw [System.run, List.foldl_append]
    exact ⟨htopic, row', hrow', hcomplete hphase⟩
  · rcases hphase with hphase | hphase
    · rw [hphase]
      rfl
    · rw [hphase]
      rfl

end

/-! ## Two tasks -/

instance decidableUndisturbed (σ : GatewayConfig Bool) : ∀ cue, Decidable (Undisturbed σ cue)
  | .call i _ => inferInstanceAs (Decidable (∀ c ∈ overwriting σ i, ∀ j, j ≠ i → atWork σ j ≠ some c))
  | .start .. => .isTrue trivial
  | .stop _ => .isTrue trivial
  | .env _ => .isTrue trivial

/-- The relay has a pending claim of `a`. -/
def pendingA : Reaction where
  fault := none
  reply
    | .state _ => .error .noRows
    | .claimConversation .. => .ok ⟨"a", some .pending, "A"⟩
    | .completeTelegramClaim _ => .ok ⟨"a", some .complete, "A"⟩
    | .pendingTelegramClaims .. => .ok [⟨"a", some .pending, "A"⟩]
    | .createForumTopic .. => .ok 7
    | .now => 0
    | .drawToken => .error .noRows
    | .advertise _ => .ok ()
    | .lease _ => .ok []
    | .ack _ => .ok ()
    | .updates _ => .ok []
    | .submit _ => .ok ()
    | .listUnclaimed => .ok []
    | .sendMessage .. => .ok ()
    | .answerCallbackQuery .. => .ok ()
    | .sendRichMessage .. => .ok 1

/-- The conversation `a` is routed to topic 7 of chat 1, and its claim is started up to where it has been read. -/
def claimRead : List (Cue Bool Task Reaction Empty) :=
  [.start false (.setRoute 1 7 "a"), .call false pendingA, .stop false, .start false (.startPending ⟨true, 1⟩)] ++
    List.replicate 5 (.call false pendingA)

/-- The claim is executed by another task. -/
def claimExecuted : List (Cue Bool Task Reaction Empty) :=
  .start true (.execute ⟨true, 1⟩ "a") :: List.replicate 6 (.call true pendingA)

theorem claimsOK_empty : ClaimsOK State.empty := ⟨nofun, nofun⟩

theorem claims_routed_inTurn :
    gateway.Meets Undisturbed ⟨(State.empty, []), fun _ => none⟩
        (claimRead ++ List.replicate 6 (.call false pendingA) ++ claimExecuted) ∧
      ClaimsRouted State.empty (claimRead ++ List.replicate 6 (.call false pendingA) ++ claimExecuted) := by
  have hmeets : gateway.Meets Undisturbed ⟨(State.empty, []), fun _ => none⟩
      (claimRead ++ List.replicate 6 (.call false pendingA) ++ claimExecuted) := by decide +kernel
  exact ⟨hmeets, claims_routed claimsOK_empty hmeets⟩

/-- The first task goes on with the claim as it has read it, after the other has completed it. -/
theorem completed_claim_reopened :
    ¬ClaimsRouted State.empty (claimRead ++ claimExecuted ++ List.replicate 2 (.call false pendingA)) := by
  intro h
  have hcomplete : (gateway.run (State.empty, []) (claimRead ++ claimExecuted)).state.1.claimExecutions.find? "a" =
      some ⟨some 7, some 1, .complete, some "A", true⟩ := by decide +kernel
  obtain ⟨-, row, hrow, hphase⟩ := h.stable rfl hcomplete rfl
  have hreopened : (gateway.run (State.empty, []) (claimRead ++ claimExecuted ++
      List.replicate 2 (.call false pendingA))).state.1.claimExecutions.find? "a" =
      some ⟨some 7, some 1, .topicCreated, some "A", true⟩ := by decide +kernel
  rw [hreopened] at hrow
  cases hrow
  cases hphase

end Punaro.Telegram
