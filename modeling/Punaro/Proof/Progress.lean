import Punaro.Proof.Routed
import Punaro.Proof.Topics

/-!
# Tasks that complete claims

What a task may write to a claim is told by what it has seen of it (`Progress`),
which the task follows whatever it is answered (`claiming`). What it has seen still
holds when it writes, unless another task has overwritten the claim in between.
-/

namespace Punaro.Telegram

open Outcome Prog

/-! ## What tasks have seen -/

/-- How far a task has come with a claim. -/
inductive Progress where
  | idle
  /-- The claim is not settled, and no topic of it is known. -/
  | opened (c : String)
  | threaded (c : String) (chatID threadID : Int)
  | settled (c : String)
  /-- The task has adopted the route itself. -/
  | adopted (c : String)

def Progress.conversation : Progress → Option String
  | .idle => none
  | .opened c => some c
  | .threaded c _ _ => some c
  | .settled c => some c
  | .adopted c => some c

/-- The claim is as it was seen. -/
def Progress.Fits : Progress → ExecutionRow → Prop
  | .idle, _ => True
  | .opened _, row => row.phase.settled = false
  | .threaded _ chatID threadID, row =>
    row.phase = .topicCreated ∧ row.threadID.getD 0 = threadID ∧ row.chatID.getD 0 = chatID
  | .settled _, row => row.phase.settled
  | .adopted _, row => row.phase.settled

def Progress.free : Progress → Bool
  | .adopted _ => false
  | _ => true

/-- What is seen of a claim that is read. -/
def ClaimExecution.progress (execution : ClaimExecution) : Progress :=
  if execution.phase.settled then .settled execution.conversationID
  else if execution.phase.later ∨ 0 < execution.threadID then
    .threaded execution.conversationID execution.chatID execution.threadID
  else .opened execution.conversationID

/-- The conversation whose claim a task works on with the call. -/
def Call.about : Call → Option String
  | .state (.routeForConversation c) => some c
  | .state (.persistClaimDisplayName c _) => some c
  | .state (.beginClaimCreating c _) => some c
  | .state (.clearClaimCreating c) => some c
  | .state (.persistClaimThread c _ _) => some c
  | .state (.persistClaimRoute _ _ c) => some c
  | .state (.adoptExistingRoute c _) => some c
  | .state (.persistClaimAdoptReserved c) => some c
  | .state (.markClaimComplete c) => some c
  | .claimConversation c _ => some c
  | .completeTelegramClaim c => some c
  | .createForumTopic c _ _ => some c
  | _ => none

/-- A claim is written to by who has seen that it may be. -/
def claiming : Protocol Call Call.Reply Progress where
  Allows
    | q, .state (.beginClaimCreating c _) => q = .opened c
    | q, .state (.persistClaimThread c _ _) => q = .opened c
    | q, .state (.persistClaimRoute chatID threadID c) => q = .threaded c chatID threadID
    | q, .state (.markClaimComplete c) => q = .settled c ∨ q = .adopted c
    | _, _ => True
  next
    | .adopted c, _, _ => .adopted c
    | _, .state (.claimExecution _), .ok (some execution) => execution.progress
    | _, .state (.beginClaimCreating c _), .ok (_, _, true) => .opened c
    | _, .state (.beginClaimCreating c _), .ok (chatID, threadID, false) => .threaded c chatID threadID
    | _, .state (.persistClaimThread c chatID threadID), .ok _ => .threaded c chatID threadID
    | _, .state (.persistClaimRoute _ _ c), .ok _ => .settled c
    | _, .state (.adoptExistingRoute c _), .ok _ => .adopted c
    | q, other, _ => if other.about = q.conversation then q else .idle

/-- Calls that do not move a task on. -/
def Call.quiet : Call → Bool
  | .state (.claimExecution _) => false
  | .state (.beginClaimCreating ..) => false
  | .state (.persistClaimThread ..) => false
  | .state (.persistClaimRoute ..) => false
  | .state (.adoptExistingRoute ..) => false
  | .state (.markClaimComplete _) => false
  | _ => true

variable {m : StateCall}

section

variable {q : Progress} {call : Call} {execution : ClaimExecution}

theorem conversation_progress : execution.progress.conversation = some execution.conversationID := by
  unfold ClaimExecution.progress
  split
  · rfl
  · split <;> rfl

theorem free_progress : execution.progress.free := by
  unfold ClaimExecution.progress
  split
  · rfl
  · split <;> rfl

theorem progress_settled (h : execution.phase.settled) : execution.progress = .settled execution.conversationID := by
  unfold ClaimExecution.progress
  rw [if_pos h]

theorem progress_topicCreated (h : execution.phase = .topicCreated) :
    execution.progress = .threaded execution.conversationID execution.chatID execution.threadID := by
  simp [ClaimExecution.progress, h, ClaimPhase.settled, ClaimPhase.later]

theorem progress_opened (h : execution.phase.later = false) (hthread : execution.threadID ≤ 0) :
    execution.progress = .opened execution.conversationID := by
  have hsettled : execution.phase.settled = false := by
    cases hphase : execution.phase <;> simp_all [ClaimPhase.later, ClaimPhase.settled]
  simp [ClaimExecution.progress, h, hsettled, hthread.not_gt]

theorem progress_threaded (h : execution.phase.settled = false) (hthread : 0 < execution.threadID) :
    execution.progress = .threaded execution.conversationID execution.chatID execution.threadID := by
  simp [ClaimExecution.progress, h, hthread]

theorem allows_quiet (h : call.quiet) : claiming.Allows q call := by
  cases call with
  | state m =>
    cases m with
    | beginClaimCreating | persistClaimThread | persistClaimRoute | markClaimComplete => cases h
    | _ => trivial
  | _ => trivial

theorem next_quiet (hq : q.free) (h : call.quiet ∨ ∃ c, call = .state (.markClaimComplete c)) (r : call.Reply) :
    claiming.next q call r = if call.about = q.conversation then q else .idle := by
  cases q with
  | adopted c => cases hq
  | _ =>
    cases call with
    | state m =>
      cases m with
      | claimExecution | beginClaimCreating | persistClaimThread | persistClaimRoute | adoptExistingRoute => simp_all [Call.quiet]
      | _ => rfl
    | _ => rfl

theorem next_error (hq : q.free) (e : Failure) :
    claiming.next q (.state m) (.error e) = if (Call.state m).about = q.conversation then q else .idle := by
  cases q with
  | adopted c => cases hq
  | _ => cases m <;> rfl

theorem free_error (hq : q.free) {e : Failure} : (claiming.next q (.state m) (.error e)).free := by
  rw [next_error hq]
  split
  · exact hq
  · rfl

end

/-! ## Executions -/

/-- The program adopts nothing. -/
abbrev Calm {α : Type} (p : Program α) : Prop := Stays claiming (fun q => q.free) p

variable {call : Call}

theorem keeps_quiet (h : call.quiet) : claiming.Keeps (fun q => q.free) call := by
  refine fun q hq => ⟨allows_quiet h, fun r => ?_⟩
  rw [next_quiet hq (.inl h)]
  split
  · exact hq
  · rfl

theorem keeps_between (h : call.between) : claiming.Keeps (fun q => q.free) call := by
  by_cases hquiet : call.quiet
  · exact keeps_quiet hquiet
  cases call with
  | state m =>
    cases m with
    | claimExecution c =>
      refine fun q hq => ⟨trivial, fun r => ?_⟩
      cases q with
      | adopted c => cases hq
      | _ =>
        match r with
        | .error e => exact free_error rfl
        | .ok none => dsimp only [claiming]; split <;> rfl
        | .ok (some execution) => exact free_progress
    | beginClaimCreating | persistClaimThread | persistClaimRoute | adoptExistingRoute | markClaimComplete => cases h
    | _ => exact absurd rfl hquiet
  | _ => exact absurd rfl hquiet

/-- The program follows the protocol from `q` on, ends with a result and a state that meet `E`, and fails without
having adopted anything. -/
structure Works {α : Type} (p : Program α) (q : Progress) (E : α → Progress → Prop) : Prop where
  follows : p.Follows claiming (fun r q => match r with
    | .ok a => E a q
    | .error _ => q.free) q

section

variable {α β : Type} {p : Program α} {f : α → Program β} {q : Progress} {E : α → Progress → Prop}
  {E' : β → Progress → Prop}

theorem works_done {a : α} (h : E a q) : Works (.done a) q E := ⟨h⟩

theorem works_fail {e : Failure} (h : q.free) : Works (.fail e) q E := ⟨h⟩

theorem works_refuse {text : String} (h : q.free) : Works (refuse text) q E := ⟨h⟩

theorem Works.bind (hp : Works p q E) (hf : ∀ a q', E a q' → Works (f a) q' E') : Works (p >>= f) q E' := by
  refine ⟨follows_bind.2 (hp.follows.mono ?_)⟩
  rintro (e | a) q' hE
  · exact hE
  · exact (hf a q' hE).follows

theorem Works.mono {E₂ : α → Progress → Prop} (hp : Works p q E) (h : ∀ a q, E a q → E₂ a q) : Works p q E₂ := by
  refine ⟨hp.follows.mono ?_⟩
  rintro (e | a) q' hE
  · exact hE
  · exact h a q' hE

/-- A call that does not move the task on. -/
theorem works_quiet_bind {call : Call} {f : call.Reply → Program β} (hcall : call.quiet) (hq : q.free)
    (habout : call.about = q.conversation) (hf : ∀ r, Works (f r) q E') : Works (perform call >>= f) q E' := by
  refine ⟨follows_perform_bind.2 ⟨allows_quiet hcall, fun r => ?_⟩⟩
  rw [next_quiet hq (.inl hcall), if_pos habout]
  exact (hf r).follows

theorem works_ask_bind {f : m.Result → Program β} (hallows : claiming.Allows q (.state m)) (hq : q.free)
    (hf : ∀ a, Works (f a) (claiming.next q (.state m) (.ok a)) E') : Works (ask m >>= f) q E' := by
  refine ⟨follows_bind.2 (follows_perform_bind.2 ⟨hallows, fun r => ?_⟩)⟩
  cases r with
  | error e => exact free_error hq
  | ok a => exact (hf a).follows

/-- A method that does not move the task on. -/
theorem works_quietly_bind {f : m.Result → Program β} (hcall : (Call.state m).quiet) (hq : q.free)
    (habout : (Call.state m).about = q.conversation) (hf : ∀ a, Works (f a) q E') : Works (ask m >>= f) q E' := by
  refine works_ask_bind (allows_quiet hcall) hq fun a => ?_
  rw [next_quiet hq (.inl hcall), if_pos habout]
  exact hf a

theorem works_mark {c : String} : Works (ask (.markClaimComplete c)) (.settled c) fun _ q => q = .settled c := by
  refine ⟨follows_perform_bind.2 ⟨.inl rfl, fun r => ?_⟩⟩
  rw [next_quiet rfl (.inr ⟨c, rfl⟩), if_pos (show (Call.state (.markClaimComplete c)).about = (Progress.settled c).conversation from rfl)]
  cases r with
  | error e => rfl
  | ok a => rfl

end

namespace ClaimExecutor

variable {e : ClaimExecutor} {execution a : ClaimExecution}

/-- The result of a phase is what has been seen. -/
def Seen (a : ClaimExecution) (q : Progress) : Prop := q = a.progress

theorem seen_settled (h : a.phase.settled) : Seen a (.settled a.conversationID) :=
  (progress_settled h).symm

theorem seen_topicCreated (h : a.phase = .topicCreated) :
    Seen a (.threaded a.conversationID a.chatID a.threadID) := (progress_topicCreated h).symm

/-- The execution, with another name at most. -/
def Renamed (execution a : ClaimExecution) (q : Progress) : Prop :=
  q = execution.progress ∧ ∃ displayName, a = { execution with displayName := displayName }

theorem works_takeDisplayName {displayName : String} :
    Works (takeDisplayName execution displayName) execution.progress (Renamed execution) := by
  unfold takeDisplayName
  split
  · exact works_done ⟨rfl, execution.displayName, rfl⟩
  · exact works_quietly_bind rfl free_progress conversation_progress.symm fun _ => works_done ⟨rfl, displayName, rfl⟩

theorem works_ensurePending : Works (e.ensurePending execution) execution.progress (Renamed execution) := by
  unfold ensurePending
  split
  · exact works_done ⟨rfl, execution.displayName, rfl⟩
  refine works_quiet_bind rfl free_progress conversation_progress.symm fun r => ?_
  cases r with
  | error err => exact works_refuse free_progress
  | ok claim =>
    dsimp only
    cases claim.status with
    | none => exact works_refuse free_progress
    | some status =>
      cases status with
      | pending => exact works_takeDisplayName
      | complete =>
        refine Works.bind (E := fun _ q => q = execution.progress) ?_ fun recoverable q hq => ?_
        · unfold localClaimRouteRecoverable
          split
          · exact works_done rfl
          refine works_quietly_bind rfl free_progress conversation_progress.symm fun topic => ?_
          cases topic with
          | none => exact works_done rfl
          | some topic => exact works_done rfl
        · subst hq
          split
          · exact works_takeDisplayName
          · exact works_refuse free_progress

theorem works_ensureAdoptReserved (hphase : execution.phase = .adopting) :
    Works (ensureAdoptReserved execution) execution.progress Seen := by
  rw [progress_settled (by rw [hphase]; rfl)]
  unfold ensureAdoptReserved
  refine works_quiet_bind rfl rfl rfl fun r => ?_
  cases r with
  | error err => exact works_refuse rfl
  | ok claim =>
    dsimp only
    split
    · exact works_refuse rfl
    refine works_quietly_bind rfl rfl rfl fun _ => ?_
    cases claim.status with
    | none => exact works_refuse rfl
    | some status =>
      cases status with
      | pending => exact works_quietly_bind rfl rfl rfl fun _ => works_done (seen_settled rfl)
      | complete =>
        refine works_mark.bind fun _ q hq => ?_
        subst hq
        exact works_done (seen_settled rfl)

/-- The route is bound, or there is none. -/
theorem works_bindRoute : Works (e.bindRoute execution) (.opened execution.conversationID) fun bound q =>
    match bound with
    | none => q = .opened execution.conversationID
    | some a => Seen a q := by
  unfold bindRoute
  refine works_quietly_bind rfl rfl rfl fun topic => ?_
  cases topic with
  | none => exact works_done rfl
  | some topic =>
    dsimp only
    split
    · split
      · exact works_refuse rfl
      · exact works_ask_bind rfl rfl fun _ => works_done (seen_topicCreated rfl)
    · exact works_done rfl

theorem works_createForumTopic {name : String} :
    Works (e.createForumTopic execution name) (.opened execution.conversationID) Seen := by
  unfold createForumTopic
  refine works_quiet_bind rfl rfl rfl fun r => ?_
  cases r with
  | error err =>
    dsimp only
    split
    · exact works_quiet_bind rfl rfl rfl fun _ => works_refuse rfl
    · exact works_refuse rfl
  | ok threadID =>
    dsimp only
    split
    · exact works_refuse rfl
    · exact works_ask_bind rfl rfl fun _ => works_done (seen_topicCreated rfl)

theorem works_obtainTopic : Works (e.obtainTopic execution) (.opened execution.conversationID) Seen := by
  unfold obtainTopic
  split
  · exact works_refuse rfl
  split
  · exact works_refuse rfl
  split
  · exact works_refuse rfl
  refine ⟨follows_perform_bind.2 ⟨rfl, fun r => ?_⟩⟩
  match r with
  | .error err => exact (works_fail (free_error rfl)).follows
  | .ok (_, _, true) => exact works_createForumTopic.follows
  | .ok (chatID, existingThread, false) =>
    change Follows claiming _ _ (.threaded execution.conversationID chatID existingThread)
    refine Works.follows ?_
    dsimp only
    split
    · exact works_refuse rfl
    · exact works_done (seen_topicCreated rfl)

theorem works_fromReserved (hphase : execution.phase = .reserved) :
    Works (e.fromReserved execution) execution.progress Seen := by
  unfold fromReserved
  refine works_ensurePending.bind ?_
  rintro _ q ⟨rfl, displayName, rfl⟩
  dsimp only
  split
  · rename_i hthread
    rw [progress_opened (by rw [hphase]; rfl) hthread]
    refine Works.bind works_bindRoute fun bound q hq => ?_
    cases bound with
    | none =>
      subst hq
      exact works_obtainTopic
    | some bound => exact works_done hq
  · rename_i hthread
    rw [progress_threaded (by rw [hphase]; rfl) (not_le.1 hthread)]
    exact works_done (seen_topicCreated rfl)

theorem works_fromCreating (hphase : execution.phase = .creating) :
    Works (e.fromCreating execution) execution.progress Seen := by
  unfold fromCreating
  split
  · rename_i hthread
    rw [progress_opened (by rw [hphase]; rfl) hthread]
    refine Works.bind works_bindRoute fun bound q hq => ?_
    cases bound with
    | none =>
      subst hq
      exact works_refuse rfl
    | some bound => exact works_done hq
  · rename_i hthread
    rw [progress_threaded (by rw [hphase]; rfl) (not_le.1 hthread)]
    exact works_done (seen_topicCreated rfl)

theorem works_fromTopicCreated (hphase : execution.phase = .topicCreated) :
    Works (e.fromTopicCreated execution) execution.progress Seen := by
  rw [progress_topicCreated hphase]
  unfold fromTopicCreated
  split
  · exact works_refuse rfl
  · exact works_ask_bind rfl rfl fun _ => works_done (seen_settled rfl)

theorem works_inPhase {phase : ClaimPhase} {advance : ClaimExecution → Program ClaimExecution} {q : Progress}
    (hq : Seen execution q) (h : execution.phase = phase → Works (advance execution) execution.progress Seen) :
    Works (inPhase phase advance execution) q Seen := by
  unfold inPhase
  split
  · rename_i hphase
    rw [hq]
    exact h hphase
  · exact works_done hq

theorem works_advance : Works (e.advance execution) execution.progress fun _ q => q.free := by
  unfold advance
  refine Works.bind (works_inPhase rfl works_ensureAdoptReserved) fun _ _ hq => ?_
  refine Works.bind (works_inPhase hq works_fromReserved) fun _ _ hq => ?_
  refine Works.bind (works_inPhase hq works_fromCreating) fun _ _ hq => ?_
  refine Works.bind (works_inPhase hq works_fromTopicCreated) fun execution q hq => ?_
  rw [hq]
  split
  · rename_i hphase
    rw [progress_settled (by rw [hphase]; rfl)]
    unfold fromRoutePersisted
    refine works_quiet_bind rfl rfl rfl fun r => ?_
    cases r with
    | error err => exact works_refuse rfl
    | ok claim =>
      refine works_mark.mono fun _ q hq => ?_
      subst hq
      rfl
  · exact works_done free_progress

theorem calm_execute (c : String) : Calm (e.execute c) := by
  unfold execute
  split
  · exact stays_refuse
  refine ⟨fun q hq => follows_bind.2 (follows_perform_bind.2 ⟨trivial, fun r => ?_⟩)⟩
  match r with
  | .error err => exact free_error hq
  | .ok none =>
    exact (keeps_between (show (Call.state (.claimExecution c)).between from rfl) q hq).2
      (.ok none : Except Failure (Option ClaimExecution))
  | .ok (some execution) =>
    have hnext : claiming.next q (.state (.claimExecution c)) (.ok (some execution)) = execution.progress := by
      cases q with
      | adopted c => cases hq
      | _ => rfl
    rw [hnext, orFail, follows_done]
    dsimp only
    split
    · exact (stays_rejectMismatchedRoute keeps_between c).follows _ free_progress
    · refine works_advance.follows.mono ?_
      rintro (err | a) q hq
      · exact hq
      · exact hq

end ClaimExecutor

/-! ## Adoptions -/

/-- Calls a task may make on a claim it has adopted. -/
def Call.adopting (c : String) : Call → Prop
  | .state (.beginClaimCreating ..) => False
  | .state (.persistClaimThread ..) => False
  | .state (.persistClaimRoute ..) => False
  | .state (.markClaimComplete c') => c' = c
  | _ => True

theorem keeps_adopting {c : String} (h : call.adopting c) : claiming.Keeps (· = .adopted c) call := by
  rintro q rfl
  refine ⟨?_, fun _ => rfl⟩
  cases call with
  | state m =>
    cases m with
    | beginClaimCreating | persistClaimThread | persistClaimRoute => exact h.elim
    | markClaimComplete c' => exact .inr (congrArg Progress.adopted h.symm)
    | _ => trivial
  | _ => trivial

/-- The program follows the protocol from `q` on. -/
structure Obeys {α : Type} (p : Program α) (q : Progress) : Prop where
  follows : p.Follows claiming (fun _ _ => True) q

section

variable {α β : Type} {p : Program α} {q : Progress}

theorem obeys_refuse {text : String} : Obeys (refuse text : Program α) q := ⟨trivial⟩

theorem obeys_ask_bind {f : m.Result → Program β} (hallows : claiming.Allows q (.state m))
    (hf : ∀ a, Obeys (f a) (claiming.next q (.state m) (.ok a))) : Obeys (ask m >>= f) q := by
  refine ⟨follows_bind.2 (follows_perform_bind.2 ⟨hallows, fun r => ?_⟩)⟩
  cases r with
  | error e => trivial
  | ok a => exact (hf a).follows

theorem obeys_of_stays {L : Progress → Prop} (hp : Stays claiming L p) (hq : L q) : Obeys p q :=
  ⟨(hp.follows q hq).mono fun _ _ _ => trivial⟩

end

theorem obeys_adopt {c : String} {allowedUserID : Int} : Obeys (adopt c allowedUserID) .idle := by
  unfold adopt
  split
  · exact obeys_refuse
  refine obeys_ask_bind trivial fun topic => ?_
  split
  · exact obeys_refuse
  split
  · exact obeys_refuse
  refine obeys_ask_bind trivial fun threadID => ?_
  refine obeys_of_stays (L := (· = .adopted c)) ?_ rfl
  refine stays_perform_bind (keeps_adopting trivial) fun r => ?_
  cases r with
  | error err => exact stays_refuse
  | ok claim =>
    dsimp only
    split
    · exact stays_refuse
    refine stays_ask_bind (keeps_adopting trivial) fun _ => stays_ask_bind (keeps_adopting trivial) fun existing => ?_
    split
    · exact stays_done
    split
    · exact stays_ask (keeps_adopting rfl)
    refine stays_ask_bind (keeps_adopting trivial) fun _ => stays_perform_bind (keeps_adopting trivial) fun r => ?_
    cases r with
    | error err => exact stays_refuse
    | ok claim => exact stays_ask (keeps_adopting rfl)

/-- Every task follows the protocol. -/
theorem obeys_program (task : Task) : Obeys task.program .idle := by
  unfold Task.program
  cases task with
  | execute e c => exact obeys_of_stays (e.calm_execute c) rfl
  | resumeAll e => exact obeys_of_stays (ClaimExecutor.stays_resumeAll keeps_between e.calm_execute) rfl
  | startPending e => exact obeys_of_stays (ClaimExecutor.stays_startPending keeps_between e.calm_execute) rfl
  | adopt => exact obeys_adopt
  | setRoute => exact obeys_of_stays (stays_ask (keeps_quiet rfl)) rfl
  | reserve => exact obeys_of_stays (stays_ask_bind (keeps_quiet rfl) fun _ => stays_done) rfl

end Punaro.Telegram
