import Punaro.Lib.Protocol
import Punaro.Telegram.Claim

/-!
# Tasks and protocols

A task executes claims one after another. Between two executions it only reads and
moves cursors, so that it stays where every execution leads back to, and an execution
does where the creation of its topic does.
-/

namespace Punaro.Telegram

open Prog

section

variable {Q α β : Type} {P : Protocol Call Call.Reply Q} {L : Q → Prop}

theorem stays_refuse {text : String} : Stays P L (refuse text : Program α) := stays_fail

theorem stays_ask {call : StateCall} (h : P.Keeps L (.state call)) : Stays P L (ask call) := by
  refine stays_perform_bind h fun r => ?_
  cases r with
  | ok a => exact stays_done
  | error e => exact stays_fail

theorem stays_ask_bind {call : StateCall} {f : call.Result → Program β} (h : P.Keeps L (.state call))
    (hf : ∀ a, Stays P L (f a)) : Stays P L (ask call >>= f) := (stays_ask h).bind hf

end

/-- The calls of a task between its executions. -/
def Call.between : Call → Bool
  | .state (.claimExecution _) => true
  | .state (.insertPendingExecution ..) => true
  | .state (.routeForConversation _) => true
  | .state (.incompleteClaimExecutionsAfter ..) => true
  | .state (.completedClaimExecutionsAfter ..) => true
  | .state (.cursor _) => true
  | .state (.setCursor ..) => true
  | .pendingTelegramClaims .. => true
  | _ => false

/-- The calls of a task, apart from those it creates topics with. -/
def Call.plain : Call → Bool
  | .state (.persistClaimDisplayName ..) => true
  | .state (.persistClaimThread ..) => true
  | .state (.persistClaimRoute ..) => true
  | .state (.adoptExistingRoute ..) => true
  | .state (.persistClaimAdoptReserved _) => true
  | .state (.markClaimComplete _) => true
  | .state (.setRoute ..) => true
  | .state (.reserveClaimAndConsumeToken ..) => true
  | .claimConversation .. => true
  | .completeTelegramClaim _ => true
  | other => other.between

theorem plain_of_between {call : Call} (h : call.between) : call.plain := by
  cases call with
  | state m =>
    cases m with
    | persistClaimDisplayName | persistClaimThread | persistClaimRoute | adoptExistingRoute | persistClaimAdoptReserved
    | markClaimComplete | setRoute | reserveClaimAndConsumeToken => rfl
    | _ => exact h
  | claimConversation | completeTelegramClaim => rfl
  | _ => exact h

namespace ClaimExecutor

/-! ## Cycles -/

section

variable {Q : Type} {P : Protocol Call Call.Reply Q} {L : Q → Prop} {e : ClaimExecutor}
  (hbetween : ∀ {call : Call}, call.between → P.Keeps L call) (hexecute : ∀ c, Stays P L (e.execute c))

include hbetween

theorem stays_rejectMismatchedRoute (c : String) : Stays P L (e.rejectMismatchedRoute c) := by
  unfold rejectMismatchedRoute
  refine stays_ask_bind (hbetween rfl) fun topic => ?_
  cases topic with
  | none => exact stays_refuse
  | some topic =>
    dsimp only
    split
    · exact stays_refuse
    · exact stays_done

include hexecute

omit hbetween in
theorem stays_tryExecute (c : String) : Stays P L (e.tryExecute c) := by
  unfold tryExecute
  exact (hexecute c).attempt.bind fun _ => stays_done

theorem stays_resumeAll : Stays P L e.resumeAll := by
  unfold resumeAll
  refine Stays.bind ?_ fun _ => stays_ask_bind (hbetween rfl) fun after => stays_ask_bind (hbetween rfl) fun executions =>
    Stays.bind (stays_forM (fun _ => stays_tryExecute hexecute _) executions) fun _ => stays_ask (hbetween rfl)
  unfold rejectCompletedRouteMismatches
  exact stays_ask_bind (hbetween rfl) fun after => stays_ask_bind (hbetween rfl) fun executions =>
    Stays.bind (stays_forM (fun _ => stays_rejectMismatchedRoute hbetween _) executions) fun _ =>
      stays_ask (hbetween rfl)

theorem stays_startClaims (claims : List ClaimReply) (scanned : Nat) : Stays P L (e.startClaims claims scanned) := by
  induction claims generalizing scanned with
  | nil =>
    unfold startClaims
    exact stays_ask (hbetween rfl)
  | cons claim claims ih =>
    unfold startClaims
    refine Stays.bind ?_ fun _ => ?_
    · unfold startClaim
      refine stays_ask_bind (hbetween rfl) fun found => ?_
      cases found with
      | some execution => exact stays_done
      | none =>
        refine stays_ask_bind (hbetween rfl) fun inserted => ?_
        split
        · exact stays_tryExecute hexecute _
        · exact stays_done
    · split
      · exact stays_ask (hbetween rfl)
      · exact ih _

theorem stays_startPending : Stays P L e.startPending := by
  unfold startPending
  refine stays_ask_bind (hbetween rfl) fun after => stays_perform_bind (hbetween rfl) fun r => ?_
  cases r with
  | error err => exact stays_fail
  | ok claims => exact stays_startClaims hbetween hexecute claims 0

end

/-! ## Executions -/

section

variable {Q : Type} {P : Protocol Call Call.Reply Q} {L : Q → Prop} {e : ClaimExecutor} {execution : ClaimExecution}
  (hplain : ∀ {call : Call}, call.plain → P.Keeps L call)

include hplain

theorem stays_takeDisplayName {displayName : String} : Stays P L (takeDisplayName execution displayName) := by
  unfold takeDisplayName
  split
  · exact stays_done
  · exact stays_ask_bind (hplain rfl) fun _ => stays_done

theorem stays_ensurePending : Stays P L (e.ensurePending execution) := by
  unfold ensurePending
  split
  · exact stays_done
  refine stays_perform_bind (hplain rfl) fun r => ?_
  cases r with
  | error err => exact stays_refuse
  | ok claim =>
    dsimp only
    cases claim.status with
    | none => exact stays_refuse
    | some status =>
      cases status with
      | pending => exact stays_takeDisplayName hplain
      | complete =>
        refine Stays.bind ?_ fun recoverable => ?_
        · unfold localClaimRouteRecoverable
          split
          · exact stays_done
          refine stays_ask_bind (hplain rfl) fun topic => ?_
          cases topic with
          | none => exact stays_done
          | some topic => exact stays_done
        · split
          · exact stays_takeDisplayName hplain
          · exact stays_refuse

theorem stays_ensureAdoptReserved : Stays P L (ensureAdoptReserved execution) := by
  unfold ensureAdoptReserved
  refine stays_perform_bind (hplain rfl) fun r => ?_
  cases r with
  | error err => exact stays_refuse
  | ok claim =>
    dsimp only
    split
    · exact stays_refuse
    refine stays_ask_bind (hplain rfl) fun _ => ?_
    cases claim.status with
    | none => exact stays_refuse
    | some status =>
      cases status with
      | pending => exact stays_ask_bind (hplain rfl) fun _ => stays_done
      | complete => exact stays_ask_bind (hplain rfl) fun _ => stays_done

theorem stays_bindRoute : Stays P L (e.bindRoute execution) := by
  unfold bindRoute
  refine stays_ask_bind (hplain rfl) fun topic => ?_
  cases topic with
  | none => exact stays_done
  | some topic =>
    dsimp only
    split
    · split
      · exact stays_refuse
      · exact stays_ask_bind (hplain rfl) fun _ => stays_done
    · exact stays_done

omit hplain in
theorem stays_inPhase {phase : ClaimPhase} {advance : ClaimExecution → Program ClaimExecution}
    (h : ∀ execution, Stays P L (advance execution)) : Stays P L (inPhase phase advance execution) := by
  unfold inPhase
  split
  · exact h execution
  · exact stays_done

variable (hobtain : ∀ execution, Stays P L (e.obtainTopic execution))

include hobtain

theorem stays_execute (c : String) : Stays P L (e.execute c) := by
  unfold execute
  split
  · exact stays_refuse
  refine stays_ask_bind (hplain rfl) fun found => ?_
  cases found with
  | none => exact stays_refuse
  | some execution =>
    dsimp only
    split
    · exact stays_rejectMismatchedRoute (fun h => hplain (plain_of_between h)) c
    unfold advance
    refine (stays_inPhase fun _ => stays_ensureAdoptReserved hplain).bind fun _ => ?_
    refine (stays_inPhase fun execution => ?_).bind fun _ => ?_
    · unfold fromReserved
      refine (stays_ensurePending hplain).bind fun execution => ?_
      split
      · refine (stays_bindRoute hplain).bind fun bound => ?_
        cases bound with
        | none => exact hobtain _
        | some bound => exact stays_done
      · exact stays_done
    refine (stays_inPhase fun execution => ?_).bind fun _ => ?_
    · unfold fromCreating
      split
      · refine (stays_bindRoute hplain).bind fun bound => ?_
        cases bound with
        | none => exact stays_refuse
        | some bound => exact stays_done
      · exact stays_done
    refine (stays_inPhase fun execution => ?_).bind fun execution => ?_
    · unfold fromTopicCreated
      split
      · exact stays_refuse
      · exact stays_ask_bind (hplain rfl) fun _ => stays_done
    split
    · unfold fromRoutePersisted
      refine stays_perform_bind (hplain rfl) fun r => ?_
      cases r with
      | error err => exact stays_refuse
      | ok claim => exact stays_ask (hplain rfl)
    · exact stays_done

end

end ClaimExecutor

section

variable {Q : Type} {P : Protocol Call Call.Reply Q} {L : Q → Prop}
  (hplain : ∀ {call : Call}, call.plain → P.Keeps L call)

include hplain

theorem stays_adopt {c : String} {allowedUserID : Int} : Stays P L (adopt c allowedUserID) := by
  unfold adopt
  split
  · exact stays_refuse
  refine stays_ask_bind (hplain rfl) fun topic => ?_
  split
  · exact stays_refuse
  split
  · exact stays_refuse
  refine stays_ask_bind (hplain rfl) fun _ => stays_perform_bind (hplain rfl) fun r => ?_
  cases r with
  | error err => exact stays_refuse
  | ok claim =>
    dsimp only
    split
    · exact stays_refuse
    refine stays_ask_bind (hplain rfl) fun _ => stays_ask_bind (hplain rfl) fun existing => ?_
    split
    · exact stays_done
    split
    · exact stays_ask (hplain rfl)
    refine stays_ask_bind (hplain rfl) fun _ => stays_perform_bind (hplain rfl) fun r => ?_
    cases r with
    | error err => exact stays_refuse
    | ok claim => exact stays_ask (hplain rfl)

/-- A task leads back to where each of its topics does. -/
theorem stays_program (hobtain : ∀ (e : ClaimExecutor) execution, Stays P L (e.obtainTopic execution)) (task : Task) :
    Stays P L task.program := by
  have hbetween : ∀ {call : Call}, call.between → P.Keeps L call := fun h => hplain (plain_of_between h)
  have hexecute : ∀ (e : ClaimExecutor) c, Stays P L (e.execute c) := fun e => e.stays_execute hplain (hobtain e)
  unfold Task.program
  cases task with
  | execute e c => exact hexecute e c
  | resumeAll e => exact ClaimExecutor.stays_resumeAll hbetween (hexecute e)
  | startPending e => exact ClaimExecutor.stays_startPending hbetween (hexecute e)
  | adopt => exact stays_adopt hplain
  | setRoute => exact stays_ask (hplain rfl)
  | reserve => exact stays_ask_bind (hplain rfl) fun _ => stays_done

end

end Punaro.Telegram
