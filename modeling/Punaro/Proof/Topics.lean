import Mathlib.Data.List.Chain
import Punaro.Proof.ClaimRows
import Punaro.Proof.Tasks

/-!
# One topic per claim

A forum topic is created by whoever has moved the claim from `reserved` to
`creating`, and the claim goes back to `reserved` only by the same hand, after the
Bot API has definitely created nothing. So at most one task at a time is between
the two (`Fence`), and a claim that can be fenced again has no topic.
-/

namespace Punaro.Telegram

open Outcome Prog

/-! ## Calls for topics -/

/-- What the calls of `CreateForumTopic` for a conversation have returned, in order. -/
def topicCalls (c : String) (log : List ((call : Call) × call.Reply)) : List (Except Failure Int) :=
  log.filterMap fun
    | ⟨.createForumTopic c' _ _, r⟩ => if c' = c then some r else none
    | _ => none

/-- The call was definitely rejected. -/
def topicRejected : Except Failure Int → Bool
  | .ok _ => false
  | .error e => definitivePreCreationRejection e

abbrev GatewayConfig (ι : Type) := Config ι GatewayState Call Call.Reply Failure Unit

/-- The conversation a task is about to create a topic for. -/
def creatingTopic {ι : Type} (σ : GatewayConfig ι) (i : ι) : Option String :=
  match σ.thread i with
  | some (.call (.createForumTopic c _ _) _) => some c
  | _ => none

/-- Every call for a conversation but the last was definitely rejected, and no two are made at the same time. -/
structure TopicsOnce {ι : Type} (σ : GatewayConfig ι) : Prop where
  rejected : ∀ c, (topicCalls c σ.state.2).IsChain fun r _ => topicRejected r
  alone : ∀ {i j c}, creatingTopic σ i = some c → creatingTopic σ j = some c → i = j

/-! ## The fence -/

/-- How far a task has come with a topic: it holds the fence, or the Bot API has rejected its call. -/
inductive Fence where
  | idle
  | fenced (c : String)
  | rejected (c : String)
deriving DecidableEq

/-- The task may still create a topic for the conversation, or take the fence back. -/
def Fence.Holds (q : Fence) (c : String) : Prop := q = .fenced c ∨ q = .rejected c

/-- A topic is created right after the fence, and the fence taken back right after a rejection. -/
def fencing : Protocol Call Call.Reply Fence where
  Allows
    | .idle, .createForumTopic .. => False
    | .idle, .state (.clearClaimCreating _) => False
    | .idle, _ => True
    | .fenced c, .createForumTopic c' _ _ => c' = c
    | .rejected c, .state (.clearClaimCreating c') => c' = c
    | _, _ => False
  next
    | .idle, .state (.beginClaimCreating c _), .ok (_, _, true) => .fenced c
    | .fenced c, .createForumTopic .., r => if topicRejected r then .rejected c else .idle
    | _, _, _ => .idle

/-! ## Tasks -/

/-- The program starts and ends without the fence. -/
abbrev Rests {α : Type} (p : Program α) : Prop := Stays fencing (· = .idle) p

theorem keeps_plain {call : Call} (h : call.plain) : fencing.Keeps (· = .idle) call := by
  rintro q rfl
  cases call with
  | state call =>
    cases call with
    | beginClaimCreating => cases h
    | clearClaimCreating c => cases h
    | _ => exact ⟨trivial, fun _ => rfl⟩
  | createForumTopic => cases h
  | _ => exact ⟨trivial, fun _ => rfl⟩

namespace ClaimExecutor

variable {e : ClaimExecutor} {execution : ClaimExecution}

/-- The call is made with the fence, and the fence taken back if it was rejected. -/
theorem follows_createForumTopic {name : String} :
    (e.createForumTopic execution name).Follows fencing (fun _ q => q = .idle) (.fenced execution.conversationID) := by
  unfold createForumTopic
  refine follows_perform_bind.2 ⟨rfl, fun r => ?_⟩
  cases r with
  | error err =>
    change Follows fencing _ _ (if definitivePreCreationRejection err then _ else _)
    dsimp only
    split
    · exact ⟨rfl, fun _ => rfl⟩
    · exact stays_refuse.follows _ rfl
  | ok threadID =>
    change Follows fencing _ _ .idle
    refine Stays.follows ?_ _ rfl
    dsimp only
    split
    · exact stays_refuse
    · exact stays_ask_bind (keeps_plain rfl) fun _ => stays_done

theorem rests_obtainTopic : Rests (e.obtainTopic execution) := by
  unfold obtainTopic
  split
  · exact stays_refuse
  split
  · exact stays_refuse
  split
  · exact stays_refuse
  refine ⟨?_⟩
  rintro q rfl
  refine follows_perform_bind.2 ⟨trivial, fun r => ?_⟩
  match r with
  | .error err => exact stays_fail.follows _ rfl
  | .ok (_, _, true) => exact follows_createForumTopic
  | .ok (chatID, existingThread, false) =>
    change Follows fencing _ _ .idle
    refine Stays.follows ?_ _ rfl
    dsimp only
    split
    · exact stays_refuse
    · exact stays_done

end ClaimExecutor

theorem rests_program (task : Task) : Rests task.program :=
  stays_program keeps_plain (fun _ _ => ClaimExecutor.rests_obtainTopic) task

/-! ## Claims that can be fenced -/

/-- The conversation has no claim, or one that is reserved. -/
def State.Claimable (s : State) (c : String) : Prop :=
  ∀ row, s.claimExecutions.find? c = some row → row.phase = .reserved

section

variable {s : State} {c : String} {o : Reaction}

/-- Only taking the fence back makes a claim claimable again. -/
theorem claimable_of_answer {call : Call} (hcall : call ≠ .state (.clearClaimCreating c))
    (h : (s.answer o call).1.Claimable c) : s.Claimable c := by
  rcases answer_cases o s call with hsame | ⟨m, a, rfl, hrun, -⟩
  · rwa [hsame] at h
  · intro row hrow
    have hreserved := h _ ((run_effect hrun).kept hrow)
    rcases run_phase hrun hrow with hsame | ⟨hphase, -⟩ | ⟨rfl, -⟩ | hlater
    · rw [← hsame, hreserved]
    · exact hphase
    · exact absurd rfl hcall
    · rw [hreserved] at hlater
      cases hlater

/-- The fence is taken from a claim that is reserved. -/
theorem claimable_of_fenced {allowedUserID chatID threadID : Int}
    (h : (s.answer o (.state (.beginClaimCreating c allowedUserID))).2 = .ok (chatID, threadID, true)) :
    s.Claimable c ∧ ¬(s.answer o (.state (.beginClaimCreating c allowedUserID))).1.Claimable c := by
  unfold State.answer at h ⊢
  dsimp only at h ⊢
  cases hfault : o.fault with
  | some e => simp [hfault] at h
  | none =>
    simp only [hfault] at h ⊢
    rcases perform_cases s (.beginClaimCreating c allowedUserID) with ⟨s', a, hrun, hperform⟩ | ⟨e, hrun, hperform⟩
    · rw [hperform] at h ⊢
      cases h
      simp only [State.run, State.beginClaimCreating, bind_eq_ok] at hrun
      obtain ⟨-, -, hrun⟩ := hrun
      split at hrun
      · simp at hrun
      · simp only [ok_rules, Prod.mk.injEq] at hrun
        obtain ⟨-, hreserved, rfl, -⟩ := hrun
        obtain ⟨row, hrow, hreserved⟩ := (Option.any_eq_true _ _).1 hreserved
        simp only [Bool.and_eq_true, decide_eq_true_eq] at hreserved
        refine ⟨fun row' hrow' => ?_, fun hclaimable => ?_⟩
        · rw [hrow] at hrow'
          cases hrow'
          exact hreserved.1
        · have hphase := hclaimable { row with phase := .creating } (by simp [hrow])
          cases hphase
    · rw [hperform] at h
      cases h

end

/-! ## Runs -/

section

variable {ι : Type} {w w' : GatewayState} {τ τ' : ι → Fence} {s : State} {c : String} {i : ι} {o : Reaction}
  {call : Call}

/-- One task at most holds the fence, and then the claim cannot be fenced again; whenever it can, or is being used,
the last call was rejected. -/
structure FenceOK (w : GatewayState) (τ : ι → Fence) (c : String) : Prop where
  unique : ∀ i j, (τ i).Holds c → (τ j).Holds c → i = j
  held : ∀ i, (τ i).Holds c → ¬w.1.Claimable c
  last : (w.1.Claimable c ∨ ∃ i, (τ i).Holds c) → ∀ r ∈ (topicCalls c w.2).getLast?, topicRejected r
  chain : (topicCalls c w.2).IsChain fun r _ => topicRejected r

/-- A step that does not touch the fence of the conversation. -/
theorem FenceOK.step (ok : FenceOK w τ c) (hclaim : w'.1.Claimable c → w.1.Claimable c)
    (hcalls : topicCalls c w'.2 = topicCalls c w.2) (hholds : ∀ j, (τ' j).Holds c → (τ j).Holds c) :
    FenceOK w' τ' c where
  unique i j hi hj := ok.unique i j (hholds i hi) (hholds j hj)
  held i hi hw' := ok.held i (hholds i hi) (hclaim hw')
  last h := by
    rw [hcalls]
    exact ok.last (h.imp hclaim fun ⟨j, hj⟩ => ⟨j, hholds j hj⟩)
  chain := by
    rw [hcalls]
    exact ok.chain

theorem FenceOK.start : FenceOK (ι := ι) (s, []) (fun _ => .idle) c where
  unique i _ hi := by simp [Fence.Holds] at hi
  held i hi := by simp [Fence.Holds] at hi
  last _ := nofun
  chain := .nil

/-- A task that is about to create a topic holds the fence. -/
theorem creatingTopic_holds {σ : GatewayConfig ι} (htracks : System.Tracks fencing σ τ)
    (h : creatingTopic σ i = some c) : (τ i).Holds c := by
  unfold creatingTopic at h
  split at h
  · rename_i c' chatID name k hthread
    cases h
    have hallows := (htracks i _ hthread).1
    cases hi : τ i with
    | idle =>
      rw [hi] at hallows
      exact hallows.elim
    | fenced c'' =>
      rw [hi] at hallows
      exact .inl (congrArg Fence.fenced (show c = c'' from hallows).symm)
    | rejected c'' =>
      rw [hi] at hallows
      exact hallows.elim
  · cases h

variable [DecidableEq ι] {log : List ((call : Call) × call.Reply)}

theorem FenceOK.drop (ok : FenceOK w τ c) (i : ι) : FenceOK w (Function.update τ i .idle) c := by
  refine ok.step id rfl fun j hj => ?_
  by_cases hij : j = i
  · subst hij
    simp [Fence.Holds] at hj
  · rwa [Function.update_of_ne hij] at hj

theorem topicCalls_append {entry : (call : Call) × call.Reply} :
    topicCalls c (log ++ [entry]) = topicCalls c log ++ topicCalls c [entry] :=
  List.filterMap_append ..

theorem topicCalls_other {r : call.Reply} (hcall : ∀ chatID name, call ≠ .createForumTopic c chatID name) :
    topicCalls c (log ++ [⟨call, r⟩]) = topicCalls c log := by
  rw [topicCalls_append]
  have hnone : topicCalls c [⟨call, r⟩] = [] := by
    cases call with
    | createForumTopic c' chatID name =>
      have hne : c' ≠ c := fun hc => hcall chatID name (by rw [hc])
      simp [topicCalls, hne]
    | _ => rfl
  rw [hnone, List.append_nil]

/-- A task without the fence takes one from a claim that is reserved, or stays without. -/
theorem next_idle (o : Reaction) (s : State) (call : Call) :
    fencing.next .idle call (s.answer o call).2 = .idle ∨
      ∃ c, fencing.next .idle call (s.answer o call).2 = .fenced c ∧ s.Claimable c ∧ ¬(s.answer o call).1.Claimable c := by
  cases call with
  | state m =>
    cases m with
    | beginClaimCreating c allowedUserID =>
      cases hreply : (s.answer o (.state (.beginClaimCreating c allowedUserID))).2 with
      | error e => exact .inl rfl
      | ok result =>
        obtain ⟨chatID, threadID, creating⟩ := result
        cases creating with
        | false => exact .inl rfl
        | true => exact .inr ⟨c, rfl, claimable_of_fenced hreply⟩
    | _ => exact .inl rfl
  | _ => exact .inl rfl

/-- The fence of a conversation after a task has moved on to `q`. -/
theorem holds_update {q : Fence} {j : ι} (h : (Function.update τ i q j).Holds c) :
    j = i ∧ q.Holds c ∨ j ≠ i ∧ (τ j).Holds c := by
  by_cases hij : j = i
  · subst hij
    rw [Function.update_self] at h
    exact .inl ⟨rfl, h⟩
  · rw [Function.update_of_ne hij] at h
    exact .inr ⟨hij, h⟩

/-- A call made without the fence. -/
theorem FenceOK.idle (ok : FenceOK w τ c) (hallows : fencing.Allows .idle call) :
    FenceOK (recorded State.answer o w call).1
      (Function.update τ i (fencing.next .idle call (recorded State.answer o w call).2)) c := by
  have hclear : call ≠ .state (.clearClaimCreating c) := by
    rintro rfl
    exact hallows
  have hcalls : topicCalls c (recorded State.answer o w call).1.2 = topicCalls c w.2 :=
    topicCalls_other fun chatID name hcall => by
      subst hcall
      exact hallows
  have hclaim : (recorded State.answer o w call).1.1.Claimable c → w.1.Claimable c := claimable_of_answer hclear
  rcases next_idle o w.1 call with hnext | ⟨c', hnext, hbefore, hafter⟩
  · refine ok.step hclaim hcalls fun j hj => ?_
    rcases holds_update hj with ⟨-, hq⟩ | ⟨-, hj⟩
    · rw [show (recorded State.answer o w call).2 = (w.1.answer o call).2 from rfl, hnext] at hq
      simp [Fence.Holds] at hq
    · exact hj
  · by_cases hc : c' = c
    · subst hc
      -- nobody else holds the fence of a claim that is reserved
      have hnone : ∀ j, ¬(τ j).Holds c' := fun j hj => ok.held j hj hbefore
      have hself : ∀ {j}, (Function.update τ i (fencing.next .idle call (recorded State.answer o w call).2) j).Holds c' →
          j = i := fun hj => (holds_update hj).elim And.left fun h => absurd h.2 (hnone _)
      refine ⟨fun j k hj hk => (hself hj).trans (hself hk).symm, fun _ _ => hafter, fun _ => ?_, ?_⟩
      · rw [hcalls]
        exact ok.last (.inl hbefore)
      · rw [hcalls]
        exact ok.chain
    · refine ok.step hclaim hcalls fun j hj => ?_
      rcases holds_update hj with ⟨-, hq⟩ | ⟨-, hj⟩
      · rw [show (recorded State.answer o w call).2 = (w.1.answer o call).2 from rfl, hnext] at hq
        simp [Fence.Holds, hc] at hq
      · exact hj

/-- The topic is created, by the task that holds the fence. -/
theorem FenceOK.created {c' : String} {chatID : Int} {name : String} (ok : FenceOK w τ c) (hi : τ i = .fenced c') :
    FenceOK (recorded State.answer o w (.createForumTopic c' chatID name)).1
      (Function.update τ i (fencing.next (.fenced c') (.createForumTopic c' chatID name)
        (recorded State.answer o w (.createForumTopic c' chatID name)).2)) c := by
  set r : Except Failure Int := o.reply (.createForumTopic c' chatID name) with hr
  change FenceOK (w.1, w.2 ++ [⟨.createForumTopic c' chatID name, r⟩])
    (Function.update τ i (if topicRejected r then .rejected c' else .idle)) c
  by_cases hc : c' = c
  · subst hc
    have hcalls : topicCalls c' (w.2 ++ [⟨.createForumTopic c' chatID name, r⟩]) = topicCalls c' w.2 ++ [r] := by
      rw [topicCalls_append]
      simp [topicCalls]
    have hholds : (τ i).Holds c' := .inl hi
    have hself : ∀ {j}, (Function.update τ i (if topicRejected r then .rejected c' else .idle) j).Holds c' →
        j = i ∧ topicRejected r := by
      intro j hj
      rcases holds_update hj with ⟨hji, hq⟩ | ⟨hji, hj⟩
      · refine ⟨hji, by_contra fun hr => ?_⟩
        simp [Fence.Holds, hr] at hq
      · exact absurd (ok.unique j i hj hholds) hji
    refine ⟨fun j k hj hk => (hself hj).1.trans (hself hk).1.symm, fun _ _ => ok.held i hholds, fun h => ?_, ?_⟩
    · rw [hcalls, List.getLast?_concat]
      rintro _ ⟨⟩
      rcases h with h | ⟨j, hj⟩
      · exact absurd h (ok.held i hholds)
      · exact (hself hj).2
    · rw [hcalls, List.isChain_append]
      exact ⟨ok.chain, .singleton r, fun x hx y _ => ok.last (.inr ⟨i, hholds⟩) x hx⟩
  · refine ok.step id (topicCalls_other ?_) fun j hj => ?_
    · rintro chatID' name' hcall
      cases hcall
      exact hc rfl
    · rcases holds_update hj with ⟨-, hq⟩ | ⟨-, hj⟩
      · split at hq <;> simp [Fence.Holds, hc] at hq
      · exact hj

/-- The fence is taken back, by the task that holds it. -/
theorem FenceOK.cleared {c' : String} (ok : FenceOK w τ c) (hi : τ i = .rejected c') :
    FenceOK (recorded State.answer o w (.state (.clearClaimCreating c'))).1 (Function.update τ i .idle) c := by
  have hcalls : topicCalls c (recorded State.answer o w (.state (.clearClaimCreating c'))).1.2 = topicCalls c w.2 :=
    topicCalls_other nofun
  by_cases hc : c' = c
  · subst hc
    have hholds : (τ i).Holds c' := .inr hi
    have hnone : ∀ j, ¬(Function.update τ i .idle j).Holds c' := by
      intro j hj
      rcases holds_update hj with ⟨-, hq⟩ | ⟨hji, hj⟩
      · simp [Fence.Holds] at hq
      · exact hji (ok.unique j i hj hholds)
    refine ⟨fun j _ hj => absurd hj (hnone j), fun j hj => absurd hj (hnone j), fun _ => ?_, ?_⟩
    · rw [hcalls]
      exact ok.last (.inr ⟨i, hholds⟩)
    · rw [hcalls]
      exact ok.chain
  · refine ok.step (claimable_of_answer fun h => ?_) hcalls fun j hj => ?_
    · cases h
      exact hc rfl
    · rcases holds_update hj with ⟨-, hq⟩ | ⟨-, hj⟩
      · simp [Fence.Holds] at hq
      · exact hj

/-- Every call keeps the fence. -/
theorem FenceOK.play (ok : FenceOK w τ c) (hallows : fencing.Allows (τ i) call) :
    FenceOK (recorded State.answer o w call).1
      (Function.update τ i (fencing.next (τ i) call (recorded State.answer o w call).2)) c := by
  cases hi : τ i with
  | idle =>
    rw [hi] at hallows
    exact ok.idle hallows
  | fenced c' =>
    rw [hi] at hallows
    cases call with
    | createForumTopic c'' =>
      cases (show c'' = c' from hallows)
      exact ok.created hi
    | _ => exact hallows.elim
  | rejected c' =>
    rw [hi] at hallows
    cases call with
    | state m =>
      cases m with
      | clearClaimCreating c'' =>
        cases (show c'' = c' from hallows)
        exact ok.cleared hi
      | _ => exact hallows.elim
    | _ => exact hallows.elim

end

/-- **At most one forum topic per claim**: in every run of any number of tasks, on any state, a topic is created
again for a conversation only after the call before was definitely rejected. -/
theorem topics_once {ι : Type} [DecidableEq ι] (s : State) (cues : List (Cue ι Task Reaction Empty)) :
    TopicsOnce (gateway.run (s, []) cues) := by
  obtain ⟨τ, htracks, ok⟩ : ∃ τ, System.Tracks fencing (gateway.run (s, []) cues) τ ∧
      ∀ c, FenceOK (gateway.run (s, []) cues).state τ c :=
    System.tracked_calls (J := fun w τ => ∀ c, FenceOK w τ c)
      (fun task => ((rests_program task).follows _ rfl).mono fun _ _ _ => trivial) (fun _ _ i ok c => (ok c).drop i) nofun
      (fun _ _ _ _ _ ok hallows c => (ok c).play hallows) (fun _ => .start) cues
  exact ⟨fun c => (ok c).chain, fun hi hj =>
    (ok _).unique _ _ (creatingTopic_holds htracks hi) (creatingTopic_holds htracks hj)⟩

end Punaro.Telegram
