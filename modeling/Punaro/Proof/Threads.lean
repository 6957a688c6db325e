import Punaro.Proof.ClaimRows

/-!
# Claimed threads

A claim records its topic before the topic is routed to the conversation, and the
state protects a topic by its route. Once the route is there, no other conversation
is given the topic; before that, one can be.
-/

namespace Punaro.Telegram

open Outcome

/-- The state after a sequence of methods, refused ones included. -/
def State.steps (s : State) (calls : List StateCall) : State := calls.foldl (fun s call => (s.perform call).1) s

/-- The topic is recorded on the claim of the conversation, in phase `topic_created` or later. -/
def State.Records (s : State) (c : String) (chatID threadID : Int) : Prop :=
  ∃ row, s.claimExecutions.find? c = some row ∧ row.phase.later ∧ row.threadID = some threadID ∧
    row.chatID = some chatID

/-- No recorded topic is routed to another conversation by a later `SetRoute`. -/
def ThreadsKept (s : State) (calls : List StateCall) : Prop :=
  ∀ before between after chatID threadID c c', calls = before ++ between ++ .setRoute chatID threadID c' :: after →
    (s.steps before).Records c chatID threadID →
    ∀ s', (s.steps (before ++ between)).setRoute chatID threadID c' = .ok s' → c' = c

/-- A recorded topic has been routed to its conversation by the time `SetRoute` is called on it for another. -/
def RoutedBefore (s : State) (calls : List StateCall) : Prop :=
  ∀ before between after chatID threadID c c', calls = before ++ between ++ .setRoute chatID threadID c' :: after →
    (s.steps before).Records c chatID threadID → c' ≠ c →
    (s.steps (before ++ between)).topicRoutes.route (chatID, threadID) = some c

/-! ## Phases -/

/-- The claim of the conversation has a topic. -/
def State.Later (s : State) (c : String) : Prop := ∃ row, s.claimExecutions.find? c = some row ∧ row.phase.later

section

variable {s s' : State} {c : String}

/-- No method takes a claim back from its topic. -/
theorem State.Later.perform (h : s.Later c) (call : StateCall) : (s.perform call).1.Later c := by
  obtain ⟨row, hrow, hlater⟩ := h
  rcases perform_cases s call with ⟨s', a, hrun, hperform⟩ | ⟨e, -, hperform⟩
  · rw [hperform]
    refine ⟨_, (run_effect hrun).kept hrow, ?_⟩
    rcases run_phase hrun hrow with hsame | ⟨hphase, -⟩ | ⟨-, hphase, -⟩ | hlater'
    · rwa [hsame]
    · rw [hphase] at hlater
      cases hlater
    · rw [hphase] at hlater
      cases hlater
    · exact hlater'
  · rw [hperform]
    exact ⟨row, hrow, hlater⟩

theorem State.Later.steps (h : s.Later c) (calls : List StateCall) : (s.steps calls).Later c := by
  induction calls generalizing s with
  | nil => exact h
  | cons call calls ih => exact ih (h.perform call)

/-- A topic that is routed to a conversation with a later claim is not routed to another. -/
theorem State.Later.setRoute {chatID threadID : Int} {c' : String} (h : s.Later c)
    (hroute : s.topicRoutes.route (chatID, threadID) = some c) (hset : s.setRoute chatID threadID c' = .ok s') :
    c' = c := by
  obtain ⟨row, hrow, hlater⟩ := h
  have hprotected : s.claimProtectsRoute c = true := by
    unfold State.claimProtectsRoute State.protects
    rw [hrow]
    cases hphase : row.phase <;> simp_all [ClaimPhase.later]
  unfold State.setRoute State.routeBlocked at hset
  simp only [ok_rules, hroute] at hset
  obtain ⟨-, -, -, ⟨-, -, hfree⟩, -⟩ := hset
  rcases hfree with hc | hfree
  · exact hc.symm
  · rw [hprotected] at hfree
    cases hfree

end

/-- **Claimed threads cannot be stolen** once they are routed: in every sequence of methods in which every recorded
topic has been routed to its conversation before `SetRoute` is called on it for another. -/
theorem threads_kept {s : State} {calls : List StateCall} (h : RoutedBefore s calls) : ThreadsKept s calls := by
  intro before between after chatID threadID c c' hcalls hrecords s' hset
  by_contra hne
  have hroute := h before between after chatID threadID c c' hcalls hrecords hne
  obtain ⟨row, hrow, hlater, -⟩ := hrecords
  have hkept : (s.steps (before ++ between)).Later c := by
    rw [State.steps, List.foldl_append]
    exact State.Later.steps ⟨row, hrow, hlater⟩ between
  exact hne (hkept.setRoute hroute hset)

/-- The claim of `a` records the topic 7, and routes it. -/
def claimA : List StateCall :=
  [.insertPendingExecution "a" "A", .persistClaimThread "a" 1 7, .persistClaimRoute 1 7 "a"]

theorem claimA_records (n : Nat) {c : String} {chatID threadID : Int}
    (h : (State.empty.steps (claimA.take n)).Records c chatID threadID) : c = "a" := by
  obtain ⟨row, hrow, -⟩ := h
  have honly : ∀ m ≤ 3, ∀ r ∈ (State.empty.steps (claimA.take m)).claimExecutions.rows, r.1 = "a" := by decide +kernel
  have hmem := Table.find?_eq_some_iff_mem.1 hrow
  rcases le_or_gt n 3 with hn | hn
  · exact honly n hn _ hmem
  · rw [List.take_of_length_le (by simpa [claimA] using hn.le)] at hmem
    exact honly 3 le_rfl _ hmem

theorem threads_kept_claimA :
    RoutedBefore State.empty (claimA ++ [.setRoute 1 7 "b"]) ∧ ThreadsKept State.empty (claimA ++ [.setRoute 1 7 "b"]) := by
  have hrouted : RoutedBefore State.empty (claimA ++ [.setRoute 1 7 "b"]) := by
    intro before between after chatID threadID c c' hcalls hrecords hne
    -- the only `SetRoute` is the last call
    obtain ⟨hfront, hset⟩ : before ++ between = claimA ∧ (chatID, threadID) = (1, 7) := by
      generalize before ++ between = front at hcalls
      rcases front with _ | ⟨x, _ | ⟨y, _ | ⟨z, _ | ⟨v, rest⟩⟩⟩⟩ <;> simp [claimA] at hcalls ⊢
      grind
    have hbefore : before = claimA.take before.length := by rw [← hfront, List.take_left]
    rw [hbefore] at hrecords
    rw [claimA_records _ hrecords, hfront, hset]
    decide +kernel
  exact ⟨hrouted, threads_kept hrouted⟩

/-- The claim of `a` records the topic 7, which it has just created. -/
def createdA : List StateCall :=
  [.insertPendingExecution "a" "A", .beginClaimCreating "a" 1, .persistClaimThread "a" 1 7]

/-- A topic that is recorded, but not routed yet, is routed to another conversation. -/
theorem thread_stolen : ¬ThreadsKept State.empty (createdA ++ [.setRoute 1 7 "b"]) := by
  intro h
  obtain ⟨hrow, hsome⟩ : (State.empty.steps createdA).claimExecutions.find? "a" =
      some ⟨some 7, some 1, .topicCreated, some "A", true⟩ ∧
      ((State.empty.steps createdA).setRoute 1 7 "b").toOption.isSome := by decide +kernel
  cases hset : (State.empty.steps createdA).setRoute 1 7 "b" with
  | ok s' => exact absurd (h createdA [] [] 1 7 "a" "b" rfl ⟨_, hrow, rfl, rfl, rfl⟩ s' hset) (by decide)
  | error e =>
    rw [hset] at hsome
    cases hsome

end Punaro.Telegram
