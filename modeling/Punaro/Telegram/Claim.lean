import Punaro.Telegram.Calls

/-!
# Claims of topics

A claim gives a conversation a forum topic: the gateway reserves it at the relay,
creates the topic, routes it and completes the claim, one phase at a time, and takes
it up again from the phase it has stored (`internal/telegram/claim.go`).
-/

namespace Punaro.Telegram

open Prog

/-- `ClaimExecutor`; `topics` tells whether it may create forum topics. -/
structure ClaimExecutor where
  topics : Bool
  allowedUserID : Int

def gatewayClaimKey (conversationID : String) : String := "gateway-claim-" ++ conversationID

def adoptClaimKey (conversationID : String) : String := "adopt-" ++ conversationID

/-- `definitivePreCreationRejection`: no topic has been created. -/
def definitivePreCreationRejection (e : Failure) : Bool :=
  match e.cause with
  | .botAPIStatus _ status _ => 400 ≤ status && status < 500
  | _ => false

namespace ClaimExecutor

/-! ## Reservations -/

/-- `localClaimRouteRecoverable`. -/
def localClaimRouteRecoverable (e : ClaimExecutor) (execution : ClaimExecution) : Program Bool := do
  if 0 < execution.threadID then return true
  else
    match ← ask (.routeForConversation execution.conversationID) with
    | none => return false
    | some (chatID, threadID) => return 0 < threadID && (e.allowedUserID = 0 || chatID = e.allowedUserID)

/-- The execution with the name the relay gives it. -/
def takeDisplayName (execution : ClaimExecution) (displayName : String) : Program ClaimExecution := do
  if displayName = "" then return execution
  else
    ask (.persistClaimDisplayName execution.conversationID displayName)
    return { execution with displayName := displayName }

/-- `ensurePending`. -/
def ensurePending (e : ClaimExecutor) (execution : ClaimExecution) : Program ClaimExecution := do
  if execution.skipReserve then return execution
  else
    match ← perform (Call.claimConversation execution.conversationID (gatewayClaimKey execution.conversationID)) with
    | .error _ => refuse "telegram_reserve_failed"
    | .ok claim =>
      match claim.status with
      | some .pending => takeDisplayName execution claim.displayName
      | some .complete =>
        if ← e.localClaimRouteRecoverable execution then takeDisplayName execution claim.displayName
        else refuse "telegram_claim_already_complete"
      | none => refuse "telegram_reserve_failed"

/-- `ensureAdoptReserved`. -/
def ensureAdoptReserved (execution : ClaimExecution) : Program ClaimExecution := do
  match ← perform (Call.claimConversation execution.conversationID (adoptClaimKey execution.conversationID)) with
  | .error _ => refuse "telegram_reserve_failed"
  | .ok claim =>
    if trimSpace claim.displayName = "" then refuse "telegram adopt requires a display name"
    else
      ask (.persistClaimDisplayName execution.conversationID claim.displayName)
      let execution := { execution with displayName := claim.displayName }
      match claim.status with
      | some .pending => do
        ask (.persistClaimAdoptReserved execution.conversationID)
        return { execution with phase := .routePersisted }
      | some .complete => do
        ask (.markClaimComplete execution.conversationID)
        return { execution with phase := .complete }
      | none => refuse "telegram_reserve_failed"

/-! ## Topics -/

/-- The topic the conversation is routed to becomes that of the execution, if there is one. -/
def bindRoute (e : ClaimExecutor) (execution : ClaimExecution) : Program (Option ClaimExecution) := do
  match ← ask (.routeForConversation execution.conversationID) with
  | none => return none
  | some (chatID, threadID) =>
    if 0 < threadID then
      if e.allowedUserID ≠ 0 ∧ chatID ≠ e.allowedUserID then refuse "telegram_route_persist_failed"
      else
        ask (.persistClaimThread execution.conversationID chatID threadID)
        return some { execution with threadID := threadID, chatID := chatID, phase := .topicCreated }
    else return none

/-- The topic is created, once the state has been fenced. -/
def createForumTopic (e : ClaimExecutor) (execution : ClaimExecution) (name : String) : Program ClaimExecution := do
  match ← perform (Call.createForumTopic execution.conversationID e.allowedUserID name) with
  | .error err =>
    if definitivePreCreationRejection err then
      -- whether the fence could be taken back or not, the claim has failed
      let _ ← perform (Call.state (.clearClaimCreating execution.conversationID))
      refuse "telegram_create_forum_topic_failed"
    else refuse "telegram_create_forum_topic_failed"
  | .ok threadID =>
    if threadID ≤ 0 then refuse "telegram_create_forum_topic_failed"
    else
      ask (.persistClaimThread execution.conversationID e.allowedUserID threadID)
      return { execution with threadID := threadID, chatID := e.allowedUserID, phase := .topicCreated }

/-- The error of the fence as `Execute` returns it. -/
def fenceFailure (e : Failure) : Failure :=
  if e = .message "telegram_route_persist_failed" then e else .message "telegram_create_forum_topic_failed"

/-- A topic for an execution that has none. -/
def obtainTopic (e : ClaimExecutor) (execution : ClaimExecution) : Program ClaimExecution := do
  if e.topics = false ∨ e.allowedUserID = 0 then refuse "telegram_create_forum_topic_failed"
  else
    match sanitizeConversationDisplayName execution.displayName with
    | none => refuse "telegram_sanitize_failed"
    | some name =>
      if name = "" then refuse "telegram_sanitize_failed"
      else
        match ← perform (Call.state (.beginClaimCreating execution.conversationID e.allowedUserID)) with
        | .error err => .fail (fenceFailure err)
        | .ok (_, _, true) => e.createForumTopic execution name
        | .ok (chatID, existingThread, false) =>
          if e.allowedUserID ≠ 0 ∧ chatID ≠ e.allowedUserID then refuse "telegram_route_persist_failed"
          else return { execution with threadID := existingThread, chatID := chatID, phase := .topicCreated }

/-! ## Phases -/

/-- `rejectMismatchedRoute`. -/
def rejectMismatchedRoute (e : ClaimExecutor) (conversationID : String) : Program Unit := do
  match ← ask (.routeForConversation conversationID) with
  | none => refuse "telegram_route_persist_failed"
  | some (chatID, threadID) =>
    if threadID ≤ 0 ∨ e.allowedUserID = 0 ∨ chatID ≠ e.allowedUserID then refuse "telegram_route_persist_failed"
    else return ()

/-- The phase `reserved` of `Execute`. -/
def fromReserved (e : ClaimExecutor) (execution : ClaimExecution) : Program ClaimExecution := do
  let execution ← e.ensurePending execution
  if execution.threadID ≤ 0 then
    match ← e.bindRoute execution with
    | some bound => return bound
    | none => e.obtainTopic execution
  else return { execution with phase := .topicCreated }

/-- The phase `creating`: the topic may have been created, so that no other is. -/
def fromCreating (e : ClaimExecutor) (execution : ClaimExecution) : Program ClaimExecution := do
  if execution.threadID ≤ 0 then
    match ← e.bindRoute execution with
    | some bound => return bound
    | none => refuse "telegram_create_forum_topic_failed"
  else return { execution with phase := .topicCreated }

/-- The phase `topic_created`. -/
def fromTopicCreated (e : ClaimExecutor) (execution : ClaimExecution) : Program ClaimExecution := do
  if e.allowedUserID = 0 ∨ execution.threadID ≤ 0 ∨ execution.chatID = 0 ∨ execution.chatID ≠ e.allowedUserID then
    refuse "telegram_route_persist_failed"
  else
    ask (.persistClaimRoute execution.chatID execution.threadID execution.conversationID)
    return { execution with phase := .routePersisted }

/-- The phase `route_persisted`. -/
def fromRoutePersisted (execution : ClaimExecution) : Program Unit := do
  match ← perform (Call.completeTelegramClaim execution.conversationID) with
  | .error _ => refuse "telegram_complete_failed"
  | .ok _ => ask (.markClaimComplete execution.conversationID)

/-- The execution, advanced if it is in the phase. -/
def inPhase (phase : ClaimPhase) (advance : ClaimExecution → Program ClaimExecution) (execution : ClaimExecution) :
    Program ClaimExecution :=
  if execution.phase = phase then advance execution else pure execution

/-- The phases of `Execute` after one another. -/
def advance (e : ClaimExecutor) (execution : ClaimExecution) : Program Unit := do
  let execution ← inPhase .adopting ensureAdoptReserved execution
  let execution ← inPhase .reserved e.fromReserved execution
  let execution ← inPhase .creating e.fromCreating execution
  let execution ← inPhase .topicCreated e.fromTopicCreated execution
  if execution.phase = .routePersisted then fromRoutePersisted execution else return ()

/-- `Execute`. -/
def execute (e : ClaimExecutor) (conversationID : String) : Program Unit := do
  if trimSpace conversationID = "" then refuse "telegram claim executor is not configured"
  else
    match ← ask (.claimExecution conversationID) with
    | none => refuse "telegram claim execution is missing"
    | some execution =>
      if execution.phase = .complete then e.rejectMismatchedRoute conversationID else e.advance execution

/-! ## Cycles -/

def pendingClaimPollLimit : Nat := 10

/-- The next cursor behind a page. -/
def nextCursor (after : String) (executions : List ClaimExecution) : String :=
  if executions.length < pendingClaimPollLimit then ""
  else (executions.getLast?.map ClaimExecution.conversationID).getD after

/-- `rejectCompletedRouteMismatches`. -/
def rejectCompletedRouteMismatches (e : ClaimExecutor) : Program Unit := do
  let after ← ask (.cursor .completedRoutes)
  let executions ← ask (.completedClaimExecutionsAfter after pendingClaimPollLimit)
  executions.forM fun execution => e.rejectMismatchedRoute execution.conversationID
  ask (.setCursor .completedRoutes (nextCursor after executions))

/-- `Execute`, whatever it ends with. -/
def tryExecute (e : ClaimExecutor) (conversationID : String) : Program Unit := do
  let _ ← (e.execute conversationID).attempt

/-- `ResumeAll`. -/
def resumeAll (e : ClaimExecutor) : Program Unit := do
  e.rejectCompletedRouteMismatches
  let after ← ask (.cursor .resumeClaims)
  let executions ← ask (.incompleteClaimExecutionsAfter after pendingClaimPollLimit)
  executions.forM fun execution => e.tryExecute execution.conversationID
  ask (.setCursor .resumeClaims (nextCursor after executions))

/-- A claim that is pending at the relay is executed unless it has been already. -/
def startClaim (e : ClaimExecutor) (claim : ClaimReply) : Program Unit := do
  match ← ask (.claimExecution claim.conversationID) with
  | some _ => return ()
  | none =>
    if ← ask (.insertPendingExecution claim.conversationID claim.displayName) then e.tryExecute claim.conversationID
    else return ()

/-- The claims of a page, `scanned` of them already; the next page is never asked for, since a page that does not
reach the limit is the last. -/
def startClaims (e : ClaimExecutor) : List ClaimReply → Nat → Program Unit
  | [], _ => ask (.setCursor .pendingClaims "")
  | claim :: claims, scanned => do
    e.startClaim claim
    if pendingClaimPollLimit ≤ scanned + 1 then ask (.setCursor .pendingClaims claim.conversationID)
    else e.startClaims claims (scanned + 1)

/-- `StartPending`. -/
def startPending (e : ClaimExecutor) : Program Unit := do
  let after ← ask (.cursor .pendingClaims)
  match ← perform (Call.pendingTelegramClaims pendingClaimPollLimit after) with
  | .error err => .fail (.wrapped "poll pending telegram claims" err)
  | .ok claims => e.startClaims claims 0

end ClaimExecutor

/-- `Adopt`. -/
def adopt (conversationID : String) (allowedUserID : Int) : Program Unit := do
  if trimSpace conversationID = "" then refuse "telegram adopt is not configured"
  else
    match (← ask (.routeForConversation conversationID)).filter fun topic => 0 < topic.2 with
    | none => refuse "telegram adopt requires an existing topic route"
    | some (chatID, _) =>
      if allowedUserID = 0 ∨ chatID ≠ allowedUserID then refuse "telegram adopt requires the configured telegram chat"
      else
        let _ ← ask (.adoptExistingRoute conversationID allowedUserID)
        match ← perform (Call.claimConversation conversationID (adoptClaimKey conversationID)) with
        | .error _ => refuse "telegram_reserve_failed"
        | .ok claim =>
          if trimSpace claim.displayName = "" then refuse "telegram adopt requires a display name"
          else
            ask (.persistClaimDisplayName conversationID claim.displayName)
            let existing ← ask (.claimExecution conversationID)
            if (existing.any fun execution => execution.phase = .complete) && claim.status = some .complete then return ()
            else if claim.status = some .complete then ask (.markClaimComplete conversationID)
            else
              ask (.persistClaimAdoptReserved conversationID)
              match ← perform (Call.completeTelegramClaim conversationID) with
              | .error _ => refuse "telegram_complete_failed"
              | .ok _ => ask (.markClaimComplete conversationID)

/-! ## Runs -/

/-- What is run on one state. -/
inductive Task where
  | execute (e : ClaimExecutor) (conversationID : String)
  | resumeAll (e : ClaimExecutor)
  | startPending (e : ClaimExecutor)
  | adopt (conversationID : String) (allowedUserID : Int)
  | setRoute (chatID threadID : Int) (conversationID : String)
  /-- A tap on a listed topic reserves its claim. -/
  | reserve (tokenHash : String) (now : Int)

def Task.program : Task → Program Unit
  | .execute e conversationID => e.execute conversationID
  | .resumeAll e => e.resumeAll
  | .startPending e => e.startPending
  | .adopt conversationID allowedUserID => Telegram.adopt conversationID allowedUserID
  | .setRoute chatID threadID conversationID => ask (.setRoute chatID threadID conversationID)
  | .reserve tokenHash now => do let _ ← ask (.reserveClaimAndConsumeToken tokenHash now)

/-- Tasks of any number of processes on one state, which keeps the calls made. -/
def gateway : System GatewayState Call Call.Reply Failure Unit Task Reaction Empty where
  main := Task.program
  act := recorded State.answer
  env := nofun

end Punaro.Telegram
