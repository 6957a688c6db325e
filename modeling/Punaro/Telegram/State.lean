import Mathlib.Data.List.Sort
import Punaro.Lib.Outcome
import Punaro.Lib.Table
import Punaro.Relay.Text

/-!
# The state of the Telegram gateway

The gateway keeps which Telegram topic belongs to which conversation and how far
the claim of a topic has come (`internal/telegram/state.go`). A method of the state
is one transaction; here it is a function of the tables.
-/

namespace Punaro.Telegram

open Outcome

/-- The errors the gateway tells apart; `wrapped` is an error with a context, through which `errors.As` looks. -/
inductive Failure where
  | message (text : String)
  /-- `BotAPIStatusError`: the Bot API answered with a status. -/
  | botAPIStatus (method : String) (status : Nat) (deletedTopic : Bool)
  | permanentTelegramDelivery (reason : String)
  /-- The relay refused; some of its refusals are permanent. -/
  | relay (permanent : Bool)
  | constraint
  | noRows
  | wrapped (context : String) (cause : Failure)
deriving DecidableEq

/-- The error below all contexts. -/
def Failure.cause : Failure → Failure
  | .wrapped _ cause => cause.cause
  | e => e

/-! ## Tables -/

inductive ClaimPhase where
  | reserved
  | creating
  | topicCreated
  | adopting
  | routePersisted
  | complete
deriving DecidableEq

/-- A row of `claim_executions`. -/
structure ExecutionRow where
  threadID : Option Int
  chatID : Option Int
  phase : ClaimPhase
  displayName : Option String
  skipReserve : Bool
deriving DecidableEq

/-- `thread_id IS NULL OR thread_id <= 0`. -/
def ExecutionRow.unthreaded (row : ExecutionRow) : Bool := row.threadID.all (· ≤ 0)

/-- A claim execution as it is read. -/
structure ClaimExecution where
  conversationID : String
  threadID : Int
  chatID : Int
  phase : ClaimPhase
  displayName : String
  skipReserve : Bool
deriving DecidableEq

/-- `scanClaimExecution`. -/
def scanClaimExecution (conversationID : String) (row : ExecutionRow) : ClaimExecution :=
  ⟨conversationID, row.threadID.getD 0, row.chatID.getD 0, row.phase, row.displayName.getD "", row.skipReserve⟩

/-- `topic_routes`: the conversation of a chat and a thread, with a unique index on the conversation. -/
structure TopicRoutes where
  table : Table (Int × Int) String
  unique : ∀ {topic topic' conversationID}, table.find? topic = some conversationID →
    table.find? topic' = some conversationID → topic = topic'

namespace TopicRoutes

def empty : TopicRoutes := ⟨.empty, nofun⟩

/-- The conversation of a topic. -/
def route (routes : TopicRoutes) (topic : Int × Int) : Option String := routes.table.find? topic

/-- The topic of a conversation. -/
def topic (routes : TopicRoutes) (conversationID : String) : Option (Int × Int) :=
  (routes.table.rows.find? fun row => row.2 = conversationID).map Prod.fst

theorem topic_eq_some {routes : TopicRoutes} {conversationID : String} {topic : Int × Int} :
    routes.topic conversationID = some topic ↔ routes.route topic = some conversationID := by
  unfold TopicRoutes.topic route
  rw [Option.map_eq_some_iff]
  constructor
  · rintro ⟨⟨topic, conversation⟩, hfind, rfl⟩
    have hconversation : conversation = conversationID := by simpa using List.find?_some hfind
    rw [Table.find?_eq_some_iff_mem, ← hconversation]
    exact List.mem_of_find?_eq_some hfind
  · intro hroute
    have hmem := Table.find?_eq_some_iff_mem.1 hroute
    cases hfind : routes.table.rows.find? fun row => row.2 = conversationID with
    | none => simpa using List.find?_eq_none.1 hfind _ hmem
    | some row =>
      have hconversation : row.2 = conversationID := by simpa using List.find?_some hfind
      have hrow : routes.table.find? row.1 = some conversationID := by
        rw [Table.find?_eq_some_iff_mem, ← hconversation]
        exact List.mem_of_find?_eq_some hfind
      exact ⟨row, rfl, routes.unique hrow hroute⟩

/-- `INSERT … ON CONFLICT(chat_id, thread_id) DO UPDATE`; `none` is a violation of the unique index. -/
def set? (routes : TopicRoutes) (topic : Int × Int) (conversationID : String) : Option TopicRoutes :=
  if h : ∀ topic' ∈ routes.topic conversationID, topic' = topic then
    some ⟨routes.table.put topic conversationID, by
      have hother : ∀ {other : Int × Int} {value : String}, other ≠ topic →
          (routes.table.put topic conversationID).find? other = some value →
          routes.table.find? other = some value ∧ value ≠ conversationID := by
        intro other value hne hfind
        rw [Table.find?_put, if_neg hne] at hfind
        refine ⟨hfind, ?_⟩
        rintro rfl
        exact hne (h other (topic_eq_some.2 hfind))
      intro a b value ha hb
      by_cases hta : a = topic
      · subst hta
        rw [Table.find?_put, if_pos rfl, Option.some.injEq] at ha
        by_contra hab
        exact (hother (Ne.symm hab) hb).2 ha.symm
      by_cases htb : b = topic
      · subst htb
        rw [Table.find?_put, if_pos rfl, Option.some.injEq] at hb
        exact absurd hb.symm (hother hta ha).2
      exact routes.unique (hother hta ha).1 (hother htb hb).1⟩
  else none

/-- `INSERT`; `none` is a violation of the primary key or of the unique index. -/
def insert? (routes : TopicRoutes) (topic : Int × Int) (conversationID : String) : Option TopicRoutes :=
  if routes.route topic = none ∧ routes.topic conversationID = none then routes.set? topic conversationID else none

end TopicRoutes

/-- A row of `callback_tokens`. -/
structure CallbackToken where
  conversationID : String
  expiresAt : Int
  consumedAt : Option Int

/-- `OutboundRef`, with the time it was stored. -/
structure OutboundRow where
  conversationID : String
  punaroMessageID : String
  fromEndpoint : String
  createdAt : Int

/-- `GatewayFailureClass`. -/
inductive GatewayFailureClass where
  | none
  | transient
  | messageLessPoll
  | inboundRelayPermanent
  | outboundTelegramPermanent
  | deletedTopic
deriving DecidableEq

/-- The row of `gateway_health`. -/
structure GatewayHealth where
  lastCycleAt : Int
  lastSuccessAt : Option Int
  lastPollAt : Option Int
  lastRelayAt : Option Int
  lastTelegramAt : Option Int
  lastProgressAt : Int
  lastOutboundProgressAt : Option Int
  offset : Int
  outboundBlocked : Bool
  consecutiveFailures : Nat
  lastFailure : GatewayFailureClass
  terminalInbound : Nat
  terminalOutbound : Nat

/-- A row of `gateway_terminal_outbound_targets`. -/
structure OutboundTarget where
  failures : Nat
  failureClass : GatewayFailureClass

/-- A row of `gateway_terminal_outbound_events`. -/
structure OutboundEvent where
  conversationID : String
  failureClass : GatewayFailureClass

/-- The names of `gateway_cursors`. -/
inductive CursorName where
  | pendingClaims
  | resumeClaims
  | completedRoutes
deriving DecidableEq

structure State where
  processedUpdates : Table Int Unit
  topicRoutes : TopicRoutes
  callbackTokens : Table String CallbackToken
  claimExecutions : Table String ExecutionRow
  outbound : Table (Int × Int) OutboundRow
  cursors : Table CursorName String
  health : Option GatewayHealth
  outboundTargets : Table String OutboundTarget
  /-- How many updates of a conversation were rejected for good. -/
  inboundTargets : Table String Nat
  outboundEvents : Table String OutboundEvent

def State.empty : State :=
  ⟨.empty, .empty, .empty, .empty, .empty, .empty, none, .empty, .empty, .empty⟩

namespace State

/-! ## Routes -/

/-- The execution protects the route of its conversation. -/
def protects (row : ExecutionRow) : Bool := row.phase ≠ .reserved

/-- `claimProtectsRouteOn`. -/
def claimProtectsRoute (s : State) (conversationID : String) : Bool :=
  (s.claimExecutions.find? conversationID).any protects

/-- `claimBlocksRemapOn`: while a topic is being created, its conversation may still be routed. -/
def claimBlocksRemap (s : State) (conversationID : String) : Bool :=
  (s.claimExecutions.find? conversationID).any fun row =>
    !(row.phase = .creating && row.unthreaded) && protects row

/-- `routeBlockedOn`. -/
def routeBlocked (s : State) (chatID threadID : Int) (conversationID : String) : Except Failure Unit := do
  require (s.claimBlocksRemap conversationID = false) (.message "telegram conversation is already claimed")
  match s.topicRoutes.route (chatID, threadID) with
  | none => return ()
  | some existing =>
    require (existing = conversationID ∨ s.claimProtectsRoute existing = false)
      (.message "telegram topic is already bound to a claimed conversation")

/-- `SetRoute`: a claim whose topic is being created is bound to the routed thread. -/
def setRoute (s : State) (chatID threadID : Int) (conversationID : String) : Except Failure State := do
  require (trimSpace conversationID ≠ "") (.message "conversation ID is required")
  s.routeBlocked chatID threadID conversationID
  let routes ← ofOption (s.topicRoutes.set? (chatID, threadID) conversationID) .constraint
  return { s with
    topicRoutes := routes
    claimExecutions := s.claimExecutions.updateAt conversationID fun row =>
      if row.phase = .creating ∧ row.unthreaded then
        { row with threadID := some threadID, chatID := some chatID, phase := .topicCreated }
      else row }

/-! ## Claims -/

/-- `ReserveClaimAndConsumeToken`, for a token with the given hash. -/
def reserveClaimAndConsumeToken (s : State) (tokenHash : String) (now : Int) : State × Option String :=
  match s.callbackTokens.find? tokenHash with
  | none => (s, none)
  | some token =>
    if token.consumedAt.isSome ∨ token.expiresAt ≤ unixMilli now then (s, none)
    else
      ({ s with
        claimExecutions :=
          s.claimExecutions.insertOrIgnore token.conversationID ⟨none, none, .reserved, none, false⟩
        callbackTokens := s.callbackTokens.updateAt tokenHash fun token =>
          { token with consumedAt := some (unixMilli now) } }, some token.conversationID)

/-- `InsertPendingExecution`: whether the execution is new. -/
def insertPendingExecution (s : State) (conversationID displayName : String) : Except Failure (State × Bool) := do
  require (trimSpace conversationID ≠ "") (.message "conversation ID is required")
  return ({ s with
    claimExecutions :=
      s.claimExecutions.insertOrIgnore conversationID ⟨none, none, .reserved, some displayName, true⟩ },
    (s.claimExecutions.find? conversationID).isNone)

/-- `ClaimExecution`. -/
def claimExecution (s : State) (conversationID : String) : Option ClaimExecution :=
  (s.claimExecutions.find? conversationID).map (scanClaimExecution conversationID)

/-- The executions that are complete, or not, behind a cursor. -/
def claimExecutionsAfter (s : State) (isComplete : Bool) (after : String) (limit : Nat) : List ClaimExecution :=
  let rows := s.claimExecutions.rows.filter fun row =>
    (decide (row.2.phase = .complete) == isComplete) && (after = "" || after < row.1)
  ((rows.map fun row => scanClaimExecution row.1 row.2).insertionSort fun a b =>
    a.conversationID ≤ b.conversationID).take limit

def persistClaimDisplayName (s : State) (conversationID displayName : String) : State :=
  { s with claimExecutions := s.claimExecutions.updateAt conversationID fun row =>
    { row with displayName := some displayName } }

/-- The topic of a conversation that has a thread. -/
def threadedTopic (s : State) (conversationID : String) : Option (Int × Int) :=
  (s.topicRoutes.topic conversationID).filter fun topic => 0 < topic.2

/-- `BeginClaimCreating`: the chat, the thread, and whether a topic is to be created. -/
def beginClaimCreating (s : State) (conversationID : String) (allowedUserID : Int) :
    Except Failure (State × Int × Int × Bool) := do
  require (trimSpace conversationID ≠ "") (.message "conversation ID is required")
  match s.threadedTopic conversationID with
  | some (chatID, threadID) => do
    require (allowedUserID = 0 ∨ chatID = allowedUserID) (.message "telegram_route_persist_failed")
    return ({ s with claimExecutions := s.claimExecutions.updateAt conversationID fun row =>
      { row with threadID := some threadID, chatID := some chatID, phase := .topicCreated } }, chatID, threadID, false)
  | none => do
    require ((s.claimExecutions.find? conversationID).any fun row => row.phase = .reserved && row.unthreaded)
      (.message "telegram claim creating fence is unavailable")
    return ({ s with claimExecutions := s.claimExecutions.updateAt conversationID fun row =>
      { row with phase := .creating } }, 0, 0, true)

/-- `ClearClaimCreating`. -/
def clearClaimCreating (s : State) (conversationID : String) : Except Failure State := do
  require (trimSpace conversationID ≠ "") (.message "conversation ID is required")
  return { s with claimExecutions := s.claimExecutions.updateAt conversationID fun row =>
    if row.phase = .creating ∧ row.unthreaded then { row with phase := .reserved } else row }

/-- `PersistClaimThread`. -/
def persistClaimThread (s : State) (conversationID : String) (chatID threadID : Int) : Except Failure State := do
  require (trimSpace conversationID ≠ "" ∧ chatID ≠ 0 ∧ 0 < threadID) (.message "claim thread is required")
  return { s with claimExecutions := s.claimExecutions.updateAt conversationID fun row =>
    { row with threadID := some threadID, chatID := some chatID, phase := .topicCreated } }

/-- The routes with one for a topic that no other conversation has. -/
def bindTopic (s : State) (topic : Int × Int) (conversationID : String) : Except Failure TopicRoutes :=
  match s.topicRoutes.route topic with
  | some bound =>
    if bound = conversationID then .ok s.topicRoutes else .error (.message "telegram topic is already bound")
  | none => ofOption (s.topicRoutes.insert? topic conversationID) .constraint

/-- `PersistClaimRoute`. -/
def persistClaimRoute (s : State) (chatID threadID : Int) (conversationID : String) : Except Failure State := do
  require (trimSpace conversationID ≠ "" ∧ chatID ≠ 0 ∧ 0 < threadID) (.message "telegram route persist is required")
  match s.threadedTopic conversationID with
  | some (existingChat, existingThread) => do
    require (existingChat = chatID) (.message "telegram topic is bound to another chat")
    return { s with claimExecutions := s.claimExecutions.updateAt conversationID fun row =>
      { row with threadID := some existingThread, phase := .routePersisted } }
  | none => do
    let routes ← s.bindTopic (chatID, threadID) conversationID
    return { s with
      topicRoutes := routes
      claimExecutions := s.claimExecutions.updateAt conversationID fun row => { row with phase := .routePersisted } }

/-- `AdoptExistingRoute`: the thread of the route. -/
def adoptExistingRoute (s : State) (conversationID : String) (allowedUserID : Int) :
    Except Failure (State × Int) := do
  require (trimSpace conversationID ≠ "" ∧ allowedUserID ≠ 0) (.message "telegram adopt is not configured")
  let (chatID, threadID) ← ofOption (s.threadedTopic conversationID)
    (.message "telegram adopt requires an existing topic route")
  require (chatID = allowedUserID) (.message "telegram adopt requires the configured telegram chat")
  return ({ s with
    claimExecutions := s.claimExecutions.upsert conversationID
      ⟨some threadID, some chatID, .adopting, none, true⟩ fun row =>
        if row.phase = .complete then { row with skipReserve := true }
        else { row with threadID := some threadID, chatID := some chatID, phase := .adopting, skipReserve := true } },
    threadID)

/-- `PersistClaimAdoptReserved`. -/
def persistClaimAdoptReserved (s : State) (conversationID : String) : Except Failure State := do
  require (trimSpace conversationID ≠ "") (.message "conversation ID is required")
  return { s with claimExecutions := s.claimExecutions.updateAt conversationID fun row =>
    if row.phase = .adopting then { row with phase := .routePersisted } else row }

/-- `MarkClaimComplete`. -/
def markClaimComplete (s : State) (conversationID : String) : State :=
  { s with claimExecutions := s.claimExecutions.updateAt conversationID fun row => { row with phase := .complete } }

/-! ## Inspection -/

/-- How many claims with a route `InspectGatewayState` finds inconsistent with it. -/
def inconsistentRoutes (s : State) : Nat :=
  s.claimExecutions.rows.countP fun (conversationID, row) =>
    (row.phase = .routePersisted || row.phase = .complete) &&
      match s.topicRoutes.topic conversationID with
      | none => true
      | some (chatID, threadID) =>
        row.unthreaded || row.threadID.any (threadID ≠ ·) || row.chatID.any (chatID ≠ ·)

/-- `RoutesConsistent` of the snapshot. -/
def routesConsistent (s : State) : Bool := s.inconsistentRoutes = 0

/-! ## Cursors -/

/-- `pendingClaimCursor`, `resumeClaimCursor` and `completedRouteCursor`. -/
def cursor (s : State) (name : CursorName) : String := (s.cursors.find? name).getD ""

/-- `setPendingClaimCursor`, `setResumeClaimCursor` and `setCompletedRouteCursor`. -/
def setCursor (s : State) (name : CursorName) (after : String) : State :=
  { s with cursors := if after = "" then s.cursors.deleteWhere fun name' _ => name' = name else s.cursors.put name after }

/-! ## Callback tokens -/

/-- Fifteen minutes, in nanoseconds. -/
def callbackTokenTTL : Int := 15 * 60 * 1000000000

def maxCallbackTokens : Nat := 100

/-- `IssueCallbackToken`, for a token with the given hash: the tokens that expire first make room for it. -/
def issueCallbackToken (s : State) (conversationID tokenHash : String) (now : Int) : Except Failure State := do
  require (trimSpace conversationID ≠ "") (.message "conversation ID is required")
  let kept := s.callbackTokens.deleteWhere fun _ token => token.expiresAt ≤ unixMilli now
  let outstanding := kept.rows.filter fun row => row.2.consumedAt.isNone
  let evict := (outstanding.insertionSort fun a b => a.2.expiresAt ≤ b.2.expiresAt).take
    (outstanding.length + 1 - maxCallbackTokens)
  let tokens ← ofOption ((kept.deleteWhere fun token _ => evict.any fun row => row.1 = token).insert? tokenHash
    ⟨conversationID, unixMilli (now + callbackTokenTTL), none⟩) .constraint
  return { s with callbackTokens := tokens }

/-! ## Sent messages -/

def telegramOutboundLimit : Nat := 10000

/-- `RecordOutbound`: the oldest messages are forgotten. -/
def recordOutbound (s : State) (chatID messageID : Int) (conversationID punaroMessageID fromEndpoint : String)
    (now : Int) : Except Failure State := do
  require (chatID ≠ 0 ∧ 0 < messageID ∧ trimSpace conversationID ≠ "") (.message "telegram outbound map row is required")
  let outbound := s.outbound.put (chatID, messageID) ⟨conversationID, punaroMessageID, fromEndpoint, unixMilli now⟩
  let oldest := (outbound.rows.insertionSort fun a b => a.2.createdAt ≤ b.2.createdAt).take
    (outbound.rows.length - telegramOutboundLimit)
  return { s with outbound := outbound.deleteWhere fun message _ => oldest.any fun row => row.1 = message }

end State

end Punaro.Telegram
