import Punaro.Telegram.State

/-!
# The gateway's health ledger

What was rejected for good is kept by conversation, until the conversation accepts
again: it is staged when the rejection happens, and the events of a cycle are
recorded at its end (`internal/telegram/state.go`).
-/

namespace Punaro.Telegram

open Outcome

/-- The target of rejections that are not attributed to a conversation. -/
def gatewayLegacyTarget : String := "__legacy_unattributed__"

structure GatewayTargetEvent where
  conversationID : String
  terminal : Bool
  staged : Bool
  failure : GatewayFailureClass
deriving DecidableEq

structure GatewayCycleRecord where
  time : Int
  offset : Int
  pollOK : Bool
  relayOK : Bool
  telegramOK : Bool
  outboundBlocked : Bool
  outboundProgress : Bool
  terminalInbound : Int
  terminalOutbound : Int
  inboundTargetEvents : List GatewayTargetEvent
  outboundTargetEvents : List GatewayTargetEvent
  failure : GatewayFailureClass

/-- `time.Time.IsZero`: the first instant of the year 1. -/
def isZero (time : Int) : Bool := time = -62135596800000000000

/-- How many more targets of a conversation were rejected. -/
def addInbound (targets : Table String Nat) (conversationID : String) (failures : Nat) : Table String Nat :=
  targets.upsert conversationID failures (· + failures)

/-- A target that lost its topic stays one. -/
def mergeClass (a b : GatewayFailureClass) : GatewayFailureClass :=
  if a = .deletedTopic ∨ b = .deletedTopic then .deletedTopic else .outboundTelegramPermanent

def addOutbound (targets : Table String OutboundTarget) (conversationID : String) (failures : Nat)
    (failureClass : GatewayFailureClass) : Table String OutboundTarget :=
  targets.upsert conversationID ⟨failures, failureClass⟩ fun target =>
    ⟨target.failures + failures, mergeClass target.failureClass failureClass⟩

/-- `DELETE … WHERE conversation_id IN (?, ?)`, with the legacy target. -/
def clearTarget {V : Type} (targets : Table String V) (conversationID : String) : Table String V :=
  targets.deleteWhere fun target _ => target = conversationID || target = gatewayLegacyTarget

namespace State

/-! ## Updates -/

/-- `Processed`. -/
def processed (s : State) (updateID : Int) : Bool := (s.processedUpdates.find? updateID).isSome

/-- `MarkProcessed`. -/
def markProcessed (s : State) (updateID : Int) : State :=
  { s with processedUpdates := s.processedUpdates.insertOrIgnore updateID () }

/-- `MarkProcessedTerminalInbound`. -/
def markProcessedTerminalInbound (s : State) (updateID : Int) (conversationID : String) : Except Failure State := do
  require (0 ≤ updateID ∧ trimSpace conversationID ≠ "") (.message "invalid terminal inbound update")
  return { s.markProcessed updateID with
    inboundTargets := if s.processed updateID then s.inboundTargets else addInbound s.inboundTargets conversationID 1 }

/-- `MarkProcessedInboundRecovery`. -/
def markProcessedInboundRecovery (s : State) (updateID : Int) (conversationID : String) : Except Failure State := do
  require (0 ≤ updateID ∧ trimSpace conversationID ≠ "") (.message "invalid inbound recovery update")
  return { s.markProcessed updateID with
    inboundTargets := if s.processed updateID then s.inboundTargets else clearTarget s.inboundTargets conversationID }

/-! ## Deliveries -/

/-- The class of a target whose deliveries are staged: it lost its topic if one of them did, or if an earlier
delivery that is not staged any more did. -/
def reconciledClass (target : OutboundTarget) (staged : List OutboundEvent) : GatewayFailureClass :=
  if (staged.any fun event => event.failureClass = .deletedTopic) ∨
      staged.length < target.failures ∧ target.failureClass = .deletedTopic then .deletedTopic
  else .outboundTelegramPermanent

/-- `StageTerminalOutbound`. -/
def stageTerminalOutbound (s : State) (deliveryID conversationID : String) (failureClass : GatewayFailureClass) :
    Except Failure State := do
  require (trimSpace deliveryID ≠ "" ∧ trimSpace conversationID ≠ "" ∧
    (failureClass = .outboundTelegramPermanent ∨ failureClass = .deletedTopic))
    (.message "invalid terminal outbound delivery")
  match s.outboundEvents.find? deliveryID with
  | none => return { s with
      outboundEvents := s.outboundEvents.insertOrIgnore deliveryID ⟨conversationID, failureClass⟩
      outboundTargets := addOutbound s.outboundTargets conversationID 1 failureClass }
  | some existing => do
    require (existing.conversationID = conversationID) (.message "terminal outbound delivery identity conflict")
    if existing.failureClass = failureClass then return s
    else
      let events := s.outboundEvents.updateAt deliveryID fun event => { event with failureClass := failureClass }
      require (s.outboundTargets.find? conversationID).isSome .noRows
      let staged := (events.rows.map Prod.snd).filter fun event => event.conversationID = conversationID
      return { s with
        outboundEvents := events
        outboundTargets := s.outboundTargets.updateAt conversationID fun target =>
          { target with failureClass := reconciledClass target staged } }

/-- `FinalizeTerminalOutbound`. -/
def finalizeTerminalOutbound (s : State) (deliveryID : String) : Except Failure State := do
  require (trimSpace deliveryID ≠ "") (.message "invalid terminal outbound delivery")
  return { s with outboundEvents := s.outboundEvents.deleteWhere fun delivery _ => delivery = deliveryID }

/-- The conversation accepts again. -/
def recovered (s : State) (conversationID : String) : State :=
  { s with
    outboundTargets := clearTarget s.outboundTargets conversationID
    outboundEvents := s.outboundEvents.deleteWhere fun _ event => event.conversationID = conversationID }

/-- `RecoverTerminalOutbound`. -/
def recoverTerminalOutbound (s : State) (conversationID : String) : Except Failure State := do
  require (trimSpace conversationID ≠ "") (.message "invalid terminal outbound recovery")
  return s.recovered conversationID

end State

/-! ## Cycles -/

/-- The events of one direction that a record may have; `failures` are the classes of its rejections. -/
def validTargetEvents (failures : List GatewayFailureClass) (events : List GatewayTargetEvent) : Bool :=
  events.all fun event => trimSpace event.conversationID ≠ "" && (!event.staged || event.terminal) &&
    (!event.terminal || failures.contains event.failure)

/-- The checks of `RecordGatewayCycle` before its transaction. -/
def GatewayCycleRecord.valid (record : GatewayCycleRecord) : Bool :=
  !isZero record.time && 0 ≤ record.offset && (!record.outboundProgress || record.outboundBlocked) &&
    0 ≤ record.terminalInbound && 0 ≤ record.terminalOutbound &&
    !(record.failure = .none && (0 < record.terminalInbound || 0 < record.terminalOutbound)) &&
    validTargetEvents [.none, .inboundRelayPermanent] record.inboundTargetEvents &&
    validTargetEvents [.none, .outboundTelegramPermanent, .deletedTopic] record.outboundTargetEvents

/-- How many updates were rejected. -/
def GatewayCycleRecord.inboundDelta (record : GatewayCycleRecord) : Int :=
  if record.terminalInbound = 0 ∧ record.failure = .inboundRelayPermanent then 1 else record.terminalInbound

/-- How many deliveries were rejected. -/
def GatewayCycleRecord.outboundDelta (record : GatewayCycleRecord) : Int :=
  if record.terminalOutbound = 0 ∧ (record.failure = .outboundTelegramPermanent ∨ record.failure = .deletedTopic) then 1
  else record.terminalOutbound

def terminalEvents (events : List GatewayTargetEvent) : Nat := events.countP GatewayTargetEvent.terminal

/-- The class a rejected delivery is stored with. -/
def outboundClass (failure : GatewayFailureClass) : GatewayFailureClass :=
  if failure = .deletedTopic then .deletedTopic else .outboundTelegramPermanent

/-- An inbound event is recorded; one that is staged already is not counted again. -/
def State.replayInbound (s : State) (event : GatewayTargetEvent) : State :=
  if event.terminal then
    if event.staged then s else { s with inboundTargets := addInbound s.inboundTargets event.conversationID 1 }
  else { s with inboundTargets := clearTarget s.inboundTargets event.conversationID }

/-- An outbound event is recorded; one that is staged already is not counted again. -/
def State.replayOutbound (failure : GatewayFailureClass) (s : State) (event : GatewayTargetEvent) : State :=
  if event.terminal then
    if event.staged then s
    else
      let failureClass := outboundClass (if event.failure = .none then failure else event.failure)
      { s with outboundTargets := addOutbound s.outboundTargets event.conversationID 1 failureClass }
  else s.recovered event.conversationID

/-- The rejections of a record that no event tells of. -/
def State.unattributed (s : State) (record : GatewayCycleRecord) : State :=
  let inbound := record.inboundDelta - terminalEvents record.inboundTargetEvents
  let outbound := record.outboundDelta - terminalEvents record.outboundTargetEvents
  { s with
    inboundTargets := if 0 < inbound then addInbound s.inboundTargets gatewayLegacyTarget inbound.toNat
      else s.inboundTargets
    outboundTargets := if 0 < outbound then
        addOutbound s.outboundTargets gatewayLegacyTarget outbound.toNat (outboundClass record.failure)
      else s.outboundTargets }

/-- The events of a record. -/
def State.replay (s : State) (record : GatewayCycleRecord) : State :=
  record.outboundTargetEvents.foldl (State.replayOutbound record.failure)
    (record.inboundTargetEvents.foldl State.replayInbound (s.unattributed record))

def State.terminalInbound (s : State) : Nat := s.inboundTargets.sum fun _ failures => failures

def State.terminalOutbound (s : State) : Nat := s.outboundTargets.sum fun _ target => target.failures

/-- The failure a cycle leaves behind: its own, or that of the targets still rejected. -/
def State.effectiveFailure (s : State) (failure : GatewayFailureClass) : GatewayFailureClass :=
  if failure = .none ∧ (0 < s.terminalInbound ∨ 0 < s.terminalOutbound) then
    if s.outboundTargets.rows.any fun row => row.2.failureClass = .deletedTopic then .deletedTopic
    else if 0 < s.terminalOutbound then .outboundTelegramPermanent
    else .inboundRelayPermanent
  else failure

/-- The row of `gateway_health` after a cycle; `s` has its events already. -/
def State.nextHealth (s : State) (record : GatewayCycleRecord) : GatewayHealth :=
  let now := unixMilli record.time
  let reached (ok : Bool) (before : GatewayHealth → Option Int) : Option Int :=
    if ok then some now else s.health.bind before
  let blockedBefore := s.health.any GatewayHealth.outboundBlocked
  -- a failure before the outbound phase does not tell that the head of the queue has moved on
  let blocked := record.outboundBlocked ||
    (blockedBefore && record.failure ≠ .none && !record.outboundProgress)
  let failure := s.effectiveFailure record.failure
  let consecutive := (s.health.map GatewayHealth.consecutiveFailures).getD 0
  { lastCycleAt := now
    lastSuccessAt := reached (record.failure = .none) GatewayHealth.lastSuccessAt
    lastPollAt := reached record.pollOK GatewayHealth.lastPollAt
    lastRelayAt := reached record.relayOK GatewayHealth.lastRelayAt
    lastTelegramAt := reached record.telegramOK GatewayHealth.lastTelegramAt
    lastProgressAt := ((s.health.filter fun health => health.offset = record.offset).map
      GatewayHealth.lastProgressAt).getD now
    lastOutboundProgressAt := some (((s.health.filter fun health => blocked && !record.outboundProgress &&
      health.outboundBlocked).map fun health => health.lastOutboundProgressAt.getD health.lastProgressAt).getD now)
    offset := record.offset
    outboundBlocked := blocked
    consecutiveFailures :=
      if record.failure ≠ .none then consecutive + 1 else if failure ≠ .none then consecutive else 0
    lastFailure := failure
    terminalInbound := s.terminalInbound
    terminalOutbound := s.terminalOutbound }

/-- `RecordGatewayCycle`. -/
def State.recordGatewayCycle (s : State) (record : GatewayCycleRecord) : Except Failure State := do
  let invalid := Failure.message "invalid gateway cycle record"
  require record.valid invalid
  require (terminalEvents record.inboundTargetEvents ≤ record.inboundDelta ∧
    terminalEvents record.outboundTargetEvents ≤ record.outboundDelta) invalid
  let replayed := s.replay record
  return { replayed with health := some (replayed.nextHealth record) }

end Punaro.Telegram
