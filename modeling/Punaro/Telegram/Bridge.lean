import Punaro.Telegram.Claim

/-!
# Cycles of the gateway

A cycle takes up the claims, hands one page of Telegram updates to the relay and
sends what the relay has leased to Telegram; it reports which conversations have
rejected or accepted something (`internal/telegram/bridge.go`, `gateway.go`,
`runner.go`, `outbound.go`).
-/

namespace Punaro.Telegram

open Prog

/-! ## Failures -/

/-- `PermanentBotAPIFailure`. -/
def permanentBotAPIFailure (e : Failure) : Bool :=
  match e.cause with
  | .botAPIStatus _ status _ => [400, 403, 405, 410, 422].contains status
  | _ => false

/-- `DeletedTopicFailure`. -/
def deletedTopicFailure (e : Failure) : Bool :=
  match e.cause with
  | .botAPIStatus _ _ deletedTopic => deletedTopic
  | _ => false

/-- `isPermanentTelegramFailure`. -/
def isPermanentTelegramFailure (e : Failure) : Bool :=
  match e.cause with
  | .permanentTelegramDelivery _ => true
  | _ => permanentBotAPIFailure e

/-- `isPermanentRelayFailure`. -/
def isPermanentRelayFailure (e : Failure) : Bool :=
  match e.cause with
  | .relay permanent => permanent
  | _ => false

/-- The Bot API answered `getUpdates` with a status. -/
def pollFailure (e : Failure) : Bool :=
  match e.cause with
  | .botAPIStatus method _ _ => method = "getUpdates"
  | _ => false

/-- A method of the state whose error is given a context. -/
def askIn (context : String) (call : StateCall) : Program call.Result := do
  match ← perform (Call.state call) with
  | .ok a => return a
  | .error e => .fail (.wrapped context e)

/-! ## Updates -/

/-- `Gateway`; `notify` and `listsUnclaimed` tell whether these functions are set, `tokenHash` is how the state keeps
callback tokens. -/
structure Gateway where
  allowedUserID : Int
  notify : Bool
  listsUnclaimed : Bool
  claims : Option ClaimExecutor
  tokenHash : String → String

def startHelpText : String :=
  "This bot lets you claim a Punaro topic. Send /list to see unclaimed topics, then tap one to claim it."

def listEmptyText : String := "There are no unclaimed Punaro topics right now."

def listPromptText : String := "Tap a topic to claim it."

def listAmbiguousText : String := "Could not list unclaimed topics. Try again later."

def callbackFailureText : String := "Unable to complete this action."

def callbackAcceptedText : String := "Claim accepted."

def maxButtonTextRunes : Nat := 64

def truncateRunes (value : String) (limit : Nat) : String :=
  if limit < 1 ∨ value.length ≤ limit then value else String.ofList (value.toList.take limit)

/-- What the gateway tells the cycle about an update. -/
inductive Handled where
  | quiet
  /-- `terminalDrop` -/
  | dropped (conversationID : String) (e : Failure)
  /-- `inboundRecovery` -/
  | recovered (conversationID : String)

def markInert (updateID : Int) : Program Unit := askIn "record inert telegram update" (.markProcessed updateID)

/-- A button's label. -/
def UnclaimedTopic.label (topic : UnclaimedTopic) : String := truncateRunes topic.displayName maxButtonTextRunes

/-- Two topics have one label. -/
def ambiguousLabels : List UnclaimedTopic → List (String × String) → Bool
  | [], _ => false
  | topic :: topics, labels =>
    (labels.lookup topic.label).any (· ≠ topic.id) || ambiguousLabels topics ((topic.label, topic.id) :: labels)

namespace Gateway

variable (g : Gateway)

def answerCallback (callbackID text : String) : Program Unit := do
  if g.notify = false ∨ callbackID = "" then return ()
  else let _ ← perform (Call.answerCallbackQuery callbackID text)

def sendOperator (text : String) (keyboard : List (List InlineKeyboardButton)) : Program Unit := do
  if g.notify = false then refuse "telegram gateway is not configured"
  else
    match ← perform (Call.sendMessage g.allowedUserID text keyboard) with
    | .ok _ => return ()
    | .error e => .fail (.wrapped "send telegram operator message" e)

def handleCallback (update : Update) : Program Unit := do
  if update.userID ≠ g.allowedUserID ∨ update.chatID ≠ g.allowedUserID then
    g.answerCallback update.callbackID callbackFailureText
    markInert update.id
  else
    let now ← perform Call.now
    match ← askIn "reserve telegram claim execution"
        (.reserveClaimAndConsumeToken (g.tokenHash update.callbackData) now) with
    | none => do
      g.answerCallback update.callbackID callbackFailureText
      markInert update.id
    | some conversationID => do
      g.answerCallback update.callbackID callbackAcceptedText
      askIn "record telegram update" (.markProcessed update.id)
      match g.claims with
      | none => return ()
      | some e => e.tryExecute conversationID

/-- A button with a fresh token for each topic. -/
def issueTokens (now : Int) : List UnclaimedTopic → Program (List (List InlineKeyboardButton))
  | [] => return []
  | topic :: topics => do
    match ← perform Call.drawToken with
    | .error e => .fail (.wrapped "issue telegram callback token" e)
    | .ok token => do
      askIn "issue telegram callback token" (.issueCallbackToken topic.id (g.tokenHash token) now)
      let keyboard ← issueTokens now topics
      return [⟨topic.label, token⟩] :: keyboard

def handleList : Program Unit := do
  if g.listsUnclaimed = false ∨ g.notify = false then refuse "telegram gateway is not configured"
  else
    match ← perform Call.listUnclaimed with
    | .error e => .fail (.wrapped "list unclaimed telegram topics" e)
    | .ok topics =>
      if topics = [] then g.sendOperator listEmptyText []
      else if ambiguousLabels topics [] then g.sendOperator listAmbiguousText []
      else
        let now ← perform Call.now
        let keyboard ← g.issueTokens now topics
        g.sendOperator listPromptText keyboard

def handleCommand (update : Update) : Program Unit := do
  if update.chatID ≠ g.allowedUserID then markInert update.id
  else if update.command = "start" then
    g.sendOperator startHelpText []
    markInert update.id
  else if update.command = "list" then
    g.handleList
    markInert update.id
  else markInert update.id

/-- The relay is given the text of an update that is routed to a conversation. -/
def submitUpdate (update : Update) (conversationID : String) : Program Handled := do
  match ← perform (Call.submit ⟨update.id, conversationID, update.text, update.chatID, update.threadID,
      update.replyToID⟩) with
  | .error e =>
    if isPermanentRelayFailure e then
      askIn "record dropped telegram update" (.markProcessedTerminalInbound update.id conversationID)
      return .dropped conversationID e
    else .fail (.wrapped "submit telegram message" e)
  | .ok _ =>
    askIn "record telegram update" (.markProcessedInboundRecovery update.id conversationID)
    return .recovered conversationID

/-- The text of an update goes to the conversation of its topic. -/
def handleText (update : Update) : Program Handled := do
  match ← askIn "resolve telegram topic route" (.route update.chatID update.threadID) with
  | none => do
    markInert update.id
    return .quiet
  | some conversationID => submitUpdate update conversationID

/-- An update that has not been processed yet and is no text for a conversation. -/
def handleOther (update : Update) : Program Unit :=
  if update.callbackID ≠ "" then g.handleCallback update
  else if update.userID ≠ g.allowedUserID then markInert update.id
  else if update.isCommand then g.handleCommand update
  else markInert update.id

/-- `Handle`. -/
def handle (update : Update) : Program Handled := do
  if g.allowedUserID = 0 then refuse "telegram gateway is not configured"
  else
    if ← askIn "read telegram update state" (.processed update.id) then return .quiet
    else if update.callbackID ≠ "" ∨ update.userID ≠ g.allowedUserID ∨ update.isCommand ∨ trimSpace update.text = "" then
      g.handleOther update
      return .quiet
    else handleText update

end Gateway

/-! ## Reports -/

/-- What a cycle keeps of its updates. -/
structure Inbound where
  terminal : Int := 0
  recovery : Bool := false
  events : List GatewayTargetEvent := []
  err : Option Failure := none

def Inbound.note (acc : Inbound) : Handled → Inbound
  | .quiet => acc
  | .dropped conversationID e =>
    { acc with
      terminal := acc.terminal + 1
      events := acc.events ++ [⟨conversationID, true, true, .inboundRelayPermanent⟩]
      err := acc.err.or (some e) }
  | .recovered conversationID =>
    { acc with
      recovery := true
      events := acc.events ++ [⟨conversationID, false, false, .none⟩] }

/-- What a cycle keeps of its deliveries. -/
structure Outbound where
  progress : Bool := false
  recovery : Bool := false
  terminal : Int := 0
  events : List GatewayTargetEvent := []
  err : Option Failure := none

def Outbound.reject (acc : Outbound) (conversationID : String) (failureClass : GatewayFailureClass) (e : Failure) :
    Outbound :=
  { acc with
    terminal := acc.terminal + 1
    events := acc.events ++ [⟨conversationID, true, true, failureClass⟩]
    err := if acc.err = none ∨ deletedTopicFailure e then some e else acc.err }

def Outbound.recover (acc : Outbound) (conversationID : String) : Outbound :=
  { acc with
    recovery := true
    events := acc.events ++ [⟨conversationID, false, false, .none⟩] }

inductive GatewayCyclePhase where
  | advertise
  | claim
  | poll
  | inbound
  | lease
  | send
  | ack
deriving DecidableEq

structure GatewayCycleError where
  phase : GatewayCyclePhase
  nonFatal : Bool := false
  terminalInbound : Int := 0
  terminalOutbound : Int := 0
  inboundRecovery : Bool := false
  outboundRecovery : Bool := false
  inboundTargetEvents : List GatewayTargetEvent := []
  outboundTargetEvents : List GatewayTargetEvent := []
  outboundBlocked : Bool := false
  outboundProgress : Bool := false
  err : Option Failure := none

/-- The errors of `SyncOnce`. -/
inductive SyncError where
  | message (text : String)
  | cycle (e : GatewayCycleError)

/-- The cycle stops before the deliveries. -/
def Inbound.failed (inbound : Inbound) (phase : GatewayCyclePhase) (e : Failure) : SyncError :=
  .cycle {
    phase
    terminalInbound := inbound.terminal
    inboundRecovery := inbound.recovery
    inboundTargetEvents := inbound.events
    err := some e }

/-- The cycle stops at a delivery. -/
def Outbound.failed (inbound : Inbound) (outbound : Outbound) (phase : GatewayCyclePhase) (e : Failure) : SyncError :=
  .cycle {
    phase
    terminalInbound := inbound.terminal
    terminalOutbound := outbound.terminal
    inboundRecovery := inbound.recovery
    outboundRecovery := outbound.recovery
    inboundTargetEvents := inbound.events
    outboundTargetEvents := outbound.events
    outboundBlocked := true
    outboundProgress := outbound.progress
    err := some e }

/-- The end of a cycle, which reports what was rejected or recovered. -/
def Outbound.ended (inbound : Inbound) (outbound : Outbound) : Option SyncError :=
  if 0 < inbound.terminal ∨ 0 < outbound.terminal ∨ inbound.recovery ∨ outbound.recovery then
    let sending := 0 < outbound.terminal ∨ inbound.terminal = 0 ∧ outbound.recovery
    some (.cycle {
      phase := if sending then .send else .inbound
      nonFatal := true
      terminalInbound := inbound.terminal
      terminalOutbound := outbound.terminal
      inboundRecovery := inbound.recovery
      outboundRecovery := outbound.recovery
      inboundTargetEvents := inbound.events
      outboundTargetEvents := outbound.events
      err := if sending then outbound.err else inbound.err })
  else none

/-! ## Cycles -/

namespace Gateway

/-- The updates of a page, up to the first that fails; the offset is the one behind the page. -/
def handleAll (g : Gateway) : List Update → Inbound → Int → Program (Inbound × Except Failure Int)
  | [], acc, next => return (acc, .ok next)
  | update :: updates, acc, next => do
    match ← (g.handle update).attempt with
    | .error e => return (acc, .error e)
    | .ok handled => handleAll g updates (acc.note handled) (if next ≤ update.id then update.id + 1 else next)

/-- `RunOnce`. -/
def runOnce (g : Gateway) (offset : Int) : Program (Inbound × Except Failure Int) := do
  match ← perform (Call.updates offset) with
  | .error e => return ({}, .error e)
  | .ok updates => g.handleAll updates {} offset

end Gateway

def maxRichMessageBytes : Nat := 32768

/-- `html.EscapeString`. -/
def escapeString (text : String) : String :=
  String.join (text.toList.map fun c =>
    match c.toNat with
    | 34 => "&#34;"
    | 38 => "&amp;"
    | 39 => "&#39;"
    | 60 => "&lt;"
    | 62 => "&gt;"
    | _ => String.singleton c)

/-- The body cut into messages. -/
def renderParts (header footer : String) : List Char → String → List String
  | [], current => if current = "" then [] else [header ++ escapeString current ++ footer]
  | c :: body, current =>
    if current ≠ "" ∧ maxRichMessageBytes <
        header.utf8ByteSize + (escapeString (current.push c)).utf8ByteSize + footer.utf8ByteSize then
      (header ++ escapeString current ++ footer) :: renderParts header footer body (String.singleton c)
    else renderParts header footer body (current.push c)

/-- `renderDelivery`. -/
def renderDelivery (endpoint body : String) : List String :=
  let header := "<p><b>Reply from </b><code>" ++ escapeString endpoint ++ "</code></p><pre>"
  let footer := "</pre>"
  let parts := renderParts header footer body.toList ""
  if parts = [] then [header ++ footer] else parts

/-- `Bridge`. -/
structure Bridge where
  endpoint : String
  gateway : Gateway
  claims : Option ClaimExecutor

namespace Bridge

variable (b : Bridge)

/-- One message of a delivery. -/
def sendPart (delivery : Delivery) (chatID threadID : Int) (rendered : String) : Program Unit := do
  match ← perform (Call.sendRichMessage chatID threadID rendered) with
  | .error e => .fail e
  | .ok messageID => do
    let now ← perform Call.now
    askIn "record telegram outbound map" (.recordOutbound chatID messageID delivery.message.conversationID
      delivery.message.id delivery.message.fromEndpoint now)

/-- Who a delivery is shown to be from. -/
def senderOf (delivery : Delivery) : String :=
  if delivery.message.fromEndpoint = "" then delivery.message.fromRole else delivery.message.fromEndpoint

/-- `SendDelivery`. -/
def sendDelivery (delivery : Delivery) : Program Unit := do
  if trimSpace delivery.message.conversationID = "" ∨ trimSpace (senderOf delivery) = "" ∨ delivery.message.body = "" then
    .fail (.permanentTelegramDelivery "invalid Telegram delivery")
  else
    match ← askIn "read Telegram delivery route" (.routeForConversation delivery.message.conversationID) with
    | none => refuse "telegram conversation route is missing"
    | some (chatID, threadID) =>
      if b.gateway.allowedUserID = 0 ∨ chatID ≠ b.gateway.allowedUserID then
        refuse "telegram conversation route is not the configured chat"
      else (renderDelivery (senderOf delivery) delivery.message.body).forM (sendPart delivery chatID threadID)

/-- The deliveries, up to the first that cannot be taken off the queue. -/
def deliver : List Delivery → Outbound → Program (Outbound × Option (GatewayCyclePhase × Failure))
  | [], acc => return (acc, none)
  | delivery :: deliveries, acc => do
    match ← (b.sendDelivery delivery).attempt with
    | .error e =>
      if isPermanentTelegramFailure e then
        let failureClass := if deletedTopicFailure e then .deletedTopic else .outboundTelegramPermanent
        match ← perform (Call.state (.stageTerminalOutbound delivery.id delivery.message.conversationID failureClass)) with
        | .error err => return (acc, some (.send, .wrapped "stage terminal telegram delivery" err))
        | .ok _ =>
          let acc := acc.reject delivery.message.conversationID failureClass e
          match ← perform (Call.ack delivery) with
          | .error err => return (acc, some (.ack, err))
          | .ok _ =>
            let acc := { acc with progress := true }
            match ← perform (Call.state (.finalizeTerminalOutbound delivery.id)) with
            | .error err =>
              return (acc, some (.ack, .wrapped "finalize acknowledged terminal telegram delivery" err))
            | .ok _ => deliver deliveries acc
      else return (acc, some (.send, e))
    | .ok _ =>
      match ← perform (Call.state (.recoverTerminalOutbound delivery.message.conversationID)) with
      | .error err => return (acc, some (.send, .wrapped "record terminal telegram recovery" err))
      | .ok _ =>
        let acc := acc.recover delivery.message.conversationID
        match ← perform (Call.ack delivery) with
        | .error err => return (acc, some (.ack, err))
        | .ok _ => deliver deliveries { acc with progress := true }

/-- The claims are taken up. -/
def takeUpClaims : Program Unit := do
  match b.claims with
  | none => return ()
  | some e => do
    e.resumeAll
    e.startPending

/-- `SyncOnce`: the next offset and the error of the cycle. -/
def syncOnce (offset : Int) : Program (Int × Option SyncError) := do
  if trimSpace b.endpoint = "" then return (offset, some (.message "telegram bridge is not configured"))
  else
    match ← perform (Call.advertise [b.endpoint]) with
    | .error e => return (offset, some (Inbound.failed {} .advertise e))
    | .ok _ =>
      match ← b.takeUpClaims.attempt with
      | .error e => return (offset, some (Inbound.failed {} .claim e))
      | .ok _ =>
        match ← b.gateway.runOnce offset with
        | (inbound, .error e) => return (offset, some (inbound.failed (if pollFailure e then .poll else .inbound) e))
        | (inbound, .ok next) =>
          match ← perform (Call.lease b.endpoint) with
          | .error e => return (next, some (inbound.failed .lease e))
          | .ok deliveries =>
            match ← b.deliver deliveries {} with
            | (outbound, some (phase, e)) => return (next, some (outbound.failed inbound phase e))
            | (outbound, none) => return (next, outbound.ended inbound)

end Bridge

/-! ## Records of cycles -/

/-- `ClassifyGatewayCycleFailure`. -/
def classifyGatewayCycleFailure : SyncError → GatewayFailureClass
  | .message _ => .transient
  | .cycle e =>
    if e.err.any deletedTopicFailure then .deletedTopic
    else if e.err.any fun err => pollFailure err && permanentBotAPIFailure err then .messageLessPoll
    else if e.err.any permanentBotAPIFailure then .outboundTelegramPermanent
    else if e.nonFatal ∧ e.err = none then .none
    else if e.phase = .send ∧ e.err.any isPermanentTelegramFailure then .outboundTelegramPermanent
    else if e.phase ≠ .inbound then .transient
    else if e.err.any isPermanentRelayFailure then .inboundRelayPermanent
    else .transient

/-- `failedGatewayCycleRecord`. -/
def failedGatewayCycleRecord (time offset : Int) (err : SyncError) : GatewayCycleRecord :=
  match err with
  | .message _ =>
    ⟨time, offset, false, false, false, false, false, 0, 0, [], [], classifyGatewayCycleFailure err⟩
  | .cycle e =>
    { time, offset
      pollOK := e.nonFatal || [.inbound, .lease, .send, .ack].contains e.phase
      relayOK := e.nonFatal || [.send, .ack].contains e.phase
      telegramOK := if e.nonFatal then e.terminalOutbound = 0 else e.phase = .ack
      outboundBlocked := e.outboundBlocked
      outboundProgress := e.outboundProgress
      terminalInbound := e.terminalInbound
      terminalOutbound := e.terminalOutbound
      inboundTargetEvents := e.inboundTargetEvents
      outboundTargetEvents := e.outboundTargetEvents
      failure := classifyGatewayCycleFailure err }

/-- What the gateway records after a cycle. -/
def gatewayCycleRecord (time : Int) : Int × Option SyncError → GatewayCycleRecord
  | (next, none) => ⟨time, next, true, true, true, false, false, 0, 0, [], [], .none⟩
  | (next, some err) => failedGatewayCycleRecord time next err

end Punaro.Telegram
