import Punaro.Lib.Program
import Punaro.Relay.Deliver
import Punaro.Telegram.Health

/-!
# The calls of the gateway

The gateway and its operators work on one state, each method of which is a single
step that may also fail; the relay and the Bot API answer as they like.
-/

namespace Punaro.Telegram

/-! ## The state -/

inductive StateCall where
  | setRoute (chatID threadID : Int) (conversationID : String)
  | route (chatID threadID : Int)
  | routeForConversation (conversationID : String)
  | reserveClaimAndConsumeToken (tokenHash : String) (now : Int)
  | issueCallbackToken (conversationID tokenHash : String) (now : Int)
  | insertPendingExecution (conversationID displayName : String)
  | claimExecution (conversationID : String)
  | incompleteClaimExecutionsAfter (after : String) (limit : Nat)
  | completedClaimExecutionsAfter (after : String) (limit : Nat)
  | persistClaimDisplayName (conversationID displayName : String)
  | beginClaimCreating (conversationID : String) (allowedUserID : Int)
  | clearClaimCreating (conversationID : String)
  | persistClaimThread (conversationID : String) (chatID threadID : Int)
  | persistClaimRoute (chatID threadID : Int) (conversationID : String)
  | adoptExistingRoute (conversationID : String) (allowedUserID : Int)
  | persistClaimAdoptReserved (conversationID : String)
  | markClaimComplete (conversationID : String)
  | cursor (name : CursorName)
  | setCursor (name : CursorName) (after : String)
  | processed (updateID : Int)
  | markProcessed (updateID : Int)
  | markProcessedTerminalInbound (updateID : Int) (conversationID : String)
  | markProcessedInboundRecovery (updateID : Int) (conversationID : String)
  | stageTerminalOutbound (deliveryID conversationID : String) (failureClass : GatewayFailureClass)
  | finalizeTerminalOutbound (deliveryID : String)
  | recoverTerminalOutbound (conversationID : String)
  | recordOutbound (chatID messageID : Int) (conversationID punaroMessageID fromEndpoint : String) (now : Int)

abbrev StateCall.Result : StateCall → Type
  | .route .. => Option String
  | .routeForConversation _ => Option (Int × Int)
  | .reserveClaimAndConsumeToken .. => Option String
  | .insertPendingExecution .. => Bool
  | .claimExecution _ => Option ClaimExecution
  | .incompleteClaimExecutionsAfter .. => List ClaimExecution
  | .completedClaimExecutionsAfter .. => List ClaimExecution
  | .beginClaimCreating .. => Int × Int × Bool
  | .adoptExistingRoute .. => Int
  | .cursor _ => String
  | .processed _ => Bool
  | _ => Unit

/-- A method without a result. -/
def written {ε S : Type} (r : Except ε S) : Except ε (S × Unit) := r.map fun s => (s, ())

def State.run (s : State) : (call : StateCall) → Except Failure (State × call.Result)
  | .setRoute chatID threadID conversationID => written (s.setRoute chatID threadID conversationID)
  | .route chatID threadID => .ok (s, s.topicRoutes.route (chatID, threadID))
  | .routeForConversation conversationID => .ok (s, s.topicRoutes.topic conversationID)
  | .reserveClaimAndConsumeToken tokenHash now => .ok (s.reserveClaimAndConsumeToken tokenHash now)
  | .issueCallbackToken conversationID tokenHash now => written (s.issueCallbackToken conversationID tokenHash now)
  | .insertPendingExecution conversationID displayName => s.insertPendingExecution conversationID displayName
  | .claimExecution conversationID => .ok (s, s.claimExecution conversationID)
  | .incompleteClaimExecutionsAfter after limit => .ok (s, s.claimExecutionsAfter false after limit)
  | .completedClaimExecutionsAfter after limit => .ok (s, s.claimExecutionsAfter true after limit)
  | .persistClaimDisplayName conversationID displayName =>
    .ok (s.persistClaimDisplayName conversationID displayName, ())
  | .beginClaimCreating conversationID allowedUserID => s.beginClaimCreating conversationID allowedUserID
  | .clearClaimCreating conversationID => written (s.clearClaimCreating conversationID)
  | .persistClaimThread conversationID chatID threadID => written (s.persistClaimThread conversationID chatID threadID)
  | .persistClaimRoute chatID threadID conversationID => written (s.persistClaimRoute chatID threadID conversationID)
  | .adoptExistingRoute conversationID allowedUserID => s.adoptExistingRoute conversationID allowedUserID
  | .persistClaimAdoptReserved conversationID => written (s.persistClaimAdoptReserved conversationID)
  | .markClaimComplete conversationID => .ok (s.markClaimComplete conversationID, ())
  | .cursor name => .ok (s, s.cursor name)
  | .setCursor name after => .ok (s.setCursor name after, ())
  | .processed updateID => .ok (s, s.processed updateID)
  | .markProcessed updateID => .ok (s.markProcessed updateID, ())
  | .markProcessedTerminalInbound updateID conversationID =>
    written (s.markProcessedTerminalInbound updateID conversationID)
  | .markProcessedInboundRecovery updateID conversationID =>
    written (s.markProcessedInboundRecovery updateID conversationID)
  | .stageTerminalOutbound deliveryID conversationID failureClass =>
    written (s.stageTerminalOutbound deliveryID conversationID failureClass)
  | .finalizeTerminalOutbound deliveryID => written (s.finalizeTerminalOutbound deliveryID)
  | .recoverTerminalOutbound conversationID => written (s.recoverTerminalOutbound conversationID)
  | .recordOutbound chatID messageID conversationID punaroMessageID fromEndpoint now =>
    written (s.recordOutbound chatID messageID conversationID punaroMessageID fromEndpoint now)

/-- A method of the state; a refused one changes nothing. -/
def State.perform (s : State) (call : StateCall) : State × Except Failure call.Result :=
  match s.run call with
  | .ok (s', a) => (s', .ok a)
  | .error e => (s, .error e)

/-! ## Calls -/

/-- A claim as the relay answers it; `status` is `none` for any other text. -/
structure ClaimReply where
  conversationID : String
  status : Option ClaimStatus
  displayName : String

structure UnclaimedTopic where
  id : String
  displayName : String

structure InlineKeyboardButton where
  text : String
  callbackData : String

structure Update where
  id : Int
  userID : Int
  chatID : Int
  threadID : Int
  text : String
  callbackID : String
  callbackData : String
  replyToID : Int
  isCommand : Bool
  command : String

structure Submission where
  updateID : Int
  conversationID : String
  text : String
  chatID : Int
  threadID : Int
  replyToID : Int

/-- A call. `createForumTopic` names the conversation it is for, which the Bot API is not told; `drawToken` is a
fresh random token. -/
inductive Call where
  | state (call : StateCall)
  | claimConversation (conversationID idempotencyKey : String)
  | completeTelegramClaim (conversationID : String)
  | pendingTelegramClaims (limit : Nat) (after : String)
  | createForumTopic (conversationID : String) (chatID : Int) (name : String)
  | now
  | drawToken
  | advertise (endpoints : List String)
  | lease (endpoint : String)
  | ack (delivery : Delivery)
  | updates (offset : Int)
  | submit (submission : Submission)
  | listUnclaimed
  | sendMessage (chatID : Int) (text : String) (keyboard : List (List InlineKeyboardButton))
  | answerCallbackQuery (callbackID text : String)
  | sendRichMessage (chatID threadID : Int) (html : String)

abbrev Call.Reply : Call → Type
  | .state call => Except Failure call.Result
  | .claimConversation .. => Except Failure ClaimReply
  | .completeTelegramClaim _ => Except Failure ClaimReply
  | .pendingTelegramClaims .. => Except Failure (List ClaimReply)
  | .createForumTopic .. => Except Failure Int
  | .now => Int
  | .drawToken => Except Failure String
  | .lease _ => Except Failure (List Delivery)
  | .updates _ => Except Failure (List Update)
  | .listUnclaimed => Except Failure (List UnclaimedTopic)
  | .sendRichMessage .. => Except Failure Int
  | _ => Except Failure Unit

/-- The state, with the calls made and their replies. -/
abbrev GatewayState := State × List ((call : Call) × call.Reply)

/-- What is left open about the answer to a call: whether a method of the state fails, and what all others answer. -/
structure Reaction where
  fault : Option Failure
  reply : (call : Call) → call.Reply

/-- The answer to a call. -/
def State.answer (o : Reaction) (s : State) : (call : Call) → State × call.Reply
  | .state call =>
    match o.fault with
    | some e => (s, .error e)
    | none => s.perform call
  | call => (s, o.reply call)

abbrev Program := Prog Call Call.Reply Failure

open Prog

/-- A result, or the end of the program. -/
def orFail {α : Type} : Except Failure α → Program α
  | .ok a => .done a
  | .error e => .fail e

/-- A method of the state whose error ends the program. -/
def ask (call : StateCall) : Program call.Result := perform (.state call) >>= orFail

/-- The program ends with an error. -/
def refuse {α : Type} (text : String) : Program α := .fail (.message text)

end Punaro.Telegram
