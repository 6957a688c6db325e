import Mathlib.Data.List.Sort
import Punaro.Relay.State

/-!
# Request digests

A retry key is bound to the digest of its request: the parts joined by a NUL
character, hashed (`stableHash` and its callers in `internal/relay`).
-/

namespace Punaro

variable (E : Env)

def stableHash (parts : List String) : String := E.sha256Hex ("\x00".intercalate parts)

/-- `fmt.Sprintf("%d", …)` of a capability set. -/
def Capability.digits (capabilities : Capability) : String := toString capabilities.toNat

def ControlOperation.name : ControlOperation → String
  | .upsertMember => "upsert_member"
  | .removeMember => "remove_member"

def memberIdentity (member : Member) : String :=
  if member.role != "" then roleRecipient member.role else "endpoint:" ++ member.endpoint

/-- The order in which `createConversationHash` sorts members, by the given identity and then by
capabilities. -/
def memberLE (identity : Member → String) (left right : Member) : Bool :=
  if identity left == identity right then left.capabilities.toNat ≤ right.capabilities.toNat
  else identity left < identity right

def createConversationHash (creatorEndpoint : String) (members : List Member) : String :=
  if members.all fun m => m.role == "" then
    let normalized := members.insertionSort fun l r => memberLE Member.endpoint l r
    stableHash E (creatorEndpoint :: normalized.flatMap fun m => [m.endpoint, m.capabilities.digits])
  else
    let normalized := members.insertionSort fun l r => memberLE memberIdentity l r
    stableHash E (creatorEndpoint ::
      normalized.flatMap fun m => [memberIdentity m, m.roleMachineID, m.capabilities.digits])

/-- The store refuses a project, so the digest never takes one in. -/
def createConversationRequestHash (creatorEndpoint : String) (members : List Member)
    (displayName : String) : String :=
  let digest := createConversationHash E creatorEndpoint members
  if displayName != "" then stableHash E [digest, displayName] else digest

/-- The store refuses artifacts, so the digest never takes them in. -/
def appendHash (conversationID fromEndpoint targetRole body : String) : String :=
  stableHash E ([conversationID, fromEndpoint, body] ++
    if targetRole != "" then ["target-role:" ++ targetRole] else [])

def controlHash (conversationID actorEndpoint : String) (operation : ControlOperation)
    (memberEndpoint : String) (capabilities : Capability) : String :=
  stableHash E [conversationID, actorEndpoint, operation.name, memberEndpoint, capabilities.digits]

def displayNameRequestHash (conversationID actorEndpoint displayName : String) : String :=
  stableHash E [conversationID, actorEndpoint, displayName]

def directMessageRequestHash (fromRole toRole body : String) : String :=
  stableHash E [fromRole, toRole, body]

def registerRoleRequestHash (role displayName : String) (directAddressable : Bool) : String :=
  stableHash E [role, displayName, if directAddressable then "1" else "0"]

def telegramClaimRequestHash (conversationID : String) : String := E.sha256Hex conversationID

end Punaro
