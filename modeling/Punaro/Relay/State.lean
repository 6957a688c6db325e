import Punaro.Lib.Table
import Punaro.Lib.Outcome
import Punaro.Relay.Text

/-!
# The relay store

The durable state of the relay (`internal/relay/store.go`): one table for each
SQLite table, under the table's key, grouped by what it is about.

* `Presence`: which machine holds which endpoint, which role is bound to which session.
* `Rooms`: conversations, their members, their Telegram claims.
* `Mail`: messages, deliveries, cursors, terminal records and the pending-quota counters.
* `Journal`: the retry keys and the audit records.

A column that may be `NULL` is an `Option`. Foreign keys are not stored: no
operation deletes a row that another one refers to.
-/

namespace Punaro

open Outcome

/-- What an operation can be refused with. `message` is a plain error text, `wrapped` a
`fmt.Errorf("…: %w", err)`, `constraint` a statement the schema refuses, `noRows` an empty result. -/
inductive Err where
  | forbidden
  | conflict
  | rateLimited (retryAfterSeconds : Int)
  | capacityExceeded (retryAfterSeconds : Nat)
  | quotaInconsistent
  | constraint
  | noRows
  | message (text : String)
  | wrapped (context : String) (cause : Err)
deriving DecidableEq

/-- `errors.Is`: the error, or one that it wraps. -/
def Err.is : Err → Err → Bool
  | .wrapped context cause, target => .wrapped context cause == target || cause.is target
  | e, target => e == target

/-! ## Capabilities -/

/-- The bit set of rights a member holds in a conversation. -/
abbrev Capability := UInt8

def capSend : Capability := 1
def capReceive : Capability := 2
def capAdmin : Capability := 4
def capInvoke : Capability := 8

/-- `capabilities & mask != 0`. -/
def Capability.has (capabilities mask : Capability) : Bool := capabilities &&& mask != 0

theorem Capability.has_or (a b mask : Capability) :
    Capability.has (a ||| b) mask = (Capability.has a mask || Capability.has b mask) := by
  have h : (a ||| b) &&& mask = (a &&& mask) ||| (b &&& mask) := by
    apply UInt8.eq_of_toBitVec_eq
    simp [BitVec.and_or_distrib_right]
  rw [Capability.has, h, Bool.eq_iff_iff]
  simp [Capability.has, UInt8.or_eq_zero_iff]
  tauto

def telegramGatewayCapabilities : Capability := capSend ||| capReceive

def validCapabilities (capabilities : Capability) : Bool :=
  capabilities != 0 && capabilities &&& ~~~(capSend ||| capReceive ||| capAdmin ||| capInvoke) == 0

/-! ## Policies -/

/-- Every bound of a policy is checked under its own name (`boundedRateInt`, `boundedQuotaInt64`). -/
def boundedInt (name : String) (value minimum maximum : Nat) : Except Err Unit :=
  require (minimum ≤ value ∧ value ≤ maximum) (.message ("relay " ++ name ++
    " must be an integer between " ++ toString minimum ++ " and " ++ toString maximum))

structure RateLimitConfig where
  senderBurst : Nat
  senderRefillPerMinute : Nat
  conversationBurst : Nat
  conversationRefillPerMinute : Nat
  retryAfterMaxSeconds : Nat
deriving DecidableEq

def RateLimitConfig.default : RateLimitConfig := ⟨60, 60, 120, 120, 60⟩

def RateLimitConfig.validate (c : RateLimitConfig) : Except Err Unit := do
  boundedInt "sender burst" c.senderBurst 1 10000
  boundedInt "sender refill per minute" c.senderRefillPerMinute 1 10000
  boundedInt "conversation burst" c.conversationBurst 1 10000
  boundedInt "conversation refill per minute" c.conversationRefillPerMinute 1 10000
  boundedInt "retry-after max seconds" c.retryAfterMaxSeconds 1 3600

structure QuotaConfig where
  recipientCount : Nat
  recipientBytes : Nat
  installationCount : Nat
  installationBytes : Nat
  retryAfterSeconds : Nat
deriving DecidableEq

def QuotaConfig.default : QuotaConfig := ⟨10000, 32 * 2 ^ 20, 100000, 256 * 2 ^ 20, 60⟩

def QuotaConfig.validate (c : QuotaConfig) : Except Err Unit := do
  boundedInt "pending recipient count" c.recipientCount 1 10000000
  boundedInt "pending recipient bytes" c.recipientBytes 1 (64 * 2 ^ 30)
  boundedInt "pending installation count" c.installationCount 1 10000000
  boundedInt "pending installation bytes" c.installationBytes 1 (64 * 2 ^ 30)
  boundedInt "pending retry-after seconds" c.retryAfterSeconds 1 3600

structure RetentionConfig where
  pendingMaxAgeSeconds : Nat
  terminalRetentionSeconds : Nat
  maintenanceBatch : Nat
deriving DecidableEq

def RetentionConfig.default : RetentionConfig := ⟨7 * 24 * 60 * 60, 30 * 24 * 60 * 60, 100⟩

def RetentionConfig.validate (c : RetentionConfig) : Except Err Unit := do
  boundedInt "pending max age seconds" c.pendingMaxAgeSeconds 1 (365 * 24 * 60 * 60)
  boundedInt "terminal retention seconds" c.terminalRetentionSeconds 1 (365 * 24 * 60 * 60)
  boundedInt "delivery maintenance batch" c.maintenanceBatch 1 1000

/-! ## Rows -/

structure EndpointRow where
  machineID : String
  leaseUntil : Int
  ownershipGeneration : Nat
  consumerID : Option String
  consumerGeneration : Nat
  consumerLeaseUntil : Option Int
deriving DecidableEq

structure RoleBindingRow where
  sessionEndpoint : String
  machineID : String
  ownershipGeneration : Nat
  leaseUntil : Int
deriving DecidableEq

structure RoleProfileRow where
  displayName : Option String
  directAddressable : Bool
  updatedAt : Int
deriving DecidableEq

structure ConversationRow where
  nextSequence : Nat
  createdAt : Int
  displayName : Option String
deriving DecidableEq

inductive ClaimStatus where
  | pending
  | complete
deriving DecidableEq

structure TelegramClaimRow where
  status : ClaimStatus
  requestedByMachine : String
  requestedByEndpoint : String
  idempotencyKey : String
  requestHash : String
  createdAt : Int
  completedAt : Option Int
deriving DecidableEq

/-- The only event recorded is `complete`. -/
structure TelegramClaimEventRow where
  conversationID : String
  actorMachine : String
  actorEndpoint : String
  createdAt : Int
deriving DecidableEq

structure DirectConversationRow where
  conversationID : String
  createdAt : Int
deriving DecidableEq

structure MessageRow where
  conversationID : String
  sequence : Nat
  fromEndpoint : String
  body : String
  createdAt : Int
  fromParticipant : Option String
  inReplyToMessageID : Option String
  inReplyToEndpoint : Option String
  telegramThreadID : Option Int
deriving DecidableEq

structure DeliveryRow where
  messageID : String
  recipientEndpoint : String
  leaseMachineID : Option String
  leaseToken : Option String
  leaseGeneration : Nat
  ownershipGeneration : Option Nat
  consumerGeneration : Option Nat
  leaseUntil : Option Int
  ackedAt : Option Int
deriving DecidableEq

inductive ClosedReason where
  | acked
  | expired
  | revoked
deriving DecidableEq

structure TerminalRow where
  messageID : String
  conversationID : String
  recipientEndpoint : String
  sequence : Nat
  closedReason : ClosedReason
  leaseGeneration : Nat
  createdAt : Int
  closedAt : Int
deriving DecidableEq

/-- One explicit pending count and byte pair. -/
@[ext] structure QuotaCounters where
  count : Nat
  bytes : Nat
deriving DecidableEq

inductive RateKind where
  | sender
  | conversation
deriving DecidableEq

/-- A stored token bucket; `updatedAt` is in milliseconds. -/
structure RateBucketRow where
  tokens : Int
  updatedAt : Int
deriving DecidableEq

inductive ControlOperation where
  | upsertMember
  | removeMember
deriving DecidableEq

/-- A conversation member as a request names it: an endpoint, or a role with its machine. -/
structure Member where
  endpoint : String
  role : String
  roleMachineID : String
  capabilities : Capability
deriving DecidableEq

structure ControlRow where
  conversationID : String
  actorEndpoint : String
  operation : ControlOperation
  memberEndpoint : String
  memberCapabilities : Capability
  createdAt : Int
deriving DecidableEq

/-- A retry key bound to the digest of its request and to the identifier `target` it produced. -/
structure RetryRow where
  requestHash : String
  target : String
  createdAt : Int
deriving DecidableEq

structure RoleProfileRetryRow where
  requestHash : String
  role : String
  displayName : Option String
  directAddressable : Bool
  updatedAt : Int
  createdAt : Int
deriving DecidableEq

structure DirectMessageRetryRow where
  requestHash : String
  fromRole : String
  toRole : String
  conversationID : String
  messageID : String
  sequence : Nat
  createdAt : Int
deriving DecidableEq

/-! ## Tables -/

structure Presence where
  endpoints : Table String EndpointRow
  roles : Table String String
  roleBindings : Table String RoleBindingRow
  roleProfiles : Table String RoleProfileRow

/-- Memberships are keyed by the conversation and the member. -/
structure Rooms where
  conversations : Table String ConversationRow
  memberships : Table (String × String) Capability
  roleMemberships : Table (String × String) Capability
  telegramClaims : Table String TelegramClaimRow
  telegramParticipants : Table String Int
  telegramClaimEvents : Table String TelegramClaimEventRow
  directConversations : Table (String × String) DirectConversationRow

/-- Cursors are keyed by the recipient and the conversation; `pendingQuotaInstall` is the singleton
row of its table. -/
structure Mail where
  messages : Table String MessageRow
  messageFromRoles : Table String String
  deliveries : Table String DeliveryRow
  recipientCursors : Table (String × String) Nat
  deliveryTerminals : Table String TerminalRow
  pendingQuotaRecipients : Table String QuotaCounters
  pendingQuotaInstall : Option QuotaCounters

/-- Retry keys are scoped to a machine. -/
structure Journal where
  roleProfileIdempotency : Table (String × String) RoleProfileRetryRow
  idempotency : Table (String × String) RetryRow
  conversationIdempotency : Table (String × String) RetryRow
  conversationControls : Table String ControlRow
  conversationControlIdempotency : Table (String × String) RetryRow
  conversationDisplayNameIdempotency : Table (String × String) RetryRow
  directMessageIdempotency : Table (String × String) DirectMessageRetryRow
  telegramClaimIdempotency : Table (String × String) RetryRow

/-! ## Invocations -/

inductive InvocationStatus where
  | pending
  | alreadyRunning
  | succeeded
  | failed
deriving DecidableEq

inductive InvocationAction where
  | requested
  | coalesced
  | alreadyRunning
  | leased
  | retry
  | accepted
  | failed
deriving DecidableEq

structure InvocationRow where
  conversationID : String
  fromEndpoint : String
  targetEndpoint : String
  targetMachineID : String
  fence : String
  status : InvocationStatus
  attempts : Nat
  notBefore : Int
  leaseMachineID : Option String
  leaseConsumerID : Option String
  leaseToken : Option String
  leaseGeneration : Nat
  recoveryOnly : Bool
  targetOwnershipGeneration : Nat
  leaseUntil : Option Int
  lastActivityAt : Int
  terminalAt : Option Int
  createdAt : Int
deriving DecidableEq

structure InvocationRetryRow where
  requestHash : String
  invocationID : String
deriving DecidableEq

structure InvocationAuditRow where
  action : InvocationAction
  createdAt : Int
deriving DecidableEq

/-- The lazily created invocation tables; the audit trail is keyed by the invocation and an ordinal. -/
structure Invocations where
  invocations : Table String InvocationRow
  invocationIdempotency : Table (String × String) InvocationRetryRow
  invocationAudit : Table (String × Nat) InvocationAuditRow

/-! ## The store -/

/-- The database and the in-process policies of one `Store`. `invocations` is `none` until
`ensureInvocationSchema` has created the invocation tables. -/
structure Store where
  presence : Presence
  rooms : Rooms
  mail : Mail
  journal : Journal
  requestNonces : Table (String × String) Int
  rateBuckets : Table (RateKind × String) RateBucketRow
  invocations : Option Invocations
  rateLimits : RateLimitConfig
  quota : QuotaConfig
  retention : RetentionConfig

/-- A freshly created database. -/
def Store.empty : Store where
  presence := ⟨.empty, .empty, .empty, .empty⟩
  rooms := ⟨.empty, .empty, .empty, .empty, .empty, .empty, .empty⟩
  mail := ⟨.empty, .empty, .empty, .empty, .empty, .empty, none⟩
  journal := ⟨.empty, .empty, .empty, .empty, .empty, .empty, .empty, .empty⟩
  requestNonces := .empty
  rateBuckets := .empty
  invocations := none
  rateLimits := .default
  quota := .default
  retention := .default

/-- Third-party code the relay calls: the hexadecimal SHA-256 digest of a text, and `uuid.Validate`. -/
structure Env where
  sha256Hex : String → String
  uuidValid : String → Bool

end Punaro
