import Punaro.Relay.State

/-!
# Rate limits

Every accepted message takes one token from the sender's bucket and one from the
conversation's (`internal/relay/rate_limit.go`). A bucket refills one token per
period and never holds more than its burst. Buckets live in memory with nanosecond
instants and are stored in whole milliseconds.
-/

namespace Punaro

open Outcome

/-- `rateLimitConfig`: the zero policy stands for the default. -/
def Store.rateLimitConfig (s : Store) : RateLimitConfig :=
  if s.rateLimits = ⟨0, 0, 0, 0, 0⟩ then .default else s.rateLimits

structure RateBucket where
  tokens : Int
  updatedAt : Int
deriving DecidableEq

/-- The largest `time.Duration`, at which `time.Time.Sub` saturates. -/
def maxDuration : Int := 2 ^ 63 - 1

/-- `time.Time.Sub`. -/
def timeSub (t u : Int) : Int := max (min (t - u) maxDuration) (-maxDuration - 1)

/-- `time.Minute / time.Duration(tokensPerMinute)`. -/
def refillPeriod (tokensPerMinute : Nat) : Int := 60000000000 / (max tokensPerMinute 1 : Nat)

def refillBucket (bucket : RateBucket) (now burst every : Int) : RateBucket :=
  if bucket.updatedAt = zeroTime then ⟨burst, now⟩
  else if now < bucket.updatedAt then ⟨min bucket.tokens burst, bucket.updatedAt⟩
  else
    let added := timeSub now bucket.updatedAt / every
    if 0 < added then ⟨min (bucket.tokens + added) burst, bucket.updatedAt + added * every⟩
    else ⟨min bucket.tokens burst, bucket.updatedAt⟩

def bucketWait (bucket : RateBucket) (now every : Int) : Int :=
  max (timeSub (bucket.updatedAt + every) now) 0

/-- The wait in whole seconds, rounded up and bounded. -/
def boundRetryAfter (wait : Int) (maxSeconds : Nat) : Int :=
  min (max ((wait + 999999999) / 1000000000) 1) (max maxSeconds 1 : Nat)

structure RateLimitDecision where
  allowed : Bool
  retryAfterSeconds : Int
  sender : RateBucket
  conversation : RateBucket
deriving DecidableEq

def decideRateLimit (cfg : RateLimitConfig) (sender conversation : RateBucket) (now : Int) :
    RateLimitDecision :=
  let now := truncateMilli now
  let senderRefill := refillPeriod cfg.senderRefillPerMinute
  let conversationRefill := refillPeriod cfg.conversationRefillPerMinute
  let sender := refillBucket sender now cfg.senderBurst senderRefill
  let conversation := refillBucket conversation now cfg.conversationBurst conversationRefill
  if sender.tokens < 1 ∨ conversation.tokens < 1 then
    let wait := max (if sender.tokens < 1 then bucketWait sender now senderRefill else 0)
      (if conversation.tokens < 1 then bucketWait conversation now conversationRefill else 0)
    ⟨false, boundRetryAfter wait cfg.retryAfterMaxSeconds, sender, conversation⟩
  else
    ⟨true, 0, { sender with tokens := sender.tokens - 1 },
      { conversation with tokens := conversation.tokens - 1 }⟩

abbrev RateBuckets := Table (RateKind × String) RateBucketRow

/-- The bucket at a key, full when it is new. -/
def loadRateBucket (t : RateBuckets) (kind : RateKind) (key : String) (now : Int) (burst : Nat) :
    RateBuckets × RateBucket :=
  let t := t.insertOrIgnore (kind, key) ⟨burst, unixMilli (truncateMilli now)⟩
  let row := (t.find? (kind, key)).getD ⟨burst, unixMilli (truncateMilli now)⟩
  (t, ⟨row.tokens, fromMillis row.updatedAt⟩)

def saveRateBucket (t : RateBuckets) (kind : RateKind) (key : String) (bucket : RateBucket) :
    RateBuckets :=
  t.updateAt (kind, key) fun _ => ⟨bucket.tokens, unixMilli (truncateMilli bucket.updatedAt)⟩

def consumeRateLimits (cfg : RateLimitConfig) (t : RateBuckets) (senderMachineID conversationID : String)
    (now : Int) : Except Err RateBuckets := do
  let (t, sender) := loadRateBucket t .sender senderMachineID now cfg.senderBurst
  let (t, conversation) := loadRateBucket t .conversation conversationID now cfg.conversationBurst
  let decision := decideRateLimit cfg sender conversation now
  require decision.allowed (.rateLimited decision.retryAfterSeconds)
  return saveRateBucket (saveRateBucket t .sender senderMachineID decision.sender)
    .conversation conversationID decision.conversation

end Punaro
