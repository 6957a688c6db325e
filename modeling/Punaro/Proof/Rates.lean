import Punaro.Relay.Rate

/-!
# Waiting for a token

A refused request is told how many seconds to wait (`DecideRateLimit`). A refill adds
the tokens of the whole periods that have passed (`refillBucket_eq`). A bucket that is
empty after it was refilled with nothing, and it has a token when the period has passed
(`tokens_of_wait`); a bucket that has a token keeps one (`tokens_later`). The announced
wait is that of the slower bucket, rounded up: if it was not cut off at its bound, a
request that waits for it is accepted.

The stored number of tokens is never negative: the table has a check on it.
-/

namespace Punaro

open Outcome

/-- How many periods a refill adds. -/
def refilled (b : RateBucket) (now every : Int) : Int :=
  if now < b.updatedAt then 0 else timeSub now b.updatedAt / every

section

variable {cfg : RateLimitConfig} {b sender conversation : RateBucket} {now t burst every : Int}

/-- A period is positive and at most a minute. -/
theorem refillPeriod_bounds {perMinute : ℕ} (h : perMinute ≤ 10000) :
    0 < refillPeriod perMinute ∧ refillPeriod perMinute ≤ 60000000000 := by
  have hpos : (0 : Int) < (max perMinute 1 : ℕ) := by omega
  have hone : (1 : Int) * (max perMinute 1 : ℕ) ≤ 60000000000 := by omega
  unfold refillPeriod
  exact ⟨Int.le_ediv_of_mul_le hpos hone, Int.ediv_le_self _ (by decide)⟩

theorem refilled_nonneg (hevery : 0 < every) : 0 ≤ refilled b now every := by
  unfold refilled
  split
  · exact le_rfl
  · refine Int.ediv_nonneg ?_ (by omega)
    unfold timeSub maxDuration
    omega

theorem refilled_mono (hevery : 0 < every) (hle : now ≤ t) : refilled b now every ≤ refilled b t every := by
  by_cases hpast : now < b.updatedAt
  · rw [refilled, if_pos hpast]
    exact refilled_nonneg hevery
  · rw [refilled, if_neg hpast, refilled, if_neg (by omega)]
    refine Int.ediv_le_ediv hevery ?_
    unfold timeSub
    omega

/-- A bucket that has been used is refilled with the periods that have passed. -/
theorem refillBucket_eq (hused : b.updatedAt ≠ zeroTime) (hevery : 0 < every) :
    refillBucket b now burst every =
      ⟨min (b.tokens + refilled b now every) burst, b.updatedAt + refilled b now every * every⟩ := by
  have hnonneg : 0 ≤ refilled b now every := refilled_nonneg hevery
  unfold refillBucket
  rw [if_neg hused]
  unfold refilled at hnonneg ⊢
  split
  · rw [Int.add_zero, Int.zero_mul, Int.add_zero]
  · rename_i hpast
    rw [if_neg hpast] at hnonneg
    by_cases hadded : 0 < timeSub now b.updatedAt / every
    · exact if_pos hadded
    · have hnone : timeSub now b.updatedAt / every = 0 := by omega
      simp [hnone]

/-- An empty bucket has a token when it has been waited for. -/
theorem tokens_of_wait (hburst : 1 ≤ burst) (htokens : 0 ≤ b.tokens) (hevery : 0 < every)
    (hbound : every ≤ 60000000000) (hempty : (refillBucket b now burst every).tokens < 1)
    (hshort : bucketWait (refillBucket b now burst every) now every < maxDuration)
    (ht : now + bucketWait (refillBucket b now burst every) now every ≤ t) :
    1 ≤ (refillBucket b t burst every).tokens := by
  by_cases hused : b.updatedAt = zeroTime
  · rw [refillBucket, if_pos hused] at hempty ⊢
    exact hburst
  rw [refillBucket_eq hused hevery] at hempty hshort ht ⊢
  change min (b.tokens + refilled b now every) burst < 1 at hempty
  have hnone : refilled b now every = 0 := by
    have hnonneg : 0 ≤ refilled b now every := refilled_nonneg hevery
    omega
  -- The wait lasts until a period after the bucket was last refilled.
  have hready : b.updatedAt + every ≤ t := by
    unfold bucketWait timeSub at hshort ht
    rw [hnone] at hshort ht
    dsimp only at hshort ht
    omega
  have hadded : 1 ≤ refilled b t every := by
    rw [refilled, if_neg (by omega)]
    refine Int.le_ediv_of_mul_le hevery ?_
    unfold timeSub maxDuration
    omega
  show 1 ≤ min (b.tokens + refilled b t every) burst
  omega

/-- A bucket that has a token keeps one. -/
theorem tokens_later (hburst : 1 ≤ burst) (hevery : 0 < every) (hle : now ≤ t)
    (h : 1 ≤ (refillBucket b now burst every).tokens) : 1 ≤ (refillBucket b t burst every).tokens := by
  by_cases hused : b.updatedAt = zeroTime
  · rw [refillBucket, if_pos hused]
    exact hburst
  rw [refillBucket_eq hused hevery] at h ⊢
  change 1 ≤ min (b.tokens + refilled b now every) burst at h
  have hmore : refilled b now every ≤ refilled b t every := refilled_mono hevery hle
  show 1 ≤ min (b.tokens + refilled b t every) burst
  omega

/-- Once an empty bucket has been waited for, there is a token, whether it is empty or not. -/
theorem tokens_after {wait : Int} (hburst : 1 ≤ burst) (htokens : 0 ≤ b.tokens) (hevery : 0 < every)
    (hbound : every ≤ 60000000000) (hnonneg : 0 ≤ wait) (hshort : wait < maxDuration)
    (hwait : (refillBucket b now burst every).tokens < 1 →
      bucketWait (refillBucket b now burst every) now every ≤ wait)
    (ht : now + wait ≤ t) : 1 ≤ (refillBucket b t burst every).tokens := by
  by_cases hempty : (refillBucket b now burst every).tokens < 1
  · have hle := hwait hempty
    exact tokens_of_wait hburst htokens hevery hbound hempty (by omega) (by omega)
  · exact tokens_later hburst hevery (by omega) (not_lt.1 hempty)

/-! ## The decision -/

/-- A bucket as the decision sees it. -/
def senderAt (cfg : RateLimitConfig) (b : RateBucket) (now : Int) : RateBucket :=
  refillBucket b (truncateMilli now) cfg.senderBurst (refillPeriod cfg.senderRefillPerMinute)

/-- A bucket as the decision sees it. -/
def conversationAt (cfg : RateLimitConfig) (b : RateBucket) (now : Int) : RateBucket :=
  refillBucket b (truncateMilli now) cfg.conversationBurst (refillPeriod cfg.conversationRefillPerMinute)

theorem decideRateLimit_eq : decideRateLimit cfg sender conversation now =
    let s := senderAt cfg sender now
    let c := conversationAt cfg conversation now
    if s.tokens < 1 ∨ c.tokens < 1 then
      ⟨false, boundRetryAfter (max
        (if s.tokens < 1 then bucketWait s (truncateMilli now) (refillPeriod cfg.senderRefillPerMinute) else 0)
        (if c.tokens < 1 then bucketWait c (truncateMilli now) (refillPeriod cfg.conversationRefillPerMinute) else 0))
        cfg.retryAfterMaxSeconds, s, c⟩
    else ⟨true, 0, { s with tokens := s.tokens - 1 }, { c with tokens := c.tokens - 1 }⟩ := rfl

theorem allowed_iff : (decideRateLimit cfg sender conversation now).allowed = true ↔
    1 ≤ (senderAt cfg sender now).tokens ∧ 1 ≤ (conversationAt cfg conversation now).tokens := by
  rw [decideRateLimit_eq]
  dsimp only
  split
  · simp only [Bool.false_eq_true, false_iff]
    omega
  · simp only [true_iff]
    omega

/-- A refused request is told the wait of the slower bucket. -/
theorem refused_wait (h : (decideRateLimit cfg sender conversation now).allowed = false) : ∃ wait, 0 ≤ wait ∧
    (decideRateLimit cfg sender conversation now).retryAfterSeconds = boundRetryAfter wait cfg.retryAfterMaxSeconds ∧
    ((senderAt cfg sender now).tokens < 1 → bucketWait (senderAt cfg sender now) (truncateMilli now)
      (refillPeriod cfg.senderRefillPerMinute) ≤ wait) ∧
    ((conversationAt cfg conversation now).tokens < 1 → bucketWait (conversationAt cfg conversation now)
      (truncateMilli now) (refillPeriod cfg.conversationRefillPerMinute) ≤ wait) := by
  rw [decideRateLimit_eq] at h ⊢
  dsimp only at h ⊢
  split at h
  · rename_i hempty
    rw [if_pos hempty]
    refine ⟨_, ?_, rfl, ?_, ?_⟩
    · unfold bucketWait
      split <;> split <;> omega
    · intro hsender
      rw [if_pos hsender]
      exact le_max_left _ _
    · intro hconversation
      rw [if_pos hconversation]
      exact le_max_right _ _
  · cases h

/-- A wait that is not cut off is covered by the announced seconds. -/
theorem wait_le_boundRetryAfter {wait : Int} {maxSeconds : ℕ}
    (h : boundRetryAfter wait maxSeconds < maxSeconds) : wait ≤ boundRetryAfter wait maxSeconds * 1000000000 := by
  unfold boundRetryAfter at h ⊢
  omega

theorem validate_bounds (h : cfg.validate = .ok ()) : 1 ≤ cfg.senderBurst ∧ 1 ≤ cfg.conversationBurst ∧
    cfg.senderRefillPerMinute ≤ 10000 ∧ cfg.conversationRefillPerMinute ≤ 10000 ∧
      cfg.retryAfterMaxSeconds ≤ 3600 := by
  simp only [RateLimitConfig.validate, boundedInt, ok_rules] at h
  obtain ⟨-, hsender, -, hsenderRefill, -, hconversation, -, hconversationRefill, hseconds⟩ := h
  omega

/-- **The announced wait is sufficient.** A refused request whose wait was not cut off at the bound is
accepted when the announced seconds have passed, or at any later instant. -/
theorem retryAfter_sufficient (cfg : RateLimitConfig) (hcfg : cfg.validate = .ok ()) (sender conversation : RateBucket)
    (hsender : 0 ≤ sender.tokens) (hconversation : 0 ≤ conversation.tokens) (now t : Int)
    (hrefused : (decideRateLimit cfg sender conversation now).allowed = false)
    (hbound : (decideRateLimit cfg sender conversation now).retryAfterSeconds < cfg.retryAfterMaxSeconds)
    (ht : now + (decideRateLimit cfg sender conversation now).retryAfterSeconds * 1000000000 ≤ t) :
    (decideRateLimit cfg sender conversation t).allowed = true := by
  obtain ⟨hsenderBurst, hconversationBurst, hsenderRefill, hconversationRefill, hseconds⟩ := validate_bounds hcfg
  obtain ⟨hpos, hle⟩ := refillPeriod_bounds hsenderRefill
  obtain ⟨hpos', hle'⟩ := refillPeriod_bounds hconversationRefill
  obtain ⟨wait, hnonneg, hannounced, hwait, hwait'⟩ := refused_wait hrefused
  rw [hannounced] at hbound ht
  have hcovered := wait_le_boundRetryAfter hbound
  have hshort : wait < maxDuration := by
    unfold maxDuration
    omega
  -- Whole seconds pass the truncation to milliseconds.
  have hlater : truncateMilli now + wait ≤ truncateMilli t := by
    unfold truncateMilli unixMilli
    omega
  exact allowed_iff.2 ⟨tokens_after (by omega) hsender hpos hle hnonneg hshort hwait hlater,
    tokens_after (by omega) hconversation hpos' hle' hnonneg hshort hwait' hlater⟩

/-- An empty bucket of the default policy, refilled every second, is waited for. -/
theorem retryAfter_sufficient_default :
    (decideRateLimit .default ⟨0, 0⟩ ⟨120, 0⟩ 300000000).allowed = false ∧
      (decideRateLimit .default ⟨0, 0⟩ ⟨120, 0⟩ 300000000).retryAfterSeconds = 1 ∧
      (decideRateLimit .default ⟨0, 0⟩ ⟨120, 0⟩ 1300000000).allowed = true :=
  ⟨by decide, by decide, retryAfter_sufficient .default (by decide) ⟨0, 0⟩ ⟨120, 0⟩ (by decide) (by decide)
    300000000 1300000000 (by decide) (by decide) (by decide)⟩

end

end Punaro
