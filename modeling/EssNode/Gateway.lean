import Mathlib.Algebra.BigOperators.Ring.Finset
import Mathlib.Data.Rat.Floor
import EssNode.Lib.FinMap
import EssNode.Lib.TokenBucket

/-!
# The Gateway's Rate Limiter

The gateway limits each peer with a token bucket, made when the peer first asks. The
limiter is one table of buckets, and a request touches only the bucket of its peer, so
for each peer a run of the limiter is a run of one token bucket on the requests of that
peer (`bucketOf_after`, `admitted_requestsOf`). A bucket that is not there yet counts as
full since the beginning, since a full bucket stays full.

What holds of token buckets then holds of every peer, however the requests of the others
lie between (`allow_conforms`). The answer to a refused request says how long to wait;
rounded up to whole seconds this is exact, because the clock has only whole seconds.

Tokens are floating point numbers in the code and rational numbers here. The clock is
read once in every call.
-/

namespace EssNode

open List

namespace Gateway

open Admission TokenBucket

/-- The answer to a request; what is not set is zero or empty. -/
structure GatewayRateLimitDecision where
  allowed : Bool := false
  remaining : UInt32 := 0
  retryAfterSecs : UInt64 := 0
  reason : String := ""
deriving DecidableEq, Repr

/-- How much a peer may ask for. -/
structure GatewayRateLimitConfig where
  maxRequestsPerMinute : UInt32 := 120
  burst : UInt32 := 30
deriving DecidableEq, Repr

/-- A peer's tokens, and when they were last counted. -/
structure GatewayTokenBucket where
  tokens : ℚ
  lastRefillSecs : UInt64
deriving DecidableEq, Repr

/-- The limiter: one bucket for each peer that has asked. -/
structure GatewayRateLimiter where
  config : GatewayRateLimitConfig
  buckets : FinMap String GatewayTokenBucket

/-- A whole number as 32 bits; the cast stops at the ends. -/
def asU32 (z : ℤ) : UInt32 := UInt32.ofNat (min z.toNat (2 ^ 32 - 1))

/-- A whole number as 64 bits; the cast stops at the ends. -/
def asU64 (z : ℤ) : UInt64 := UInt64.ofNat (min z.toNat (2 ^ 64 - 1))

/-- The whole seconds until tokens that are missing have flowed in. Without a rate the
    quotient is infinite, and the cast gives the largest number. -/
def secondsUntil (missing refillRate : ℚ) : UInt64 :=
  if refillRate = 0 then asU64 (2 ^ 64 - 1) else asU64 ⌈missing / refillRate⌉

namespace GatewayRateLimiter

def new (config : GatewayRateLimitConfig) : GatewayRateLimiter := ⟨config, ∅⟩

/-- Ask for a request of some weight. -/
def allow (self : GatewayRateLimiter) (now : UInt64) (peerId : String) (weight : UInt32) :
    GatewayRateLimiter × GatewayRateLimitDecision :=
  let refillRate : ℚ := self.config.maxRequestsPerMinute.toNat / 60
  let burst : ℚ := self.config.burst.toNat
  let bucket := self.buckets[peerId]?.getD ⟨burst, now⟩
  -- The difference stops at zero if the clock ran backwards.
  let elapsed : ℚ := (now.toNat - bucket.lastRefillSecs.toNat : ℕ)
  let tokens := min (bucket.tokens + elapsed * refillRate) burst
  if (weight.toNat : ℚ) ≤ tokens then
    let tokens := tokens - weight.toNat
    ({ self with buckets := self.buckets.insert peerId ⟨tokens, now⟩ },
      { allowed := true, remaining := asU32 ⌊tokens⌋ })
  else
    ({ self with buckets := self.buckets.insert peerId ⟨tokens, now⟩ },
      { allowed := false
        retryAfterSecs := secondsUntil (weight.toNat - tokens) refillRate
        reason := "rate_limit_exceeded" })

/-- Ask for one request, as the handler of gateway requests does. -/
def checkGatewayRateLimit (self : GatewayRateLimiter) (now : UInt64) (peer : String) :
    GatewayRateLimiter × GatewayRateLimitDecision :=
  self.allow now peer 1

end GatewayRateLimiter

/-- A call of the limiter: the reading of the clock, the peer and the weight. -/
structure GatewayCall where
  now : UInt64
  peer : String
  weight : UInt32
deriving DecidableEq, Repr

/-- The limiter as a machine. -/
def gatewayMachine : Machine GatewayRateLimiter GatewayCall GatewayRateLimitDecision where
  handle self c := self.allow c.now c.peer c.weight
  admits decision := decision.allowed

namespace GatewayCall

def InOrder (calls : List GatewayCall) : Prop := calls.Pairwise fun c c' => c.now ≤ c'.now

instance (calls : List GatewayCall) : Decidable (InOrder calls) :=
  inferInstanceAs (Decidable (List.Pairwise _ _))

def request (c : GatewayCall) : Request ℚ := ⟨c.now.toNat, c.weight.toNat⟩

/-- What the calls of a peer weigh together, at times in a span, both ends included. -/
def weightIn (peer : String) (first last : ℚ) (calls : List GatewayCall) : ℕ :=
  ((calls.filter fun c => decide (c.peer = peer ∧ first ≤ c.now.toNat ∧ c.now.toNat ≤ last)).map
    fun c => c.weight.toNat).sum

end GatewayCall

def requestsOf (peer : String) (calls : List GatewayCall) : List (Request ℚ) :=
  (calls.filter fun c => decide (c.peer = peer)).map GatewayCall.request

def GatewayRateLimitConfig.limits (config : GatewayRateLimitConfig) : Config ℚ :=
  ⟨config.maxRequestsPerMinute.toNat / 60, config.burst.toNat⟩

/-- The bucket of a peer. One that is not there counts as full from the beginning. -/
def GatewayRateLimiter.bucketOf (self : GatewayRateLimiter) (peer : String) : Bucket ℚ :=
  match self.buckets[peer]? with
  | none => self.config.limits.full 0
  | some bucket => ⟨bucket.tokens, bucket.lastRefillSecs.toNat⟩

variable (config : GatewayRateLimitConfig)

theorem limits_rate_nonneg : 0 ≤ config.limits.rate :=
  div_nonneg (Nat.cast_nonneg _) (by norm_num)

theorem limits_rate_pos {config : GatewayRateLimitConfig}
    (hrate : 0 < config.maxRequestsPerMinute) : 0 < config.limits.rate := by
  have hpos : (0 : ℚ) < config.maxRequestsPerMinute.toNat := by
    exact_mod_cast UInt32.lt_iff_toNat_lt.mp hrate
  exact div_pos hpos (by norm_num)

theorem limits_burst_nonneg : 0 ≤ config.limits.burst :=
  Nat.cast_nonneg _

/-! ### One call -/

section OneCall

variable {self : GatewayRateLimiter} {now : UInt64} {peer : String} (c : GatewayCall)

theorem refilled_eq_fill (hnow : (self.bucketOf peer).filled ≤ now.toNat) :
    let bucket := self.buckets[peer]?.getD ⟨self.config.burst.toNat, now⟩
    min (bucket.tokens + ((now.toNat - bucket.lastRefillSecs.toNat : ℕ) : ℚ)
        * (self.config.maxRequestsPerMinute.toNat / 60)) self.config.burst.toNat
      = self.config.limits.fill (self.bucketOf peer) now.toNat := by
  unfold GatewayRateLimiter.bucketOf at hnow ⊢
  cases hbucket : self.buckets[peer]? with
  | none =>
    -- A new bucket is full, and so is one that was never used.
    rw [fill_full (limits_rate_nonneg _) (Nat.cast_nonneg _)]
    simp [GatewayRateLimitConfig.limits]
  | some bucket =>
    rw [hbucket] at hnow
    have hle : bucket.lastRefillSecs.toNat ≤ now.toNat := Nat.cast_le.mp hnow
    dsimp only [Option.getD_some]
    rw [Nat.cast_sub hle]
    rfl

theorem allow_eq (hnow : (self.bucketOf peer).filled ≤ now.toNat) (weight : UInt32) :
    let tokens := self.config.limits.fill (self.bucketOf peer) now.toNat
    self.allow now peer weight
      = if (weight.toNat : ℚ) ≤ tokens then
          ({ self with buckets := self.buckets.insert peer ⟨tokens - weight.toNat, now⟩ },
            { allowed := true, remaining := asU32 ⌊tokens - weight.toNat⌋ })
        else
          ({ self with buckets := self.buckets.insert peer ⟨tokens, now⟩ },
            { allowed := false
              retryAfterSecs := secondsUntil (weight.toNat - tokens) self.config.limits.rate
              reason := "rate_limit_exceeded" }) := by
  dsimp only
  rw [← refilled_eq_fill hnow]
  rfl

theorem bucketOf_insert (peer' : String) (bucket : GatewayTokenBucket) :
    ({ self with buckets := self.buckets.insert peer bucket } : GatewayRateLimiter).bucketOf peer'
      = if peer = peer' then ⟨bucket.tokens, bucket.lastRefillSecs.toNat⟩
        else self.bucketOf peer' := by
  unfold GatewayRateLimiter.bucketOf
  dsimp only
  rw [FinMap.find_insert]
  by_cases hpeer : peer = peer'
  · rw [if_pos hpeer, if_pos hpeer]
  · rw [if_neg hpeer, if_neg hpeer]

theorem bucketOf_allow (hnow : (self.bucketOf c.peer).filled ≤ c.now.toNat) (peer : String) :
    (gatewayMachine.handle self c).1.bucketOf peer
      = if c.peer = peer then (self.config.limits.draw (self.bucketOf c.peer) c.request).1
        else self.bucketOf peer := by
  have hallow : gatewayMachine.handle self c = self.allow c.now c.peer c.weight := rfl
  rw [hallow, allow_eq hnow]
  unfold Config.draw GatewayCall.request
  dsimp only
  split
  · rw [bucketOf_insert]
  · rw [bucketOf_insert]

theorem allowed_allow (hnow : (self.bucketOf c.peer).filled ≤ c.now.toNat) :
    (gatewayMachine.handle self c).2.allowed
      = (self.config.limits.draw (self.bucketOf c.peer) c.request).2 := by
  have hallow : gatewayMachine.handle self c = self.allow c.now c.peer c.weight := rfl
  rw [hallow, allow_eq hnow]
  unfold Config.draw GatewayCall.request
  dsimp only
  split
  · rfl
  · rfl

theorem retryAfterSecs_refused (hnow : (self.bucketOf c.peer).filled ≤ c.now.toNat)
    (hrefused : (self.config.limits.draw (self.bucketOf c.peer) c.request).2 = false) :
    (gatewayMachine.handle self c).2.retryAfterSecs
      = secondsUntil
          (c.weight.toNat - (self.config.limits.draw (self.bucketOf c.peer) c.request).1.tokens)
          self.config.limits.rate := by
  obtain ⟨hbucket, hfew⟩ := draw_refused hrefused
  have hallow : gatewayMachine.handle self c = self.allow c.now c.peer c.weight := rfl
  have hcount : ¬ (c.weight.toNat : ℚ)
      ≤ self.config.limits.fill (self.bucketOf c.peer) c.now.toNat := not_le.mpr hfew
  rw [hallow, allow_eq hnow, hbucket, if_neg hcount]
  rfl

theorem config_allow : (gatewayMachine.handle self c).1.config = self.config := by
  change (self.allow c.now c.peer c.weight).1.config = self.config
  unfold GatewayRateLimiter.allow
  dsimp only
  split
  · rfl
  · rfl

end OneCall

/-! ### The run of one peer -/

section Runs

variable {config : GatewayRateLimitConfig} {calls : List GatewayCall}

theorem requestsOf_append (peer : String) (calls calls' : List GatewayCall) :
    requestsOf peer (calls ++ calls') = requestsOf peer calls ++ requestsOf peer calls' := by
  unfold requestsOf
  rw [filter_append, map_append]

theorem requestsOf_singleton (peer : String) (c : GatewayCall) :
    requestsOf peer [c] = if c.peer = peer then [c.request] else [] := by
  unfold requestsOf
  by_cases hpeer : c.peer = peer
  · simp [hpeer]
  · simp [hpeer]

theorem requestsOf_last {before between : List GatewayCall} {c : GatewayCall}
    (hbetween : ∀ a ∈ between, a.peer ≠ c.peer) :
    requestsOf c.peer (before ++ c :: between) = requestsOf c.peer before ++ [c.request] := by
  have hnone : requestsOf c.peer between = [] := by
    unfold requestsOf
    rw [filter_eq_nil_iff.mpr fun a ha => by simpa using hbetween a ha]
    rfl
  rw [show before ++ c :: between = before ++ [c] ++ between by simp, requestsOf_append,
    requestsOf_append, requestsOf_singleton, if_pos rfl, hnone, append_nil]

theorem requestsOf_proper (hclock : GatewayCall.InOrder calls) (peer : String) :
    Proper 0 (requestsOf peer calls) where
  ordered := by
    refine pairwise_cons.mpr ⟨fun t ht => ?_, ?_⟩
    · obtain ⟨r, hr, rfl⟩ := mem_map.mp ht
      obtain ⟨c, -, rfl⟩ := mem_map.mp hr
      exact Nat.cast_nonneg _
    · unfold requestsOf
      rw [map_map, pairwise_map]
      refine (hclock.sublist filter_sublist).imp fun hle => ?_
      exact Nat.cast_le.mpr (UInt64.le_iff_toNat_le.mp hle)
  nonneg r hr := by
    obtain ⟨c, -, rfl⟩ := mem_map.mp hr
    exact Nat.cast_nonneg _

theorem config_after (config : GatewayRateLimitConfig) (calls : List GatewayCall) :
    (gatewayMachine.after (.new config) calls).config = config := by
  refine gatewayMachine.run_induction (P := fun _ s _ => s.config = config) calls rfl ?_
  intro before c _ hbefore
  exact (config_allow c).trans hbefore

theorem filled_le_of_agrees {c : GatewayCall} (hclock : GatewayCall.InOrder (calls ++ [c]))
    (hagrees : (gatewayMachine.after (.new config) calls).bucketOf c.peer
      = config.limits.machine.after (config.limits.full 0) (requestsOf c.peer calls)) :
    ((gatewayMachine.after (.new config) calls).bucketOf c.peer).filled ≤ c.now.toNat := by
  have hproper := requestsOf_proper hclock c.peer
  rw [requestsOf_append, requestsOf_singleton, if_pos rfl] at hproper
  rw [hagrees]
  exact filled_le_now hproper

/-- For each peer, the limiter is a token bucket that takes the requests of that peer. -/
theorem bucketOf_after (config : GatewayRateLimitConfig) (hclock : GatewayCall.InOrder calls)
    (peer : String) :
    (gatewayMachine.after (.new config) calls).bucketOf peer
      = config.limits.machine.after (config.limits.full 0) (requestsOf peer calls) := by
  induction calls using reverseRecOn generalizing peer with
  | nil =>
    show (GatewayRateLimiter.new config).bucketOf peer = config.limits.full 0
    unfold GatewayRateLimiter.bucketOf GatewayRateLimiter.new
    rw [Std.ExtTreeMap.getElem?_empty]
  | append_singleton calls c ih =>
    have hbefore := ih (pairwise_append.mp hclock).1
    have hnow := filled_le_of_agrees hclock (hbefore c.peer)
    rw [Machine.after_concat, bucketOf_allow c hnow, config_after, requestsOf_append,
      requestsOf_singleton]
    by_cases hpeer : c.peer = peer
    · rw [if_pos hpeer, if_pos hpeer, Machine.after_concat, ← hpeer, hbefore]
      rfl
    · rw [if_neg hpeer, if_neg hpeer, append_nil, hbefore]

theorem filled_le_now_after (config : GatewayRateLimitConfig) {c : GatewayCall}
    (hclock : GatewayCall.InOrder (calls ++ [c])) :
    ((gatewayMachine.after (.new config) calls).bucketOf c.peer).filled ≤ c.now.toNat :=
  filled_le_of_agrees hclock (bucketOf_after config (pairwise_append.mp hclock).1 c.peer)

theorem allowed_after (config : GatewayRateLimitConfig) {c : GatewayCall}
    (hclock : GatewayCall.InOrder (calls ++ [c])) :
    (gatewayMachine.handle (gatewayMachine.after (.new config) calls) c).2.allowed
      = (config.limits.draw
          (config.limits.machine.after (config.limits.full 0) (requestsOf c.peer calls))
          c.request).2 := by
  rw [allowed_allow c (filled_le_now_after config hclock), config_after,
    bucketOf_after config (pairwise_append.mp hclock).1]

theorem admitted_requestsOf (config : GatewayRateLimitConfig) (hclock : GatewayCall.InOrder calls)
    (peer : String) :
    requestsOf peer (gatewayMachine.admitted (.new config) calls)
      = config.limits.machine.admitted (config.limits.full 0) (requestsOf peer calls) := by
  induction calls using reverseRecOn with
  | nil => rfl
  | append_singleton calls c ih =>
    have hbefore := ih (pairwise_append.mp hclock).1
    have hanswer := allowed_after config hclock
    rw [Machine.admitted_concat, requestsOf_append, requestsOf_append, requestsOf_singleton,
      hbefore]
    by_cases hpeer : c.peer = peer
    · subst hpeer
      rw [if_pos rfl, Machine.admitted_concat]
      refine congrArg (List.append _) ?_
      by_cases hallowed : gatewayMachine.Admits (gatewayMachine.after (.new config) calls) c
      · rw [if_pos hallowed, requestsOf_singleton, if_pos rfl]
        exact (if_pos (hanswer.symm.trans hallowed)).symm
      · rw [if_neg hallowed]
        exact (if_neg fun hgranted => hallowed (hanswer.trans hgranted)).symm
    · rw [if_neg hpeer, append_nil]
      split
      · rw [requestsOf_singleton, if_neg hpeer, append_nil]
      · exact append_nil _

end Runs

/-! ### The limits -/

theorem cast_weightIn (peer : String) (first last : ℚ) (calls : List GatewayCall) :
    (GatewayCall.weightIn peer first last calls : ℚ)
      = spent first last (requestsOf peer calls) := by
  unfold GatewayCall.weightIn spent requestsOf
  rw [filter_map, filter_filter, map_map, Nat.cast_list_sum, map_map]
  refine congrArg sum (congrArg₂ map rfl (filter_congr fun c _ => ?_))
  rw [Function.comp_apply, Bool.and_comm, ← Bool.decide_and]
  rfl

theorem toNat_asU64 {z : ℤ} (hz : z.toNat < 2 ^ 64) : (asU64 z).toNat = z.toNat := by
  unfold asU64
  rw [Nat.min_eq_left (Nat.le_sub_one_of_lt hz), UInt64.toNat_ofNat', Nat.mod_eq_of_lt hz]

/-- The waiting time is exact for the whole seconds of the clock, and fits its type. -/
theorem secondsUntil_le_iff {maxPerMinute : UInt32} (hrate : 0 < maxPerMinute) (weight : UInt32)
    {tokens : ℚ} (hnonneg : 0 ≤ tokens) (secs : ℕ) :
    (secondsUntil (weight.toNat - tokens) (maxPerMinute.toNat / 60)).toNat ≤ secs ↔
      (weight.toNat - tokens) / (maxPerMinute.toNat / 60 : ℚ) ≤ secs := by
  have hone : (1 : ℚ) ≤ maxPerMinute.toNat := by
    exact_mod_cast UInt32.lt_iff_toNat_lt.mp hrate
  have hpos : (0 : ℚ) < maxPerMinute.toNat / 60 := by positivity
  -- At least a token a minute, so the longest wait is a minute for each unit of weight.
  have hfits : ⌈(weight.toNat - tokens) / (maxPerMinute.toNat / 60 : ℚ)⌉.toNat < 2 ^ 64 := by
    have hweight : (weight.toNat : ℚ) < 2 ^ 32 := by exact_mod_cast weight.toNat_lt
    have hceil : ⌈(weight.toNat - tokens) / (maxPerMinute.toNat / 60 : ℚ)⌉ ≤ 60 * 2 ^ 32 := by
      refine Int.ceil_le.mpr ((div_le_iff₀ hpos).mpr ?_)
      push_cast
      nlinarith
    omega
  rw [secondsUntil, if_neg hpos.ne', toNat_asU64 hfits, Int.toNat_le, Int.ceil_le]
  rw [Int.cast_natCast]

theorem tokens_within {calls : List GatewayCall} (hclock : GatewayCall.InOrder calls)
    (peer : String) :
    Within config.limits ((gatewayMachine.after (.new config) calls).bucketOf peer) := by
  rw [bucketOf_after config hclock]
  exact (conforms_after (limits_rate_nonneg _) (limits_burst_nonneg _) (le_refl 0)
    (requestsOf_proper hclock peer)).within

/-- A request that was refused, though the bucket could hold its weight, and is the next of
    its peer when it comes again: it is allowed exactly if the time it was told has
    passed. -/
theorem allowed_again_iff {config : GatewayRateLimitConfig}
    (hrate : 0 < config.maxRequestsPerMinute) {before between : List GatewayCall}
    {c c' : GatewayCall} (hclock : GatewayCall.InOrder (before ++ c :: between ++ [c']))
    (hweight : c.weight ≤ config.burst)
    (hrefused : (gatewayMachine.handle (gatewayMachine.after (.new config) before) c).2.allowed
      = false)
    (hbetween : ∀ a ∈ between, a.peer ≠ c.peer) (hpeer : c'.peer = c.peer)
    (hsame : c'.weight = c.weight) :
    (gatewayMachine.handle
        (gatewayMachine.after (.new config) (before ++ c :: between)) c').2.allowed = true ↔
      c.now.toNat + (gatewayMachine.handle
        (gatewayMachine.after (.new config) before) c).2.retryAfterSecs.toNat ≤ c'.now.toNat := by
  have hall : before ++ c :: between ++ [c'] = before ++ [c] ++ (between ++ [c']) := by simp
  have hfirst : GatewayCall.InOrder (before ++ [c]) :=
    (hall ▸ hclock).sublist (sublist_append_left _ _)
  have hnow := filled_le_now_after config hfirst
  have hbucket := bucketOf_after config (pairwise_append.mp hfirst).1 c.peer
  have hwithin := (tokens_within config hfirst c.peer).nonneg
  -- Between the two requests the bucket of the peer is left alone.
  have hrequests : requestsOf c'.peer (before ++ c :: between)
      = requestsOf c.peer before ++ [c.request] := by
    rw [hpeer]
    exact requestsOf_last hbetween
  rw [Machine.after_concat, bucketOf_allow c hnow, if_pos rfl, config_after, hbucket] at hwithin
  rw [allowed_allow c hnow, config_after, hbucket] at hrefused
  have hretry := retryAfterSecs_refused c hnow
    (by rw [config_after, hbucket]; exact hrefused)
  rw [config_after, hbucket] at hretry
  have hle : c.now ≤ c'.now := (pairwise_append.mp hclock).2.2 c (by simp) c' (by simp)
  have hlater := UInt64.le_iff_toNat_le.mp hle
  have hburst : c.request.weight ≤ config.limits.burst :=
    Nat.cast_le.mpr (UInt32.le_iff_toNat_le.mp hweight)
  have hagain := draw_after_iff (limits_rate_pos hrate) hburst hrefused c'.now.toNat
  have hwait : (c'.now.toNat : ℚ) - c.now.toNat = (c'.now.toNat - c.now.toNat : ℕ) := by
    rw [Nat.cast_sub hlater]
  have hrequest : c'.request = ⟨c'.now.toNat, c.request.weight⟩ := by
    unfold GatewayCall.request
    rw [hsame]
  rw [allowed_after config hclock, hrequests, Machine.after_concat, hrequest]
  refine hagain.trans ?_
  rw [hretry]
  have hexact := (secondsUntil_le_iff hrate c.weight hwithin
    (c'.now.toNat - c.now.toNat)).symm
  rw [← hwait] at hexact
  refine hexact.trans ?_
  exact Nat.le_sub_iff_add_le' hlater

/-- The limits of every run of a new limiter that lets peers ask at all, if the clock does
    not run backwards. The tokens of a peer are between none and the burst. What is allowed
    to a peer in a span of time weighs at most the burst and what flows in during the span.
    A request that weighs no more than the burst and is refused is allowed, when its peer
    asks the next time, exactly if the seconds it was told have passed. -/
theorem allow_conforms (config : GatewayRateLimitConfig)
    (hrate : 0 < config.maxRequestsPerMinute) (calls : List GatewayCall)
    (hclock : GatewayCall.InOrder calls) :
    (∀ before, before <+: calls → ∀ (peer : String) (bucket : GatewayTokenBucket),
      (gatewayMachine.after (.new config) before).buckets[peer]? = some bucket →
        0 ≤ bucket.tokens ∧ bucket.tokens ≤ config.burst.toNat) ∧
    (∀ (peer : String) (first last : ℚ), first ≤ last →
      (GatewayCall.weightIn peer first last (gatewayMachine.admitted (.new config) calls) : ℚ)
        ≤ config.burst.toNat + config.maxRequestsPerMinute.toNat / 60 * (last - first)) ∧
    ∀ before c between c' rest, calls = before ++ c :: between ++ c' :: rest →
      c.weight ≤ config.burst → (∀ a ∈ between, a.peer ≠ c.peer) →
      c'.peer = c.peer → c'.weight = c.weight →
      ∀ decision,
        ((gatewayMachine.after (.new config) before).allow c.now c.peer c.weight).2 = decision →
        decision.allowed = false →
        (((gatewayMachine.after (.new config) (before ++ c :: between)).allow
            c'.now c'.peer c'.weight).2.allowed = true ↔
          c.now.toNat + decision.retryAfterSecs.toNat ≤ c'.now.toNat) := by
  refine ⟨fun before hbefore peer bucket hbucket => ?_, fun peer first last hspan => ?_, ?_⟩
  · have hwithin := tokens_within config (hclock.sublist hbefore.sublist) peer
    unfold GatewayRateLimiter.bucketOf at hwithin
    rw [hbucket] at hwithin
    exact ⟨hwithin.nonneg, hwithin.le_burst⟩
  · rw [cast_weightIn, admitted_requestsOf config hclock]
    exact spent_le (limits_rate_nonneg config) (limits_burst_nonneg config) hspan
      (requestsOf_proper hclock peer)
  · rintro before c between c' rest rfl hweight hbetween hpeer hsame decision rfl hrefused
    have hinitial : GatewayCall.InOrder (before ++ c :: between ++ [c']) := by
      refine hclock.sublist ?_
      rw [show before ++ c :: between ++ c' :: rest
        = before ++ c :: between ++ [c'] ++ rest by simp]
      exact sublist_append_left _ _
    exact allowed_again_iff hrate hinitial hweight hrefused hbetween hpeer hsame

def gatewayCallAt (now : UInt64) : GatewayCall := ⟨now, "peer-a", 1⟩

/-- One request at once and ten in a minute: the second is told to wait six seconds, is
    refused after five and allowed after six. -/
theorem second_request_waits :
    let limiter := gatewayMachine.after (.new ⟨10, 1⟩) [gatewayCallAt 1000]
    (limiter.allow 1000 "peer-a" 1).2 = ⟨false, 0, 6, "rate_limit_exceeded"⟩ ∧
      ((limiter.allow 1000 "peer-a" 1).1.allow 1005 "peer-a" 1).2.allowed = false ∧
      ((limiter.allow 1000 "peer-a" 1).1.allow 1006 "peer-a" 1).2.allowed = true := by
  intro limiter
  have hanswer : (limiter.allow 1000 "peer-a" 1).2 = ⟨false, 0, 6, "rate_limit_exceeded"⟩ := by
    decide +kernel
  have hearly := (allow_conforms ⟨10, 1⟩ (by decide)
    [gatewayCallAt 1000, gatewayCallAt 1000, gatewayCallAt 1005] (by decide)).2.2
      [gatewayCallAt 1000] (gatewayCallAt 1000) [] (gatewayCallAt 1005) [] rfl (by decide)
      (by simp) rfl rfl _ hanswer rfl
  have hlate := (allow_conforms ⟨10, 1⟩ (by decide)
    [gatewayCallAt 1000, gatewayCallAt 1000, gatewayCallAt 1006] (by decide)).2.2
      [gatewayCallAt 1000] (gatewayCallAt 1000) [] (gatewayCallAt 1006) [] rfl (by decide)
      (by simp) rfl rfl _ hanswer rfl
  refine ⟨hanswer, Bool.eq_false_iff.mpr fun hallowed => ?_, hlate.mpr (by decide)⟩
  exact absurd (hearly.mp hallowed) (by decide)

end Gateway

end EssNode
