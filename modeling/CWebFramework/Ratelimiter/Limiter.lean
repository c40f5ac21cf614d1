import CWebFramework.Misc.Bytes

/-!
# The rate limiter

`ratelimiter.c`: a bucket of tokens for each address.  A call of
`ratelimiter_allow` removes buckets that have not been used for a while, finds
or makes the bucket of the address, refills it and takes the tokens.  The calls
are taken one after the other, each with the value of the clock.
-/

namespace CWebFramework.Ratelimiter

def second : Nat := 1000000000

/-- `ratelimiter_config_t`. The field `time_window_ns` is not read. -/
structure Config where
  maxTokens : UInt32
  refillRate : UInt32
  cleanupIntervalS : UInt32
  deriving DecidableEq, Repr

structure Bucket where
  tokens : Nat
  lastRefillNs : Nat
  lastAccessNs : Nat
  deriving DecidableEq, Repr

structure Limiter where
  config : Config
  buckets : Nat → Option Bucket
  lastCleanupNs : Nat

/-- The difference of two values of type `uint64_t`. -/
def elapsed (now before : Nat) : Nat := (now + 2 ^ 64 - before) % 2 ^ 64

def bucketCreate (now initialTokens : Nat) : Bucket where
  tokens := initialTokens
  lastRefillNs := now
  lastAccessNs := now

def tokensToAdd (config : Config) (now : Nat) (bucket : Bucket) : Nat :=
  elapsed now bucket.lastRefillNs * config.refillRate.toNat % 2 ^ 64 / second

def bucketRefill (config : Config) (now : Nat) (bucket : Bucket) : Bucket :=
  if 0 < tokensToAdd config now bucket then
    let newTokens := (bucket.tokens + tokensToAdd config now bucket % 2 ^ 32) % 2 ^ 32
    { bucket with
      tokens :=
        if config.maxTokens.toNat < newTokens then config.maxTokens.toNat
        else newTokens
      lastRefillNs := now }
  else bucket

variable {now : Nat}

theorem bucketRefill_of_pos {config : Config} {bucket : Bucket}
    (gains : 0 < tokensToAdd config now bucket) :
    bucketRefill config now bucket =
      { bucket with
        tokens :=
          if config.maxTokens.toNat < (bucket.tokens + tokensToAdd config now bucket % 2 ^ 32) %
                2 ^ 32 then
            config.maxTokens.toNat
          else
            (bucket.tokens + tokensToAdd config now bucket % 2 ^ 32) % 2 ^ 32
        lastRefillNs := now } :=
  if_pos gains

theorem bucketRefill_of_not_pos {config : Config} {bucket : Bucket}
    (gains : ¬ 0 < tokensToAdd config now bucket) :
    bucketRefill config now bucket = bucket :=
  if_neg gains

def Config.cleanupIntervalNs (config : Config) : Nat := config.cleanupIntervalS.toNat * second

def cleanupOldBuckets (now : Nat) (limiter : Limiter) : Limiter :=
  if elapsed now limiter.lastCleanupNs < limiter.config.cleanupIntervalNs then
    limiter
  else
    { limiter with
      buckets := fun ip => (limiter.buckets ip).filter fun bucket =>
        ! decide (limiter.config.cleanupIntervalNs < elapsed now bucket.lastAccessNs)
      lastCleanupNs := now }

theorem cleanupOldBuckets_recent {limiter : Limiter} (recent : elapsed now limiter.lastCleanupNs <
      limiter.config.cleanupIntervalNs) :
    cleanupOldBuckets now limiter = limiter :=
  if_pos recent

theorem cleanupOldBuckets_due {limiter : Limiter} (due : ¬ elapsed now limiter.lastCleanupNs <
      limiter.config.cleanupIntervalNs) :
    cleanupOldBuckets now limiter =
      { limiter with
        buckets := fun ip => (limiter.buckets ip).filter fun bucket =>
          ! decide (limiter.config.cleanupIntervalNs < elapsed now bucket.lastAccessNs)
        lastCleanupNs := now } :=
  if_neg due

theorem cleanupOldBuckets_config (now : Nat) (limiter : Limiter) :
    (cleanupOldBuckets now limiter).config = limiter.config := by
  by_cases recent : elapsed now limiter.lastCleanupNs < limiter.config.cleanupIntervalNs
  · rw [cleanupOldBuckets_recent recent]
  · rw [cleanupOldBuckets_due recent]

def ratelimiterInit (now : Nat) (config : Config) : Limiter where
  config := config
  buckets _ := none
  lastCleanupNs := now

def Limiter.set (limiter : Limiter) (ip : Nat) (bucket : Bucket) : Limiter :=
  { limiter with
    buckets := fun other =>
      if other = ip then some bucket else limiter.buckets other }

def findOrCreateBucket (now : Nat) (limiter : Limiter) (ip : Nat) : Bucket :=
  (limiter.buckets ip).getD (bucketCreate now limiter.config.maxTokens.toNat)

/-- A call of `ratelimiter_allow`. -/
structure Call where
  now : Nat
  ip : Nat
  tokensRequired : Nat
  deriving DecidableEq, Repr

def ratelimiterAllow (limiter : Limiter) (call : Call) : Limiter × Bool :=
  let cleaned := cleanupOldBuckets call.now limiter
  if cleaned.config.refillRate = 0 then (cleaned, true)
  else
    let refilled := bucketRefill cleaned.config call.now
      (findOrCreateBucket call.now cleaned call.ip)
    let bucket := { refilled with lastAccessNs := call.now }
    if call.tokensRequired ≤ bucket.tokens then
      (cleaned.set call.ip
        { bucket with tokens := bucket.tokens - call.tokensRequired }, true)
    else (cleaned.set call.ip bucket, false)

def allowedCalls (limiter : Limiter) : List Call → List Call
  | [] => []
  | call :: rest =>
    let answer := ratelimiterAllow limiter call
    if answer.2 then call :: allowedCalls answer.1 rest
    else allowedCalls answer.1 rest

def Call.counts (ip start length : Nat) (call : Call) : Bool :=
  decide (call.ip = ip ∧ start ≤ call.now ∧ call.now ≤ start + length)

def granted (ip start length : Nat) (limiter : Limiter) (calls : List Call) :
    Nat :=
  (((allowedCalls limiter calls).filter (·.counts ip start length)).map (·.tokensRequired)).sum

end CWebFramework.Ratelimiter
