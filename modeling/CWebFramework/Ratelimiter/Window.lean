import CWebFramework.Ratelimiter.Limiter

/-!
# What is granted in a window

A bucket starts full, and what it gains while it is used is covered by the time
that has passed.  A bucket that is removed and made again starts full as well:
the time in which it was not used has to cover a full bucket.
-/

namespace CWebFramework.Ratelimiter

/-- The part of a token that a bucket has gained since it was refilled, in
units of a token per second and nanosecond. -/
def remainder (config : Config) (bucket : Bucket) : Nat :=
  (bucket.lastAccessNs - bucket.lastRefillNs) * config.refillRate.toNat % 2 ^ 64

/-- A bucket at a value of the clock, and how many tokens were given to its
address since the start of the window. -/
structure Budget (config : Config) (start clock given : Nat) (bucket : Bucket) : Prop where
  refilled : bucket.lastRefillNs ≤ bucket.lastAccessNs
  past : bucket.lastAccessNs ≤ clock
  capped : bucket.tokens ≤ config.maxTokens.toNat
  rest_lt : remainder config bucket < second
  begun : given = 0 ∨ start ≤ bucket.lastAccessNs
  bound : (given + bucket.tokens) * second + remainder config bucket ≤
    config.maxTokens.toNat * second + (second - 1) +
      config.refillRate.toNat * (bucket.lastAccessNs - start)

def Spent (config : Config) (start clock given : Nat) : Option Bucket → Prop
  | some bucket => Budget config start clock given bucket
  | none => given * second ≤ (second - 1) + config.refillRate.toNat * (clock - start)

/-- A full bucket is gained in the time after which a bucket is removed. -/
def Config.Covers (config : Config) : Prop :=
  config.maxTokens.toNat * second ≤ config.refillRate.toNat * (config.cleanupIntervalNs + 1)

instance (config : Config) : Decidable config.Covers := inferInstanceAs (Decidable (_ ≤ _))

section Steps

variable {config : Config} {start clock now given : Nat} {bucket : Bucket}

theorem second_pos : 0 < second := Nat.succ_pos _

theorem elapsed_eq {before : Nat} (ordered : before ≤ now)
    (fits : now < 2 ^ 64) : elapsed now before = now - before := by
  unfold elapsed
  rw [show now + 2 ^ 64 - before = (now - before) + 2 ^ 64 by omega,
    Nat.add_mod_right, Nat.mod_eq_of_lt (by omega)]

theorem Budget.later (budget : Budget config start clock given bucket)
    (ordered : clock ≤ now) : Budget config start now given bucket :=
  { budget with past := budget.past.trans ordered }

theorem Spent.later {found : Option Bucket}
    (spent : Spent config start clock given found) (ordered : clock ≤ now) :
    Spent config start now given found := by
  cases found with
  | none =>
    refine Nat.le_trans spent (Nat.add_le_add_left ?_ _)
    exact Nat.mul_le_mul_left _ (Nat.sub_le_sub_right ordered start)
  | some bucket => exact Budget.later spent ordered

theorem Budget.removed (covers : config.Covers) (budget : Budget config start now given bucket)
    (idle : config.cleanupIntervalNs < now - bucket.lastAccessNs) :
    given * second ≤ (second - 1) + config.refillRate.toNat * (now - start) := by
  rcases budget.begun with isZero | begun
  · rw [isZero, Nat.zero_mul]
    exact Nat.zero_le _
  · have split : now - start = (now - bucket.lastAccessNs) + (bucket.lastAccessNs - start) := by
      have past := budget.past
      omega
    have gained : config.maxTokens.toNat * second ≤
        config.refillRate.toNat * (now - bucket.lastAccessNs) :=
      Nat.le_trans covers (Nat.mul_le_mul_left _ idle)
    have bound := budget.bound
    rw [Nat.add_mul] at bound
    rw [split, Nat.mul_add]
    omega

theorem cleanup_spent {limiter : Limiter} (covers : limiter.config.Covers) {ip : Nat}
    (spent : Spent limiter.config start clock given (limiter.buckets ip))
    (ordered : clock ≤ now) (fits : now < 2 ^ 64) :
    Spent limiter.config start now given ((cleanupOldBuckets now limiter).buckets ip) := by
  have later := spent.later ordered
  by_cases recent : elapsed now limiter.lastCleanupNs < limiter.config.cleanupIntervalNs
  · rw [cleanupOldBuckets_recent recent]
    exact later
  · rw [cleanupOldBuckets_due recent]
    dsimp only
    cases found : limiter.buckets ip with
    | none =>
      rw [found] at later
      exact later
    | some bucket =>
      rw [found] at later
      have budget : Budget limiter.config start now given bucket := later
      rw [Option.filter_some, elapsed_eq budget.past fits]
      split_ifs with kept
      · exact budget
      · simp only [Bool.not_eq_true', decide_eq_false_iff_not, not_not] at kept
        exact budget.removed covers kept

theorem findOrCreateBucket_budget {limiter : Limiter} {ip : Nat}
    (spent : Spent limiter.config start now given (limiter.buckets ip)) :
    Budget limiter.config start now given (findOrCreateBucket now limiter ip) := by
  unfold findOrCreateBucket
  cases found : limiter.buckets ip with
  | some bucket =>
    rw [found] at spent
    exact spent
  | none =>
    rw [found] at spent
    have bound : given * second ≤ (second - 1) +
      limiter.config.refillRate.toNat * (now - start) := spent
    rw [Option.getD_none]
    have noRest : remainder limiter.config
        (bucketCreate now limiter.config.maxTokens.toNat) = 0 := by
      simp [remainder, bucketCreate]
    refine ⟨Nat.le_refl _, Nat.le_refl _, Nat.le_refl _, ?_, ?_, ?_⟩
    · rw [noRest]
      exact second_pos
    · by_cases ordered : start ≤ now
      · exact .inr ordered
      · rw [Nat.sub_eq_zero_of_le (Nat.le_of_not_le ordered), Nat.mul_zero, Nat.add_zero] at bound
        have short : given * second < 1 * second := by
          have positive := second_pos
          omega
        have isZero := Nat.lt_of_mul_lt_mul_right short
        exact .inl (by omega)
    · rw [noRest, Nat.add_mul]
      change given * second + limiter.config.maxTokens.toNat * second + 0 ≤
        limiter.config.maxTokens.toNat * second + (second - 1) +
          limiter.config.refillRate.toNat * (now - start)
      omega

theorem elapsed_refill (budget : Budget config start now given bucket) (fits : now < 2 ^ 64) :
    elapsed now bucket.lastRefillNs = (bucket.lastAccessNs - bucket.lastRefillNs) +
        (now - bucket.lastAccessNs) := by
  have refilled := budget.refilled
  have past := budget.past
  rw [elapsed_eq (refilled.trans past) fits]
  omega

def gain (config : Config) (now : Nat) (bucket : Bucket) : Nat :=
  elapsed now bucket.lastRefillNs * config.refillRate.toNat % 2 ^ 64

private theorem gain_le (budget : Budget config start now given bucket) (fits : now < 2 ^ 64) :
    gain config now bucket ≤ remainder config bucket +
      config.refillRate.toNat * (now - bucket.lastAccessNs) := by
  unfold gain remainder
  rw [elapsed_refill budget fits, Nat.add_mul, Nat.add_mod, Nat.mul_comm config.refillRate.toNat]
  refine Nat.le_trans (Nat.mod_le _ _) ?_
  exact Nat.add_le_add_left (Nat.mod_le _ _) _

def accessed (config : Config) (now : Nat) (bucket : Bucket) : Bucket :=
  { bucketRefill config now bucket with lastAccessNs := now }

theorem accessed_of_not_pos (fits : now < 2 ^ 64) (budget : Budget config start now given bucket)
    (gains : ¬ 0 < tokensToAdd config now bucket) :
    (accessed config now bucket).tokens = bucket.tokens ∧
      (accessed config now bucket).lastRefillNs = bucket.lastRefillNs ∧
      remainder config (accessed config now bucket) =
        gain config now bucket := by
  have same := bucketRefill_of_not_pos gains
  refine ⟨?_, ?_, ?_⟩
  · rw [accessed, same]
  · rw [accessed, same]
  · rw [accessed, same, remainder, gain, elapsed_eq (budget.refilled.trans budget.past) fits]

theorem accessed_of_pos (gains : 0 < tokensToAdd config now bucket) :
    (accessed config now bucket).tokens ≤ config.maxTokens.toNat ∧
      (accessed config now bucket).tokens ≤ bucket.tokens + tokensToAdd config now bucket ∧
      (accessed config now bucket).lastRefillNs = now ∧
      remainder config (accessed config now bucket) = 0 := by
  have filled := bucketRefill_of_pos gains
  rw [accessed, filled]
  have wrapped : (bucket.tokens + tokensToAdd config now bucket % 2 ^ 32) % 2 ^ 32 ≤
        bucket.tokens + tokensToAdd config now bucket :=
    Nat.le_trans (Nat.mod_le _ _) (Nat.add_le_add_left (Nat.mod_le _ _) _)
  refine ⟨?_, ?_, rfl, ?_⟩
  · dsimp only
    by_cases tooMany : config.maxTokens.toNat <
        (bucket.tokens + tokensToAdd config now bucket % 2 ^ 32) % 2 ^ 32
    · rw [if_pos tooMany]
    · rw [if_neg tooMany]
      exact Nat.le_of_not_lt tooMany
  · dsimp only
    by_cases tooMany : config.maxTokens.toNat <
        (bucket.tokens + tokensToAdd config now bucket % 2 ^ 32) % 2 ^ 32
    · rw [if_pos tooMany]
      exact Nat.le_trans (Nat.le_of_lt tooMany) wrapped
    · rw [if_neg tooMany]
      exact wrapped
  · rw [remainder, Nat.sub_self, Nat.zero_mul, Nat.zero_mod]

theorem accessed_worth (fits : now < 2 ^ 64) (budget : Budget config start now given bucket) :
    (accessed config now bucket).tokens * second + remainder config (accessed config now bucket) ≤
      bucket.tokens * second + gain config now bucket := by
  by_cases gains : 0 < tokensToAdd config now bucket
  · rcases accessed_of_pos gains with ⟨-, added, -, noRest⟩
    rw [noRest, Nat.add_zero]
    calc
      (accessed config now bucket).tokens * second ≤
          (bucket.tokens + gain config now bucket / second) * second :=
        Nat.mul_le_mul_right _ added
      _ = bucket.tokens * second + gain config now bucket / second * second := Nat.add_mul _ _ _
      _ ≤ bucket.tokens * second + gain config now bucket :=
        Nat.add_le_add_left (Nat.div_mul_le_self _ _) _
  · rcases accessed_of_not_pos fits budget gains with ⟨kept, -, rest⟩
    rw [kept, rest]

theorem accessed_rest_lt (fits : now < 2 ^ 64) (budget : Budget config start now given bucket) :
    remainder config (accessed config now bucket) < second := by
  by_cases gains : 0 < tokensToAdd config now bucket
  · rcases accessed_of_pos gains with ⟨-, -, -, noRest⟩
    rw [noRest]
    exact second_pos
  · rcases accessed_of_not_pos fits budget gains with ⟨-, -, rest⟩
    rw [rest]
    have isZero : gain config now bucket / second = 0 := Nat.eq_zero_of_not_pos gains
    exact (Nat.div_eq_zero_iff_lt second_pos).mp isZero

theorem accessed_capped (fits : now < 2 ^ 64) (budget : Budget config start now given bucket) :
    (accessed config now bucket).tokens ≤ config.maxTokens.toNat ∧
      (accessed config now bucket).lastRefillNs ≤ now := by
  by_cases gains : 0 < tokensToAdd config now bucket
  · rcases accessed_of_pos gains with ⟨capped, -, atNow, -⟩
    exact ⟨capped, Nat.le_of_eq atNow⟩
  · rcases accessed_of_not_pos fits budget gains with ⟨kept, same, -⟩
    rw [kept, same]
    exact ⟨budget.capped, budget.refilled.trans budget.past⟩

theorem accessed_budget (fits : now < 2 ^ 64) (budget : Budget config start now given bucket) :
    Budget config start now given (accessed config now bucket) := by
  rcases accessed_capped fits budget with ⟨capped, refilled⟩
  have rest := accessed_rest_lt fits budget
  refine ⟨refilled, Nat.le_refl _, capped, rest, ?_, ?_⟩
  · exact budget.begun.imp_right fun begun => begun.trans budget.past
  · change _ ≤ config.maxTokens.toNat * second + (second - 1) +
      config.refillRate.toNat * (now - start)
    rcases budget.begun with isZero | begun
    · have covered := Nat.mul_le_mul_right second capped
      rw [isZero, Nat.zero_add]
      omega
    · have worth := accessed_worth fits budget
      have gained := gain_le budget fits
      have bound := budget.bound
      have split : now - start = (now - bucket.lastAccessNs) + (bucket.lastAccessNs - start) := by
        have past := budget.past
        omega
      rw [split, Nat.mul_add]
      rw [Nat.add_mul] at bound ⊢
      omega

theorem Budget.take {required : Nat} (budget : Budget config start now given bucket)
    (current : bucket.lastAccessNs = now) (inWindow : start ≤ now)
    (enough : required ≤ bucket.tokens) :
    Budget config start now (given + required)
      { bucket with tokens := bucket.tokens - required } := by
  refine ⟨budget.refilled, budget.past, ?_, budget.rest_lt, .inr ?_, ?_⟩
  · exact Nat.le_trans (Nat.sub_le _ _) budget.capped
  · exact inWindow.trans (Nat.le_of_eq current.symm)
  · have same : given + required + (bucket.tokens - required) = given + bucket.tokens := by
      omega
    change (given + required + (bucket.tokens - required)) * second + remainder config bucket ≤ _
    rw [same]
    exact budget.bound

theorem Budget.drop {required : Nat} (budget : Budget config start now given bucket) :
    Budget config start now given
      { bucket with tokens := bucket.tokens - required } := by
  refine ⟨budget.refilled, budget.past, ?_, budget.rest_lt, budget.begun, ?_⟩
  · exact Nat.le_trans (Nat.sub_le _ _) budget.capped
  · have fewer : (given + (bucket.tokens - required)) * second ≤ (given + bucket.tokens) * second :=
      Nat.mul_le_mul_right _ (Nat.add_le_add_left (Nat.sub_le _ _) _)
    exact Nat.le_trans (Nat.add_le_add_right fewer _) budget.bound

end Steps

section Runs

variable {ip start length given clock : Nat} {limiter : Limiter}

def callBucket (limiter : Limiter) (call : Call) : Bucket :=
  accessed (cleanupOldBuckets call.now limiter).config call.now
    (findOrCreateBucket call.now (cleanupOldBuckets call.now limiter) call.ip)

variable {call : Call}

theorem ratelimiterAllow_enough
    (limited : (cleanupOldBuckets call.now limiter).config.refillRate ≠ 0)
    (enough : call.tokensRequired ≤ (callBucket limiter call).tokens) :
    ratelimiterAllow limiter call = ((cleanupOldBuckets call.now limiter).set call.ip
        { callBucket limiter call with
          tokens := (callBucket limiter call).tokens - call.tokensRequired },
        true) :=
  (if_neg limited).trans (if_pos enough)

theorem ratelimiterAllow_short
    (limited : (cleanupOldBuckets call.now limiter).config.refillRate ≠ 0)
    (short : ¬ call.tokensRequired ≤ (callBucket limiter call).tokens) :
    ratelimiterAllow limiter call = ((cleanupOldBuckets call.now limiter).set call.ip
        (callBucket limiter call), false) :=
  (if_neg limited).trans (if_neg short)

def taken (ip start length : Nat) (limiter : Limiter) (call : Call) : Nat :=
  if (ratelimiterAllow limiter call).2 ∧ call.counts ip start length then
    call.tokensRequired
  else 0

private theorem granted_cons (call : Call) (rest : List Call) :
    granted ip start length limiter (call :: rest) = taken ip start length limiter call +
        granted ip start length (ratelimiterAllow limiter call).1 rest := by
  rw [granted, allowedCalls, taken]
  by_cases allowed : (ratelimiterAllow limiter call).2
  · by_cases counted : call.counts ip start length
    · simp [allowed, counted, granted]
    · simp [allowed, counted, granted]
  · simp [allowed, granted]

private theorem set_self (bucket : Bucket) : (limiter.set ip bucket).buckets ip = some bucket :=
  if_pos rfl

private theorem set_other {other : Nat} (different : ip ≠ other) (bucket : Bucket) :
    (limiter.set other bucket).buckets ip = limiter.buckets ip :=
  if_neg different

private theorem set_config (bucket : Bucket) : (limiter.set ip bucket).config = limiter.config :=
  rfl

private theorem callBucket_budget (covers : limiter.config.Covers)
    (spent : Spent limiter.config start clock given
      (limiter.buckets call.ip)) (ordered : clock ≤ call.now)
    (fits : call.now < 2 ^ 64) :
    Budget limiter.config start call.now given (callBucket limiter call) := by
  have cleaned := cleanup_spent covers spent ordered fits
  have sameConfig := cleanupOldBuckets_config call.now limiter
  have found : Budget (cleanupOldBuckets call.now limiter).config start call.now given
      (findOrCreateBucket call.now (cleanupOldBuckets call.now limiter) call.ip) := by
    apply findOrCreateBucket_budget
    rw [sameConfig]
    exact cleaned
  rw [callBucket, sameConfig]
  rw [sameConfig] at found
  exact accessed_budget fits found

private theorem ratelimiterAllow_config (limited : limiter.config.refillRate ≠ 0) (call : Call) :
    (ratelimiterAllow limiter call).1.config = limiter.config := by
  have sameConfig := cleanupOldBuckets_config call.now limiter
  have limited' : (cleanupOldBuckets call.now limiter).config.refillRate ≠ 0 := by
    rw [sameConfig]
    exact limited
  by_cases enough : call.tokensRequired ≤ (callBucket limiter call).tokens
  · rw [ratelimiterAllow_enough limited' enough]
    exact (set_config _).trans sameConfig
  · rw [ratelimiterAllow_short limited' enough]
    exact (set_config _).trans sameConfig

theorem ratelimiterAllow_spent (limited : limiter.config.refillRate ≠ 0)
    (covers : limiter.config.Covers)
    (spent : Spent limiter.config start clock given (limiter.buckets ip))
    (ordered : clock ≤ call.now) (fits : call.now < 2 ^ 64) :
    Spent limiter.config start call.now (given + taken ip start length limiter call)
      ((ratelimiterAllow limiter call).1.buckets ip) := by
  have limited' : (cleanupOldBuckets call.now limiter).config.refillRate ≠ 0 := by
    rw [cleanupOldBuckets_config]
    exact limited
  by_cases mine : ip = call.ip
  · rw [mine] at spent ⊢
    have budget := callBucket_budget covers spent ordered fits
    by_cases enough : call.tokensRequired ≤ (callBucket limiter call).tokens
    · rw [taken, ratelimiterAllow_enough limited' enough, set_self]
      by_cases counted : call.counts call.ip start length
      · rw [if_pos ⟨rfl, counted⟩]
        have inWindow : start ≤ call.now := (of_decide_eq_true counted).2.1
        exact budget.take rfl inWindow enough
      · rw [if_neg (fun both => counted both.2)]
        exact budget.drop
    · rw [taken, ratelimiterAllow_short limited' enough, set_self,
        if_neg (fun both => Bool.false_ne_true both.1)]
      exact budget
  · have cleaned := cleanup_spent covers spent ordered fits
    have none : taken ip start length limiter call = 0 := by
      apply if_neg
      intro both
      exact mine (of_decide_eq_true both.2).1.symm
    rw [none, Nat.add_zero]
    by_cases enough : call.tokensRequired ≤ (callBucket limiter call).tokens
    · rw [ratelimiterAllow_enough limited' enough, set_other mine]
      exact cleaned
    · rw [ratelimiterAllow_short limited' enough, set_other mine]
      exact cleaned

def Config.allowance (config : Config) (length : Nat) : Nat :=
  config.maxTokens.toNat * second + (second - 1) + config.refillRate.toNat * length

theorem Spent.le_allowance {config : Config} {found : Option Bucket}
    (spent : Spent config start clock given found)
    (inWindow : clock ≤ start + length) :
    given * second ≤ config.allowance length := by
  have short : clock - start ≤ length := by
    omega
  cases found with
  | none =>
    have bound : given * second ≤ (second - 1) + config.refillRate.toNat * (clock - start) := spent
    have more := Nat.mul_le_mul_left config.refillRate.toNat short
    unfold Config.allowance
    omega
  | some bucket =>
    have budget : Budget config start clock given bucket := spent
    have bound := budget.bound
    have past := budget.past
    have more := Nat.mul_le_mul_left config.refillRate.toNat
      (show bucket.lastAccessNs - start ≤ length by omega)
    rw [Nat.add_mul] at bound
    unfold Config.allowance
    omega

private theorem taken_le_allowance (limited : limiter.config.refillRate ≠ 0)
    (covers : limiter.config.Covers)
    (spent : Spent limiter.config start clock given (limiter.buckets ip))
    (ordered : clock ≤ call.now) (fits : call.now < 2 ^ 64)
    (bounded : given * second ≤ limiter.config.allowance length) :
    (given + taken ip start length limiter call) * second ≤
      limiter.config.allowance length := by
  by_cases counted : call.counts ip start length
  · have after : Spent limiter.config start call.now
        (given + taken ip start length limiter call) _ :=
      ratelimiterAllow_spent limited covers spent ordered fits
    exact after.le_allowance (of_decide_eq_true counted).2.2
  · have none : taken ip start length limiter call = 0 := if_neg fun both => counted both.2
    rw [none]
    exact bounded

theorem granted_le_allowance (calls : List Call) (limited : limiter.config.refillRate ≠ 0)
    (covers : limiter.config.Covers)
    (spent : Spent limiter.config start clock given (limiter.buckets ip))
    (ordered : ∀ call ∈ calls, clock ≤ call.now ∧ call.now < 2 ^ 64)
    (sorted : calls.Pairwise fun first later => first.now ≤ later.now)
    (bounded : given * second ≤ limiter.config.allowance length) :
    (given + granted ip start length limiter calls) * second ≤
      limiter.config.allowance length := by
  induction calls generalizing limiter clock given with
  | nil => exact bounded
  | cons call rest ih =>
    rw [List.pairwise_cons] at sorted
    rcases ordered call (List.mem_cons_self ..) with ⟨reached, fits⟩
    have sameConfig := ratelimiterAllow_config limited call
    have after : Spent limiter.config start call.now
        (given + taken ip start length limiter call) _ :=
      ratelimiterAllow_spent limited covers spent reached fits
    have within := taken_le_allowance limited covers spent reached fits bounded
    rw [granted_cons, ← Nat.add_assoc, ← sameConfig]
    rw [← sameConfig] at limited covers after within
    apply ih limited covers after _ sorted.2 within
    intro later mem
    exact ⟨sorted.1 later mem, (ordered later (.tail _ mem)).2⟩

end Runs

/-- An address is granted a full bucket and what is gained in the window, when
the time after which buckets are removed is long enough. -/
theorem granted_le_of_covers (config : Config) (limited : config.refillRate ≠ 0)
    (covers : config.Covers) (started : Nat) (calls : List Call)
    (ordered : ∀ call ∈ calls, started ≤ call.now ∧ call.now < 2 ^ 64)
    (sorted : calls.Pairwise fun first later => first.now ≤ later.now)
    (ip start length : Nat) :
    granted ip start length (ratelimiterInit started config) calls ≤ config.maxTokens.toNat +
        (config.refillRate.toNat * length + (second - 1)) / second := by
  have empty : Spent config start started 0 none := by
    rw [Spent, Nat.zero_mul]
    exact Nat.zero_le _
  have nothing : 0 * second ≤ config.allowance length := by
    rw [Nat.zero_mul]
    exact Nat.zero_le _
  have bound : (0 + granted ip start length (ratelimiterInit started config) calls) * second ≤
        config.allowance length :=
    granted_le_allowance calls limited covers empty ordered sorted nothing
  rw [Nat.zero_add] at bound
  rw [Nat.add_comm, ← Nat.add_mul_div_right _ _ second_pos, Nat.le_div_iff_mul_le second_pos]
  unfold Config.allowance at bound
  omega

theorem granted_le_of_covers_small : granted 1 5 2000000000
        (ratelimiterInit 0 ⟨2, 1, 2⟩) [⟨5, 1, 2⟩, ⟨7, 1, 1⟩] ≤ 4 := by
  have bound := granted_le_of_covers ⟨2, 1, 2⟩ (by decide) (by decide) 0
    [⟨5, 1, 2⟩, ⟨7, 1, 1⟩] (by decide) (by decide) 1 5 2000000000
  exact bound

/-- A bucket that is removed after one second is full again. -/
theorem granted_removed_bucket : ∃ (config : Config) (calls : List Call), config.refillRate ≠ 0 ∧
      (∀ call ∈ calls, 0 ≤ call.now ∧ call.now < 2 ^ 64) ∧
      (calls.Pairwise fun first later => first.now ≤ later.now) ∧
      ¬ granted 1 0 1000000001 (ratelimiterInit 0 config) calls ≤ config.maxTokens.toNat +
          (config.refillRate.toNat * 1000000001 + (second - 1)) / second :=
  ⟨⟨3, 1, 1⟩, [⟨0, 1, 3⟩, ⟨1000000001, 1, 3⟩], by decide, by decide, by decide, by decide +kernel⟩

end CWebFramework.Ratelimiter
