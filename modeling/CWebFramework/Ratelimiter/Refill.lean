import CWebFramework.Ratelimiter.Limiter

/-!
# What a refill gains

`bucket_refill` multiplies in 64 bits, keeps 32 bits of the quotient and adds
in 32 bits.  The result is the sum over the integers, cut off at the maximum,
unless one of these operations wraps around and falls below the maximum.
-/

namespace CWebFramework.Ratelimiter

def earned (config : Config) (now : Nat) (bucket : Bucket) : Nat :=
  elapsed now bucket.lastRefillNs * config.refillRate.toNat

/-- The sum with a product of 64 bits and an addition in 32 bits. -/
def wrappedTokens (config : Config) (now : Nat) (bucket : Bucket) : Nat :=
  (bucket.tokens + earned config now bucket % 2 ^ 64 / second) % 2 ^ 32

private theorem tokensToAdd_eq (config : Config) (now : Nat) (bucket : Bucket) :
    tokensToAdd config now bucket = earned config now bucket % 2 ^ 64 / second := rfl

variable {config : Config} {now : Nat} {bucket : Bucket}

private theorem maxTokens_lt (config : Config) : config.maxTokens.toNat < 2 ^ 32 :=
  config.maxTokens.toNat_lt

/-- A refill that gains nothing is no exception. -/
theorem bucketRefill_tokens (capped : bucket.tokens ≤ config.maxTokens.toNat) :
    (bucketRefill config now bucket).tokens =
      min config.maxTokens.toNat (wrappedTokens config now bucket) := by
  have fits := maxTokens_lt config
  rw [wrappedTokens, ← tokensToAdd_eq]
  by_cases gains : 0 < tokensToAdd config now bucket
  · rw [bucketRefill_of_pos gains]
    dsimp only
    rw [Nat.add_mod_mod]
    split <;> omega
  · rw [bucketRefill_of_not_pos gains, Nat.eq_zero_of_not_pos gains,
      Nat.add_zero, Nat.mod_eq_of_lt (by omega), Nat.min_eq_right capped]

private theorem wrappedTokens_le : wrappedTokens config now bucket ≤
      bucket.tokens + earned config now bucket / second := by
  have added : earned config now bucket % 2 ^ 64 / second ≤ earned config now bucket / second :=
    Nat.div_le_div_right (Nat.mod_le _ _)
  exact (Nat.mod_le _ _).trans (Nat.add_le_add_left added _)

/-- Nothing wraps around. -/
def Exact (config : Config) (now : Nat) (bucket : Bucket) : Prop :=
  earned config now bucket < 2 ^ 64 ∧ bucket.tokens + earned config now bucket / second < 2 ^ 32

theorem wrappedTokens_eq_iff : wrappedTokens config now bucket =
        bucket.tokens + earned config now bucket / second ↔
      Exact config now bucket := by
  constructor
  · intro same
    have small : wrappedTokens config now bucket < 2 ^ 32 := Nat.mod_lt _ (by decide)
    refine ⟨?_, by omega⟩
    by_contra large
    -- the quotient of what is lost is at least one token
    have split := Nat.mod_add_div (earned config now bucket) (2 ^ 64)
    have lost : 2 ^ 64 ≤ 2 ^ 64 * (earned config now bucket / 2 ^ 64) := by
      apply Nat.le_mul_of_pos_right
      exact Nat.div_pos (by omega) (by decide)
    have fewer : earned config now bucket % 2 ^ 64 / second <
        earned config now bucket / second := by
      unfold second
      omega
    have below : wrappedTokens config now bucket ≤
        bucket.tokens + earned config now bucket % 2 ^ 64 / second :=
      Nat.mod_le _ _
    omega
  · rintro ⟨product, sum⟩
    rw [wrappedTokens, Nat.mod_eq_of_lt product, Nat.mod_eq_of_lt sum]

/-- A refill gives the sum over the integers if and only if nothing wraps
around or the wrapped sum still reaches the maximum. -/
theorem bucketRefill_tokens_iff (config : Config) (now : Nat) (bucket : Bucket)
    (capped : bucket.tokens ≤ config.maxTokens.toNat) :
    ((bucketRefill config now bucket).tokens = min config.maxTokens.toNat
          (bucket.tokens + earned config now bucket / second) ↔
      Exact config now bucket ∨ config.maxTokens.toNat ≤ wrappedTokens config now bucket) ∧
    (bucket.tokens ≤ (bucketRefill config now bucket).tokens ↔
      bucket.tokens ≤ wrappedTokens config now bucket) ∧
    (Exact config now bucket ∨ config.maxTokens.toNat ≤ wrappedTokens config now bucket →
      bucket.tokens ≤ (bucketRefill config now bucket).tokens) := by
  have below : wrappedTokens config now bucket ≤ _ := wrappedTokens_le
  have same := @wrappedTokens_eq_iff config now bucket
  rw [bucketRefill_tokens capped, ← same]
  generalize earned config now bucket / second = gained at below
  refine ⟨?_, ?_, ?_⟩ <;> omega

theorem bucketRefill_tokens_small :
    (bucketRefill ⟨10, 2, 60⟩ 3000000000 ⟨1, 1500000000, 0⟩).tokens = 4 :=
  (bucketRefill_tokens_iff ⟨10, 2, 60⟩ 3000000000 ⟨1, 1500000000, 0⟩
    (by decide)).1.mpr (Or.inl ⟨by decide +kernel, by decide +kernel⟩)

/-- A full bucket of the largest size is empty after one second. -/
theorem bucketRefill_empties : ∃ (config : Config) (bucket : Bucket),
      bucket.tokens ≤ config.maxTokens.toNat ∧
      earned config second bucket / second = 1 ∧
      bucket.tokens = 4294967295 ∧
      (bucketRefill config second bucket).tokens = 0 :=
  ⟨⟨4294967295, 1, 60⟩, ⟨4294967295, 0, 0⟩, by decide +kernel⟩

end CWebFramework.Ratelimiter
