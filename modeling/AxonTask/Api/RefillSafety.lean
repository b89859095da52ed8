import AxonTask.Api.RateLimit

/-!
# Refills when the clock goes back (`axontask-api/src/middleware/rate_limit.rs`)

`TokenBucket::refill` takes the difference of two readings of the wall clock as a `u64`.
When the clock has gone back, the subtraction panics, or wraps around and the bucket is
credited with centuries.  So a bucket is safe exactly while the readings do not go back.
-/

namespace AxonTask.Api

/-- A call of `refill`, with what the clock reads, or of `try_consume`. -/
inductive BucketCall
  | refill (now : UInt64)
  | tryConsume (count : ℚ)

namespace BucketCall

/-- `now - self.last_refill`, in a build that checks arithmetic or in one that does not. -/
def elapsedSecs (checked : Bool) (now : UInt64) (lastRefill : ℕ) : Option UInt64 :=
  if checked && decide (now.toNat < lastRefill) then none else some (now - .ofNat lastRefill)

/-- The bucket after a call; `none` when the call panics. -/
def run (checked : Bool) (rate : ℚ) (capacity : ℕ) :
    BucketCall → TokenBucket → Option TokenBucket
  | refill now, b => do
    let elapsedSecs ← elapsedSecs checked now b.lastRefill
    let newTokens := elapsedSecs.toNat * rate
    return { tokens := min (b.tokens + newTokens) capacity, lastRefill := now.toNat }
  | tryConsume count, b => some (b.tryConsume count).2

/-- The readings of the clock. -/
def readings (calls : List BucketCall) : List ℕ :=
  calls.filterMap fun
    | refill now => some now.toNat
    | tryConsume _ => none

end BucketCall

/-- What is asked of a call that turns the bucket `b` into `b'`. -/
structure CallSafe (rate : ℚ) (capacity : ℕ) (b : TokenBucket) (call : BucketCall)
    (b' : TokenBucket) : Prop where
  noUnderflow : ∀ now, call = .refill now → b.lastRefill ≤ now.toNat
  nonneg : 0 ≤ b'.tokens
  le_capacity : b'.tokens ≤ capacity
  added_le : ∀ now, call = .refill now →
    b'.tokens - b.tokens ≤ rate * max 0 ((now.toNat : ℚ) - b.lastRefill)

/-- No call panics, and all are safe. -/
def RefillSafe (checked : Bool) (rate : ℚ) (capacity : ℕ) : TokenBucket → List BucketCall → Prop
  | _, [] => True
  | b, call :: calls => ∃ b', call.run checked rate capacity b = some b' ∧
      CallSafe rate capacity b call b' ∧ RefillSafe checked rate capacity b' calls

section Safety

variable {checked : Bool} {rate : ℚ} {capacity : ℕ} {b : TokenBucket} {now : UInt64}

/-- While the clock does not go back, both builds compute what `refill` does. -/
lemma run_refill_of_le (hlast : b.lastRefill < 2 ^ 64) (hle : b.lastRefill ≤ now.toNat) :
    (BucketCall.refill now).run checked rate capacity b = b.refill rate capacity now.toNat := by
  have hback : ¬ now.toNat < b.lastRefill := Nat.not_lt.2 hle
  have helapsed : (now - UInt64.ofNat b.lastRefill).toNat = now.toNat - b.lastRefill := by
    have hof : (UInt64.ofNat b.lastRefill).toNat = b.lastRefill := UInt64.toNat_ofNat_of_lt' hlast
    rw [UInt64.toNat_sub_of_le _ _ (by rwa [UInt64.le_iff_toNat_le, hof]), hof]
  simp [BucketCall.run, BucketCall.elapsedSecs, hback, TokenBucket.refill, helapsed]

/-- **A refill at a reading that does not go back is safe.** -/
lemma callSafe_refill (hrate : 0 < rate) (hnonneg : 0 ≤ b.tokens)
    (hle : b.lastRefill ≤ now.toNat) :
    ∃ b', b.refill rate capacity now.toNat = some b' ∧ b'.lastRefill = now.toNat ∧
      CallSafe rate capacity b (.refill now) b' := by
  have hflow : 0 ≤ ((now.toNat - b.lastRefill : ℕ) : ℚ) * rate :=
    mul_nonneg (Nat.cast_nonneg _) hrate.le
  refine ⟨_, by rw [TokenBucket.refill, if_neg (Nat.not_lt.2 hle)], rfl, ?_, ?_, ?_, ?_⟩
  · rintro _ ⟨⟩
    exact hle
  · exact le_min (add_nonneg hnonneg hflow) (Nat.cast_nonneg _)
  · exact min_le_right _ _
  · rintro _ ⟨⟩
    have hmin := min_le_left (b.tokens + ((now.toNat - b.lastRefill : ℕ) : ℚ) * rate) (capacity : ℚ)
    have hmax := le_max_right 0 ((now.toNat : ℚ) - b.lastRefill)
    have hmul := mul_le_mul_of_nonneg_left hmax hrate.le
    rw [Nat.cast_sub hle] at hmin ⊢
    dsimp only
    linarith

variable (rate) in
lemma callSafe_tryConsume {count : ℚ} (hnonneg : 0 ≤ b.tokens) (hcap : b.tokens ≤ capacity)
    (hcount : 0 ≤ count) :
    CallSafe rate capacity b (.tryConsume count) (b.tryConsume count).2 where
  noUnderflow := by simp
  nonneg := by
    unfold TokenBucket.tryConsume
    split
    · rename_i hle
      exact sub_nonneg.2 hle
    · exact hnonneg
  le_capacity := by
    unfold TokenBucket.tryConsume
    split
    · dsimp only
      linarith
    · exact hcap
  added_le := by simp

lemma lastRefill_tryConsume (count : ℚ) : (b.tryConsume count).2.lastRefill = b.lastRefill := by
  unfold TokenBucket.tryConsume
  split <;> rfl

/-- **Safe exactly while the clock does not go back.** -/
theorem refillSafe_iff (checked : Bool) (hrate : 0 < rate) (hnonneg : 0 ≤ b.tokens)
    (hcap : b.tokens ≤ capacity) (hlast : b.lastRefill < 2 ^ 64) {calls : List BucketCall}
    (hcounts : ∀ count, .tryConsume count ∈ calls → 0 ≤ count) :
    RefillSafe checked rate capacity b calls ↔
      (b.lastRefill :: BucketCall.readings calls).IsChain (· ≤ ·) := by
  induction calls generalizing b with
  | nil => exact iff_of_true trivial (.singleton _)
  | cons call calls ih =>
    have hrest : ∀ count, .tryConsume count ∈ calls → 0 ≤ count :=
      fun count hmem => hcounts count (List.mem_cons_of_mem _ hmem)
    cases call with
    | refill now =>
      change _ ↔ (b.lastRefill :: now.toNat :: BucketCall.readings calls).IsChain (· ≤ ·)
      rw [List.isChain_cons_cons]
      constructor
      · rintro ⟨b', hrun, hsafe, hlater⟩
        have hle := hsafe.noUnderflow now rfl
        rw [run_refill_of_le hlast hle] at hrun
        obtain ⟨b'', hrefill, hnow, -⟩ := callSafe_refill hrate hnonneg hle
        obtain rfl : b'' = b' := Option.some.inj (hrefill.symm.trans hrun)
        have hchain := (ih hsafe.nonneg hsafe.le_capacity (hnow ▸ now.toNat_lt) hrest).1 hlater
        exact ⟨hle, hnow ▸ hchain⟩
      · rintro ⟨hle, hchain⟩
        obtain ⟨b', hrefill, hnow, hsafe⟩ := callSafe_refill hrate hnonneg hle
        refine ⟨b', (run_refill_of_le hlast hle).trans hrefill, hsafe, ?_⟩
        refine (ih hsafe.nonneg hsafe.le_capacity (hnow ▸ now.toNat_lt) hrest).2 ?_
        rwa [hnow]
    | tryConsume count =>
      have hsafe := callSafe_tryConsume rate hnonneg hcap (hcounts count List.mem_cons_self)
      have hsame := lastRefill_tryConsume (b := b) count
      have hlater := ih hsafe.nonneg hsafe.le_capacity (hsame ▸ hlast) hrest
      rw [hsame] at hlater
      constructor
      · rintro ⟨b', hrun, -, hafter⟩
        obtain rfl : (b.tryConsume count).2 = b' := Option.some.inj hrun
        exact hlater.1 hafter
      · exact fun hchain => ⟨_, rfl, hsafe, hlater.2 hchain⟩

/-- A bucket that goes through two seconds. -/
theorem refillSafe_iff_twoSeconds :
    RefillSafe true 1 10 ⟨0, 100⟩ [.refill 101, .tryConsume 1, .refill 102] ↔
      (100 :: BucketCall.readings [.refill 101, .tryConsume 1, .refill 102]).IsChain (· ≤ ·) :=
  refillSafe_iff true (by norm_num) le_rfl (by norm_num) (by norm_num) (by simp)

/-- After one second back the call panics, or fills an empty bucket. -/
theorem not_refillSafe_oneSecondBack :
    (BucketCall.refill 99).run true 1 10 ⟨0, 100⟩ = none ∧
      (BucketCall.refill 99).run false 1 10 ⟨0, 100⟩ = some ⟨10, 99⟩ ∧
      ¬ RefillSafe true 1 10 ⟨0, 100⟩ [.refill 99] ∧
      ¬ RefillSafe false 1 10 ⟨0, 100⟩ [.refill 99] := by
  have hback : ¬ 100 ≤ (99 : UInt64).toNat := by decide
  refine ⟨by decide +kernel, by decide +kernel, ?_, ?_⟩
  · rintro ⟨b', -, hsafe, -⟩
    exact hback (hsafe.noUnderflow 99 rfl)
  · rintro ⟨b', -, hsafe, -⟩
    exact hback (hsafe.noUnderflow 99 rfl)

end Safety

end AxonTask.Api
