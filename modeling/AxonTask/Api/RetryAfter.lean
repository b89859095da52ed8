import AxonTask.Api.RateLimit

/-!
# How long a refused request has to wait (`axontask-api/src/middleware/rate_limit.rs`)

The script and `TokenBucket::seconds_until_available` both name a number of seconds.  The
script computes it from a level that it does not store; the next call computes the level
again from what was stored before.  Both times the number is that of the stored bucket, so
it is exact.
-/

namespace AxonTask.Api

open AxonTask.Lib

/-- `TokenBucket::seconds_until_available`, with exact numbers and without a greatest time: the
source's `as u64` turns a wait of `2 ^ 64` seconds or more into `2 ^ 64 - 1`. -/
def TokenBucket.secondsUntilAvailable (count rate : ℚ) (b : TokenBucket) : ℕ :=
  let deficit := count - b.tokens
  if deficit ≤ 0 then 0 else ⌈deficit / rate⌉₊

/-- Whether `try_consume(count)` succeeds when the bucket is refilled after some seconds. -/
def TokenBucket.AvailableAfter (rate : ℚ) (capacity : ℕ) (count : ℚ) (b : TokenBucket)
    (seconds : ℕ) : Prop :=
  ∃ b', b.refill rate capacity (b.lastRefill + seconds) = some b' ∧ (b'.tryConsume count).1 = true

/-! ### Calls of the script -/

/-- A call of `check_rate_limit_redis`; the plan of a tenant can change between calls. -/
structure LimitCall where
  plan : TenantPlan
  call : ScriptCall
  now : ℕ

/-- The limit that the call is under. -/
def LimitCall.limit (c : LimitCall) : RateLimit := .forPlan c.plan

/-- What is under the key after some calls. -/
def runCalls : Option StoredBucket → List LimitCall → Option StoredBucket
  | key, [] => key
  | key, c :: calls => runCalls (checkRateLimitRedis c.limit c.call c.now key).2 calls

/-- The script runs and admits the request, whether or not its reply arrives. -/
def ScriptAdmits (limit : RateLimit) (call : ScriptCall) (now : ℕ) (key : Option StoredBucket) :
    Prop :=
  (call = .answered ∨ call = .replyLost) ∧
    (rateLimitScript limit.bucketCapacity limit.refillRate now key).1.1 = 1

/-- None of the calls is admitted. -/
def NoneAdmitted : Option StoredBucket → List LimitCall → Prop
  | _, [] => True
  | key, c :: calls => ¬ ScriptAdmits c.limit c.call c.now key ∧
      NoneAdmitted (checkRateLimitRedis c.limit c.call c.now key).2 calls

/-- The waits with which the script denies requests are exact: with no other request admitted
in between, a request is admitted from then on and not before. -/
def WaitExact (limit : RateLimit) (key : Option StoredBucket) : Prop :=
  ∀ t w, (rateLimitScript limit.bucketCapacity limit.refillRate t key).1 = (0, 0, w) →
    ∀ calls, NoneAdmitted (checkRateLimitRedis limit .answered t key).2 calls →
      ∀ t' : ℕ, admits (checkRateLimitRedis limit .answered t' (runCalls
        (checkRateLimitRedis limit .answered t key).2 calls)).1 = true ↔ (t : ℤ) + w ≤ t'

/-- What the calls leave under the key. -/
def StoredBucket.Valid (key : Option StoredBucket) : Prop :=
  ∀ b ∈ key, 0 ≤ b.tokens ∧ b.expiresAt = b.lastRefill + 120

section Script

variable {limit : RateLimit} {key : Option StoredBucket} {now : ℕ}

lemma lookup_eq_some {b : StoredBucket} :
    StoredBucket.lookup now key = some b ↔ key = some b ∧ now < b.expiresAt := by
  simp [StoredBucket.lookup, Option.filter_eq_some_iff]

lemma lookup_eq_none {b : StoredBucket} (h : StoredBucket.lookup now (some b) = none) :
    b.expiresAt ≤ now := by
  by_contra hlive
  have hsome := lookup_eq_some.2 ⟨rfl, not_le.1 hlive⟩
  rw [h] at hsome
  cases hsome

lemma valid_lookup (h : StoredBucket.Valid key) :
    StoredBucket.Valid (StoredBucket.lookup now key) :=
  fun b hb => h b (lookup_eq_some.1 hb).1

lemma valid_script (h : StoredBucket.Valid key) :
    StoredBucket.Valid (rateLimitScript limit.bucketCapacity limit.refillRate now key).2 := by
  unfold rateLimitScript
  dsimp only
  split
  · rename_i hone
    rintro b ⟨⟩
    exact ⟨sub_nonneg.2 hone, rfl⟩
  · exact valid_lookup h

lemma valid_runCalls {calls : List LimitCall} (h : StoredBucket.Valid key) :
    StoredBucket.Valid (runCalls key calls) := by
  induction calls generalizing key with
  | nil => exact h
  | cons c calls ih =>
    obtain ⟨plan, call, now⟩ := c
    refine ih ?_
    cases call with
    | clientFailed | connectionFailed | notRun => exact h
    | answered | replyLost => exact valid_script h

end Script

/-! ### The wait of the script -/

lemma RateLimit.one_le_bucketCapacity (plan : TenantPlan) :
    1 ≤ (RateLimit.forPlan plan).bucketCapacity := by
  cases plan <;> decide

section Wait

variable {limit : RateLimit} (h : limit.FillsInTime) (hcap : 1 ≤ limit.bucketCapacity)
  {key : Option StoredBucket} {now : ℕ} {b : StoredBucket}

include h hcap

omit h in
lemma one_le_capacity : (1 : ℚ) ≤ limit.bucketCapacity := by exact_mod_cast hcap

lemma rate_pos : 0 < limit.refillRate := by
  have hone := one_le_capacity hcap
  have hfull := h.capacity_le
  linarith

/-- A full bucket admits. -/
lemma script_none (hnone : StoredBucket.lookup now key = none) :
    (rateLimitScript limit.bucketCapacity limit.refillRate now key).1.1 = 1 := by
  have hone : 1 ≤ h.spec.capacity := one_le_capacity hcap
  rw [rateLimitScript_eq h]
  simp only [hnone, Option.map_none, Bucket.levelOf, Option.elim_none, if_pos hone]

/-- What the script answers from a bucket that is still stored. -/
lemma script_live (hlive : StoredBucket.lookup now key = some b) :
    rateLimitScript limit.bucketCapacity limit.refillRate now key =
      if ⌈(1 - b.tokens) / limit.refillRate⌉ ≤ (now : ℤ) - b.lastRefill then
        ((1, ⌊b.toBucket.level h.spec now - 1⌋, 60),
          some
            { tokens := b.toBucket.level h.spec now - 1
              lastRefill := now
              expiresAt := now + 120 })
      else ((0, 0, ⌈(1 - b.tokens) / limit.refillRate⌉ - (now - b.lastRefill)), some b) := by
  have hone : 1 ≤ h.spec.capacity := one_le_capacity hcap
  have hrate : 0 < h.spec.rate := rate_pos h hcap
  have hiff : 1 ≤ b.toBucket.level h.spec now ↔
      ⌈(1 - b.tokens) / limit.refillRate⌉ ≤ (now : ℤ) - b.lastRefill := by
    rw [Bucket.le_level_iff hrate hone, Int.ceil_le]
    push_cast
    rfl
  rw [rateLimitScript_eq h]
  simp only [hlive, Option.map_some, Bucket.levelOf, Option.elim_some, hiff]
  split
  · rfl
  · rename_i hdenied
    have hwait := Bucket.wait_eq hrate hone (not_le.1 (mt hiff.1 hdenied))
    change (1 - b.toBucket.level h.spec now) / limit.refillRate =
      (1 - b.tokens) / limit.refillRate - ((now : ℚ) - b.lastRefill) at hwait
    have hcast : (now : ℚ) - b.lastRefill = ((now - b.lastRefill : ℤ) : ℚ) := by push_cast; rfl
    rw [hwait, hcast, Int.ceil_sub_intCast]

/-- When the script admits a request, from the bucket under the key. -/
lemma script_admits_iff (hvalid : StoredBucket.Valid (some b)) :
    (rateLimitScript limit.bucketCapacity limit.refillRate now (some b)).1.1 = 1 ↔
      ⌈(1 - b.tokens) / limit.refillRate⌉ ≤ (now : ℤ) - b.lastRefill := by
  obtain ⟨hnonneg, hexpires⟩ := hvalid b rfl
  cases hlookup : StoredBucket.lookup now (some b) with
  | some b' =>
    obtain ⟨⟨⟩, -⟩ := lookup_eq_some.1 hlookup
    rw [script_live h hcap hlookup]
    split <;> simp [*]
  | none =>
    -- a bucket that has expired is full
    refine iff_of_true (script_none h hcap hlookup) ?_
    have hgone := lookup_eq_none hlookup
    have hwait : (1 - b.tokens) / limit.refillRate ≤ (120 : ℤ) := by
      have hone := one_le_capacity hcap
      have hfull := h.capacity_le
      rw [div_le_iff₀ (rate_pos h hcap)]
      push_cast
      linarith
    have hceil := Int.ceil_le.2 hwait
    omega

/-- **Inversion of a denial**: the bucket that is stored, and its wait. -/
lemma script_denies {w : ℤ}
    (hdenied : (rateLimitScript limit.bucketCapacity limit.refillRate now key).1 = (0, 0, w)) :
    ∃ b, key = some b ∧
      (rateLimitScript limit.bucketCapacity limit.refillRate now key).2 = some b ∧
      w = ⌈(1 - b.tokens) / limit.refillRate⌉ - (now - b.lastRefill) := by
  cases hlookup : StoredBucket.lookup now key with
  | none =>
    have hadmits := script_none h hcap hlookup
    rw [hdenied] at hadmits
    cases hadmits
  | some b =>
    refine ⟨b, (lookup_eq_some.1 hlookup).1, ?_⟩
    rw [script_live h hcap hlookup] at hdenied ⊢
    split at hdenied
    · cases hdenied
    · rename_i hnot
      rw [if_neg hnot]
      exact ⟨rfl, (congrArg (·.2.2) hdenied).symm⟩

/-- **A call that is not admitted leaves the bucket as it is.** -/
lemma checkRateLimitRedis_of_not_admits {call : ScriptCall}
    (hnot : ¬ ScriptAdmits limit call now (some b)) :
    (checkRateLimitRedis limit call now (some b)).2 = some b := by
  have hscript : call = .answered ∨ call = .replyLost →
      (rateLimitScript limit.bucketCapacity limit.refillRate now (some b)).2 = some b := by
    intro hcall
    have hdenied := fun hadmits => hnot ⟨hcall, hadmits⟩
    cases hlookup : StoredBucket.lookup now (some b) with
    | none => exact absurd (script_none h hcap hlookup) hdenied
    | some b' =>
      obtain ⟨⟨⟩, -⟩ := lookup_eq_some.1 hlookup
      rw [script_live h hcap hlookup] at hdenied ⊢
      split
      · rename_i hle
        rw [if_pos hle] at hdenied
        exact absurd rfl hdenied
      · rfl
  cases call with
  | clientFailed | connectionFailed | notRun => rfl
  | answered => exact hscript (Or.inl rfl)
  | replyLost => exact hscript (Or.inr rfl)

omit h hcap in
lemma runCalls_of_noneAdmitted {calls : List LimitCall} (hnone : NoneAdmitted (some b) calls) :
    runCalls (some b) calls = some b := by
  induction calls with
  | nil => rfl
  | cons c calls ih =>
    obtain ⟨hnot, hrest⟩ := hnone
    have hsame := checkRateLimitRedis_of_not_admits (RateLimit.forPlan_fillsInTime c.plan)
      (RateLimit.one_le_bucketCapacity c.plan) hnot
    change (checkRateLimitRedis c.limit c.call c.now (some b)).2 = some b at hsame
    rw [hsame] at hrest
    rw [runCalls, hsame, ih hrest]

/-- **The wait of a denial is that of the bucket under the key.** -/
lemma waitExact_of_valid (hvalid : StoredBucket.Valid key) : WaitExact limit key := by
  intro t w hdenied calls hnone t'
  obtain ⟨b, rfl, hafter, rfl⟩ := script_denies h hcap hdenied
  change (checkRateLimitRedis limit .answered t (some b)).2 = some b at hafter
  rw [hafter] at hnone ⊢
  rw [runCalls_of_noneAdmitted hnone]
  simp only [checkRateLimitRedis, admits, beq_iff_eq, script_admits_iff h hcap hvalid]
  omega

end Wait

/-! ### The wait of the bucket in memory -/

section Bucket

variable {b : TokenBucket} {capacity : ℕ} {count rate : ℚ}

lemma TokenBucket.availableAfter_iff (hrate : 0 < rate) (hcount : count ≤ capacity) (s : ℕ) :
    b.AvailableAfter rate capacity count s ↔ (count - b.tokens) / rate ≤ s := by
  have hnow : ¬ b.lastRefill + s < b.lastRefill := by omega
  have hlevel := Bucket.le_level_iff (S := ⟨rate, capacity, hrate.le, Nat.cast_nonneg _⟩) hrate
    (b := b.toBucket) (t := b.lastRefill + s) hcount
  change count ≤ min (capacity : ℚ) (b.tokens + ((b.lastRefill : ℚ) + s - b.lastRefill) * rate) ↔
    (count - b.tokens) / rate ≤ (b.lastRefill : ℚ) + s - b.lastRefill at hlevel
  rw [add_sub_cancel_left] at hlevel
  rw [← hlevel, min_comm]
  simp only [TokenBucket.AvailableAfter, TokenBucket.refill, if_neg hnow, Option.some.injEq,
    exists_eq_left', TokenBucket.tryConsume, Nat.add_sub_cancel_left]
  split <;> simp [*]

/-- **The number of seconds is the least one.** -/
lemma TokenBucket.isLeast_secondsUntilAvailable (hrate : 0 < rate) (hcount : count ≤ capacity) :
    IsLeast {s | b.AvailableAfter rate capacity count s}
      (b.secondsUntilAvailable count rate) := by
  have hceil : b.secondsUntilAvailable count rate = ⌈(count - b.tokens) / rate⌉₊ := by
    unfold TokenBucket.secondsUntilAvailable
    dsimp only
    split
    · rename_i hle
      exact (Nat.ceil_eq_zero.2 (div_nonpos_of_nonpos_of_nonneg hle hrate.le)).symm
    · rfl
  rw [hceil]
  constructor
  · exact (availableAfter_iff hrate hcount _).2 (Nat.le_ceil _)
  · intro s hs
    exact Nat.ceil_le.2 ((availableAfter_iff hrate hcount s).1 hs)

end Bucket

/-- **The waits are exact**: those of the script, for every plan and whatever calls came before,
and those of the bucket in memory. -/
theorem waits_exact :
    (∀ plan earlier, WaitExact (RateLimit.forPlan plan) (runCalls none earlier)) ∧
    ∀ (b : TokenBucket) (capacity : ℕ) (count rate : ℚ), 0 ≤ b.tokens → b.tokens ≤ capacity →
      0 ≤ count → count ≤ capacity → 0 < rate → IsLeast {s | b.AvailableAfter rate capacity count s}
        (b.secondsUntilAvailable count rate) := by
  constructor
  · intro plan earlier
    have hvalid : StoredBucket.Valid (runCalls none earlier) :=
      valid_runCalls fun b hb => by cases hb
    exact waitExact_of_valid (RateLimit.forPlan_fillsInTime plan)
      (RateLimit.one_le_bucketCapacity plan) hvalid
  · intro b capacity count rate _ _ _ hcount hrate
    exact b.isLeast_secondsUntilAvailable hrate hcount

/-- Ten requests at the same time. -/
def burst : List LimitCall := List.replicate 10 ⟨.trial, .answered, 0⟩

/-- After these requests the next one has to wait six seconds for a token of the trial plan, and
so has a request for one token of an empty bucket. -/
theorem waits_exact_burst :
    (∀ t' : ℕ, admits (checkRateLimitRedis (.forPlan .trial) .answered t'
      (checkRateLimitRedis (.forPlan .trial) .answered 0 (runCalls none burst)).2).1 = true ↔
        ((0 : ℕ) : ℤ) + 6 ≤ t') ∧
    IsLeast {s | TokenBucket.AvailableAfter (10 / 60) 10 1 ⟨0, 100⟩ s} 6 := by
  have hdenied : (rateLimitScript 10 (10 / 60) 0 (runCalls none burst)).1 = (0, 0, 6) := by
    decide +kernel
  have hsix : TokenBucket.secondsUntilAvailable 1 (10 / 60) ⟨0, 100⟩ = 6 := by decide +kernel
  constructor
  · exact waits_exact.1 .trial burst 0 6 hdenied [] trivial
  · exact hsix ▸ waits_exact.2 ⟨0, 100⟩ 10 1 (10 / 60) (by decide) (by norm_num) (by decide)
      (by norm_num) (by norm_num)

end AxonTask.Api
