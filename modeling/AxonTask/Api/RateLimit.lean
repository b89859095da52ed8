import AxonTask.Api.Error
import AxonTask.Lib.TokenBucket
import AxonTask.Shared.Tenant
import Mathlib.Data.Rat.Floor

/-!
# Rate limits (`axontask-api/src/middleware/rate_limit.rs`)

The limits of the plans, the token bucket in memory and the Lua script that keeps the same
bucket in Redis.  Numbers of tokens are exact rationals and times are whole seconds; the
clock of the callers is also that of Redis.
-/

namespace AxonTask.Api

open AxonTask.Lib

/-- `RateLimit`. -/
structure RateLimit where
  requestsPerMinute : ℕ
  refillRate : ℚ
  bucketCapacity : ℕ
deriving DecidableEq, Repr

/-- `RateLimit::for_plan`. -/
def RateLimit.forPlan : TenantPlan → RateLimit
  | .trial => { requestsPerMinute := 10, refillRate := 10 / 60, bucketCapacity := 10 }
  | .entry => { requestsPerMinute := 60, refillRate := 1, bucketCapacity := 60 }
  | .pro => { requestsPerMinute := 300, refillRate := 5, bucketCapacity := 300 }
  | .enterprise => { requestsPerMinute := 1000, refillRate := 1667 / 100, bucketCapacity := 1000 }

/-! ### The bucket in memory -/

/-- `TokenBucket`. -/
structure TokenBucket where
  tokens : ℚ
  lastRefill : ℕ
deriving DecidableEq, Repr

namespace TokenBucket

/-- `TokenBucket::new`. -/
def new (capacity now : ℕ) : TokenBucket := { tokens := capacity, lastRefill := now }

/-- `TokenBucket::refill`: the subtraction of the times panics when the clock has gone
back. -/
def refill (rate : ℚ) (capacity now : ℕ) (b : TokenBucket) : Option TokenBucket :=
  if now < b.lastRefill then none
  else
    let elapsedSecs : ℚ := (now - b.lastRefill : ℕ)
    let newTokens := elapsedSecs * rate
    some { tokens := min (b.tokens + newTokens) capacity, lastRefill := now }

/-- `TokenBucket::try_consume`. -/
def tryConsume (count : ℚ) (b : TokenBucket) : Bool × TokenBucket :=
  if count ≤ b.tokens then (true, { b with tokens := b.tokens - count }) else (false, b)

/-- `refill` and then `try_consume(1)` at every one of the given times; `none` when one of
the calls panics. -/
def driveFrom (limit : RateLimit) : TokenBucket → List ℕ → Option (List Bool)
  | _, [] => some []
  | b, now :: times => do
    let b ← b.refill limit.refillRate limit.bucketCapacity now
    let (ok, b) := b.tryConsume 1
    let later ← driveFrom limit b times
    return ok :: later

/-- A bucket that `new` creates at the first request, driven by all requests. -/
def drive (limit : RateLimit) : List ℕ → Option (List Bool)
  | [] => some []
  | now :: times => driveFrom limit (new limit.bucketCapacity now) (now :: times)

end TokenBucket

/-! ### The bucket in Redis -/

/-- The hash under the key of a tenant, with the time at which the key expires. -/
structure StoredBucket where
  tokens : ℚ
  lastRefill : ℕ
  expiresAt : ℕ
deriving DecidableEq, Repr

/-- What is still stored under a key. -/
def StoredBucket.lookup (now : ℕ) (key : Option StoredBucket) : Option StoredBucket :=
  key.filter fun b => now < b.expiresAt

/-- The Lua script, with its reply and what it leaves under the key. -/
def rateLimitScript (capacity : ℕ) (refillRate : ℚ) (now : ℕ) (key : Option StoredBucket) :
    (ℤ × ℤ × ℤ) × Option StoredBucket :=
  let bucket := StoredBucket.lookup now key
  let tokens : ℚ := (bucket.map (·.tokens)).getD capacity
  let lastRefill := (bucket.map (·.lastRefill)).getD now
  let elapsed : ℚ := now - lastRefill
  let tokens := min (capacity : ℚ) (tokens + elapsed * refillRate)
  if 1 ≤ tokens then
    let tokens := tokens - 1
    ((1, ⌊tokens⌋, 60), some { tokens, lastRefill := now, expiresAt := now + 120 })
  else ((0, 0, ⌈(1 - tokens) / refillRate⌉), bucket)

/-- `RateLimitResult`. -/
structure RateLimitResult where
  ok : Bool
  remaining : UInt32
  resetAfter : UInt64
deriving DecidableEq, Repr

/-- What happens to a call of Redis. -/
inductive ScriptCall
  | clientFailed | connectionFailed | notRun | answered | replyLost
deriving DecidableEq, Repr

/-- `check_rate_limit_redis`, for the key of one tenant. -/
def checkRateLimitRedis (limit : RateLimit) (call : ScriptCall) (now : ℕ)
    (key : Option StoredBucket) : Except ApiError RateLimitResult × Option StoredBucket :=
  let (result, key') := rateLimitScript limit.bucketCapacity limit.refillRate now key
  match call with
  | .clientFailed | .connectionFailed =>
    (.error (.internalError "Rate limit service unavailable"), key)
  | .notRun => (.error (.internalError "Rate limit check failed"), key)
  | .replyLost => (.error (.internalError "Rate limit check failed"), key')
  | .answered =>
    (.ok
      { ok := result.1 == 1
        remaining := UInt32.ofInt result.2.1
        resetAfter := UInt64.ofInt result.2.2 }, key')

/-- Whether a call allows the request. -/
def admits : Except ApiError RateLimitResult → Bool
  | .ok result => result.ok
  | .error _ => false

/-- Which of the requests at the given times are admitted, when all calls are answered. -/
def redisAdmits (limit : RateLimit) : Option StoredBucket → List ℕ → List Bool
  | _, [] => []
  | key, now :: times =>
    let (result, key) := checkRateLimitRedis limit .answered now key
    admits result :: redisAdmits limit key times

/-! ### Every plan fills its bucket before the key expires -/

/-- A bucket that has not been written for as long as its key lasts is full. -/
structure RateLimit.FillsInTime (limit : RateLimit) : Prop where
  rate_nonneg : 0 ≤ limit.refillRate
  capacity_le : (limit.bucketCapacity : ℚ) ≤ 120 * limit.refillRate

lemma RateLimit.forPlan_fillsInTime (plan : TenantPlan) :
    (RateLimit.forPlan plan).FillsInTime := by
  cases plan <;> constructor <;> norm_num [RateLimit.forPlan]

/-- The limit as the rate and the capacity of a bucket. -/
def RateLimit.FillsInTime.spec {limit : RateLimit} (h : limit.FillsInTime) : BucketSpec ℚ where
  rate := limit.refillRate
  capacity := limit.bucketCapacity
  rate_nonneg := h.rate_nonneg
  capacity_nonneg := Nat.cast_nonneg _

/-- The bucket in memory as a bucket. -/
def TokenBucket.toBucket (b : TokenBucket) : Bucket ℚ := ⟨b.tokens, b.lastRefill⟩

/-- The stored bucket as a bucket. -/
def StoredBucket.toBucket (b : StoredBucket) : Bucket ℚ := ⟨b.tokens, b.lastRefill⟩

lemma pairwise_cons_self {now : ℕ} {times : List ℕ} (hsorted : (now :: times).Pairwise (· ≤ ·)) :
    (now :: now :: times).Pairwise (· ≤ ·) := by
  refine List.pairwise_cons.2 ⟨?_, hsorted⟩
  intro t ht
  rcases List.mem_cons.1 ht with rfl | ht
  · exact le_rfl
  · exact List.rel_of_pairwise_cons hsorted ht

section Refinement

variable {limit : RateLimit} (h : limit.FillsInTime)

include h

/-! ### The bucket in memory is a bucket that is always brought up to date -/

lemma TokenBucket.refill_eq {b : TokenBucket} {now : ℕ} (hnow : b.lastRefill ≤ now) :
    ∃ b', b.refill limit.refillRate limit.bucketCapacity now = some b' ∧
      b'.toBucket = b.toBucket.fill h.spec now := by
  refine ⟨_, by rw [refill, if_neg (Nat.not_lt.2 hnow)], ?_⟩
  simp only [toBucket, Bucket.fill, Bucket.level, RateLimit.FillsInTime.spec, Nat.cast_sub hnow,
    min_comm]

lemma TokenBucket.tryConsume_fill {b b' : TokenBucket} {now : ℕ}
    (hfill : b'.toBucket = b.toBucket.fill h.spec now) :
    (b'.tryConsume 1).1 = (b.toBucket.serve h.spec now).1 ∧
      (b'.tryConsume 1).2.toBucket = (b.toBucket.serve h.spec now).2 := by
  have htokens : b'.tokens = b.toBucket.level h.spec now := congrArg Bucket.tokens hfill
  have hlast : (b'.lastRefill : ℚ) = now := congrArg Bucket.last hfill
  unfold tryConsume Bucket.serve
  by_cases hone : 1 ≤ b'.tokens
  · rw [if_pos hone, if_pos (htokens ▸ hone)]
    simp only [toBucket, htokens, hlast, and_self]
  · rw [if_neg hone, if_neg (htokens ▸ hone)]
    exact ⟨rfl, hfill⟩

lemma TokenBucket.driveFrom_eq {times : List ℕ} {b : TokenBucket}
    (hsorted : (b.lastRefill :: times).Pairwise (· ≤ ·)) :
    driveFrom limit b times =
      some (Bucket.serveAll h.spec b.toBucket (times.map fun t : ℕ => (t : ℚ))) := by
  induction times generalizing b with
  | nil => rfl
  | cons now times ih =>
    obtain ⟨hfirst, hrest⟩ := List.pairwise_cons.1 hsorted
    obtain ⟨b', hrefill, hfill⟩ := TokenBucket.refill_eq h (hfirst now (by simp))
    obtain ⟨hok, hafter⟩ := TokenBucket.tryConsume_fill h hfill
    have hlast : (b'.tryConsume 1).2.lastRefill = now := by
      have hcast : ((b'.tryConsume 1).2.lastRefill : ℚ) = now :=
        (congrArg Bucket.last hafter).trans (Bucket.serve_last _ _)
      exact_mod_cast hcast
    have hlater := ih (b := (b'.tryConsume 1).2) (by rwa [hlast])
    simp only [driveFrom, hrefill, Option.bind_eq_bind, Option.bind_some, hlater, hok, hafter,
      List.map_cons, Bucket.serveAll, Option.pure_def]

/-- The bucket in memory answers as a full bucket. -/
lemma TokenBucket.drive_eq {now : ℕ} {times : List ℕ}
    (hsorted : (now :: times).Pairwise (· ≤ ·)) :
    drive limit (now :: times) =
      some (Bucket.serveAll h.spec ⟨limit.bucketCapacity, now⟩
        ((now :: times).map fun t : ℕ => (t : ℚ))) :=
  TokenBucket.driveFrom_eq h (pairwise_cons_self hsorted)

/-! ### The stored bucket has the same level from now on -/

/-- What is stored under the key has the levels of the bucket `b` from `now` on. -/
structure Tracks (now : ℕ) (key : Option StoredBucket) (b : Bucket ℚ) : Prop where
  expiresAt : ∀ k, key = some k → k.expiresAt = k.lastRefill + 120
  within : ∀ k, key = some k → k.toBucket.Within h.spec
  same : Bucket.SameLevels h.spec now (key.map StoredBucket.toBucket) b

lemma Tracks.full (now : ℕ) : Tracks h now none ⟨limit.bucketCapacity, now⟩ where
  expiresAt := by simp
  within := by simp
  same := Bucket.SameLevels.full (S := h.spec) (now : ℚ)

variable {h}

/-- When the key has expired, the bucket is full. -/
lemma Tracks.lookup {t now : ℕ} {key : Option StoredBucket} {b : Bucket ℚ}
    (hkey : Tracks h t key b) (ht : t ≤ now) : Tracks h now (StoredBucket.lookup now key) b := by
  have hsame := hkey.same.mono (u := (now : ℚ)) (by exact_mod_cast ht)
  cases key with
  | none => exact ⟨by simp [StoredBucket.lookup], by simp [StoredBucket.lookup], hsame⟩
  | some k =>
    have hexpires := hkey.expiresAt k rfl
    by_cases hlive : now < k.expiresAt
    · have hfound : StoredBucket.lookup now (some k) = some k := by
        simp [StoredBucket.lookup, hlive]
      rw [hfound]
      exact ⟨hkey.expiresAt, hkey.within, hsame⟩
    · have hgone : StoredBucket.lookup now (some k) = none := by
        simp [StoredBucket.lookup, Nat.not_lt.1 hlive]
      have helapsed : (120 : ℚ) ≤ now - k.lastRefill := by
        have hle : k.lastRefill + 120 ≤ now := by omega
        have hcast : ((k.lastRefill + 120 : ℕ) : ℚ) ≤ now := by exact_mod_cast hle
        push_cast at hcast
        linarith
      have hfull : h.spec.capacity ≤ ((now : ℚ) - k.toBucket.last) * h.spec.rate :=
        h.capacity_le.trans (mul_le_mul_of_nonneg_right helapsed h.rate_nonneg)
      rw [hgone]
      exact ⟨by simp, by simp, hsame.forget (hkey.within k rfl) hfull⟩

variable (h) in
/-- The script goes by the level of what is still stored. -/
lemma rateLimitScript_eq (now : ℕ) (key : Option StoredBucket) :
    rateLimitScript limit.bucketCapacity limit.refillRate now key =
      let live := StoredBucket.lookup now key
      let level := Bucket.levelOf h.spec (live.map StoredBucket.toBucket) now
      if 1 ≤ level then
        ((1, ⌊level - 1⌋, 60),
          some { tokens := level - 1, lastRefill := now, expiresAt := now + 120 })
      else ((0, 0, ⌈(1 - level) / limit.refillRate⌉), live) := by
  unfold rateLimitScript
  cases StoredBucket.lookup now key with
  | none =>
    have hfull : min (limit.bucketCapacity : ℚ)
        (limit.bucketCapacity + ((now : ℚ) - now) * limit.refillRate) = limit.bucketCapacity := by
      rw [sub_self, zero_mul, add_zero, min_self]
    simp only [Option.map_none, Option.getD_none, hfull]
    rfl
  | some k => rfl

/-- **Step lemma.**  A call admits exactly when the bucket gives a token, and what it
leaves under the key goes on tracking the bucket. -/
lemma Tracks.check {t now : ℕ} {key : Option StoredBucket} {b : Bucket ℚ}
    (hkey : Tracks h t key b) (ht : t ≤ now) :
    admits (checkRateLimitRedis limit .answered now key).1 = (b.serve h.spec now).1 ∧
      Tracks h now (checkRateLimitRedis limit .answered now key).2 (b.serve h.spec now).2 := by
  have hlive := hkey.lookup ht
  obtain ⟨hok, hsame⟩ := hlive.same.serve
  simp only [checkRateLimitRedis, rateLimitScript_eq h, admits]
  simp only [Bucket.serveStored] at hok hsame
  split
  · rename_i hone
    rw [if_pos hone] at hok hsame
    refine ⟨hok, ?_, ?_, hsame⟩
    · rintro _ ⟨⟩
      rfl
    · rintro _ ⟨⟩
      have hcap : Bucket.levelOf h.spec _ (now : ℚ) = b.level h.spec now := hlive.same now le_rfl
      have hle := Bucket.level_le_capacity (S := h.spec) b now
      refine ⟨sub_nonneg.2 hone, ?_⟩
      change Bucket.levelOf h.spec _ (now : ℚ) - 1 ≤ _
      rw [hcap]
      linarith
  · rename_i hone
    rw [if_neg hone] at hok hsame
    exact ⟨hok, hlive.expiresAt, hlive.within, hsame⟩

/-- The calls admit what the bucket admits. -/
lemma Tracks.redisAdmits_eq {times : List ℕ} {t : ℕ} {key : Option StoredBucket} {b : Bucket ℚ}
    (hkey : Tracks h t key b) (hsorted : (t :: times).Pairwise (· ≤ ·)) :
    redisAdmits limit key times =
      Bucket.serveAll h.spec b (times.map fun t : ℕ => (t : ℚ)) := by
  induction times generalizing t key b with
  | nil => rfl
  | cons now times ih =>
    obtain ⟨hfirst, hrest⟩ := List.pairwise_cons.1 hsorted
    obtain ⟨hok, hnext⟩ := hkey.check (hfirst now (by simp))
    rw [redisAdmits, List.map_cons, Bucket.serveAll, ← ih hnext hrest, ← hok]

variable (h) in
/-- From no stored key on, the calls admit what a full bucket admits. -/
lemma redisAdmits_eq {now : ℕ} {times : List ℕ}
    (hsorted : (now :: times).Pairwise (· ≤ ·)) :
    redisAdmits limit none (now :: times) =
      Bucket.serveAll h.spec ⟨limit.bucketCapacity, now⟩
        ((now :: times).map fun t : ℕ => (t : ℚ)) :=
  (Tracks.full h now).redisAdmits_eq (pairwise_cons_self hsorted)

end Refinement

/-! ### The two buckets admit the same requests, within the rate -/

/-- **The script and the bucket in memory admit the same requests**, for every plan and
every sequence of times that does not go back. -/
theorem redisAdmits_eq_drive (plan : TenantPlan) {times : List ℕ}
    (hsorted : times.Pairwise (· ≤ ·)) :
    TokenBucket.drive (RateLimit.forPlan plan) times =
      some (redisAdmits (RateLimit.forPlan plan) none times) := by
  cases times with
  | nil => rfl
  | cons now times =>
    have h := RateLimit.forPlan_fillsInTime plan
    rw [TokenBucket.drive_eq h hsorted, redisAdmits_eq h hsorted]

/-- A request of the trial plan is refused and a later one is admitted. -/
theorem redisAdmits_eq_drive_trial :
    TokenBucket.drive (RateLimit.forPlan .trial) (List.replicate 11 0 ++ [5, 6, 126, 250]) =
      some (redisAdmits (RateLimit.forPlan .trial) none
        (List.replicate 11 0 ++ [5, 6, 126, 250])) :=
  redisAdmits_eq_drive .trial (by decide)

/-- **The rate bound.**  In every window, whatever came before it and whether or not the
key expired, a plan is admitted no more requests than its capacity and what flows in. -/
theorem admittedIn_redisAdmits_le (plan : TenantPlan) {times : List ℕ}
    (hsorted : times.Pairwise (· ≤ ·)) (s : ℚ) {T : ℚ} (hT : 0 ≤ T) :
    (Bucket.admittedIn s (s + T) (times.map fun t : ℕ => (t : ℚ))
        (redisAdmits (RateLimit.forPlan plan) none times) : ℚ) ≤
      (RateLimit.forPlan plan).bucketCapacity + (RateLimit.forPlan plan).refillRate * T := by
  have h := RateLimit.forPlan_fillsInTime plan
  cases times with
  | nil =>
    have hflow := mul_nonneg h.rate_nonneg hT
    simp only [List.map_nil, Bucket.admittedIn, List.zip_nil_left, List.countP_nil, Nat.cast_zero]
    positivity
  | cons now times =>
    have hwithin : Bucket.Within h.spec ⟨(RateLimit.forPlan plan).bucketCapacity, (now : ℚ)⟩ :=
      ⟨Nat.cast_nonneg _, le_rfl⟩
    have hcast : ((now : ℚ) :: ((now :: times).map fun t : ℕ => (t : ℚ))).Pairwise (· ≤ ·) := by
      have hmap := (pairwise_cons_self hsorted).map (fun t : ℕ => (t : ℚ))
        fun _ _ hle => Nat.cast_le.2 hle
      simpa using hmap
    have hbound := hwithin.admittedIn_le (e := s + T) (le_add_of_nonneg_right hT) hcast
    rw [redisAdmits_eq h hsorted]
    have hflow : (s + T - s) * h.spec.rate = (RateLimit.forPlan plan).refillRate * T := by
      rw [add_sub_cancel_left, mul_comm]
      rfl
    rwa [hflow] at hbound

/-- The trial plan in the minute after a burst. -/
theorem admittedIn_redisAdmits_le_trial :
    (Bucket.admittedIn 0 (0 + 60) ((List.replicate 20 (0 : ℕ) ++ [60, 60]).map fun t : ℕ => (t : ℚ))
        (redisAdmits (RateLimit.forPlan .trial) none (List.replicate 20 0 ++ [60, 60])) : ℚ) ≤
      (RateLimit.forPlan .trial).bucketCapacity + (RateLimit.forPlan .trial).refillRate * 60 :=
  admittedIn_redisAdmits_le .trial (by decide) 0 (by norm_num)

end AxonTask.Api
