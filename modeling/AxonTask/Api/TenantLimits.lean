import AxonTask.Api.RetryAfter
import AxonTask.Shared.Serialization
import Mathlib.Logic.Function.Basic

/-!
# The limits of all tenants (`axontask-api/src/middleware/rate_limit.rs`)

All tenants have their buckets in one Redis, under keys that name them.  Calls come in any
order; some of them fail before or after the script has run, and a tenant may change its plan
between two calls.  A tenant is answered as if it were the only one, and in every window it is
admitted no more requests than the largest of its plans in this window allows.
-/

namespace AxonTask.Api

open AxonTask.Lib

/-- The key of a tenant. -/
def rateLimitKey (tenantId : Uuid) : String := "ratelimit:tenant:" ++ Uuid.display tenantId

/-- The buckets in Redis. -/
abbrev LimitStore := String → Option StoredBucket

/-- A call of `check_rate_limit_redis` for a tenant. -/
structure TenantCall where
  tenantId : Uuid
  call : LimitCall

namespace TenantCall

/-- `check_rate_limit_redis`, with what it leaves in Redis. -/
def run (store : LimitStore) (c : TenantCall) : Except ApiError RateLimitResult × LimitStore :=
  let key := rateLimitKey c.tenantId
  let (result, bucket) := checkRateLimitRedis c.call.limit c.call.call c.call.now (store key)
  (result, Function.update store key bucket)

/-- The calls with their answers. -/
def answers : LimitStore → List TenantCall → List (TenantCall × Except ApiError RateLimitResult)
  | _, [] => []
  | store, c :: calls =>
    let (result, store) := c.run store
    (c, result) :: answers store calls

/-- The answers to the calls of one tenant. -/
def answersTo (t : Uuid) (store : LimitStore) (calls : List TenantCall) :
    List (Except ApiError RateLimitResult) :=
  ((answers store calls).filter fun a => decide (a.1.tenantId = t)).map Prod.snd

/-- The calls of one tenant. -/
def callsOf (t : Uuid) (calls : List TenantCall) : List LimitCall :=
  (calls.filter fun c => decide (c.tenantId = t)).map call

/-- How many requests of a tenant are admitted in the window from `s` to `e`. -/
def admittedIn (t : Uuid) (s e : ℚ) (store : LimitStore) (calls : List TenantCall) : ℕ :=
  (answers store calls).countP fun a =>
    decide (a.1.tenantId = t ∧ s ≤ a.1.call.now ∧ a.1.call.now ≤ e) && admits a.2

end TenantCall

/-- The answers to calls on one key. -/
def keyAnswers : Option StoredBucket → List LimitCall → List (Except ApiError RateLimitResult)
  | _, [] => []
  | key, c :: calls =>
    let (result, key) := checkRateLimitRedis c.limit c.call c.now key
    result :: keyAnswers key calls

/-! ### One key for each tenant -/

lemma rateLimitKey_injective : Function.Injective rateLimitKey := by
  intro t u h
  exact Uuid.display_injective ((String.append_right_inj "ratelimit:tenant:").1 h)

namespace TenantCall

variable {t : Uuid} {store : LimitStore} {c : TenantCall} {calls : List TenantCall}

lemma run_fst : (c.run store).1 = (checkRateLimitRedis c.call.limit c.call.call c.call.now
    (store (rateLimitKey c.tenantId))).1 := rfl

lemma run_snd : (c.run store).2 = Function.update store (rateLimitKey c.tenantId)
    (checkRateLimitRedis c.call.limit c.call.call c.call.now
      (store (rateLimitKey c.tenantId))).2 := rfl

lemma run_own (store : LimitStore) (h : c.tenantId = t) :
    (c.run store).1 =
        (checkRateLimitRedis c.call.limit c.call.call c.call.now (store (rateLimitKey t))).1 ∧
      (c.run store).2 (rateLimitKey t) =
        (checkRateLimitRedis c.call.limit c.call.call c.call.now (store (rateLimitKey t))).2 := by
  subst h
  rw [run_snd, Function.update_self]
  exact ⟨run_fst, rfl⟩

lemma run_other (store : LimitStore) (h : c.tenantId ≠ t) :
    (c.run store).2 (rateLimitKey t) = store (rateLimitKey t) := by
  rw [run_snd, Function.update_of_ne]
  exact fun heq => h (rateLimitKey_injective heq).symm

/-- **A tenant is answered as if it were the only one.** -/
lemma answersTo_eq (t : Uuid) (store : LimitStore) (calls : List TenantCall) :
    answersTo t store calls = keyAnswers (store (rateLimitKey t)) (callsOf t calls) := by
  induction calls generalizing store with
  | nil => rfl
  | cons c calls ih =>
    have hrest := ih (c.run store).2
    by_cases hown : c.tenantId = t
    · obtain ⟨hresult, hbucket⟩ := run_own store hown
      rw [hbucket] at hrest
      simp only [answersTo, callsOf] at hrest
      simp only [answersTo, callsOf, answers, List.filter_cons, hown, decide_true, if_true,
        List.map_cons, keyAnswers, hresult, hrest]
    · rw [run_other store hown] at hrest
      simp only [answersTo, callsOf] at hrest
      simp only [answersTo, callsOf, answers, List.filter_cons, hown, decide_false,
        Bool.false_eq_true, if_false, hrest]

end TenantCall

/-! ### The bound -/

section Bound

variable {limit largest : RateLimit} (h : limit.FillsInTime) (hcap : 1 ≤ limit.bucketCapacity)
  (hlargest : largest.FillsInTime) {key : Option StoredBucket} {s e : ℚ} {now : ℕ}

/-- What is under the key has not been written later than now. -/
def WrittenBy (now : ℕ) (key : Option StoredBucket) : Prop := ∀ b ∈ key, b.lastRefill ≤ now

lemma WrittenBy.mono {later : ℕ} (hkey : WrittenBy now key) (hle : now ≤ later) :
    WrittenBy later key :=
  fun b hb => (hkey b hb).trans hle

/-- What the key has not kept had time to fill up. -/
lemma left_lookup (hvalid : StoredBucket.Valid key) (now : ℕ) :
    Bucket.Left hlargest.spec now (key.map StoredBucket.toBucket)
      ((StoredBucket.lookup now key).map StoredBucket.toBucket) := by
  cases key with
  | none => exact Or.inl rfl
  | some b =>
    cases hlookup : StoredBucket.lookup now (some b) with
    | some b' =>
      obtain ⟨hsome, -⟩ := lookup_eq_some.1 hlookup
      exact Or.inl (congrArg (Option.map _) hsome.symm)
    | none =>
      refine Or.inr ⟨rfl, b.toBucket, rfl, ?_⟩
      have hexpired := lookup_eq_none hlookup
      rw [(hvalid b rfl).2] at hexpired
      have hcast : ((b.lastRefill + 120 : ℕ) : ℚ) ≤ now := by exact_mod_cast hexpired
      push_cast at hcast
      have helapsed : (120 : ℚ) ≤ now - b.lastRefill := by linarith
      exact hlargest.capacity_le.trans
        (mul_le_mul_of_nonneg_right helapsed hlargest.rate_nonneg)

include h

/-- What the script leaves under the key when it admits a request. -/
lemma script_admitted
    (hone : (rateLimitScript limit.bucketCapacity limit.refillRate now key).1.1 = 1) :
    (rateLimitScript limit.bucketCapacity limit.refillRate now key).2.map StoredBucket.toBucket =
      some ⟨Bucket.levelOf h.spec ((StoredBucket.lookup now key).map StoredBucket.toBucket) now - 1,
        now⟩ := by
  rw [rateLimitScript_eq h] at hone ⊢
  dsimp only at hone ⊢
  split at hone
  · rename_i hlevel
    rw [if_pos hlevel]
    rfl
  · cases hone

include hcap

/-- A call that takes no token leaves the key as it is. -/
lemma check_not_admitted {call : ScriptCall} (hnot : ¬ ScriptAdmits limit call now key) :
    (checkRateLimitRedis limit call now key).2 = key ∧
      admits (checkRateLimitRedis limit call now key).1 = false := by
  constructor
  · cases key with
    | some b => exact checkRateLimitRedis_of_not_admits h hcap hnot
    | none =>
      cases call with
      | clientFailed | connectionFailed | notRun => rfl
      | answered => exact absurd ⟨Or.inl rfl, script_none h hcap rfl⟩ hnot
      | replyLost => exact absurd ⟨Or.inr rfl, script_none h hcap rfl⟩ hnot
  · cases call with
    | clientFailed | connectionFailed | notRun | replyLost => rfl
    | answered =>
      refine beq_false_of_ne fun hone => hnot ⟨Or.inl rfl, ?_⟩
      exact hone

/-- What a call leaves under the key. -/
lemma keeps_check (hvalid : StoredBucket.Valid key) (hkey : WrittenBy now key)
    (call : ScriptCall) : StoredBucket.Valid (checkRateLimitRedis limit call now key).2 ∧
      WrittenBy now (checkRateLimitRedis limit call now key).2 := by
  by_cases hadmits : ScriptAdmits limit call now key
  · have hafter : (checkRateLimitRedis limit call now key).2 =
        (rateLimitScript limit.bucketCapacity limit.refillRate now key).2 := by
      rcases hadmits.1 with rfl | rfl <;> rfl
    rw [hafter]
    refine ⟨valid_script hvalid, ?_⟩
    intro b hb
    have hbucket := script_admitted h hadmits.2
    rw [Option.mem_def.1 hb, Option.map_some, Option.some.injEq] at hbucket
    have hlast : (b.lastRefill : ℚ) = now := congrArg Bucket.last hbucket
    exact (Nat.cast_injective hlast).le
  · rw [(check_not_admitted h hcap hadmits).1]
    exact ⟨hvalid, hkey⟩

/-- **Step lemma.**  A call that admits a request in the window costs one token of credit of the
largest limit, and no call adds any. -/
lemma credit_check (hse : s ≤ e) (hvalid : StoredBucket.Valid key) (hkey : WrittenBy now key)
    (call : ScriptCall) (hle : s ≤ now → (now : ℚ) ≤ e →
      limit.refillRate ≤ largest.refillRate ∧ limit.bucketCapacity ≤ largest.bucketCapacity) :
    (if (s ≤ now ∧ (now : ℚ) ≤ e) ∧ admits (checkRateLimitRedis limit call now key).1 = true
        then 1 else 0) +
      Bucket.creditOf hlargest.spec s e
        ((checkRateLimitRedis limit call now key).2.map StoredBucket.toBucket) ≤
      Bucket.creditOf hlargest.spec s e (key.map StoredBucket.toBucket) := by
  by_cases hadmits : ScriptAdmits limit call now key
  · have hafter : (checkRateLimitRedis limit call now key).2 =
        (rateLimitScript limit.bucketCapacity limit.refillRate now key).2 := by
      rcases hadmits.1 with rfl | rfl <;> rfl
    have hcost : (if (s ≤ now ∧ (now : ℚ) ≤ e) ∧
          admits (checkRateLimitRedis limit call now key).1 = true then (1 : ℚ) else 0) ≤
        if s ≤ now ∧ (now : ℚ) ≤ e then 1 else 0 := by
      split <;> split <;> simp_all
    have hold : ∀ b ∈ key.map StoredBucket.toBucket, 0 ≤ b.tokens ∧ b.last ≤ (now : ℚ) := by
      intro b hb
      obtain ⟨k, hk, rfl⟩ := Option.map_eq_some_iff.1 hb
      refine ⟨(hvalid k hk).1, ?_⟩
      change (k.lastRefill : ℚ) ≤ now
      exact_mod_cast hkey k hk
    have hcredit := Bucket.creditOf_admit (S := h.spec) (D := hlargest.spec) hse hold
      (left_lookup hlargest hvalid now) (fun hs he => (hle hs he).imp_right Nat.cast_le.2)
    rw [hafter, script_admitted h hadmits.2]
    exact (add_le_add_left hcost _).trans hcredit
  · obtain ⟨hsame, hno⟩ := check_not_admitted h hcap hadmits
    simp [hsame, hno]

end Bound

/-! ### All calls -/

lemma RateLimit.rate_le_of_capacity_le {plan largest : TenantPlan}
    (h : (RateLimit.forPlan plan).bucketCapacity ≤ (RateLimit.forPlan largest).bucketCapacity) :
    (RateLimit.forPlan plan).refillRate ≤ (RateLimit.forPlan largest).refillRate := by
  revert h
  cases plan <;> cases largest <;> decide +kernel

namespace TenantCall

variable {t : Uuid} {largest : TenantPlan} {s e : ℚ}

/-- The calls that come in the window are under plans that allow no more than this one. -/
def PlansWithin (largest : TenantPlan) (s e : ℚ) (calls : List LimitCall) : Prop :=
  ∀ c ∈ calls, s ≤ c.now → (c.now : ℚ) ≤ e →
    c.limit.bucketCapacity ≤ (RateLimit.forPlan largest).bucketCapacity

/-- **Run lemma.**  The requests that are admitted in the window are within the credit. -/
lemma admittedIn_le_creditOf (store : LimitStore) (hse : s ≤ e) {calls : List TenantCall}
    (hvalid : StoredBucket.Valid (store (rateLimitKey t)))
    (hkey : ∀ c ∈ callsOf t calls, WrittenBy c.now (store (rateLimitKey t)))
    (hsorted : ((callsOf t calls).map LimitCall.now).Pairwise (· ≤ ·))
    (hplans : PlansWithin largest s e (callsOf t calls)) :
    (admittedIn t s e store calls : ℚ) ≤
      Bucket.creditOf (RateLimit.forPlan_fillsInTime largest).spec s e
        ((store (rateLimitKey t)).map StoredBucket.toBucket) := by
  induction calls generalizing store with
  | nil =>
    refine Bucket.creditOf_nonneg hse ?_
    intro b hb
    obtain ⟨k, hk, rfl⟩ := Option.map_eq_some_iff.1 hb
    exact (hvalid k hk).1
  | cons c calls ih =>
    have hcount : admittedIn t s e store (c :: calls) = admittedIn t s e (c.run store).2 calls +
        if (decide (c.tenantId = t ∧ s ≤ c.call.now ∧ (c.call.now : ℚ) ≤ e) &&
          admits (c.run store).1) = true then 1 else 0 := List.countP_cons
    rw [hcount]
    by_cases hown : c.tenantId = t
    · have hcalls : callsOf t (c :: calls) = c.call :: callsOf t calls := by
        simp [callsOf, hown]
      rw [hcalls] at hkey hsorted hplans
      rw [List.map_cons, List.pairwise_cons] at hsorted
      obtain ⟨hresult, hbucket⟩ := run_own store hown
      have hfills := RateLimit.forPlan_fillsInTime c.call.plan
      have hone := RateLimit.one_le_bucketCapacity c.call.plan
      have hnow := hkey c.call List.mem_cons_self
      obtain ⟨hvalid', hkey'⟩ := keeps_check hfills hone hvalid hnow c.call.call
      have hstep := credit_check hfills hone (RateLimit.forPlan_fillsInTime largest) hse hvalid hnow
        c.call.call fun hs he =>
          have hcap := hplans c.call List.mem_cons_self hs he
          ⟨RateLimit.rate_le_of_capacity_le hcap, hcap⟩
      have hrest := ih (c.run store).2 (hbucket ▸ hvalid')
        (fun c' hc' => hbucket ▸ hkey'.mono (hsorted.1 _ (List.mem_map_of_mem hc')))
        hsorted.2 (fun c' hc' => hplans c' (List.mem_cons_of_mem _ hc'))
      rw [hbucket, LimitCall.limit] at hrest
      simp only [hresult, LimitCall.limit, hown, true_and, Bool.and_eq_true, decide_eq_true_eq]
      push_cast
      linarith
    · have hcalls : callsOf t (c :: calls) = callsOf t calls := by simp [callsOf, hown]
      rw [hcalls] at hkey hsorted hplans
      have hsame := run_other store hown
      have hrest := ih (c.run store).2 (hsame ▸ hvalid) (hsame ▸ hkey) hsorted hplans
      rw [hsame] at hrest
      simpa [hown] using hrest

/-- **The limits of all tenants.**  Whatever the other tenants do, a tenant gets the answers
that it would get alone; and in every window it is admitted no more requests than the largest of
its plans in this window allows, although its plan may change between two calls. -/
theorem tenant_limits (t : Uuid) {calls : List TenantCall}
    (hsorted : ((callsOf t calls).map LimitCall.now).Pairwise (· ≤ ·)) :
    answersTo t (fun _ => none) calls = keyAnswers none (callsOf t calls) ∧
    ∀ (largest : TenantPlan) (s T : ℚ), 0 ≤ T →
      PlansWithin largest s (s + T) (callsOf t calls) →
      (admittedIn t s (s + T) (fun _ => none) calls : ℚ) ≤
        (RateLimit.forPlan largest).bucketCapacity +
          (RateLimit.forPlan largest).refillRate * T := by
  refine ⟨answersTo_eq t _ calls, ?_⟩
  intro largest s T hT hplans
  have hbound := admittedIn_le_creditOf (fun _ => none) (le_add_of_nonneg_right hT)
    (fun b hb => by cases hb) (fun c _ b hb => by cases hb) hsorted hplans
  refine hbound.trans (le_of_eq ?_)
  change (RateLimit.forPlan largest).bucketCapacity +
    (s + T - s) * (RateLimit.forPlan largest).refillRate = _
  rw [add_sub_cancel_left, mul_comm]

/-- A tenant on the trial plan uses up its bucket, changes to the next plan and goes on; another
tenant comes in between, and one reply is lost. -/
def sampleCalls : List TenantCall :=
  List.replicate 11 ⟨7, .trial, .answered, 0⟩ ++ List.replicate 3 ⟨8, .trial, .answered, 2⟩ ++
    ⟨7, .entry, .replyLost, 5⟩ :: List.replicate 7 ⟨7, .entry, .answered, 5⟩

/-- The tenant is admitted ten requests and, five seconds later, four more. -/
theorem tenant_limits_sampleCalls :
    admittedIn 7 0 (0 + 60) (fun _ => none) sampleCalls = 14 ∧
      (admittedIn 7 0 (0 + 60) (fun _ => none) sampleCalls : ℚ) ≤
        (RateLimit.forPlan .entry).bucketCapacity + (RateLimit.forPlan .entry).refillRate * 60 := by
  have hplans : PlansWithin .entry 0 (0 + 60) (callsOf 7 sampleCalls) := by
    intro c hc _ _
    revert c
    decide +kernel
  exact ⟨by decide +kernel, (tenant_limits 7 (by decide)).2 .entry 0 60 (by norm_num) hplans⟩

end TenantCall

end AxonTask.Api
