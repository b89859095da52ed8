import Mathlib.Algebra.Order.Field.Basic
import Mathlib.Tactic.Linarith
import Mathlib.Tactic.Ring

/-!
# Token buckets

A bucket fills at a constant rate up to its capacity, and every admitted request takes one
token out of it.  What a limiter answers depends on the *level* of its bucket only, so two
limiters whose buckets have the same level from now on answer alike: it does not matter
whether a bucket is brought up to date when a request is refused, nor whether a bucket that
has filled up again is forgotten.

The requests that a bucket admits in a window of time are bounded by a potential, the
tokens that it can still give until the end of the window.
-/

namespace AxonTask.Lib

/-- The rate at which buckets fill and the capacity at which they stop. -/
structure BucketSpec (K : Type*) [Field K] [LinearOrder K] where
  rate : K
  capacity : K
  rate_nonneg : 0 ≤ rate
  capacity_nonneg : 0 ≤ capacity

/-- The tokens at the time of the last change. -/
structure Bucket (K : Type*) where
  tokens : K
  last : K

namespace Bucket

variable {K : Type*} [Field K] [LinearOrder K] (S : BucketSpec K)

/-- The tokens of the bucket at the time `t`. -/
def level (b : Bucket K) (t : K) : K := min S.capacity (b.tokens + (t - b.last) * S.rate)

/-- The bucket brought up to date. -/
def fill (b : Bucket K) (t : K) : Bucket K := ⟨b.level S t, t⟩

/-- One request at the time `t`, with the bucket brought up to date in any case. -/
def serve (b : Bucket K) (t : K) : Bool × Bucket K :=
  if 1 ≤ b.level S t then (true, ⟨b.level S t - 1, t⟩) else (false, b.fill S t)

/-- The answers to requests at given times. -/
def serveAll : Bucket K → List K → List Bool
  | _, [] => []
  | b, t :: l => (b.serve S t).1 :: serveAll (b.serve S t).2 l

/-- The level when only some buckets are stored: what is not stored is full. -/
def levelOf (o : Option (Bucket K)) (t : K) : K := o.elim S.capacity fun b => b.level S t

/-- One request at the time `t`, with the bucket stored only when it gave a token. -/
def serveStored (o : Option (Bucket K)) (t : K) : Bool × Option (Bucket K) :=
  if 1 ≤ levelOf S o t then (true, some ⟨levelOf S o t - 1, t⟩) else (false, o)

/-- The tokens are neither negative nor above the capacity. -/
structure Within (b : Bucket K) : Prop where
  nonneg : 0 ≤ b.tokens
  le_capacity : b.tokens ≤ S.capacity

/-- From the time `t` on, a stored bucket and a bucket have the same level. -/
def SameLevels (t : K) (o : Option (Bucket K)) (b : Bucket K) : Prop :=
  ∀ u, t ≤ u → levelOf S o u = b.level S u

variable {S} [IsStrictOrderedRing K]

/-! ### The level -/

omit [IsStrictOrderedRing K] in
lemma level_le_capacity (b : Bucket K) (t : K) : b.level S t ≤ S.capacity := min_le_left _ _

omit [IsStrictOrderedRing K] in
lemma level_le_add (b : Bucket K) (t : K) : b.level S t ≤ b.tokens + (t - b.last) * S.rate :=
  min_le_right _ _

/-- What flows in between two times is not negative. -/
lemma inflow_nonneg (S : BucketSpec K) {s t : K} (h : s ≤ t) : 0 ≤ (t - s) * S.rate :=
  mul_nonneg (sub_nonneg.2 h) S.rate_nonneg

lemma Within.level_nonneg {b : Bucket K} (h : b.Within S) {t : K} (ht : b.last ≤ t) :
    0 ≤ b.level S t :=
  le_min S.capacity_nonneg (add_nonneg h.nonneg (inflow_nonneg S ht))

/-- **Bringing a bucket up to date does not change its later levels.** -/
lemma level_fill {b : Bucket K} {s t : K} (ht : s ≤ t) :
    (b.fill S s).level S t = b.level S t := by
  have hflow := inflow_nonneg S ht
  have hsum : b.tokens + (t - b.last) * S.rate =
      b.tokens + (s - b.last) * S.rate + (t - s) * S.rate := by ring
  change min S.capacity (min S.capacity (b.tokens + (s - b.last) * S.rate) + (t - s) * S.rate) = _
  rw [level, hsum]
  rcases le_total S.capacity (b.tokens + (s - b.last) * S.rate) with hfull | hnot
  · -- full at `s`, and therefore at `t`
    rw [min_eq_left hfull, min_eq_left (by linarith), min_eq_left (by linarith)]
  · rw [min_eq_right hnot]

/-- A bucket that had time to fill up is full. -/
lemma Within.level_eq_capacity {b : Bucket K} (h : b.Within S) {t : K}
    (ht : S.capacity ≤ (t - b.last) * S.rate) : b.level S t = S.capacity := by
  have hnonneg := h.nonneg
  exact min_eq_left (by linarith)

/-- A full bucket stays full. -/
lemma level_full {t u : K} (h : t ≤ u) : level S ⟨S.capacity, t⟩ u = S.capacity := by
  have hflow := inflow_nonneg S h
  exact min_eq_left (by change _ ≤ S.capacity + (u - t) * S.rate; linarith)

/-- When a bucket has this many tokens. -/
lemma le_level_iff (hrate : 0 < S.rate) {b : Bucket K} {t c : K} (hc : c ≤ S.capacity) :
    c ≤ b.level S t ↔ (c - b.tokens) / S.rate ≤ t - b.last := by
  rw [level, le_min_iff, and_iff_right hc, div_le_iff₀ hrate, sub_le_iff_le_add']

omit [IsStrictOrderedRing K] in
/-- How long a bucket takes from now on until it has this many tokens. -/
lemma wait_eq (hrate : 0 < S.rate) {b : Bucket K} {t c : K} (hc : c ≤ S.capacity)
    (h : b.level S t < c) :
    (c - b.level S t) / S.rate = (c - b.tokens) / S.rate - (t - b.last) := by
  have hbelow : b.level S t = b.tokens + (t - b.last) * S.rate := by
    rcases min_choice S.capacity (b.tokens + (t - b.last) * S.rate) with hfull | hbelow
    · rw [level, hfull] at h
      exact absurd hc (not_le.2 h)
    · exact hbelow
  rw [hbelow, ← sub_sub, sub_div, mul_div_cancel_right₀ _ hrate.ne']

/-! ### One request -/

omit [IsStrictOrderedRing K] in
@[simp] lemma serve_last (b : Bucket K) (t : K) : (b.serve S t).2.last = t := by
  unfold serve
  split <;> rfl

lemma Within.serve {b : Bucket K} (h : b.Within S) {t : K} (ht : b.last ≤ t) :
    (b.serve S t).2.Within S := by
  have hnonneg := h.level_nonneg ht
  have hcap := level_le_capacity (S := S) b t
  unfold Bucket.serve
  split
  · rename_i hone
    exact ⟨sub_nonneg.2 hone, by change b.level S t - 1 ≤ _; linarith⟩
  · exact ⟨hnonneg, hcap⟩

/-! ### The two ways of storing a bucket -/

omit [IsStrictOrderedRing K] in
lemma SameLevels.mono {t u : K} {o : Option (Bucket K)} {b : Bucket K}
    (h : SameLevels S t o b) (hu : t ≤ u) : SameLevels S u o b :=
  fun v hv => h v (hu.trans hv)

lemma SameLevels.full (t : K) : SameLevels S t none ⟨S.capacity, t⟩ :=
  fun _ hu => (level_full hu).symm

/-- A bucket that is full from now on may be forgotten. -/
lemma SameLevels.forget {t : K} {b c : Bucket K} (h : SameLevels S t (some b) c)
    (hb : b.Within S) (hfull : S.capacity ≤ (t - b.last) * S.rate) :
    SameLevels S t none c := by
  intro u hu
  rw [← h u hu]
  have hlater : S.capacity ≤ (u - b.last) * S.rate :=
    hfull.trans (mul_le_mul_of_nonneg_right (by linarith) S.rate_nonneg)
  exact (hb.level_eq_capacity hlater).symm

/-- **Buckets with the same levels answer alike** and have the same levels afterwards,
although one of them is left as it was when the request is refused. -/
lemma SameLevels.serve {t : K} {o : Option (Bucket K)} {b : Bucket K} (h : SameLevels S t o b) :
    (serveStored S o t).1 = (b.serve S t).1 ∧
      SameLevels S t (serveStored S o t).2 (b.serve S t).2 := by
  have hnow := h t le_rfl
  unfold serveStored Bucket.serve
  by_cases hone : 1 ≤ b.level S t
  · rw [if_pos (hnow ▸ hone), if_pos hone, hnow]
    exact ⟨rfl, fun u _ => rfl⟩
  · rw [if_neg (hnow ▸ hone), if_neg hone]
    exact ⟨rfl, fun u hu => (h u hu).trans (level_fill hu).symm⟩

/-! ### The bound on a window -/

/-- How many of the requests at the given times were admitted in the window from `s` to
`e`. -/
def admittedIn (s e : K) (times : List K) (answers : List Bool) : ℕ :=
  (times.zip answers).countP fun p => decide (s ≤ p.1 ∧ p.1 ≤ e) && p.2

omit [Field K] [IsStrictOrderedRing K] in
lemma admittedIn_cons (s e t : K) (l : List K) (ok : Bool) (answers : List Bool) :
    admittedIn s e (t :: l) (ok :: answers) =
      admittedIn s e l answers + if (s ≤ t ∧ t ≤ e) ∧ ok = true then 1 else 0 := by
  simp only [admittedIn, List.zip_cons_cons, List.countP_cons, Bool.and_eq_true,
    decide_eq_true_eq]

variable (S) in
/-- The tokens that a bucket can give in the window from `s` to `e`, after its last
change. -/
def credit (s e : K) (b : Bucket K) : K :=
  if b.last < s then S.capacity + (e - s) * S.rate
  else if b.last ≤ e then b.tokens + (e - b.last) * S.rate
  else 0

lemma Within.credit_nonneg {b : Bucket K} (h : b.Within S) {s e : K} (hse : s ≤ e) :
    0 ≤ b.credit S s e := by
  unfold credit
  split
  · exact add_nonneg S.capacity_nonneg (inflow_nonneg S hse)
  · split
    · rename_i hle
      exact add_nonneg h.nonneg (inflow_nonneg S hle)
    · exact le_rfl

lemma Within.credit_le {b : Bucket K} (h : b.Within S) {s e : K} (hse : s ≤ e) :
    b.credit S s e ≤ S.capacity + (e - s) * S.rate := by
  unfold credit
  split
  · exact le_rfl
  · rename_i hs
    split
    · have hrate : (e - b.last) * S.rate ≤ (e - s) * S.rate :=
        mul_le_mul_of_nonneg_right (by linarith) S.rate_nonneg
      linarith [h.le_capacity]
    · exact add_nonneg S.capacity_nonneg (inflow_nonneg S hse)

/-- **Step lemma of the bound.**  A request that is admitted in the window costs one token
of credit, and no request adds any. -/
lemma Within.credit_serve {b : Bucket K} (h : b.Within S) {s e t : K} (hse : s ≤ e)
    (ht : b.last ≤ t) :
    (if (s ≤ t ∧ t ≤ e) ∧ (b.serve S t).1 = true then 1 else 0) + (b.serve S t).2.credit S s e ≤
      b.credit S s e := by
  have hafter := (h.serve ht).credit_le hse
  by_cases hs : t < s
  · -- before the window: the credit stays that of a full bucket
    have hlast : (b.serve S t).2.last < s := by rwa [serve_last]
    rw [if_neg fun hin => not_le.2 hs hin.1.1, zero_add]
    simp only [credit, if_pos hlast, if_pos (ht.trans_lt hs), le_refl]
  · by_cases he : t ≤ e
    · -- inside the window: the level pays for the token
      have hcredit : (b.serve S t).2.credit S s e = (b.serve S t).2.tokens + (e - t) * S.rate := by
        rw [credit, serve_last, if_neg hs, if_pos he]
      have hpaid : (if (s ≤ t ∧ t ≤ e) ∧ (b.serve S t).1 = true then 1 else 0) +
          (b.serve S t).2.tokens = b.level S t := by
        unfold Bucket.serve
        by_cases hone : 1 ≤ b.level S t
        · simp [hone, not_lt.1 hs, he]
        · simp [hone, fill]
      rw [hcredit, ← add_assoc, hpaid]
      unfold credit
      split
      · have hrate : (e - t) * S.rate ≤ (e - s) * S.rate :=
          mul_le_mul_of_nonneg_right (by linarith) S.rate_nonneg
        linarith [level_le_capacity (S := S) b t]
      · rw [if_pos (ht.trans he)]
        have hsum : (t - b.last) * S.rate + (e - t) * S.rate = (e - b.last) * S.rate := by ring
        linarith [level_le_add (S := S) b t]
    · -- after the window: no credit is left
      have hzero : (b.serve S t).2.credit S s e = 0 := by
        rw [credit, serve_last, if_neg hs, if_neg he]
      rw [if_neg fun hin => he hin.1.2, hzero, zero_add]
      exact h.credit_nonneg hse

/-- **A bucket admits no more requests in a window than its credit.** -/
theorem Within.admittedIn_le_credit {s e : K} (hse : s ≤ e) {times : List K} {b : Bucket K}
    (h : b.Within S) (hsorted : (b.last :: times).Pairwise (· ≤ ·)) :
    (admittedIn s e times (serveAll S b times) : K) ≤ b.credit S s e := by
  induction times generalizing b with
  | nil => simpa [admittedIn, serveAll] using h.credit_nonneg hse
  | cons t l ih =>
    obtain ⟨hfirst, hrest⟩ := List.pairwise_cons.1 hsorted
    have ht := hfirst t (by simp)
    have hlater := ih (h.serve ht) (by rwa [serve_last])
    have hstep := h.credit_serve hse ht
    rw [serveAll, admittedIn_cons]
    push_cast
    linarith

/-- **The rate bound**: the capacity, and what flows in during the window. -/
theorem Within.admittedIn_le {s e : K} (hse : s ≤ e) {times : List K} {b : Bucket K}
    (h : b.Within S) (hsorted : (b.last :: times).Pairwise (· ≤ ·)) :
    (admittedIn s e times (serveAll S b times) : K) ≤ S.capacity + (e - s) * S.rate :=
  (h.admittedIn_le_credit hse hsorted).trans (h.credit_le hse)

/-! ### The bound when the rate and the capacity change -/

variable (S) in
/-- The credit of a bucket that is stored or not. -/
def creditOf (s e : K) (o : Option (Bucket K)) : K :=
  o.elim (S.capacity + (e - s) * S.rate) fun b => b.credit S s e

variable (S) in
/-- At the time `t` the stored bucket is still there, or it is forgotten and had time to fill
up. -/
def Left (t : K) (o live : Option (Bucket K)) : Prop :=
  live = o ∨ live = none ∧ ∃ b, o = some b ∧ S.capacity ≤ (t - b.last) * S.rate

omit [IsStrictOrderedRing K] in
lemma levelOf_le_capacity (o : Option (Bucket K)) (t : K) : levelOf S o t ≤ S.capacity := by
  cases o with
  | none => exact le_rfl
  | some b => exact level_le_capacity b t

/-- The credit is never negative. -/
lemma creditOf_nonneg {s e : K} {o : Option (Bucket K)} (hse : s ≤ e)
    (ho : ∀ b ∈ o, 0 ≤ b.tokens) : 0 ≤ creditOf S s e o := by
  have hfull : 0 ≤ S.capacity + (e - s) * S.rate :=
    add_nonneg S.capacity_nonneg (inflow_nonneg S hse)
  cases o with
  | none => exact hfull
  | some b =>
    change 0 ≤ b.credit S s e
    unfold credit
    split
    · exact hfull
    · split
      · rename_i hlast
        exact add_nonneg (ho b rfl) (inflow_nonneg S hlast)
      · exact le_rfl

variable {D : BucketSpec K}

/-- What a bucket under a smaller limit has, and what flows in later, is within the credit. -/
lemma levelOf_add_le_creditOf {s e t : K} {o live : Option (Bucket K)} (hs : s ≤ t) (he : t ≤ e)
    (ho : ∀ b ∈ o, 0 ≤ b.tokens ∧ b.last ≤ t) (hlive : Left D t o live) (hrate : S.rate ≤ D.rate)
    (hcap : S.capacity ≤ D.capacity) :
    levelOf S live t + (e - t) * D.rate ≤ creditOf D s e o := by
  have hlevel := (levelOf_le_capacity (S := S) live t).trans hcap
  have hfull : levelOf S live t + (e - t) * D.rate ≤ D.capacity + (e - s) * D.rate := by
    have hflow : (e - t) * D.rate ≤ (e - s) * D.rate :=
      mul_le_mul_of_nonneg_right (by linarith) D.rate_nonneg
    linarith
  cases o with
  | none => exact hfull
  | some b =>
    obtain ⟨hnonneg, hlast⟩ := ho b rfl
    change _ ≤ b.credit D s e
    unfold credit
    split
    · exact hfull
    · rw [if_pos (hlast.trans he)]
      have hsum : (t - b.last) * D.rate + (e - t) * D.rate = (e - b.last) * D.rate := by ring
      rcases hlive with rfl | ⟨rfl, b', hb', hfilled⟩
      · have hbelow : levelOf S (some b) t ≤ b.tokens + (t - b.last) * S.rate := level_le_add b t
        have hflow : (t - b.last) * S.rate ≤ (t - b.last) * D.rate :=
          mul_le_mul_of_nonneg_left hrate (by linarith)
        linarith
      · obtain rfl := Option.some.inj hb'
        linarith

/-- **Step lemma of the bound when the limit changes.**  A request that is admitted in the
window under a smaller limit costs one token of credit. -/
lemma creditOf_admit {s e t : K} {o live : Option (Bucket K)} (hse : s ≤ e)
    (ho : ∀ b ∈ o, 0 ≤ b.tokens ∧ b.last ≤ t) (hlive : Left D t o live)
    (hle : s ≤ t → t ≤ e → S.rate ≤ D.rate ∧ S.capacity ≤ D.capacity) :
    (if s ≤ t ∧ t ≤ e then 1 else 0) + creditOf D s e (some ⟨levelOf S live t - 1, t⟩) ≤
      creditOf D s e o := by
  change _ + credit D s e ⟨levelOf S live t - 1, t⟩ ≤ _
  by_cases hs : t < s
  · -- before the window: the credit stays that of a full bucket
    have hcredit : creditOf D s e o = D.capacity + (e - s) * D.rate := by
      cases o with
      | none => rfl
      | some b => exact if_pos ((ho b rfl).2.trans_lt hs)
    rw [if_neg fun hin => not_le.2 hs hin.1, zero_add, hcredit, credit, if_pos hs]
  · have hs := not_lt.1 hs
    by_cases he : t ≤ e
    · obtain ⟨hrate, hcap⟩ := hle hs he
      have hlevel := levelOf_add_le_creditOf hs he ho hlive hrate hcap
      rw [if_pos ⟨hs, he⟩, credit, if_neg (not_lt.2 hs), if_pos he]
      dsimp only
      linarith
    · -- after the window: no credit is left
      rw [if_neg fun hin => he hin.2, zero_add, credit, if_neg (not_lt.2 hs), if_neg he]
      exact creditOf_nonneg hse fun b hb => (ho b hb).1

end Bucket

end AxonTask.Lib
