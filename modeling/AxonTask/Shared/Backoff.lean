import AxonTask.Shared.PublishEvent

/-!
# The backoff of the stream writer (`xadd_with_retry` of `stream_writer.rs`)

The loop of `xadd_with_retry` round by round, with its `u32` counter, the attempts it makes
and the delays it computes.  A delay is capped after its multiplication, so the product has
to fit into 64 bits although the cap is small: a long outage with many retries gets beyond
that, and the call panics, or waits less than before.
-/

namespace AxonTask

open Lib

/-- What the caller sees of an attempt. -/
def Attempt.reply : Attempt → Except String String
  | accepted streamId => .ok streamId
  | refused e | replyLost _ e => .error e

lemma Attempt.isAccepted_iff {a : Attempt} :
    a.isAccepted = true ↔ ∃ streamId, a = .accepted streamId := by
  cases a <;> simp [isAccepted]

/-- How a call of `xadd_with_retry` ends. -/
inductive RetryEnd
  | returned (result : Except String String)
  | panicked
deriving DecidableEq

/-- The variables of the loop of `xadd_with_retry`, the attempts made, the delays with the
values of `attempt` for which they were computed, and how the call has ended. -/
structure RetryLoop where
  attempt : UInt32 := 0
  lastError : Option String := none
  made : ℕ := 0
  delays : List (UInt32 × UInt64) := []
  ended : Option RetryEnd := none

namespace StreamWriter

section Rounds

variable (checked : Bool) (config : StreamWriterConfig) (outcome : ℕ → Attempt)

/-- The branch `Err(e)` of the loop of `xadd_with_retry`. -/
def failedRound (e : String) (s : RetryLoop) : RetryLoop :=
  let s := { s with lastError := some e, made := s.made + 1 }
  -- `attempt += 1`
  if checked && decide (s.attempt.toNat + 1 = 2 ^ 32) then { s with ended := some .panicked }
  else
    let s := { s with attempt := s.attempt + 1 }
    if s.attempt ≤ config.maxRetries then
      -- the exponent is a `u32` too, and wraps around after a counter that has
      match retryDelayMs checked config ((s.attempt - 1).toNat + 1) with
      | some delayMs => { s with delays := s.delays ++ [(s.attempt, delayMs)] }
      | none => { s with ended := some .panicked }
    else s

/-- One round of the loop of `xadd_with_retry`, or what follows the loop. -/
def round (s : RetryLoop) : RetryLoop :=
  match s.ended with
  | some _ => s
  | none =>
    if s.attempt ≤ config.maxRetries then
      match (outcome s.made).reply with
      | .ok streamId => { s with made := s.made + 1, ended := some (.returned (.ok streamId)) }
      | .error e => failedRound checked config e s
    else
      match s.lastError with
      | some e => { s with ended := some (.returned (.error e)) }
      -- `unwrap`
      | none => { s with ended := some .panicked }

/-- The call after this many rounds. -/
def rounds : ℕ → RetryLoop
  | 0 => {}
  | n + 1 => round checked config outcome (rounds n)

/-- What is asked of the backoff. -/
structure BackoffRight : Prop where
  ends : ∃ n, (rounds checked config outcome n).ended ≠ none
  noPanic : ∀ n, (rounds checked config outcome n).ended ≠ some .panicked
  made_le : ∀ n, (rounds checked config outcome n).made ≤ config.maxRetries.toNat + 1
  /-- The counter counts the failed attempts. -/
  counter : ∀ n, (rounds checked config outcome n).attempt.toNat =
    (List.range (rounds checked config outcome n).made).countP
      fun i => !(outcome i).isAccepted
  /-- Neither the power nor the product overflows. -/
  fits : ∀ n, ∀ d ∈ (rounds checked config outcome n).delays, 0 < d.1.toNat ∧
    2 ^ (d.1.toNat - 1) < 2 ^ 64 ∧ config.baseRetryDelayMs.toNat * 2 ^ (d.1.toNat - 1) < 2 ^ 64
  monotone : ∀ n, (rounds checked config outcome n).delays.Pairwise fun d d' => d.2 ≤ d'.2
  le_max : ∀ n, ∀ d ∈ (rounds checked config outcome n).delays, d.2 ≤ config.maxRetryDelayMs
  ok_of_accepted : ∀ n i streamId, i < (rounds checked config outcome n).made →
    outcome i = .accepted streamId → (rounds checked config outcome n).made = i + 1 ∧
      (rounds checked config outcome n).ended = some (.returned (.ok streamId))
  /-- `publish_event` reports the number of the attempts that were made. -/
  reported : ∀ n, (rounds checked config outcome n).ended ≠ none →
    ∀ (κ : Type) (L : Libs) (event : TaskEvent) (r : Redis κ) (attempts : UInt32) (e : String),
      (publishEvent checked config L outcome event r).1 =
          some (.error (.writeFailed attempts e)) →
        attempts.toNat = (rounds checked config outcome n).made

/-- The delays fit into 64 bits: after `n` failed attempts with one to follow there are at
most 64 of them, and the base is below the power of two that the `n`-th delay leaves room
for. -/
def BackoffFits (config : StreamWriterConfig) (outcome : ℕ → Attempt) : Prop :=
  ∀ n ≤ config.maxRetries.toNat, (∀ i < n, (outcome i).isAccepted = false) →
    n ≤ 64 ∧ config.baseRetryDelayMs.toNat < 2 ^ (65 - n)

end Rounds

/-! ### What one round does -/

section Round

variable {checked : Bool} {config : StreamWriterConfig} {outcome : ℕ → Attempt} {s : RetryLoop}

/-- The counter after one more attempt. -/
lemma toNat_add_one {a : UInt32} (h : a.toNat + 1 < 2 ^ 32) : (a + 1).toNat = a.toNat + 1 := by
  have hone : (1 : UInt32).toNat = 1 := rfl
  rw [UInt32.toNat_add, hone, Nat.mod_eq_of_lt h]

lemma exists_reply_error {a : Attempt} (h : a.isAccepted = false) : ∃ e, a.reply = .error e := by
  cases a with
  | accepted streamId => simp [Attempt.isAccepted] at h
  | refused e => exact ⟨e, rfl⟩
  | replyLost streamId e => exact ⟨e, rfl⟩

lemma isAccepted_of_reply {a : Attempt} {e : String} (h : a.reply = .error e) :
    a.isAccepted = false := by
  cases a with
  | accepted streamId => cases h
  | refused e => rfl
  | replyLost streamId e => rfl

lemma round_of_ended (h : s.ended ≠ none) : round checked config outcome s = s := by
  obtain ⟨e, he⟩ := Option.ne_none_iff_exists'.1 h
  rw [round, he]

lemma round_accepted {streamId : String} (hnone : s.ended = none)
    (hle : s.attempt.toNat ≤ config.maxRetries.toNat)
    (haccepted : outcome s.made = .accepted streamId) : round checked config outcome s =
      { s with made := s.made + 1, ended := some (.returned (.ok streamId)) } := by
  rw [round, hnone]
  simp only [UInt32.le_iff_toNat_le, hle, if_true, haccepted, Attempt.reply]

/-- A failed attempt with one to follow: its delay is computed, or cannot be. -/
lemma round_failed {e : String} (hnone : s.ended = none)
    (hlt : s.attempt.toNat < config.maxRetries.toNat)
    (herror : (outcome s.made).reply = .error e) : round checked config outcome s =
      match retryDelayMs checked config (s.attempt.toNat + 1) with
      | some delayMs =>
        { s with
          attempt := s.attempt + 1
          lastError := some e
          made := s.made + 1
          delays := s.delays ++ [(s.attempt + 1, delayMs)] }
      | none =>
        { s with
          attempt := s.attempt + 1
          lastError := some e
          made := s.made + 1
          ended := some .panicked } := by
  have hmax := config.maxRetries.toNat_lt
  have hcounter : s.attempt.toNat + 1 < 2 ^ 32 := by omega
  have hback : s.attempt + 1 - 1 = s.attempt := UInt32.add_sub_cancel s.attempt 1
  simp only [round, hnone, UInt32.le_iff_toNat_le, hlt.le, if_true, herror, failedRound,
    hcounter.ne, decide_false, Bool.and_false, Bool.false_eq_true, if_false,
    toNat_add_one hcounter, hback, Nat.succ_le_of_lt hlt]

/-- The last failed attempt. -/
lemma round_failed_last {e : String} (hnone : s.ended = none)
    (heq : s.attempt.toNat = config.maxRetries.toNat) (hcounter : s.attempt.toNat + 1 < 2 ^ 32)
    (herror : (outcome s.made).reply = .error e) : round checked config outcome s =
      { s with attempt := s.attempt + 1, lastError := some e, made := s.made + 1 } := by
  have hafter : ¬ s.attempt.toNat + 1 ≤ config.maxRetries.toNat := by omega
  simp only [round, hnone, UInt32.le_iff_toNat_le, heq.le, if_true, herror, failedRound,
    hcounter.ne, decide_false, Bool.and_false, Bool.false_eq_true, if_false,
    toNat_add_one hcounter, hafter]

/-- After the loop. -/
lemma round_exhausted {e : String} (hnone : s.ended = none)
    (hlt : config.maxRetries.toNat < s.attempt.toNat) (herror : s.lastError = some e) :
    round checked config outcome s = { s with ended := some (.returned (.error e)) } := by
  simp only [round, hnone, UInt32.le_iff_toNat_le, hlt.not_ge, if_false, herror]

end Round

/-! ### The delays -/

section Delays

variable {checked : Bool} {config : StreamWriterConfig} {outcome : ℕ → Attempt}

lemma toNat_min (a b : UInt64) : (min a b).toNat = min a.toNat b.toNat := by
  change (if a ≤ b then a else b).toNat = _
  by_cases hle : a ≤ b
  · rw [if_pos hle, min_eq_left (UInt64.le_iff_toNat_le.1 hle)]
  · rw [if_neg hle, min_eq_right (not_le.1 (mt UInt64.le_iff_toNat_le.2 hle)).le]

/-- The product fits into 64 bits exactly when the base is small. -/
lemma product_lt_iff {n base : ℕ} (hpos : 0 < n) (hn : n ≤ 64) :
    base * 2 ^ (n - 1) < 2 ^ 64 ↔ base < 2 ^ (65 - n) := by
  have hsplit : (2 : ℕ) ^ 64 = 2 ^ (65 - n) * 2 ^ (n - 1) := by
    rw [← pow_add]
    congr 1
    omega
  rw [hsplit, Nat.mul_lt_mul_right (Nat.two_pow_pos _)]

lemma toNat_two_pow (n : ℕ) : ((2 : UInt64) ^ n).toNat = 2 ^ n % 2 ^ 64 := by
  have htwo : (2 : UInt64).toNat = 2 := rfl
  induction n with
  | zero => rfl
  | succ n ih => rw [UInt64.pow_succ, UInt64.toNat_mul, ih, htwo, Nat.mod_mul_mod, pow_succ 2 n]

variable (checked) in
/-- **A delay that fits is exact.** -/
lemma retryDelayMs_eq {n : ℕ} (hpos : 0 < n) (hn : n ≤ 64)
    (hbase : config.baseRetryDelayMs.toNat < 2 ^ (65 - n)) :
    ∃ delayMs, retryDelayMs checked config n = some delayMs ∧ delayMs.toNat =
      min (config.baseRetryDelayMs.toNat * 2 ^ (n - 1)) config.maxRetryDelayMs.toNat := by
  have hproduct := (product_lt_iff hpos hn).2 hbase
  have hexponent : n - 1 < 64 := by omega
  refine ⟨_, by simp only [retryDelayMs, hexponent, hproduct, decide_true, Bool.and_self,
    Bool.not_true, Bool.and_false, Bool.false_eq_true, if_false]; rfl, ?_⟩
  rw [toNat_min, UInt64.toNat_mul, toNat_two_pow,
    Nat.mod_eq_of_lt (Nat.pow_lt_pow_right (by decide) hexponent), Nat.mod_eq_of_lt hproduct]

/-- The call stands between two rounds, or has ended, and no delay has overflowed. -/
structure Regular (config : StreamWriterConfig) (outcome : ℕ → Attempt) (s : RetryLoop) :
    Prop where
  attempt_le : s.attempt.toNat ≤ config.maxRetries.toNat + 1
  failed : ∀ i < s.attempt.toNat, (outcome i).isAccepted = false
  lastError : 0 < s.attempt.toNat → s.lastError ≠ none
  delays : ∀ d ∈ s.delays, 0 < d.1.toNat ∧ d.1.toNat ≤ s.attempt.toNat ∧
    d.1.toNat ≤ config.maxRetries.toNat ∧ d.2.toNat =
      min (config.baseRetryDelayMs.toNat * 2 ^ (d.1.toNat - 1)) config.maxRetryDelayMs.toNat
  ordered : s.delays.Pairwise fun d d' => d.1.toNat < d'.1.toNat
  made_eq : s.ended = none → s.made = s.attempt.toNat
  ended : ∀ e, s.ended = some e →
    (∃ streamId, e = .returned (.ok streamId) ∧ s.made = s.attempt.toNat + 1 ∧
      s.attempt.toNat ≤ config.maxRetries.toNat ∧ outcome s.attempt.toNat = .accepted streamId) ∨
    ∃ error, e = .returned (.error error) ∧ s.made = s.attempt.toNat ∧
      s.attempt.toNat = config.maxRetries.toNat + 1

variable {s : RetryLoop}

lemma regular_start : Regular config outcome {} where
  attempt_le := Nat.zero_le _
  failed := by simp
  lastError := by simp
  delays := by simp
  ordered := List.Pairwise.nil
  made_eq := fun _ => rfl
  ended := by simp

lemma Regular.accepted {streamId : String} (h : Regular config outcome s) (hnone : s.ended = none)
    (hle : s.attempt.toNat ≤ config.maxRetries.toNat)
    (haccepted : outcome s.attempt.toNat = .accepted streamId) :
    Regular config outcome
      { s with made := s.made + 1, ended := some (.returned (.ok streamId)) } where
  attempt_le := h.attempt_le
  failed := h.failed
  lastError := h.lastError
  delays := h.delays
  ordered := h.ordered
  made_eq := by simp
  ended := by
    rintro e ⟨⟩
    exact Or.inl ⟨streamId, rfl, by rw [h.made_eq hnone], hle, haccepted⟩

/-- What holds of every counter up to the present one holds of the next too. -/
lemma forall_lt_next {P : ℕ → Prop} {n k : ℕ} (h : ∀ i < k, P i) (hk : P k) (hn : n = k + 1) :
    ∀ i < n, P i := by
  intro i hi
  rcases Nat.lt_succ_iff_lt_or_eq.1 (hn ▸ hi) with hlt | rfl
  · exact h i hlt
  · exact hk

/-- A failed attempt. -/
lemma Regular.failed_round {e : String} (h : Regular config outcome s) (hnone : s.ended = none)
    (hle : s.attempt.toNat ≤ config.maxRetries.toNat)
    (hnext : (s.attempt + 1).toNat = s.attempt.toNat + 1)
    (hfail : (outcome s.attempt.toNat).isAccepted = false) :
    Regular config outcome
      { s with attempt := s.attempt + 1, lastError := some e, made := s.made + 1 } where
  attempt_le := by
    change (s.attempt + 1).toNat ≤ _
    omega
  failed := forall_lt_next h.failed hfail hnext
  lastError := by simp
  delays := by
    intro d hd
    change _ ∧ _ ≤ (s.attempt + 1).toNat ∧ _
    obtain ⟨hpos, hle, hmax, hvalue⟩ := h.delays d hd
    exact ⟨hpos, by omega, hmax, hvalue⟩
  ordered := h.ordered
  made_eq := by
    intro _
    change s.made + 1 = (s.attempt + 1).toNat
    rw [hnext, h.made_eq hnone]
  ended := by
    intro e' he'
    change s.ended = some e' at he'
    rw [hnone] at he'
    cases he'

/-- The delay before the next attempt. -/
lemma Regular.delayed {delayMs : UInt64} (h : Regular config outcome s)
    (hbefore : ∀ d ∈ s.delays, d.1.toNat < s.attempt.toNat) (hpos : 0 < s.attempt.toNat)
    (hle : s.attempt.toNat ≤ config.maxRetries.toNat)
    (hdelay : delayMs.toNat = min (config.baseRetryDelayMs.toNat * 2 ^ (s.attempt.toNat - 1))
      config.maxRetryDelayMs.toNat) :
    Regular config outcome { s with delays := s.delays ++ [(s.attempt, delayMs)] } where
  attempt_le := h.attempt_le
  failed := h.failed
  lastError := h.lastError
  delays := by
    intro d hd
    rcases List.mem_append.1 hd with hd | hd
    · exact h.delays d hd
    · obtain rfl := List.mem_singleton.1 hd
      exact ⟨hpos, le_rfl, hle, hdelay⟩
  ordered := by
    refine List.pairwise_append.2 ⟨h.ordered, List.pairwise_singleton _ _, ?_⟩
    intro d hd d' hd'
    obtain rfl := List.mem_singleton.1 hd'
    exact hbefore d hd
  made_eq := h.made_eq
  ended := h.ended

lemma Regular.exhausted {e : String} (h : Regular config outcome s) (hnone : s.ended = none)
    (hlt : config.maxRetries.toNat < s.attempt.toNat) :
    Regular config outcome { s with ended := some (.returned (.error e)) } where
  attempt_le := h.attempt_le
  failed := h.failed
  lastError := h.lastError
  delays := h.delays
  ordered := h.ordered
  made_eq := by simp
  ended := by
    rintro e' ⟨⟩
    exact Or.inr ⟨e, rfl, h.made_eq hnone, le_antisymm h.attempt_le hlt⟩

/-- What a round of a regular call that goes on can be. -/
inductive RoundOf (checked : Bool) (config : StreamWriterConfig) (outcome : ℕ → Attempt)
    (s : RetryLoop) : RetryLoop → Prop
  | exhausted {e : String} : config.maxRetries.toNat < s.attempt.toNat → s.lastError = some e →
      RoundOf checked config outcome s { s with ended := some (.returned (.error e)) }
  | accepted {streamId : String} : s.attempt.toNat ≤ config.maxRetries.toNat →
      outcome s.attempt.toNat = .accepted streamId → RoundOf checked config outcome s
        { s with made := s.made + 1, ended := some (.returned (.ok streamId)) }
  | failed {e : String} {delayMs : UInt64} : s.attempt.toNat < config.maxRetries.toNat →
      (outcome s.attempt.toNat).reply = .error e → s.attempt.toNat ≤ 64 →
      (s.attempt + 1).toNat = s.attempt.toNat + 1 →
      retryDelayMs checked config (s.attempt.toNat + 1) = some delayMs →
      delayMs.toNat = min (config.baseRetryDelayMs.toNat * 2 ^ s.attempt.toNat)
        config.maxRetryDelayMs.toNat →
      RoundOf checked config outcome s
        { s with
          attempt := s.attempt + 1
          lastError := some e
          made := s.made + 1
          delays := s.delays ++ [(s.attempt + 1, delayMs)] }
  | failedLast {e : String} : s.attempt.toNat = config.maxRetries.toNat →
      (outcome s.attempt.toNat).reply = .error e → s.attempt.toNat ≤ 64 →
      (s.attempt + 1).toNat = s.attempt.toNat + 1 → RoundOf checked config outcome s
        { s with attempt := s.attempt + 1, lastError := some e, made := s.made + 1 }

variable (checked) in
/-- **Inversion of a round.**  When the delays fit, nothing overflows. -/
lemma Regular.roundOf (hfits : BackoffFits config outcome) (h : Regular config outcome s)
    (hnone : s.ended = none) :
    RoundOf checked config outcome s (StreamWriter.round checked config outcome s) := by
  have hmade := h.made_eq hnone
  rcases lt_or_ge config.maxRetries.toNat s.attempt.toNat with hover | hle
  · obtain ⟨e, he⟩ := Option.ne_none_iff_exists'.1 (h.lastError (by omega))
    rw [round_exhausted hnone hover he]
    exact .exhausted hover he
  cases hfail : (outcome s.attempt.toNat).isAccepted with
  | true =>
    obtain ⟨streamId, haccepted⟩ := Attempt.isAccepted_iff.1 hfail
    rw [round_accepted hnone hle (hmade ▸ haccepted)]
    exact .accepted hle haccepted
  | false =>
    obtain ⟨e, herror⟩ := exists_reply_error hfail
    have hsmall := (hfits _ hle h.failed).1
    have hnext := toNat_add_one (a := s.attempt) (by omega)
    rcases hle.lt_or_eq with hlt | heq
    · obtain ⟨hn, hbase⟩ := hfits (s.attempt.toNat + 1) hlt (forall_lt_next h.failed hfail rfl)
      obtain ⟨delayMs, hdelay, hvalue⟩ := retryDelayMs_eq checked (Nat.succ_pos _) hn hbase
      rw [round_failed hnone hlt (hmade.symm ▸ herror), hdelay]
      exact .failed hlt herror hsmall hnext hdelay hvalue
    · rw [round_failed_last hnone heq (by omega) (hmade.symm ▸ herror)]
      exact .failedLast heq herror hsmall hnext

/-- **The step lemma.** -/
lemma Regular.round (hfits : BackoffFits config outcome) (h : Regular config outcome s) :
    Regular config outcome (round checked config outcome s) := by
  by_cases hended : s.ended ≠ none
  · rwa [round_of_ended hended]
  have hnone : s.ended = none := not_not.1 hended
  have hround := h.roundOf checked hfits hnone
  generalize StreamWriter.round checked config outcome s = s' at hround ⊢
  cases hround with
  | exhausted hover he => exact h.exhausted hnone hover
  | accepted hle haccepted => exact h.accepted hnone hle haccepted
  | failed hlt herror hsmall hnext hdelay hvalue =>
    refine (h.failed_round hnone hlt.le hnext (isAccepted_of_reply herror)).delayed ?_ ?_ ?_ ?_
    · intro d hd
      change _ < (s.attempt + 1).toNat
      have hbefore := (h.delays d hd).2.1
      omega
    · change 0 < (s.attempt + 1).toNat
      omega
    · change (s.attempt + 1).toNat ≤ _
      omega
    · change _ = min (_ * 2 ^ ((s.attempt + 1).toNat - 1)) _
      rw [hnext, hvalue, Nat.add_sub_cancel]
  | failedLast heq herror hsmall hnext =>
    exact h.failed_round hnone heq.le hnext (isAccepted_of_reply herror)

variable (checked) in
/-- **The run lemma.** -/
lemma regular_rounds (hfits : BackoffFits config outcome) (n : ℕ) :
    Regular config outcome (rounds checked config outcome n) := by
  induction n with
  | zero => exact regular_start
  | succ n ih => exact ih.round hfits

/-! ### The end of the call -/

lemma made_failedRound (e : String) : (failedRound checked config e s).made = s.made + 1 := by
  unfold failedRound
  dsimp only
  split
  · rfl
  · split
    · split <;> rfl
    · rfl

/-- A round after which the call goes on has made one attempt. -/
lemma made_of_running (h : (StreamWriter.round checked config outcome s).ended = none) :
    s.ended = none ∧ (StreamWriter.round checked config outcome s).made = s.made + 1 := by
  cases hended : s.ended with
  | some e =>
    rw [round_of_ended (by simp [hended]), hended] at h
    cases h
  | none =>
    refine ⟨rfl, ?_⟩
    simp only [StreamWriter.round, hended] at h ⊢
    by_cases hle : s.attempt ≤ config.maxRetries
    · simp only [hle, if_true] at h ⊢
      cases hreply : (outcome s.made).reply with
      | ok streamId => simp only [hreply, reduceCtorEq] at h
      | error e => exact made_failedRound e
    · simp only [hle, if_false] at h
      cases herror : s.lastError <;> simp only [herror, reduceCtorEq] at h

lemma made_rounds (n : ℕ) (h : (rounds checked config outcome n).ended = none) :
    (rounds checked config outcome n).made = n := by
  induction n with
  | zero => rfl
  | succ n ih =>
    obtain ⟨hnone, hmade⟩ := made_of_running h
    rw [rounds, hmade, ih hnone]

/-- **The call ends.** -/
lemma exists_ended (hfits : BackoffFits config outcome) :
    ∃ n, (rounds checked config outcome n).ended ≠ none := by
  refine ⟨config.maxRetries.toNat + 2, fun hnone => ?_⟩
  have hregular := regular_rounds checked hfits (config.maxRetries.toNat + 2)
  have hmade := made_rounds _ hnone
  have hle := hregular.attempt_le
  rw [← hregular.made_eq hnone, hmade] at hle
  omega

end Delays

/-! ### The loop as a recursion -/

section Resume

variable {κ : Type*} {checked : Bool} {config : StreamWriterConfig} {outcome : ℕ → Attempt}
  {streamKey : String} {fields : List (String × String)} {s : RetryLoop}

variable (checked config outcome streamKey fields) in
/-- What the rest of the call comes to. -/
def resume (s : RetryLoop) (r : Redis κ) : Retried :=
  match s.ended with
  | some (.returned (.ok streamId)) => .ok streamId
  | some (.returned (.error e)) => .error e
  | some .panicked => .noResult
  | none =>
    (xaddLoop checked config outcome streamKey fields
      (config.maxRetries.toNat + 1 - s.attempt.toNat) s.attempt.toNat s.lastError r).1

variable (checked config streamKey fields) in
/-- One failed attempt of the recursion, when its counter and its delay do not overflow. -/
lemma xaddLoop_failed {attempt : ℕ} {e : String} (remaining : ℕ) (lastError : Option String)
    (r : Redis κ) (herror : (outcome attempt).reply = .error e) (hcounter : attempt + 1 ≠ 2 ^ 32)
    (hdelay : remaining ≠ 0 → retryDelayMs checked config (attempt + 1) ≠ none) :
    ∃ r', xaddLoop checked config outcome streamKey fields (remaining + 1) attempt lastError r =
      xaddLoop checked config outcome streamKey fields remaining (attempt + 1) (some e) r' := by
  have hnopanic : ¬ (remaining ≠ 0 ∧ retryDelayMs checked config (attempt + 1) = none) :=
    fun h => hdelay h.1 h.2
  cases houtcome : outcome attempt with
  | accepted streamId =>
    rw [houtcome] at herror
    cases herror
  | refused e' =>
    rw [houtcome] at herror
    cases herror
    refine ⟨r, ?_⟩
    simp only [xaddLoop, houtcome, if_neg hcounter, if_neg hnopanic]
  | replyLost streamId e' =>
    rw [houtcome] at herror
    cases herror
    refine ⟨r.xadd streamKey ⟨streamId, fields⟩, ?_⟩
    simp only [xaddLoop, houtcome, if_neg hcounter, if_neg hnopanic]

/-- A round leaves what the call comes to as it is. -/
lemma resume_round (hfits : BackoffFits config outcome) (h : Regular config outcome s)
    (r : Redis κ) : ∃ r' : Redis κ,
    resume checked config outcome streamKey fields (round checked config outcome s) r' =
      resume checked config outcome streamKey fields s r := by
  by_cases hended : s.ended ≠ none
  · exact ⟨r, by rw [round_of_ended hended]⟩
  have hnone : s.ended = none := not_not.1 hended
  have hround := h.roundOf checked hfits hnone
  generalize StreamWriter.round checked config outcome s = s' at hround ⊢
  cases hround with
  | exhausted hover he =>
    have hdone : config.maxRetries.toNat + 1 - s.attempt.toNat = 0 := by omega
    refine ⟨r, ?_⟩
    simp only [resume, hnone, hdone, he, xaddLoop, Option.elim_some]
  | accepted hle haccepted =>
    have hremaining : config.maxRetries.toNat + 1 - s.attempt.toNat =
        config.maxRetries.toNat - s.attempt.toNat + 1 := by omega
    refine ⟨r, ?_⟩
    simp only [resume, hnone, hremaining, xaddLoop, haccepted]
  | failed hlt herror hsmall hnext hdelay hvalue =>
    have hremaining : config.maxRetries.toNat + 1 - s.attempt.toNat =
        config.maxRetries.toNat - s.attempt.toNat + 1 := by omega
    obtain ⟨r', hloop⟩ := xaddLoop_failed checked config streamKey fields
      (config.maxRetries.toNat - s.attempt.toNat) s.lastError r herror (by omega)
      (by simp [hdelay])
    refine ⟨r', ?_⟩
    simp only [resume, hnone, hnext, hremaining, Nat.add_sub_add_right, hloop]
  | failedLast heq herror hsmall hnext =>
    obtain ⟨r', hloop⟩ := xaddLoop_failed checked config streamKey fields 0 s.lastError r herror
      (by omega) (fun hne => absurd rfl hne)
    have hone : config.maxRetries.toNat + 1 - s.attempt.toNat = 0 + 1 := by omega
    have hdone : config.maxRetries.toNat + 1 - (s.attempt.toNat + 1) = 0 := by omega
    refine ⟨r', ?_⟩
    simp only [resume, hnone, hnext, hone, hdone, hloop]

variable (checked streamKey fields) in
/-- **The rounds compute `xadd_with_retry`.** -/
lemma resume_rounds (hfits : BackoffFits config outcome) (r : Redis κ) (n : ℕ) :
    ∃ r' : Redis κ,
    resume checked config outcome streamKey fields (rounds checked config outcome n) r' =
      (xaddWithRetry checked config outcome streamKey fields r).1 := by
  induction n with
  | zero => exact ⟨r, rfl⟩
  | succ n ih =>
    obtain ⟨r₁, h₁⟩ := ih
    obtain ⟨r₂, h₂⟩ := resume_round hfits (regular_rounds checked hfits n) r₁
    exact ⟨r₂, h₂.trans h₁⟩

end Resume

/-! ### When the backoff is right -/

section Right

variable {checked : Bool} {config : StreamWriterConfig} {outcome : ℕ → Attempt} {s : RetryLoop}

lemma countP_failed {k : ℕ} (hfailed : ∀ i < k, (outcome i).isAccepted = false) :
    ((List.range k).countP fun i => !(outcome i).isAccepted) = k := by
  have hall : ((List.range k).countP fun i => !(outcome i).isAccepted) = (List.range k).length :=
    List.countP_eq_length.2 fun i hi => by simp [hfailed i (List.mem_range.1 hi)]
  rw [hall, List.length_range]

lemma Regular.made_le (h : Regular config outcome s) :
    s.made ≤ config.maxRetries.toNat + 1 := by
  have hle := h.attempt_le
  cases hended : s.ended with
  | none => exact h.made_eq hended ▸ hle
  | some e =>
    rcases h.ended e hended with ⟨-, -, hmade, hmax, -⟩ | ⟨-, -, hmade, -⟩ <;> omega

lemma Regular.counter (h : Regular config outcome s) :
    s.attempt.toNat = (List.range s.made).countP fun i => !(outcome i).isAccepted := by
  cases hended : s.ended with
  | none => rw [h.made_eq hended, countP_failed h.failed]
  | some e =>
    rcases h.ended e hended with ⟨id, -, hmade, -, haccepted⟩ | ⟨-, -, hmade, -⟩
    · rw [hmade, List.range_succ, List.countP_append, countP_failed h.failed]
      simp [haccepted, Attempt.isAccepted]
    · rw [hmade, countP_failed h.failed]

lemma Regular.monotone (h : Regular config outcome s) :
    s.delays.Pairwise fun d d' => d.2 ≤ d'.2 := by
  refine h.ordered.imp_of_mem ?_
  intro d d' hd hd' hlt
  obtain ⟨-, -, -, hvalue⟩ := h.delays d hd
  obtain ⟨-, -, -, hvalue'⟩ := h.delays d' hd'
  rw [UInt64.le_iff_toNat_le, hvalue, hvalue']
  have hpow : 2 ^ (d.1.toNat - 1) ≤ 2 ^ (d'.1.toNat - 1) :=
    Nat.pow_le_pow_right (by decide) (by omega)
  exact min_le_min_right _ (Nat.mul_le_mul_left _ hpow)

lemma Regular.ok_of_accepted (h : Regular config outcome s) {i : ℕ} {streamId : String}
    (hi : i < s.made) (haccepted : outcome i = .accepted streamId) :
    s.made = i + 1 ∧ s.ended = some (.returned (.ok streamId)) := by
  have hge : s.attempt.toNat ≤ i := by
    by_contra hlt
    have hfail := h.failed i (not_le.1 hlt)
    rw [haccepted] at hfail
    cases hfail
  cases hended : s.ended with
  | none =>
    have hmade := h.made_eq hended
    omega
  | some e =>
    rcases h.ended e hended with ⟨id, rfl, hmade, -, hid⟩ | ⟨-, -, hmade, -⟩
    · obtain rfl : i = s.attempt.toNat := by omega
      rw [haccepted] at hid
      cases hid
      exact ⟨hmade, rfl⟩
    · omega

/-- What `publish_event` reports. -/
lemma reported_of_ended {κ : Type} {L : Libs} {event : TaskEvent} {r : Redis κ}
    {attempts : UInt32} {e : String} (hfits : BackoffFits config outcome) {n : ℕ}
    (hended : (rounds checked config outcome n).ended ≠ none)
    (hreport : (publishEvent checked config L outcome event r).1 =
      some (.error (.writeFailed attempts e))) :
    attempts.toNat = (rounds checked config outcome n).made := by
  have hregular := regular_rounds checked hfits n
  cases hfields : serializeEvent L event with
  | error e' =>
    rw [publishEvent, hfields] at hreport
    cases hreport
  | ok fields =>
    obtain ⟨r', hresume⟩ := resume_rounds checked (eventStreamKey event.taskId) fields hfits r n
    obtain ⟨e', he'⟩ := Option.ne_none_iff_exists'.1 hended
    simp only [publishEvent, hfields] at hreport
    rcases hregular.ended e' he' with ⟨streamId, rfl, -⟩ | ⟨error, rfl, hmade, hlast⟩
    · rw [resume, he'] at hresume
      simp only [← hresume, Option.some.injEq, reduceCtorEq] at hreport
    · rw [resume, he'] at hresume
      simp only [← hresume, Option.some.injEq, Except.error.injEq,
        PublishError.writeFailed.injEq] at hreport
      have hsmall := (hfits _ le_rfl fun i hi => hregular.failed i (by omega)).1
      rw [← hreport.1, toNat_add_one (by omega), hmade, hlast]

lemma backoffRight_of_fits (hfits : BackoffFits config outcome) :
    BackoffRight checked config outcome where
  ends := exists_ended hfits
  noPanic := by
    intro n hpanic
    rcases (regular_rounds checked hfits n).ended _ hpanic with ⟨_, h, -⟩ | ⟨_, h, -⟩ <;> cases h
  made_le := fun n => (regular_rounds checked hfits n).made_le
  counter := fun n => (regular_rounds checked hfits n).counter
  fits := by
    intro n d hd
    have hregular := regular_rounds checked hfits n
    obtain ⟨hpos, hle, hmax, -⟩ := hregular.delays d hd
    obtain ⟨hn, hbase⟩ := hfits _ hmax fun i hi => hregular.failed i (by omega)
    exact ⟨hpos, Nat.pow_lt_pow_right (by decide) (by omega), (product_lt_iff hpos hn).2 hbase⟩
  monotone := fun n => (regular_rounds checked hfits n).monotone
  le_max := by
    intro n d hd
    obtain ⟨-, -, -, hvalue⟩ := (regular_rounds checked hfits n).delays d hd
    rw [UInt64.le_iff_toNat_le, hvalue]
    exact min_le_right _ _
  ok_of_accepted := fun n i streamId => (regular_rounds checked hfits n).ok_of_accepted
  reported := fun n hended κ L event r attempts e => reported_of_ended hfits hended

/-- As long as the attempts fail, each round computes a delay, or panics. -/
lemma rounds_of_failed (hnopanic : ∀ n, (rounds checked config outcome n).ended ≠ some .panicked)
    {n : ℕ} (hmax : n ≤ config.maxRetries.toNat)
    (hfailed : ∀ i < n, (outcome i).isAccepted = false) :
    (rounds checked config outcome n).ended = none ∧
      (rounds checked config outcome n).attempt.toNat = n ∧
      (0 < n → ∃ d ∈ (rounds checked config outcome n).delays, d.1.toNat = n) := by
  induction n with
  | zero => exact ⟨rfl, rfl, fun h => absurd h (lt_irrefl 0)⟩
  | succ n ih =>
    obtain ⟨hnone, hattempt, -⟩ := ih (by omega) fun i hi => hfailed i (by omega)
    obtain ⟨e, herror⟩ := exists_reply_error (hfailed n n.lt_succ_self)
    rw [← made_rounds n hnone] at herror
    have hlt : (rounds checked config outcome n).attempt.toNat < config.maxRetries.toNat := by omega
    have hround : round checked config outcome _ = _ := round_failed hnone hlt herror
    have hnext : ((rounds checked config outcome n).attempt + 1).toNat = n + 1 := by
      have hbound := config.maxRetries.toNat_lt
      rw [toNat_add_one (by omega), hattempt]
    cases hdelay : retryDelayMs checked config ((rounds checked config outcome n).attempt.toNat + 1)
      with
    | none =>
      have hpanic := hnopanic (n + 1)
      rw [rounds, hround, hdelay] at hpanic
      exact absurd rfl hpanic
    | some delayMs =>
      rw [rounds, hround, hdelay]
      exact ⟨hnone, hnext, fun _ => ⟨_, List.mem_append_right _ (List.mem_singleton_self _), hnext⟩⟩

lemma backoffFits_of_right (h : BackoffRight checked config outcome) :
    BackoffFits config outcome := by
  intro n hmax hfailed
  obtain ⟨-, -, hcomputed⟩ := rounds_of_failed h.noPanic hmax hfailed
  rcases Nat.eq_zero_or_pos n with rfl | hpos
  · have hbound := config.baseRetryDelayMs.toNat_lt
    omega
  · obtain ⟨d, hd, rfl⟩ := hcomputed hpos
    obtain ⟨-, hpower, hproduct⟩ := h.fits _ d hd
    have hexponent := (Nat.pow_lt_pow_iff_right (by decide)).1 hpower
    exact ⟨by omega, (product_lt_iff hpos (by omega)).1 hproduct⟩

/-- **The backoff is right exactly when the delays fit.** -/
theorem backoffRight_iff (checked : Bool) (config : StreamWriterConfig) (outcome : ℕ → Attempt) :
    BackoffRight checked config outcome ↔ BackoffFits config outcome :=
  ⟨backoffFits_of_right, backoffRight_of_fits⟩

end Right

/-- A hundred retries with the delays of the default configuration. -/
def manyRetries : StreamWriterConfig := { maxRetries := 100 }

/-- An outage: no attempt is answered. -/
def outage : ℕ → Attempt := fun _ => .refused "connection refused"

/-- In a long outage the call panics at the 59th failure, or, where arithmetic wraps around,
waits 5000 ms after the 62nd and nothing after the 63rd. -/
theorem not_backoffRight_outage :
    retryDelayMs true manyRetries 59 = none ∧
      retryDelayMs false manyRetries 62 = some 5000 ∧ retryDelayMs false manyRetries 63 = some 0 ∧
      ¬ BackoffRight true manyRetries outage ∧ ¬ BackoffRight false manyRetries outage := by
  have hnot : ¬ BackoffFits manyRetries outage := by
    intro hfits
    obtain ⟨-, hbase⟩ := hfits 59 (by decide) fun _ _ => rfl
    revert hbase
    decide
  refine ⟨by decide +kernel, by decide +kernel, by decide +kernel, ?_, ?_⟩
  · exact mt backoffFits_of_right hnot
  · exact mt backoffFits_of_right hnot

end StreamWriter

end AxonTask
