import Mathlib.Algebra.Group.Nat.Defs
import Mathlib.Tactic.Common

/-!
# The timeout of a task (`axontask-worker/src/timeout.rs`)

The enforcer of a task sleeps for the timeout of the task and then cancels its token.  Here
is the length of that sleep; when the enforcer runs is part of the execution of a task.
A `std::time::Duration` is a number of nanoseconds.
-/

namespace AxonTask

namespace Duration

/-- `Duration::from_secs`. -/
def fromSecs (secs : ℕ) : ℕ := secs * 10 ^ 9

/-- `Duration::from_millis`. -/
def fromMillis (millis : ℕ) : ℕ := millis * 10 ^ 6

end Duration

/-- `TimeoutEnforcer`. -/
structure TimeoutEnforcer where
  timeout : ℕ
  gracePeriod : ℕ
deriving DecidableEq, Repr

namespace TimeoutEnforcer

open Duration

/-- `DEFAULT_TIMEOUT`. -/
def defaultTimeout : ℕ := fromSecs 3600

/-- `GRACE_PERIOD`. -/
def gracePeriodDefault : ℕ := fromSecs 30

/-- `MIN_TIMEOUT`. -/
def minTimeout : ℕ := fromSecs 1

/-- `MAX_TIMEOUT`. -/
def maxTimeout : ℕ := fromSecs 86400

/-- `TimeoutEnforcer::new`. -/
def new (timeout : ℕ) : TimeoutEnforcer := ⟨timeout, gracePeriodDefault⟩

/-- `TimeoutEnforcer::from_task_timeout`. -/
def fromTaskTimeout (timeoutSeconds : Option Int32) : TimeoutEnforcer :=
  new <|
    match timeoutSeconds with
    | some secs =>
      if secs ≤ 0 then minTimeout
      else
        let duration := fromSecs secs.toInt.toNat
        if duration < minTimeout then minTimeout
        else if maxTimeout < duration then maxTimeout
        else duration
    | none => defaultTimeout

/-- Whatever the task says, the timeout is in the valid range. -/
lemma fromTaskTimeout_mem_range (timeoutSeconds : Option Int32) :
    minTimeout ≤ (fromTaskTimeout timeoutSeconds).timeout ∧
      (fromTaskTimeout timeoutSeconds).timeout ≤ maxTimeout := by
  cases timeoutSeconds with
  | none => decide
  | some secs =>
    simp only [fromTaskTimeout, new]
    split
    · decide
    · split
      · decide
      · split
        · decide
        · omega

/-- A timeout that the table accepts is the one that is enforced. -/
lemma timeout_fromTaskTimeout {secs : Int32} (hmin : 1 ≤ secs) (hmax : secs ≤ 86400) :
    (fromTaskTimeout (some secs)).timeout = fromSecs secs.toInt.toNat := by
  have hmin' : 1 ≤ secs.toInt := by simpa [Int32.le_iff_toInt_le] using hmin
  have hmax' : secs.toInt ≤ 86400 := by
    rw [Int32.le_iff_toInt_le] at hmax
    exact hmax
  have hpos : ¬ secs ≤ 0 := by
    rw [Int32.le_iff_toInt_le]
    simp only [Int32.toInt_zero]
    omega
  simp only [fromTaskTimeout, new, if_neg hpos]
  rw [if_neg, if_neg]
  · simp only [maxTimeout, fromSecs]
    omega
  · simp only [minTimeout, fromSecs]
    omega

end TimeoutEnforcer

end AxonTask
