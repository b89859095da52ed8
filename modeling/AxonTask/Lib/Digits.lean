import Mathlib.Algebra.Group.Nat.Defs
import Mathlib.Data.List.Basic
import Mathlib.Tactic.Common

/-!
# Numbers in a fixed number of digits

The digits of a number to a base up to sixteen, most significant first, and the number that
digits stand for.
-/

namespace AxonTask.Lib

/-- The `w` last digits of a number to the base `b`. -/
def digits (b : ℕ) : ℕ → ℕ → List Char
  | 0, _ => []
  | w + 1, n => digits b w (n / b) ++ [Nat.digitChar (n % b)]

/-- The value of a digit, in either case. -/
def digitValue? (c : Char) : Option ℕ :=
  if '0' ≤ c ∧ c ≤ '9' then some (c.toNat - 48)
  else if 'a' ≤ c ∧ c ≤ 'f' then some (c.toNat - 87)
  else if 'A' ≤ c ∧ c ≤ 'F' then some (c.toNat - 55)
  else none

/-- The number that digits to the base `b` stand for. -/
def ofDigits (b : ℕ) (l : List Char) : ℕ :=
  l.foldl (fun n c => b * n + (digitValue? c).getD 0) 0

variable {b : ℕ}

@[simp] lemma length_digits (b w n : ℕ) : (digits b w n).length = w := by
  induction w generalizing n with
  | zero => rfl
  | succ w ih => simp [digits, ih]

lemma drop_digits_append {w k : ℕ} (h : w ≤ k) (n : ℕ) (l : List Char) :
    (digits b w n ++ l).drop k = l.drop (k - w) := by
  rw [List.drop_append, List.drop_of_length_le (by simpa), List.nil_append, length_digits]

lemma exists_of_mem_digits (hb : 0 < b) {w n : ℕ} {c : Char} (h : c ∈ digits b w n) :
    ∃ d < b, c = Nat.digitChar d := by
  induction w generalizing n with
  | zero => simp [digits] at h
  | succ w ih =>
    rcases List.mem_append.1 h with h | h
    · exact ih h
    · exact ⟨n % b, Nat.mod_lt _ hb, List.mem_singleton.1 h⟩

lemma isDigit_of_mem_digits {w n : ℕ} {c : Char} (h : c ∈ digits 10 w n) : c.isDigit = true := by
  have hall : ∀ d < 10, (Nat.digitChar d).isDigit = true := by decide
  obtain ⟨d, hd, rfl⟩ := exists_of_mem_digits (by decide) h
  exact hall d hd

lemma digitValue?_digitChar {d : ℕ} (h : d < 16) : digitValue? (Nat.digitChar d) = some d := by
  have hall : ∀ d < 16, digitValue? (Nat.digitChar d) = some d := by decide
  exact hall d h

/-- **A number that fits is what its digits stand for.** -/
lemma ofDigits_digits (hb : 0 < b) (hb16 : b ≤ 16) {w n : ℕ} (h : n < b ^ w) :
    ofDigits b (digits b w n) = n := by
  induction w generalizing n with
  | zero =>
    obtain rfl : n = 0 := by simpa using h
    rfl
  | succ w ih =>
    have hdiv : n / b < b ^ w := by
      rw [Nat.div_lt_iff_lt_mul hb]
      exact h
    have hlast : n % b < 16 := Nat.lt_of_lt_of_le (Nat.mod_lt n hb) hb16
    have hhigh := ih hdiv
    simp only [ofDigits, digits, List.foldl_append, List.foldl_cons, List.foldl_nil,
      digitValue?_digitChar hlast, Option.getD_some] at hhigh ⊢
    rw [hhigh]
    exact Nat.div_add_mod n b

lemma ofDigits_ten {w n : ℕ} (h : n < 10 ^ w) : ofDigits 10 (digits 10 w n) = n :=
  ofDigits_digits (by decide) (by decide) h

/-- The digits by their places. -/
lemma digits_eq_map (w n : ℕ) :
    digits b w n = (List.range w).map fun i => Nat.digitChar (n / b ^ (w - 1 - i) % b) := by
  induction w generalizing n with
  | zero => rfl
  | succ w ih =>
    rw [digits, ih, List.range_succ, List.map_append, List.map_singleton, Nat.add_sub_cancel,
      Nat.sub_self, Nat.pow_zero, Nat.div_one]
    congr 1
    refine List.map_congr_left ?_
    intro i hi
    have hplace : w - i = w - 1 - i + 1 := by
      have hlt := List.mem_range.1 hi
      omega
    rw [hplace, Nat.pow_succ', Nat.div_div_eq_div_mul]

end AxonTask.Lib
