import Mathlib.Algebra.Group.Int.Defs
import Mathlib.Algebra.Group.Nat.Defs
import Mathlib.Data.List.Basic
import Mathlib.Tactic.Common

/-!
# 64-bit integers in decimal

The text of an `i64` and the reader of such texts, which also accepts a plus sign and
leading zeros.
-/

namespace AxonTask.Lib

/-- `i64::to_string`. -/
def i64ToString (x : Int64) : String :=
  String.ofList <|
    if x.toInt < 0 then '-' :: Nat.toDigits 10 x.toInt.natAbs else Nat.toDigits 10 x.toInt.natAbs

/-- `std::num::ParseIntError`. -/
inductive ParseIntError
  | empty | invalidDigit | posOverflow | negOverflow
deriving DecidableEq, Repr

/-- `impl Display for ParseIntError`. -/
def ParseIntError.toString : ParseIntError → String
  | empty => "cannot parse integer from empty string"
  | invalidDigit => "invalid digit found in string"
  | posOverflow => "number too large to fit in target type"
  | negOverflow => "number too small to fit in target type"

/-- The largest absolute value of an `i64` with a sign. -/
def i64Limit (negative : Bool) : ℕ := if negative then 2 ^ 63 else 2 ^ 63 - 1

/-- The loop of `i64::from_str` over the digits after the sign, with the absolute value so
far. -/
def parseDigits (negative : Bool) : ℕ → List Char → Except ParseIntError ℕ
  | n, [] => .ok n
  | n, c :: l =>
    if !c.isDigit then .error .invalidDigit
    else if i64Limit negative < 10 * n + (c.toNat - '0'.toNat) then
      .error (if negative then .negOverflow else .posOverflow)
    else parseDigits negative (10 * n + (c.toNat - '0'.toNat)) l

/-- `i64::from_str`. -/
def parseI64 (s : String) : Except ParseIntError Int64 :=
  match s.toList with
  | [] => .error .empty
  | c :: l =>
    if c = '-' ∨ c = '+' then
      if l = [] then .error .invalidDigit
      else if c = '-' then (parseDigits true 0 l).map fun n : ℕ => Int64.ofInt (-n)
      else (parseDigits false 0 l).map fun n : ℕ => Int64.ofInt n
    else (parseDigits false 0 (c :: l)).map fun n : ℕ => Int64.ofInt n

/-! ### Reading what was printed -/

lemma le_ofDigitChars (l : List Char) (n : ℕ) : n ≤ Nat.ofDigitChars 10 l n := by
  induction l generalizing n with
  | nil => simp
  | cons c l ih =>
    rw [Nat.ofDigitChars_cons]
    exact Nat.le_trans (by omega) (ih _)

lemma parseDigits_eq {negative : Bool} {l : List Char} {n : ℕ}
    (hdigit : ∀ c ∈ l, c.isDigit = true) (hlimit : Nat.ofDigitChars 10 l n ≤ i64Limit negative) :
    parseDigits negative n l = .ok (Nat.ofDigitChars 10 l n) := by
  induction l generalizing n with
  | nil => simp [parseDigits]
  | cons c l ih =>
    rw [Nat.ofDigitChars_cons] at hlimit ⊢
    have hfits := Nat.le_trans (le_ofDigitChars l _) hlimit
    rw [parseDigits, if_neg (by simp [hdigit c]), if_neg (Nat.not_lt.2 hfits)]
    exact ih (fun d hd => hdigit d (List.mem_cons_of_mem _ hd)) hlimit

lemma parseDigits_eq_error {l : List Char} {n : ℕ} (hdigit : ∀ c ∈ l, c.isDigit = true)
    (hn : n ≤ i64Limit false) (hlimit : i64Limit false < Nat.ofDigitChars 10 l n) :
    parseDigits false n l = .error .posOverflow := by
  induction l generalizing n with
  | nil => exact absurd hn (Nat.not_le.2 (by simpa using hlimit))
  | cons c l ih =>
    rw [Nat.ofDigitChars_cons] at hlimit
    rw [parseDigits, if_neg (by simp [hdigit c])]
    by_cases hfits : i64Limit false < 10 * n + (c.toNat - '0'.toNat)
    · rw [if_pos hfits, if_neg (by decide)]
    · rw [if_neg hfits]
      exact ih (fun d hd => hdigit d (List.mem_cons_of_mem _ hd)) (Nat.not_lt.1 hfits) hlimit

/-- **Digits without a sign** are read when their number fits. -/
lemma parseI64_ofList {l : List Char} (hne : l ≠ []) (hdigit : ∀ c ∈ l, c.isDigit = true) :
    parseI64 (String.ofList l) =
      if Nat.ofDigitChars 10 l 0 < 2 ^ 63 then
        .ok (Int64.ofInt (Nat.ofDigitChars 10 l 0 : ℕ))
      else .error .posOverflow := by
  have hlimit : i64Limit false = 2 ^ 63 - 1 := rfl
  cases l with
  | nil => exact absurd rfl hne
  | cons c l =>
    have hsign : ¬ (c = '-' ∨ c = '+') := by
      rintro (rfl | rfl)
      · exact absurd (hdigit '-' List.mem_cons_self) (by decide)
      · exact absurd (hdigit '+' List.mem_cons_self) (by decide)
    simp only [parseI64, String.toList_ofList, if_neg hsign]
    by_cases hfits : Nat.ofDigitChars 10 (c :: l) 0 < 2 ^ 63
    · rw [if_pos hfits, parseDigits_eq hdigit (by omega), Except.map]
    · rw [if_neg hfits, parseDigits_eq_error hdigit (Nat.zero_le _) (by omega), Except.map]

lemma parseDigits_le {negative : Bool} {l : List Char} {n m : ℕ} (hn : n ≤ i64Limit negative)
    (h : parseDigits negative n l = .ok m) : m ≤ i64Limit negative := by
  induction l generalizing n with
  | nil =>
    cases h
    exact hn
  | cons c l ih =>
    rw [parseDigits] at h
    split at h
    · cases h
    · split at h
      · cases h
      · rename_i hfits
        exact ih (Nat.not_lt.1 hfits) h

/-- What is read of a text without a minus sign is not negative. -/
lemma nonneg_of_parseI64 {s : String} {x : Int64} (hminus : '-' ∉ s.toList)
    (h : parseI64 s = .ok x) : 0 ≤ x.toInt := by
  have hread : ∃ l, (parseDigits false 0 l).map (fun n : ℕ => Int64.ofInt n) = .ok x := by
    unfold parseI64 at h
    split at h
    · cases h
    · rename_i c l hchars
      have hc : c ≠ '-' := by
        rintro rfl
        exact hminus (by simp [hchars])
      simp only [hc, false_or, if_false] at h
      split at h
      · split at h
        · cases h
        · exact ⟨l, h⟩
      · exact ⟨c :: l, h⟩
  obtain ⟨l, hl⟩ := hread
  cases hdigits : parseDigits false 0 l with
  | error e => simp [hdigits, Except.map] at hl
  | ok n =>
    rw [hdigits] at hl
    cases hl
    have hn : n ≤ 2 ^ 63 - 1 := parseDigits_le (Nat.zero_le _) hdigits
    rw [Int64.toInt_ofInt_of_le (by omega) (by omega)]
    exact Int.natCast_nonneg n

lemma parseDigits_toDigits {negative : Bool} {m : ℕ} (h : m ≤ i64Limit negative) :
    parseDigits negative 0 (Nat.toDigits 10 m) = .ok m := by
  have hvalue : Nat.ofDigitChars 10 (Nat.toDigits 10 m) 0 = m :=
    Nat.ofDigitChars_toDigits (by decide) (by decide)
  have hdigit : ∀ c ∈ Nat.toDigits 10 m, c.isDigit = true := fun c hc =>
    Nat.isDigit_of_mem_toDigits (by decide) (by decide) hc
  have hlimit : Nat.ofDigitChars 10 (Nat.toDigits 10 m) 0 ≤ i64Limit negative := by rwa [hvalue]
  rw [parseDigits_eq hdigit hlimit, hvalue]

/-- **Reading the text of a number gives the number.** -/
lemma parseI64_i64ToString (x : Int64) : parseI64 (i64ToString x) = .ok x := by
  have hlow := x.le_toInt
  have hhigh := x.toInt_lt
  have hne : Nat.toDigits 10 x.toInt.natAbs ≠ [] := Nat.toDigits_ne_nil
  by_cases hneg : x.toInt < 0
  · -- a minus sign, then the digits of the absolute value
    have habs : -(x.toInt.natAbs : ℤ) = x.toInt := by omega
    have hfits : x.toInt.natAbs ≤ i64Limit true := by
      rw [i64Limit, if_pos rfl]
      omega
    rw [parseI64, i64ToString, String.toList_ofList, if_pos hneg]
    simp only [true_or, if_true, if_neg hne, parseDigits_toDigits hfits, Except.map, habs,
      Int64.ofInt_toInt]
  · have habs : (x.toInt.natAbs : ℤ) = x.toInt := by omega
    have hdigit : ∀ c ∈ Nat.toDigits 10 x.toInt.natAbs, c.isDigit = true := fun c hc =>
      Nat.isDigit_of_mem_toDigits (by decide) (by decide) hc
    have hvalue : Nat.ofDigitChars 10 (Nat.toDigits 10 x.toInt.natAbs) 0 = x.toInt.natAbs :=
      Nat.ofDigitChars_toDigits (by decide) (by decide)
    rw [i64ToString, if_neg hneg, parseI64_ofList hne hdigit, hvalue, if_pos (by omega), habs,
      Int64.ofInt_toInt]

example : parseI64 "+0042" = .ok 42 := by decide +kernel

end AxonTask.Lib
