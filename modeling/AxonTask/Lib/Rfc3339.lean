import AxonTask.Lib.Digits
import Mathlib.Algebra.Group.Int.Defs
import Mathlib.Algebra.Order.BigOperators.Group.List
import Mathlib.Algebra.Ring.Nat
import Mathlib.Tactic.Common

/-!
# RFC 3339 texts of UTC instants

An instant is a number of nanoseconds since the Unix epoch.  Its text has the date and the
time of day in fixed widths, a fraction of three, six or nine digits where the instant is
not a whole second, and the offset `+00:00`.  The calendar is the proleptic Gregorian one,
in periods of 400 years from the year 0 on.

For the years 0 to 9999 the text can be read back (`read_print`), also when it stands at the
end of a longer text (`print_inj_of_append`): its length shows in the digits before the
offset and in what stands before them.
-/

namespace AxonTask.Lib.Rfc3339

/-! ### Blocks of days -/

/-- The block in which the `n`-th day of consecutive blocks lies, and its place there. -/
def locate : List ℕ → ℕ → ℕ × ℕ
  | [], n => (0, n)
  | len :: lens, n =>
    if n < len then (0, n) else ((locate lens (n - len)).1 + 1, (locate lens (n - len)).2)

/-- The day at a place of a block. -/
def unlocate (lens : List ℕ) (block place : ℕ) : ℕ := (lens.take block).sum + place

lemma unlocate_locate (lens : List ℕ) (n : ℕ) :
    unlocate lens (locate lens n).1 (locate lens n).2 = n := by
  induction lens generalizing n with
  | nil => simp [unlocate, locate]
  | cons len lens ih =>
    unfold locate
    split
    · simp [unlocate]
    · have hrest := ih (n - len)
      simp only [unlocate, List.take_succ_cons, List.sum_cons] at hrest ⊢
      omega

/-- The place is one of the block's own days. -/
lemma locate_snd_lt_getD {lens : List ℕ} {n : ℕ} (h : n < lens.sum) :
    (locate lens n).2 < lens.getD (locate lens n).1 0 := by
  induction lens generalizing n with
  | nil => simp at h
  | cons len lens ih =>
    unfold locate
    rw [List.sum_cons] at h
    split
    · simpa
    · simpa using ih (n := n - len) (by omega)

lemma locate_fst_lt {lens : List ℕ} {n : ℕ} (h : n < lens.sum) :
    (locate lens n).1 < lens.length := by
  by_contra hge
  have hplace := locate_snd_lt_getD h
  rw [List.getD_eq_getElem?_getD, List.getElem?_eq_none (not_lt.1 hge)] at hplace
  exact absurd hplace (Nat.not_lt_zero _)

lemma locate_snd_lt {lens : List ℕ} {n m : ℕ} (h : n < lens.sum) (hm : ∀ len ∈ lens, len ≤ m) :
    (locate lens n).2 < m := by
  have hplace := locate_snd_lt_getD h
  rw [List.getD_eq_getElem?_getD, List.getElem?_eq_getElem (locate_fst_lt h)] at hplace
  exact Nat.lt_of_lt_of_le hplace (hm _ (List.getElem_mem _))

/-! ### The calendar -/

/-- Whether a year has 366 days. -/
def isLeap (y : ℕ) : Bool := y % 4 == 0 && (y % 100 != 0 || y % 400 == 0)

/-- The lengths of the months. -/
def monthLengths (leap : Bool) : List ℕ :=
  [31, if leap then 29 else 28, 31, 30, 31, 30, 31, 31, 30, 31, 30, 31]

/-- The lengths of the years of a period. -/
def yearLengths : List ℕ := (List.range 400).map fun y => if isLeap y then 366 else 365

/-- The days of a period of 400 years. -/
def periodLength : ℕ := 146097

lemma sum_yearLengths : yearLengths.sum = periodLength := by decide +kernel

lemma sum_monthLengths (leap : Bool) :
    (monthLengths leap).sum = if leap then 366 else 365 := by
  cases leap <;> rfl

/-- A day, counted from 1 January of the year 0. -/
structure Date where
  year : ℕ
  month : ℕ
  day : ℕ
deriving DecidableEq, Repr

/-- The date of a day. -/
def dateOf (n : ℕ) : Date :=
  let (y, dayOfYear) := locate yearLengths (n % periodLength)
  let (m, d) := locate (monthLengths (isLeap y)) dayOfYear
  ⟨400 * (n / periodLength) + y, m + 1, d + 1⟩

/-- The day with a date. -/
def dayOf (date : Date) : ℕ :=
  periodLength * (date.year / 400) + unlocate yearLengths (date.year % 400)
    (unlocate (monthLengths (isLeap (date.year % 400))) (date.month - 1) (date.day - 1))

lemma periodLength_pos : 0 < periodLength := Nat.succ_pos _

lemma mod_lt_sum_yearLengths (n : ℕ) : n % periodLength < yearLengths.sum := by
  rw [sum_yearLengths]
  exact Nat.mod_lt _ periodLength_pos

lemma length_yearLengths : yearLengths.length = 400 := by simp [yearLengths]

lemma year_lt (n : ℕ) : (locate yearLengths (n % periodLength)).1 < 400 :=
  length_yearLengths ▸ locate_fst_lt (mod_lt_sum_yearLengths n)

lemma dayOf_dateOf (n : ℕ) : dayOf (dateOf n) = n := by
  have hy := year_lt n
  have hdiv : (400 * (n / periodLength) + (locate yearLengths (n % periodLength)).1) / 400 =
      n / periodLength := by omega
  have hmod : (400 * (n / periodLength) + (locate yearLengths (n % periodLength)).1) % 400 =
      (locate yearLengths (n % periodLength)).1 := by omega
  simp only [dayOf, dateOf, hdiv, hmod, Nat.add_sub_cancel, unlocate_locate]
  exact Nat.div_add_mod n periodLength

lemma getD_yearLengths {y : ℕ} (hy : y < 400) :
    yearLengths.getD y 0 = (monthLengths (isLeap y)).sum := by
  rw [sum_monthLengths, yearLengths, List.getD_eq_getElem?_getD, List.getElem?_map,
    List.getElem?_range hy]
  rfl

/-- The date of a day fits into its fixed widths, up to the year 9999. -/
lemma dateOf_lt {n : ℕ} (h : n < 25 * periodLength) :
    (dateOf n).year < 10 ^ 4 ∧ (dateOf n).month < 10 ^ 2 ∧ (dateOf n).day < 10 ^ 2 := by
  have hy := year_lt n
  have hday := locate_snd_lt_getD (mod_lt_sum_yearLengths n)
  rw [getD_yearLengths hy] at hday
  have hmonth := locate_fst_lt hday
  have hplace := locate_snd_lt (m := 31) hday (by
    generalize isLeap _ = leap
    cases leap <;> decide)
  have hlength : ∀ leap, (monthLengths leap).length = 12 := fun _ => rfl
  rw [hlength] at hmonth
  have hn : n / periodLength < 25 := by
    rw [Nat.div_lt_iff_lt_mul periodLength_pos]
    exact h
  simp only [dateOf]
  omega

/-! ### Texts -/

/-- The nanoseconds of a second. -/
def secondLength : ℕ := 10 ^ 9

/-- The nanoseconds of a day. -/
def dayLength : ℕ := 86400 * secondLength

/-- The nanoseconds from the beginning of the year 0 to the Unix epoch. -/
def epoch : ℕ := 62167219200 * secondLength

/-- The instants of the years 0 to 9999. -/
def FourDigitYear (t : ℤ) : Prop :=
  -62167219200 * 10 ^ 9 ≤ t ∧ t < 253402300800 * 10 ^ 9

instance (t : ℤ) : Decidable (FourDigitYear t) := inferInstanceAs (Decidable (_ ∧ _))

/-- The fraction of a second, in three, six or nine digits. -/
def fraction (ns : ℕ) : List Char :=
  if ns = 0 then []
  else if ns % 10 ^ 6 = 0 then '.' :: digits 10 3 (ns / 10 ^ 6)
  else if ns % 10 ^ 3 = 0 then '.' :: digits 10 6 (ns / 10 ^ 3)
  else '.' :: digits 10 9 ns

/-- The offset of UTC. -/
def offset : List Char := ['+', '0', '0', ':', '0', '0']

/-- The text of a second of a day and the nanoseconds after it. -/
def printFields (date : Date) (second ns : ℕ) : List Char :=
  digits 10 4 date.year ++ '-' :: (digits 10 2 date.month ++ '-' :: (digits 10 2 date.day ++ 'T' ::
    (digits 10 2 (second / 3600) ++ ':' :: (digits 10 2 (second / 60 % 60) ++ ':' ::
      (digits 10 2 (second % 60) ++ (fraction ns ++ offset))))))

/-- The text of an instant, as a list of characters. -/
def printChars (t : ℤ) : List Char :=
  let n := (t + epoch).toNat
  printFields (dateOf (n / dayLength)) (n % dayLength / secondLength) (n % secondLength)

/-- The text of an instant. -/
def print (t : ℤ) : String := String.ofList (printChars t)

example : print (1735992000 * 10 ^ 9 + 25 * 10 ^ 7) = "2025-01-04T12:00:00.250+00:00" := by
  decide +kernel

/-! ### Reading a text -/

/-- The nanoseconds that a fraction stands for. -/
def readFraction : List Char → ℕ
  | '.' :: l =>
    ofDigits 10 (l.takeWhile Char.isDigit) * 10 ^ (9 - (l.takeWhile Char.isDigit).length)
  | _ => 0

/-- The instant with a text. -/
def readChars (l : List Char) : ℤ :=
  let date : Date :=
    ⟨ofDigits 10 (l.take 4), ofDigits 10 ((l.drop 5).take 2), ofDigits 10 ((l.drop 8).take 2)⟩
  let second := 3600 * ofDigits 10 ((l.drop 11).take 2) + 60 * ofDigits 10 ((l.drop 14).take 2) +
    ofDigits 10 ((l.drop 17).take 2)
  (dayOf date * dayLength + second * secondLength + readFraction (l.drop 19) : ℕ) - (epoch : ℤ)

/-- The instant with a text, if it has one. -/
def read (s : String) : Option ℤ :=
  if printChars (readChars s.toList) = s.toList then some (readChars s.toList) else none

/-- Digits end where no digit follows. -/
lemma takeWhile_isDigit {l l' : List Char} {c : Char} (hl : ∀ d ∈ l, d.isDigit = true)
    (hc : c.isDigit = false) : (l ++ c :: l').takeWhile Char.isDigit = l := by
  rw [List.takeWhile_append_of_pos hl, List.takeWhile_cons_of_neg (by simp [hc]),
    List.append_nil]

lemma readFraction_fraction {ns : ℕ} (h : ns < 10 ^ 9) :
    readFraction (fraction ns ++ offset) = ns := by
  have hread : ∀ w m, m < 10 ^ w →
      readFraction (('.' :: digits 10 w m) ++ offset) = m * 10 ^ (9 - w) := by
    intro w m hm
    rw [List.cons_append, readFraction, offset,
      takeWhile_isDigit (fun d hd => isDigit_of_mem_digits hd) (by decide), length_digits,
      ofDigits_ten hm]
  unfold fraction
  split
  · next hzero => simp [hzero, readFraction, offset]
  · split
    · rw [hread 3 _ (by omega)]
      omega
    · split
      · rw [hread 6 _ (by omega)]
        omega
      · rw [hread 9 _ h]
        omega

lemma readChars_printFields {date : Date} {second ns : ℕ} (hyear : date.year < 10 ^ 4)
    (hmonth : date.month < 10 ^ 2) (hday : date.day < 10 ^ 2) (hsecond : second < 86400)
    (hns : ns < 10 ^ 9) :
    readChars (printFields date second ns) =
      (dayOf date * dayLength + second * secondLength + ns : ℕ) - (epoch : ℤ) := by
  have hhour : second / 3600 < 10 ^ 2 := by omega
  have hminute : second / 60 % 60 < 10 ^ 2 := by omega
  have hrest : second % 60 < 10 ^ 2 := by omega
  have hclock : 3600 * (second / 3600) + 60 * (second / 60 % 60) + second % 60 = second := by omega
  simp only [readChars, printFields, length_digits, List.take_left', ofDigits_ten hyear,
    Nat.reduceLeDiff, drop_digits_append, Nat.reduceSub, List.drop_succ_cons, List.drop_zero,
    ofDigits_ten hmonth, ofDigits_ten hday, ofDigits_ten hhour, ofDigits_ten hminute,
    ofDigits_ten hrest, List.drop_left', readFraction_fraction hns, hclock]

/-- **The text of an instant can be read back.** -/
theorem readChars_printChars {t : ℤ} (ht : FourDigitYear t) : readChars (printChars t) = t := by
  obtain ⟨hlow, hhigh⟩ := ht
  have hn : ((t + epoch).toNat : ℤ) = t + epoch := by
    rw [epoch, secondLength]
    omega
  have hlt : (t + epoch).toNat < 25 * periodLength * dayLength := by
    simp only [epoch, periodLength, dayLength, secondLength] at hn ⊢
    omega
  rw [printChars]
  generalize (t + epoch).toNat = n at hn hlt
  have hday : n / dayLength < 25 * periodLength := by
    rwa [Nat.div_lt_iff_lt_mul (by decide)]
  obtain ⟨hyear, hmonth, hplace⟩ := dateOf_lt hday
  rw [readChars_printFields hyear hmonth hplace, dayOf_dateOf]
  · simp only [dayLength, secondLength]
    omega
  · simp only [dayLength, secondLength]
    omega
  · simp only [secondLength]
    omega

theorem read_print {t : ℤ} (ht : FourDigitYear t) : read (print t) = some t := by
  simp [read, print, readChars_printChars ht]

/-! ### A text at the end of a longer one -/

/-- The length of the text at the end of a list of characters. -/
def tailLength (l : List Char) : ℕ :=
  let r := l.reverse.drop offset.length
  let w := (r.takeWhile Char.isDigit).length
  if (r.drop w).head? = some '.' then 19 + (w + 1) + offset.length else 19 + offset.length

lemma fraction_cases (ns : ℕ) : fraction ns = [] ∨ ∃ w m, fraction ns = '.' :: digits 10 w m := by
  unfold fraction
  split
  · exact Or.inl rfl
  · refine Or.inr ?_
    split
    · exact ⟨3, _, rfl⟩
    · split
      · exact ⟨6, _, rfl⟩
      · exact ⟨9, _, rfl⟩

lemma length_printFields (date : Date) (second ns : ℕ) :
    (printFields date second ns).length = 19 + (fraction ns).length + offset.length := by
  simp [printFields]
  omega

/-- The digits before the offset and what stands before them tell the length. -/
lemma tailLength_append_printFields (l : List Char) (date : Date) (second ns : ℕ) :
    tailLength (l ++ printFields date second ns) = (printFields date second ns).length := by
  -- the text up to the colon before the seconds does not matter
  obtain ⟨l', hl'⟩ : ∃ l', l ++ printFields date second ns =
      l' ++ ':' :: (digits 10 2 (second % 60) ++ (fraction ns ++ offset)) := by
    refine ⟨l ++ (digits 10 4 date.year ++ '-' :: (digits 10 2 date.month ++ '-' ::
      (digits 10 2 date.day ++ 'T' :: (digits 10 2 (second / 3600) ++ ':' ::
        digits 10 2 (second / 60 % 60))))), ?_⟩
    simp [printFields]
  have hdigit : ∀ w n, ∀ c ∈ (digits 10 w n).reverse, c.isDigit = true := fun w n c hc =>
    isDigit_of_mem_digits (List.mem_reverse.1 hc)
  rw [hl', length_printFields]
  rcases fraction_cases ns with hns | ⟨w, m, hns⟩
  · have hrev : (l' ++ ':' :: (digits 10 2 (second % 60) ++ (fraction ns ++ offset))).reverse.drop
        offset.length = (digits 10 2 (second % 60)).reverse ++ ':' :: l'.reverse := by
      simp [hns, offset]
    rw [tailLength, hrev, takeWhile_isDigit (hdigit _ _) (by decide)]
    simp [hns]
  · have hrev : (l' ++ ':' :: (digits 10 2 (second % 60) ++ (fraction ns ++ offset))).reverse.drop
        offset.length = (digits 10 w m).reverse ++ '.' ::
          ((digits 10 2 (second % 60)).reverse ++ ':' :: l'.reverse) := by
      simp [hns, offset]
    rw [tailLength, hrev, takeWhile_isDigit (hdigit _ _) (by decide)]
    simp [hns]

/-- **A text at the end of a longer one can be read back.** -/
theorem print_inj_of_append {l l' : List Char} {t t' : ℤ} (ht : FourDigitYear t)
    (ht' : FourDigitYear t') (h : l ++ printChars t = l' ++ printChars t') : l = l' ∧ t = t' := by
  have hlength : (printChars t).length = (printChars t').length := by
    have htail := congrArg tailLength h
    rwa [printChars, printChars, tailLength_append_printFields,
      tailLength_append_printFields] at htail
  obtain ⟨hl, hchars⟩ := List.append_inj' h hlength
  refine ⟨hl, ?_⟩
  rw [← readChars_printChars ht, hchars, readChars_printChars ht']

end AxonTask.Lib.Rfc3339
