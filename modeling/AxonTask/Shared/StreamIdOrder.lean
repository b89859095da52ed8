import AxonTask.Shared.GapDetection

/-!
# The order of stream identifiers (`gap_detection.rs`)

The texts that `parse_stream_id` accepts have one hyphen, so neither number has a minus sign.
Hence the differences that `compare_stream_ids` and `estimate_missing_count` take of them are
values of an `i64`, and the comparison is the lexicographic order of the pairs of numbers.
-/

namespace AxonTask

open Lib

/-- No part of a split text contains the separator. -/
lemma notMem_of_mem_splitOn {α : Type*} [BEq α] [LawfulBEq α] {a : α} {l part : List α}
    (h : part ∈ l.splitOn a) : a ∉ part := by
  induction l generalizing part with
  | nil => simp [List.mem_singleton.1 h]
  | cons b l ih =>
    rw [List.splitOn_cons_eq_if_modifyHead] at h
    split at h
    · rcases List.mem_cons.1 h with rfl | h
      · simp
      · exact ih h
    · rename_i hb
      cases hsplit : l.splitOn a with
      | nil => exact absurd hsplit (List.splitOn_ne_nil a l)
      | cons first rest =>
        rw [hsplit, List.modifyHead_cons] at h
        rcases List.mem_cons.1 h with rfl | h
        · have hfirst : a ∉ first := ih (by simp [hsplit])
          have hab : a ≠ b := fun heq => hb (by rw [heq, beq_self_eq_true])
          simp [hab, hfirst]
        · exact ih (by simp [hsplit, h])

namespace GapDetector

variable {s t : String} {p q : Int64 × Int64}

/-- The pair of numbers, in the lexicographic order. -/
def idOf (p : Int64 × Int64) : ℤ ×ₗ ℤ := toLex (p.1.toInt, p.2.toInt)

/-- The comparison puts the first text before the second, or they stand for one pair. -/
def Precedes (s t : String) : Prop := ∃ order, compareStreamIds s t = .ok order ∧ order ≤ 0

/-- **No accepted text has a negative number.** -/
lemma parseStreamId_nonneg (h : parseStreamId s = .ok p) : 0 ≤ p.1.toInt ∧ 0 ≤ p.2.toInt := by
  unfold parseStreamId at h
  split at h
  · rename_i part₀ part₁ hsplit
    have hminus : ∀ part ∈ [part₀, part₁], '-' ∉ (String.ofList part).toList := by
      intro part hpart
      rw [String.toList_ofList]
      exact notMem_of_mem_splitOn (hsplit ▸ hpart)
    split at h
    · rename_i timestamp sequence hts hseq
      cases h
      exact ⟨nonneg_of_parseI64 (hminus part₀ (by simp)) hts,
        nonneg_of_parseI64 (hminus part₁ (by simp)) hseq⟩
    · cases h
  · cases h

/-- The difference of numbers that are not negative does not overflow. -/
lemma toInt_sub_of_nonneg {a b : Int64} (ha : 0 ≤ a.toInt) (hb : 0 ≤ b.toInt) :
    (a - b).toInt = a.toInt - b.toInt := by
  have hahigh := a.toInt_lt
  have hbhigh := b.toInt_lt
  rw [Int64.toInt_sub]
  exact Int.bmod_eq_of_le (by omega) (by omega)

/-- **What the comparison computes**: the exact difference of the first numbers that differ. -/
lemma compareStreamIds_eq_ok (hs : parseStreamId s = .ok p) (ht : parseStreamId t = .ok q) :
    ∃ order, compareStreamIds s t = .ok order ∧
      order.toInt = if p.1.toInt ≠ q.1.toInt then p.1.toInt - q.1.toInt
        else p.2.toInt - q.2.toInt := by
  obtain ⟨hp₁, hp₂⟩ := parseStreamId_nonneg hs
  obtain ⟨hq₁, hq₂⟩ := parseStreamId_nonneg ht
  refine ⟨_, by rw [compareStreamIds, hs, ht]; rfl, ?_⟩
  by_cases hts : p.1 = q.1
  · simp [hts, toInt_sub_of_nonneg hp₂ hq₂]
  · simp [hts, Int64.toInt_inj, toInt_sub_of_nonneg hp₁ hq₁]

/-- **The sign of the comparison is that of the lexicographic order.** -/
lemma compareStreamIds_sign (hs : parseStreamId s = .ok p) (ht : parseStreamId t = .ok q) :
    ∃ order, compareStreamIds s t = .ok order ∧
      (order.toInt = if p.1.toInt ≠ q.1.toInt then p.1.toInt - q.1.toInt
        else p.2.toInt - q.2.toInt) ∧
      (order < 0 ↔ idOf p < idOf q) ∧ (order = 0 ↔ p = q) ∧ (0 < order ↔ idOf q < idOf p) := by
  obtain ⟨order, horder, hvalue⟩ := compareStreamIds_eq_ok hs ht
  have hzero : (0 : Int64).toInt = 0 := rfl
  have hpair : p = q ↔ p.1.toInt = q.1.toInt ∧ p.2.toInt = q.2.toInt := by
    rw [Int64.toInt_inj, Int64.toInt_inj, Prod.ext_iff]
  refine ⟨order, horder, hvalue, ?_, ?_, ?_⟩
  · rw [Int64.lt_iff_toInt_lt, hzero, hvalue, idOf, idOf, Prod.Lex.toLex_lt_toLex]
    split <;> omega
  · rw [← Int64.toInt_inj, hzero, hvalue, hpair]
    split <;> omega
  · rw [Int64.lt_iff_toInt_lt, hzero, hvalue, idOf, idOf, Prod.Lex.toLex_lt_toLex]
    split <;> omega

lemma precedes_iff (hs : parseStreamId s = .ok p) (ht : parseStreamId t = .ok q) :
    Precedes s t ↔ idOf p ≤ idOf q := by
  obtain ⟨order, horder, -, -, -, hpos⟩ := compareStreamIds_sign hs ht
  rw [← not_lt, ← hpos, Int64.not_lt]
  constructor
  · rintro ⟨order', horder', hle⟩
    obtain rfl : order = order' := Except.ok.inj (horder.symm.trans horder')
    exact hle
  · exact fun hle => ⟨order, horder, hle⟩

lemma idOf_inj (h : idOf p = idOf q) : p = q := by
  obtain ⟨h₁, h₂⟩ := Prod.ext_iff.1 (toLex_inj.1 h)
  exact Prod.ext (Int64.toInt_inj.1 h₁) (Int64.toInt_inj.1 h₂)

/-! ### The estimate -/

lemma toNat_max_one (n : UInt64) : (max n 1).toNat = max n.toNat 1 := by
  have hone : (1 : UInt64).toNat = 1 := rfl
  change (if n ≤ 1 then 1 else n).toNat = _
  by_cases hn : n ≤ 1
  · rw [if_pos hn]
    rw [UInt64.le_iff_toNat_le, hone] at hn
    omega
  · rw [if_neg hn]
    rw [UInt64.le_iff_toNat_le, hone] at hn
    omega

/-- **The estimate is exact**: the cast of a difference that is not negative keeps it. -/
lemma estimateMissingCount_eq (hs : parseStreamId s = .ok p) (ht : parseStreamId t = .ok q)
    (hle : q.1.toInt ≤ p.1.toInt) :
    ((estimateMissingCount s t).toNat : ℤ) = max 1 ((p.1.toInt - q.1.toInt) / 100) := by
  have hq := (parseStreamId_nonneg ht).1
  have hhigh := p.1.toInt_lt
  have hdiff : (saturatingSub p.1 q.1).toInt = p.1.toInt - q.1.toInt := by
    have hsame : max (-2 ^ 63) (min (2 ^ 63 - 1) (p.1.toInt - q.1.toInt)) =
        p.1.toInt - q.1.toInt := by omega
    rw [saturatingSub, hsame, Int64.toInt_ofInt_of_le (by omega) (by omega)]
  have hcast : ((saturatingSub p.1 q.1).toUInt64.toNat : ℤ) = p.1.toInt - q.1.toInt := by
    have hnonneg : 0 ≤ saturatingSub p.1 q.1 := by
      rw [Int64.le_iff_toInt_le, hdiff]
      exact Int.sub_nonneg.2 hle
    rw [Int64.toNat_toUInt64_of_le hnonneg, ← Int64.toInt_eq_toNatClampNeg hnonneg, hdiff]
  simp only [estimateMissingCount, hs, ht]
  have hhundred : (100 : UInt64).toNat = 100 := rfl
  rw [toNat_max_one, UInt64.toNat_div, hhundred]
  omega

/-- A cursor before the first entry is reported with its estimate. -/
lemma detectGap_of_lt {info : List RedisValue} {earliest latest : String}
    (hinfo : parseXinfoStream info = .ok (earliest, latest)) (hs : parseStreamId earliest = .ok p)
    (ht : parseStreamId t = .ok q) (hlt : idOf q < idOf p) :
    ∃ gap, detectGap (.ok info) t = .ok (some gap) ∧
      (gap.estimatedMissingCount.toNat : ℤ) = max 1 ((p.1.toInt - q.1.toInt) / 100) := by
  have hne : earliest.isEmpty = false := by
    have hempty : parseStreamId "" ≠ .ok p := by
      intro h
      cases h
    have hearliest : earliest ≠ "" := by
      rintro rfl
      exact hempty hs
    simpa using hearliest
  obtain ⟨order, horder, -, hneg, -, -⟩ := compareStreamIds_sign ht hs
  have hnot : ¬ 0 ≤ order := Int64.not_le.2 (hneg.2 hlt)
  have hle : q.1.toInt ≤ p.1.toInt := by
    rcases Prod.Lex.toLex_lt_toLex.1 hlt with h | h
    · exact h.le
    · exact h.1.le
  refine ⟨
    { clientCursor := t
      earliestAvailableId := earliest
      latestAvailableId := latest
      estimatedMissingCount := estimateMissingCount earliest t
      compacted := true }, ?_, estimateMissingCount_eq hs ht hle⟩
  simp only [detectGap, Except.mapError, hinfo, bind, Except.bind, verdict, hne, horder, hnot,
    Bool.false_eq_true, if_false]
  rfl

/-- **The order of identifiers and the estimate of a gap.**  On accepted texts the comparison
is the lexicographic order, computed without overflow; and for every reply and all cursors
before its first entry the estimate is exact, and not greater for a later cursor. -/
theorem compareStreamIds_and_estimate :
    (∀ s t p q, parseStreamId s = .ok p → parseStreamId t = .ok q →
      ∃ order, compareStreamIds s t = .ok order ∧
        (order.toInt = if p.1.toInt ≠ q.1.toInt then p.1.toInt - q.1.toInt
          else p.2.toInt - q.2.toInt) ∧
        (order < 0 ↔ idOf p < idOf q) ∧ (order = 0 ↔ p = q) ∧ (0 < order ↔ idOf q < idOf p)) ∧
    (∀ s t u p q r, parseStreamId s = .ok p → parseStreamId t = .ok q → parseStreamId u = .ok r →
      Precedes s s ∧ (Precedes s t → Precedes t s → p = q) ∧
        (Precedes s t → Precedes t u → Precedes s u) ∧ (Precedes s t ∨ Precedes t s)) ∧
    ∀ info earliest latest c₁ c₂ e q₁ q₂, parseXinfoStream info = .ok (earliest, latest) →
      parseStreamId earliest = .ok e → parseStreamId c₁ = .ok q₁ → parseStreamId c₂ = .ok q₂ →
      idOf q₁ ≤ idOf q₂ → idOf q₂ < idOf e →
      ∃ gap₁ gap₂, detectGap (.ok info) c₁ = .ok (some gap₁) ∧
        detectGap (.ok info) c₂ = .ok (some gap₂) ∧
        (gap₁.estimatedMissingCount.toNat : ℤ) = max 1 ((e.1.toInt - q₁.1.toInt) / 100) ∧
        (gap₂.estimatedMissingCount.toNat : ℤ) = max 1 ((e.1.toInt - q₂.1.toInt) / 100) ∧
        gap₂.estimatedMissingCount ≤ gap₁.estimatedMissingCount := by
  refine ⟨fun s t p q hs ht => compareStreamIds_sign hs ht, ?_, ?_⟩
  · intro s t u p q r hs ht hu
    rw [precedes_iff hs hs, precedes_iff hs ht, precedes_iff ht hs, precedes_iff ht hu,
      precedes_iff hs hu]
    exact ⟨le_rfl, fun h h' => idOf_inj (le_antisymm h h'), le_trans, le_total _ _⟩
  · intro info earliest latest c₁ c₂ e q₁ q₂ hinfo he h₁ h₂ hle hlt
    obtain ⟨gap₁, hgap₁, hest₁⟩ := detectGap_of_lt hinfo he h₁ (hle.trans_lt hlt)
    obtain ⟨gap₂, hgap₂, hest₂⟩ := detectGap_of_lt hinfo he h₂ hlt
    refine ⟨gap₁, gap₂, hgap₁, hgap₂, hest₁, hest₂, ?_⟩
    have hts : q₁.1.toInt ≤ q₂.1.toInt := by
      rcases Prod.Lex.toLex_le_toLex.1 hle with h | h
      · exact h.le
      · exact h.1.le
    rw [UInt64.le_iff_toNat_le]
    omega

/-- A reply about a stream from the entry 1500-3 to the entry 1600-0. -/
def sampleInfo : List RedisValue :=
  [.data (utf8 "first-entry"), .bulk [.data (utf8 "1500-3"), .bulk []],
    .data (utf8 "last-entry"), .bulk [.data (utf8 "1600-0"), .bulk []]]

/-- Two cursors before this stream, with the estimates 5 and 3. -/
theorem compareStreamIds_and_estimate_twoCursors :
    (∃ order, compareStreamIds "1000-0" "1200-5" = .ok order ∧ order < 0) ∧
    ∃ gap₁ gap₂, detectGap (.ok sampleInfo) "1000-0" = .ok (some gap₁) ∧
      detectGap (.ok sampleInfo) "1200-5" = .ok (some gap₂) ∧
      (gap₁.estimatedMissingCount.toNat : ℤ) = 5 ∧ (gap₂.estimatedMissingCount.toNat : ℤ) = 3 ∧
      gap₂.estimatedMissingCount ≤ gap₁.estimatedMissingCount := by
  obtain ⟨hsign, -, hestimate⟩ := compareStreamIds_and_estimate
  have h₁ : parseStreamId "1000-0" = .ok (1000, 0) := rfl
  have h₂ : parseStreamId "1200-5" = .ok (1200, 5) := rfl
  have hlt : idOf (1000, 0) < idOf (1200, 5) := by decide
  constructor
  · obtain ⟨order, horder, -, hneg, -⟩ := hsign _ _ _ _ h₁ h₂
    exact ⟨order, horder, hneg.2 hlt⟩
  · exact hestimate sampleInfo "1500-3" "1600-0" _ _ (1500, 3) _ _ rfl rfl h₁ h₂ hlt.le (by decide)

end GapDetector

end AxonTask
