import Mathlib.Algebra.Group.Int.Defs
import Mathlib.Algebra.Group.Nat.Defs
import Mathlib.Data.List.Induction
import Mathlib.Tactic.Common

/-!
# Logs numbered by a 64-bit counter

A log is *numbered* when the counters of its entries, read as integers, are `0, 1, …, n-1`
in this order.  The successor of the last counter is either the next number or has wrapped
around to a negative one.
-/

namespace AxonTask.Lib

variable {E : Type*} {seq : E → Int64} {l : List E}

/-! ### The counter -/

/-- A counter whose successor has not become negative has been increased by one. -/
lemma toInt_succ {x : Int64} (hx : 0 ≤ x) (h : 0 ≤ x + 1) : (x + 1).toInt = x.toInt + 1 := by
  rw [Int64.le_iff_toInt_le] at hx h
  have hlt := x.toInt_lt
  rw [Int64.toInt_add] at h ⊢
  simp only [Int64.toInt_zero, Int64.toInt_one] at *
  rw [Int.bmod_def] at *
  split at h <;> omega

/-! ### Logs sorted by the counter -/

/-- Sorting by the counter gives a list in order of the counter. -/
lemma pairwise_mergeSort_le (l : List E) :
    (l.mergeSort fun a b => decide (seq a ≤ seq b)).Pairwise fun a b => seq a ≤ seq b := by
  have hsorted := @List.pairwise_mergeSort _ (fun a b => decide (seq a ≤ seq b))
    (fun a b c hab hbc => by
      simp only [decide_eq_true_eq] at hab hbc ⊢
      exact Int64.le_trans hab hbc)
    (fun a b => by
      simp only [Bool.or_eq_true, decide_eq_true_eq]
      exact Int64.le_total _ _) l
  exact hsorted.imp fun hab => by simpa using hab

/-- In a log where the counter increases, it tells the entry. -/
lemma eq_of_pairwise_lt (h : l.Pairwise fun a b => seq a < seq b) {a b : E} (ha : a ∈ l)
    (hb : b ∈ l) (hseq : seq a = seq b) : a = b := by
  obtain ⟨i, hi, rfl⟩ := List.getElem_of_mem ha
  obtain ⟨j, hj, rfl⟩ := List.getElem_of_mem hb
  rw [List.pairwise_iff_getElem] at h
  rcases Nat.lt_trichotomy i j with hij | rfl | hij
  · exact absurd (h i j hi hj hij) (hseq ▸ Int64.lt_irrefl)
  · rfl
  · exact absurd (h j i hj hi hij) (hseq ▸ Int64.lt_irrefl)

/-- Sorting the entries of a log where the counter increases gives the log. -/
lemma mergeSort_eq_of_pairwise_lt {l' : List E} (h : l.Pairwise fun a b => seq a < seq b)
    (hperm : l'.Perm l) : l'.mergeSort (fun a b => decide (seq a ≤ seq b)) = l := by
  refine List.Perm.eq_of_pairwise ?_ (pairwise_mergeSort_le l')
    (h.imp fun hab => Int64.le_of_lt hab)
    ((List.mergeSort_perm l' fun a b => decide (seq a ≤ seq b)).trans hperm)
  intro a b ha hb hab hba
  exact eq_of_pairwise_lt h (hperm.mem_iff.1 (List.mem_mergeSort.1 ha)) hb
    (Int64.le_antisymm hab hba)

/-! ### Numbered logs -/

/-- A log whose entries are labelled by their positions grows by an entry with the next
label. -/
lemma map_concat_eq_map_range {α : Type*} {f : E → α} {g : ℕ → α} {e : E} :
    (l ++ [e]).map f = (List.range (l ++ [e]).length).map g ↔
      l.map f = (List.range l.length).map g ∧ f e = g l.length := by
  simp only [List.map_append, List.length_append, List.length_singleton, List.range_succ,
    List.map_cons, List.map_nil]
  constructor
  · intro h
    obtain ⟨hl, he⟩ := List.append_inj' h rfl
    exact ⟨hl, by simpa using he⟩
  · rintro ⟨hl, he⟩
    rw [hl, he]

/-- The counters of the log are `0, 1, …, n-1`. -/
def Numbered (seq : E → Int64) (l : List E) : Prop :=
  l.map (fun e => (seq e).toInt) = (List.range l.length).map fun i : ℕ => (i : ℤ)

@[simp] lemma numbered_nil : Numbered seq [] := rfl

lemma numbered_concat {e : E} :
    Numbered seq (l ++ [e]) ↔ Numbered seq l ∧ (seq e).toInt = l.length :=
  map_concat_eq_map_range

namespace Numbered

lemma of_append {l' : List E} (h : Numbered seq (l ++ l')) : Numbered seq l := by
  induction l' using List.reverseRecOn with
  | nil => simpa using h
  | append_singleton l' e ih =>
    rw [← List.append_assoc, numbered_concat] at h
    exact ih h.1

/-- The counter of the entry at a position is the position. -/
lemma toInt_eq (h : Numbered seq l) {i : ℕ} {e : E} (he : l[i]? = some e) :
    (seq e).toInt = i := by
  obtain ⟨hi, -⟩ := List.getElem?_eq_some_iff.1 he
  have hget := congrArg (fun m => m[i]?) h
  simp only [List.getElem?_map, he, List.getElem?_range hi, Option.map_some,
    Option.some.injEq] at hget
  exact hget

lemma nonneg (h : Numbered seq l) {e : E} (he : e ∈ l) : 0 ≤ seq e := by
  obtain ⟨i, hi⟩ := List.mem_iff_getElem?.1 he
  rw [Int64.le_iff_toInt_le, h.toInt_eq hi]
  simp

/-- The counters increase along the log. -/
lemma pairwise_lt (h : Numbered seq l) : l.Pairwise fun a b => seq a < seq b := by
  rw [List.pairwise_iff_getElem]
  intro i j hi hj hij
  rw [Int64.lt_iff_toInt_lt, h.toInt_eq (List.getElem?_eq_getElem hi),
    h.toInt_eq (List.getElem?_eq_getElem hj)]
  exact_mod_cast hij

lemma nodup (h : Numbered seq l) : l.Nodup := by
  refine List.Pairwise.imp ?_ h.pairwise_lt
  rintro a b hab rfl
  exact Int64.lt_irrefl hab

/-- The counter tells the entry. -/
lemma eq_of_seq_eq (h : Numbered seq l) {a b : E} (ha : a ∈ l) (hb : b ∈ l)
    (hseq : seq a = seq b) : a = b := by
  obtain ⟨i, hi⟩ := List.mem_iff_getElem?.1 ha
  obtain ⟨j, hj⟩ := List.mem_iff_getElem?.1 hb
  have hpos := congrArg Int64.toInt hseq
  rw [h.toInt_eq hi, h.toInt_eq hj] at hpos
  obtain rfl : i = j := by exact_mod_cast hpos
  exact Option.some.inj (hi.symm.trans hj)

/-- Of a numbered log, the entries from one counter on and before another are what its
positions say. -/
lemma filter_range (h : Numbered seq l) (a b : ℤ) :
    l.filter (fun e => decide (a ≤ (seq e).toInt) && decide ((seq e).toInt < b)) =
      (l.take b.toNat).drop a.toNat := by
  induction l using List.reverseRecOn with
  | nil => simp
  | append_singleton l e ih =>
    obtain ⟨hl, he⟩ := numbered_concat.1 h
    rw [List.filter_append, ih hl]
    by_cases hb : (l.length : ℤ) < b
    · -- the last entry is before the end
      rw [List.take_of_length_le (by omega), List.take_of_length_le (by simp; omega)]
      by_cases ha : a ≤ l.length
      · rw [List.drop_append_of_le_length (by omega)]
        simp [he, ha, hb]
      · rw [List.drop_of_length_le (by omega), List.drop_of_length_le (by simp; omega)]
        simp [he, ha]
    · rw [List.take_append_of_le_length (by omega)]
      simp [he, hb]

/-- Sorting the entries of a numbered log by their counters gives the log. -/
lemma mergeSort_eq_of_perm {l' : List E} (h : Numbered seq l) (hperm : l'.Perm l) :
    l'.mergeSort (fun a b => decide (seq a ≤ seq b)) = l :=
  mergeSort_eq_of_pairwise_lt h.pairwise_lt hperm

/-- Sorting a numbered log by its counters changes nothing. -/
lemma mergeSort_eq (h : Numbered seq l) : l.mergeSort (fun a b => decide (seq a ≤ seq b)) = l :=
  h.mergeSort_eq_of_perm (List.Perm.refl l)

/-- Sorting a numbered log by decreasing counters reverses it. -/
lemma mergeSort_desc_eq (h : Numbered seq l) :
    l.mergeSort (fun a b => decide (seq b ≤ seq a)) = l.reverse := by
  have hsorted := @List.pairwise_mergeSort _ (fun a b => decide (seq b ≤ seq a))
    (fun a b c hab hbc => by
      simp only [decide_eq_true_eq] at hab hbc ⊢
      exact Int64.le_trans hbc hab)
    (fun a b => by
      simp only [Bool.or_eq_true, decide_eq_true_eq]
      exact Int64.le_total _ _) l
  have hperm := (List.mergeSort_perm l fun a b => decide (seq b ≤ seq a)).trans
    (List.reverse_perm l).symm
  refine List.Perm.eq_of_pairwise ?_ hsorted ?_ hperm
  · intro a b ha hb hab hba
    simp only [decide_eq_true_eq] at hab hba
    exact h.eq_of_seq_eq (List.mem_mergeSort.1 ha) (List.mem_reverse.1 hb)
      (Int64.le_antisymm hba hab)
  · rw [List.pairwise_reverse]
    exact h.pairwise_lt.imp fun hab => by simpa using Int64.le_of_lt hab

end Numbered

/-! ### Logs that follow the counter -/

/-- The counters of the log are the first values of the counter, which wraps around. -/
def Counted (seq : E → Int64) (l : List E) : Prop :=
  l.map seq = (List.range l.length).map Int64.ofNat

@[simp] lemma counted_nil : Counted seq [] := rfl

lemma counted_concat {e : E} :
    Counted seq (l ++ [e]) ↔ Counted seq l ∧ seq e = Int64.ofNat l.length :=
  map_concat_eq_map_range

lemma Counted.seq_getElem (h : Counted seq l) {i : ℕ} (hi : i < l.length) :
    seq l[i] = Int64.ofNat i := by
  have hget := congrArg (fun m => m[i]?) h
  simpa [List.getElem?_range hi, hi] using hget

/-- Such a log is numbered until the counter has taken all its nonnegative values. -/
lemma Counted.numbered_iff (h : Counted seq l) : Numbered seq l ↔ l.length ≤ 2 ^ 63 := by
  constructor
  · intro hn
    by_contra hlen
    have hlt : 2 ^ 63 < l.length := Nat.lt_of_not_le hlen
    have hseq := hn.toInt_eq (List.getElem?_eq_getElem hlt)
    have hmax := (seq l[2 ^ 63]).toInt_lt
    rw [hseq] at hmax
    simp at hmax
  · intro hlen
    have hmap := congrArg (List.map Int64.toInt) h
    rw [List.map_map, List.map_map] at hmap
    refine hmap.trans (List.map_congr_left ?_)
    intro i hi
    exact Int64.toInt_ofNat_of_lt (Nat.lt_of_lt_of_le (List.mem_range.1 hi) hlen)

end AxonTask.Lib
