import Mathlib.Data.List.Basic

/-!
# Comparing lists by an accumulator

A loop over the positions of two lists that does not stop at the first difference collects the
differences of all positions instead.  When nothing is lost by collecting, the lists agree as far
as the loop has come exactly if nothing has been collected.  The loop is one that counts up and may
fail in a round; it is reasoned about by an invariant.
-/

namespace AxonTask.Lib.Accumulator

variable {α σ : Type*}

/-! ### Counting loops -/

/-- `for i in 0..n { round }`; a round is `none` when it fails. -/
def forRange (round : ℕ → σ → Option σ) : ℕ → σ → Option σ
  | 0, s => some s
  | n + 1, s => (forRange round n s).bind (round n)

/-- **The rule for counting loops**: if every round from the invariant succeeds and keeps it, the
loop succeeds and ends with the invariant. -/
theorem forRange_rule {round : ℕ → σ → Option σ} {I : ℕ → σ → Prop} {n : ℕ} {s : σ}
    (hstart : I 0 s)
    (hround : ∀ i < n, ∀ t, I i t → ∃ t', round i t = some t' ∧ I (i + 1) t') :
    ∃ t, forRange round n s = some t ∧ I n t := by
  induction n with
  | zero => exact ⟨s, rfl, hstart⟩
  | succ n ih =>
    obtain ⟨t, hloop, ht⟩ := ih fun i hi => hround i (Nat.lt_succ_of_lt hi)
    obtain ⟨t', hlast, ht'⟩ := hround n (Nat.lt_succ_self n) t ht
    refine ⟨t', ?_, ht'⟩
    rw [forRange, hloop, Option.bind_some, hlast]

/-! ### Collecting differences -/

/-- The differences of letters, and how they are collected: the letters are equal when there is no
difference, and nothing has been collected when both parts were nothing. -/
structure Differences (α σ : Type*) where
  zero : σ
  diff : α → α → σ
  join : σ → σ → σ
  diff_eq_zero_iff : ∀ x y, diff x y = zero ↔ x = y
  join_eq_zero_iff : ∀ s t, join s t = zero ↔ s = zero ∧ t = zero

namespace Differences

variable (D : Differences α σ) {xs ys : List α}

/-- The difference at position `i` is collected; `none` when a list has no such position. -/
def round (xs ys : List α) (i : ℕ) (s : σ) : Option σ :=
  xs[i]?.bind fun x => ys[i]?.map fun y => D.join s (D.diff x y)

/-- Nothing has been collected if and only if the first `i` letters agree. -/
def Agrees (xs ys : List α) (i : ℕ) (s : σ) : Prop := s = D.zero ↔ xs.take i = ys.take i

lemma agrees_zero : D.Agrees xs ys 0 D.zero := by
  simp [Agrees]

/-- A round compares one more letter. -/
lemma agrees_round {i : ℕ} {s : σ} (hxs : i < xs.length) (hys : i < ys.length)
    (h : D.Agrees xs ys i s) :
    ∃ s', D.round xs ys i s = some s' ∧ D.Agrees xs ys (i + 1) s' := by
  refine ⟨D.join s (D.diff xs[i] ys[i]), ?_, ?_⟩
  · rw [round, List.getElem?_eq_getElem hxs, List.getElem?_eq_getElem hys]
    rfl
  · rw [Agrees, D.join_eq_zero_iff, D.diff_eq_zero_iff, List.take_succ_eq_append_getElem hxs,
      List.take_succ_eq_append_getElem hys, List.append_singleton_inj]
    exact and_congr_left' h

/-- **The loop over all positions** of lists of the same length succeeds, and it has collected
nothing if and only if they are equal. -/
theorem forRange_round (hlen : xs.length = ys.length) :
    ∃ s, forRange (D.round xs ys) xs.length D.zero = some s ∧ (s = D.zero ↔ xs = ys) := by
  obtain ⟨s, hloop, hs⟩ := forRange_rule (I := D.Agrees xs ys) D.agrees_zero
    fun i hi s h => D.agrees_round hi (hlen ▸ hi) h
  refine ⟨s, hloop, ?_⟩
  rwa [Agrees, List.take_length, hlen, List.take_length] at hs

end Differences

end AxonTask.Lib.Accumulator
