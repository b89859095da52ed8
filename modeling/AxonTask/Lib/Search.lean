import Mathlib.Data.List.Infix
import Mathlib.Data.List.TakeWhile

/-!
# Searching a text from the left

The position of the first occurrence of a pattern, and what stands behind the first occurrence of
a letter.
-/

namespace AxonTask.Lib.Search

variable {α : Type*} [DecidableEq α]

/-- The position of the first occurrence of the pattern. -/
def find (pat : List α) : List α → Option ℕ
  | [] => if pat.isEmpty then some 0 else none
  | c :: s => if pat.isPrefixOf (c :: s) then some 0 else (find pat s).map (· + 1)

/-- The first occurrence begins where the first letter of the pattern occurs first. -/
lemma find_append {a : α} {pat pre : List α} (h : a ∉ pre) (s : List α) :
    find (a :: pat) (pre ++ (a :: pat ++ s)) = some pre.length := by
  induction pre with
  | nil =>
    have hpre : (a :: pat).isPrefixOf (a :: pat ++ s) = true :=
      List.isPrefixOf_iff_prefix.2 (List.prefix_append _ _)
    rw [List.nil_append, List.cons_append, find, ← List.cons_append, if_pos hpre]
    rfl
  | cons c pre ih =>
    obtain ⟨hne, hpre⟩ := not_or.1 (mt List.mem_cons.2 h)
    have hother : ¬ (a :: pat).isPrefixOf (c :: (pre ++ (a :: pat ++ s))) = true := by
      simp [List.isPrefixOf, hne]
    rw [List.cons_append, find, if_neg hother, ih hpre]
    rfl

/-- What stands behind the first occurrence of a letter, in a text that has one. -/
lemma exists_findIdx?_append (a : α) (s t : List α) :
    ∃ i, (s ++ a :: t).findIdx? (fun c => decide (c = a)) = some i ∧
      a :: (s ++ a :: t).drop (i + 1) = s.dropWhile (fun c => decide (c ≠ a)) ++ a :: t := by
  induction s with
  | nil => exact ⟨0, by simp [List.findIdx?_cons], rfl⟩
  | cons c s ih =>
    by_cases hc : c = a
    · subst hc
      exact ⟨0, by simp [List.findIdx?_cons], by simp⟩
    · obtain ⟨i, hfind, hdrop⟩ := ih
      refine ⟨i + 1, by simp [List.findIdx?_cons, hc, hfind], ?_⟩
      rw [List.cons_append, List.drop_succ_cons, hdrop, List.dropWhile_cons_of_pos (by simp [hc])]

/-- Something is left from the first occurrence on when there is one. -/
lemma dropWhile_ne_eq_nil_iff {a : α} {s : List α} :
    s.dropWhile (fun c => decide (c ≠ a)) = [] ↔ a ∉ s := by
  rw [List.dropWhile_eq_nil_iff]
  constructor
  · intro h ha
    simpa using h a ha
  · intro h c hc
    have hne : c ≠ a := fun heq => h (heq ▸ hc)
    simpa using hne

end AxonTask.Lib.Search
