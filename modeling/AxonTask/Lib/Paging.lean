import Mathlib.Data.List.Count
import Mathlib.Data.List.Nodup
import Mathlib.Data.List.Sort

/-!
# Reading a list in pages while it changes

A reader asks for one page after another, each at the offset where the last one ended.  In
between the list changes: new elements come to the front, and elements go.  An element at the
front moves the others to where the reader still has to come, so it hides nothing; an element
that goes may move one other to where the reader has already been.  So the elements that the
reader misses are no more than those that have gone.
-/

namespace AxonTask.Lib

variable {α : Type*}

/-- `LIMIT limit OFFSET offset`. -/
def page (limit offset : ℕ) (l : List α) : List α := (l.drop offset).take limit

lemma take_append_page (limit offset : ℕ) (l : List α) :
    l.take offset ++ page limit offset l = l.take (offset + limit) :=
  (List.take_add ..).symm

/-- After a page that is not full there is nothing. -/
lemma take_eq_of_page_length_lt {limit offset : ℕ} {l : List α}
    (h : (page limit offset l).length < limit) : l.take (offset + limit) = l := by
  refine List.take_of_length_le ?_
  simp only [page, List.length_take, List.length_drop] at h
  omega

section Missed

variable [DecidableEq α] {base l seen : List α} {limit offset : ℕ} {x : α}

/-- The elements of the base that the reader has passed and not seen. -/
def missed (base seen : List α) (offset : ℕ) (l : List α) : ℕ :=
  (l.take offset).countP fun x => decide (x ∈ base ∧ x ∉ seen)

@[simp] lemma missed_zero (base seen l : List α) : missed base seen 0 l = 0 := by
  simp [missed]

/-- A new element at the front hides nothing. -/
lemma missed_cons_le (hx : x ∉ base) :
    missed base seen offset (x :: l) ≤ missed base seen offset l := by
  cases offset with
  | zero => simp
  | succ offset =>
    have hsub : (l.take offset).Sublist (l.take (offset + 1)) :=
      List.take_sublist_take_left (by omega)
    simpa [missed, hx] using hsub.countP_le

/-- After an element has gone, the first elements were among the first ones and one more. -/
lemma take_erase_sublist (l : List α) (x : α) (n : ℕ) :
    ((l.erase x).take n).Sublist (l.take (n + 1)) := by
  induction l generalizing n with
  | nil => simp
  | cons y l ih =>
    by_cases hy : y = x
    · subst hy
      rw [List.erase_cons_head]
      exact (List.sublist_cons_self y _)
    · rw [List.erase_cons_tail (by simpa using hy)]
      cases n with
      | zero => simp
      | succ n => exact (ih n).cons_cons y

/-- An element that goes hides at most one other. -/
lemma missed_erase_le : missed base seen offset (l.erase x) ≤ missed base seen offset l + 1 := by
  have hsub := (take_erase_sublist l x offset).countP_le
    (p := fun x => decide (x ∈ base ∧ x ∉ seen))
  refine hsub.trans ?_
  rw [List.take_add_one, List.countP_append]
  refine Nat.add_le_add_left ?_ _
  cases l[offset]? with
  | none => simp
  | some y => exact List.countP_le_length

/-- **A page hides nothing.** -/
lemma missed_page_le :
    missed base (seen ++ page limit offset l) (offset + limit) l ≤ missed base seen offset l := by
  unfold missed
  rw [← take_append_page, List.countP_append]
  have hpage : (page limit offset l).countP
      (fun x => decide (x ∈ base ∧ x ∉ seen ++ page limit offset l)) = 0 := by
    rw [List.countP_eq_zero]
    intro y hy
    simp [hy]
  rw [hpage, Nat.add_zero]
  refine List.countP_mono_left ?_
  intro y _ hy
  simp only [decide_eq_true_eq, List.mem_append, not_or] at hy ⊢
  exact ⟨hy.1, hy.2.1⟩

/-- When a page is not full, the reader has passed everything. -/
lemma missed_of_page_length_lt (base seen : List α) (h : (page limit offset l).length < limit) :
    missed base seen (offset + limit) l = l.countP fun x => decide (x ∈ base ∧ x ∉ seen) := by
  rw [missed, take_eq_of_page_length_lt h]

end Missed

/-! ### Lists in a strict order -/

/-- Lists in a strict order with the same elements are the same. -/
lemma eq_of_pairwise_of_mem_iff {r : α → α → Prop} (hasymm : ∀ a b, r a b → ¬ r b a)
    {l l' : List α} (hl : l.Pairwise r) (hl' : l'.Pairwise r) (hmem : ∀ a, a ∈ l ↔ a ∈ l') :
    l = l' := by
  have hne : ∀ a b, r a b → a ≠ b := by
    rintro a b hr rfl
    exact hasymm a a hr hr
  have hperm : l.Perm l' :=
    (List.perm_ext_iff_of_nodup (hl.imp fun hr => hne _ _ hr) (hl'.imp fun hr => hne _ _ hr)).2 hmem
  exact hperm.eq_of_pairwise (fun a b _ _ hab hba => absurd hba (hasymm a b hab)) hl hl'

end AxonTask.Lib
