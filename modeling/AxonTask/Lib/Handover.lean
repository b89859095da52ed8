import Mathlib.Data.List.Nodup
import Mathlib.Logic.Function.Basic

/-!
# Items that pass from hand to hand

Several parties hold items of one kind, each in a list, and some items are done with.  Every
item is in at most one place (`Apart`).  A party that takes new items in and gives some of its
items away keeps this so (`Apart.move`), and so does one that loses some (`Apart.drop`).
-/

namespace AxonTask.Lib

variable {κ α : Type*}

/-- No item is twice among those that are done with and those that the parties hold. -/
structure Apart (done : List α) (held : κ → List α) : Prop where
  done_nodup : done.Nodup
  nodup : ∀ k, (done ++ held k).Nodup
  disjoint : ∀ k k', k ≠ k' → ∀ a ∈ held k, a ∉ held k'

namespace Apart

variable {done new out l : List α} {held : κ → List α} {k : κ} {a : α}

lemma held_nodup (h : Apart done held) (k : κ) : (held k).Nodup :=
  (List.nodup_append.1 (h.nodup k)).2.1

lemma not_mem_done (h : Apart done held) (ha : a ∈ held k) : a ∉ done := fun hd =>
  (List.nodup_append.1 (h.nodup k)).2.2 a hd a ha rfl

lemma eq_of_mem (h : Apart done held) {k' : κ} (ha : a ∈ held k) (ha' : a ∈ held k') : k = k' := by
  by_contra hne
  exact h.disjoint k k' hne a ha ha'

lemma empty (h : ∀ k, held k = []) : Apart [] held where
  done_nodup := List.nodup_nil
  nodup k := by simp [h k]
  disjoint k k' _ a ha := by simp [h k] at ha

variable [DecidableEq κ]

/-- **One party moves.**  It takes `new` items behind those that it holds, and what it gives
away from the front is done with. -/
lemma move (h : Apart done held) (hmove : held k ++ new = out ++ l) (hnodup : new.Nodup)
    (hdone : ∀ a ∈ new, a ∉ done) (hheld : ∀ a ∈ new, ∀ k, a ∉ held k) :
    Apart (done ++ out) (Function.update held k l) := by
  -- what the party holds or gives away it has held before, or it is new
  have hfrom : ∀ a, a ∈ out ∨ a ∈ l → a ∈ held k ∨ a ∈ new := by
    intro a ha
    rw [← List.mem_append, hmove, List.mem_append]
    exact ha
  have hall : (done ++ (out ++ l)).Nodup := by
    rw [← hmove, ← List.append_assoc]
    refine List.nodup_append.2 ⟨h.nodup k, hnodup, ?_⟩
    rintro a ha b hb rfl
    exact (List.mem_append.1 ha).elim (hdone a hb) (hheld a hb k)
  have hother : ∀ k', k' ≠ k → ∀ a ∈ held k', ¬ (a ∈ out ∨ a ∈ l) := by
    intro k' hne a ha hmem
    rcases hfrom a hmem with hk | hnew
    · exact h.disjoint k' k hne a ha hk
    · exact hheld a hnew k' ha
  rw [← List.append_assoc] at hall
  refine ⟨(List.nodup_append.1 hall).1, ?_, ?_⟩
  · intro k'
    rcases eq_or_ne k' k with rfl | hne
    · rwa [Function.update_self]
    · rw [Function.update_of_ne hne]
      refine List.nodup_append.2 ⟨(List.nodup_append.1 hall).1, h.held_nodup k', ?_⟩
      rintro a ha b hb rfl
      rcases List.mem_append.1 ha with hd | ho
      · exact h.not_mem_done hb hd
      · exact hother k' hne a hb (Or.inl ho)
  · intro k₁ k₂ hne a ha ha'
    rcases eq_or_ne k₁ k with rfl | h₁
    · rw [Function.update_self] at ha
      rw [Function.update_of_ne hne.symm] at ha'
      exact hother k₂ hne.symm a ha' (Or.inr ha)
    · rw [Function.update_of_ne h₁] at ha
      rcases eq_or_ne k₂ k with rfl | h₂
      · rw [Function.update_self] at ha'
        exact hother k₁ h₁ a ha (Or.inr ha')
      · rw [Function.update_of_ne h₂] at ha'
        exact h.disjoint k₁ k₂ hne a ha ha'

/-- A party loses items. -/
lemma drop (h : Apart done held) (hl : l.Sublist (held k)) :
    Apart done (Function.update held k l) := by
  refine ⟨h.done_nodup, ?_, ?_⟩
  · intro k'
    rcases eq_or_ne k' k with rfl | hne
    · rw [Function.update_self]
      exact (h.nodup k').sublist (hl.append_left _)
    · rw [Function.update_of_ne hne]
      exact h.nodup k'
  · intro k₁ k₂ hne a ha ha'
    have hmem : ∀ k', a ∈ Function.update held k l k' → a ∈ held k' := by
      intro k' hk'
      rcases eq_or_ne k' k with rfl | hne'
      · rw [Function.update_self] at hk'
        exact hl.subset hk'
      · rwa [Function.update_of_ne hne'] at hk'
    exact h.disjoint k₁ k₂ hne a (hmem k₁ ha) (hmem k₂ ha')

end Apart

end AxonTask.Lib
