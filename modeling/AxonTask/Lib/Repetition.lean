import Mathlib.Data.List.Destutter
import Mathlib.Tactic.Common

/-!
# Lists with repetitions

What a sender that tries again leaves behind it: every element, in their order, between once and
`n` times.  A reader that skips what repeats the element before it gets the list back.
-/

namespace AxonTask.Lib

variable {α : Type*} {n : ℕ} {l l' : List α}

/-- Every element is repeated, between once and `n` times. -/
inductive Repeats (n : ℕ) : List α → List α → Prop
  | nil : Repeats n [] []
  | cons {a : α} {c : ℕ} {l l' : List α} (pos : 0 < c) (le : c ≤ n) (rest : Repeats n l l') :
    Repeats n (a :: l) (List.replicate c a ++ l')

namespace Repeats

section Destutter

variable {R : α → α → Prop} [DecidableRel R]

lemma destutter'_replicate_append {a : α} (ha : ¬ R a a) (c : ℕ) (l : List α) :
    (List.replicate c a ++ l).destutter' R a = l.destutter' R a := by
  induction c with
  | zero => rfl
  | succ c ih => rw [List.replicate_succ, List.cons_append, List.destutter'_cons_neg _ ha, ih]

/-- The list after an element that is related to the first of it. -/
lemma destutter'_eq (h : Repeats n l l') {a : α} (hirrefl : ∀ b, ¬ R b b)
    (hchain : (a :: l).IsChain R) : l'.destutter' R a = a :: l := by
  induction h generalizing a with
  | nil => rfl
  | @cons b c l l' pos le rest ih =>
    obtain ⟨c, rfl⟩ := Nat.exists_eq_add_one.2 pos
    obtain ⟨hab, hrest⟩ := List.isChain_cons_cons.1 hchain
    rw [List.replicate_succ, List.cons_append, List.destutter'_cons_pos _ hab,
      destutter'_replicate_append (hirrefl b), ih hrest]

/-- **The repetitions can be skipped.** -/
lemma destutter_eq (h : Repeats n l l') (hirrefl : ∀ b, ¬ R b b) (hchain : l.IsChain R) :
    l'.destutter R = l := by
  cases h with
  | nil => rfl
  | @cons b c l l' pos le rest =>
    obtain ⟨c, rfl⟩ := Nat.exists_eq_add_one.2 pos
    rw [List.replicate_succ, List.cons_append, List.destutter_cons',
      destutter'_replicate_append (hirrefl b), rest.destutter'_eq hirrefl hchain]

end Destutter

end Repeats

end AxonTask.Lib
