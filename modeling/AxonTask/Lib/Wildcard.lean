import Mathlib.Data.List.Infix
import Mathlib.Data.Set.BooleanAlgebra
import Mathlib.Order.Closure
import Mathlib.Order.CompletePartialOrder

/-!
# Wildcard patterns

Patterns are words over an alphabet with two special letters, written `:` and `*` here.  A word
covers itself, `*` covers every word, and `p:*` covers the words that start with `p:`.  Since
patterns are words, they are covered by other patterns.  Covering is transitive as soon as the
two letters differ, so what a set of patterns grants is the value of a closure operator.
-/

namespace AxonTask.Lib.Wildcard

variable {α : Type*} (sep star : α)

/-- The word `s` is a wildcard, and it matches `r`. -/
def Matches (s r : List α) : Prop :=
  s = [star] ∨ ∃ p, s = p ++ [sep, star] ∧ p ++ [sep] <+: r

/-- The word `s` is `r`, or a wildcard that matches it. -/
def Covers (s r : List α) : Prop := s = r ∨ Matches sep star s r

variable {sep star}

lemma Covers.refl (s : List α) : Covers sep star s s := Or.inl rfl

lemma append_sep_star (p : List α) : p ++ [sep, star] = p ++ [sep] ++ [star] := by simp

/-- The test by the ends of the word. -/
lemma matches_iff_dropLast {s r : List α} :
    Matches sep star s r ↔ s = [star] ∨ [sep, star] <:+ s ∧ s.dropLast <+: r := by
  have hdrop : ∀ p : List α, (p ++ [sep, star]).dropLast = p ++ [sep] := by
    intro p
    rw [append_sep_star, List.dropLast_concat]
  refine or_congr_right ?_
  constructor
  · rintro ⟨p, rfl, hp⟩
    exact ⟨List.suffix_append p _, by rwa [hdrop]⟩
  · rintro ⟨⟨p, rfl⟩, hp⟩
    exact ⟨p, rfl, by rwa [hdrop] at hp⟩

/-- What stands before the star of a wildcard. -/
lemma prefix_of_prefix_wildcard (hne : sep ≠ star) {p q : List α}
    (h : p ++ [sep] <+: q ++ [sep, star]) : p ++ [sep] <+: q ++ [sep] := by
  rw [append_sep_star, List.prefix_concat_iff] at h
  rcases h with hwhole | hpre
  · exact absurd (List.append_inj_right' hwhole rfl) (by simpa using hne)
  · exact hpre

/-- A wildcard that matches a wildcard matches what that one matches. -/
lemma Matches.trans (hne : sep ≠ star) {a b c : List α} (hab : Matches sep star a b)
    (hbc : Matches sep star b c) : Matches sep star a c := by
  rcases hab with rfl | ⟨p, rfl, hp⟩
  · exact Or.inl rfl
  · refine Or.inr ⟨p, rfl, ?_⟩
    rcases hbc with rfl | ⟨q, rfl, hq⟩
    · -- the separator is not found in the word `*`
      have hmem : sep ∈ [star] := hp.subset (by simp)
      exact absurd (List.mem_singleton.1 hmem) hne
    · exact (prefix_of_prefix_wildcard hne hp).trans hq

lemma Covers.trans (hne : sep ≠ star) {a b c : List α} (hab : Covers sep star a b)
    (hbc : Covers sep star b c) : Covers sep star a c := by
  rcases hab with rfl | hab
  · exact hbc
  · rcases hbc with rfl | hbc
    · exact Or.inr hab
    · exact Or.inr (hab.trans hne hbc)

/-- What a set of patterns grants: all that some pattern of the set covers. -/
def granted (hne : sep ≠ star) : ClosureOperator (Set (List α)) :=
  .mk₂ (fun A => {r | ∃ s ∈ A, Covers sep star s r})
    (fun _ s hs => ⟨s, hs, Covers.refl s⟩)
    (by
      rintro A B hAB r ⟨b, hb, hbr⟩
      obtain ⟨a, ha, hab⟩ := hAB hb
      exact ⟨a, ha, hab.trans hne hbr⟩)

lemma mem_granted {hne : sep ≠ star} {A : Set (List α)} {r : List α} :
    r ∈ granted hne A ↔ ∃ s ∈ A, Covers sep star s r := Iff.rfl

end AxonTask.Lib.Wildcard
