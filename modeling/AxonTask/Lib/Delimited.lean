import Mathlib.Data.List.DropRight

/-!
# Delimited lists of trimmed fields

A word is split at a separator, every part is trimmed of blank letters at both ends, and the
parts of which nothing is left are dropped.  Reading a word this way is inverse to joining
fields by the separator, for fields that could have been read, and it takes the concatenation of
two words, with a separator between them, to that of their lists.
-/

namespace AxonTask.Lib.Delimited

variable {α : Type*} (blank : α → Bool)

/-- The word without the blank letters at its ends. -/
def trim (s : List α) : List α := (s.dropWhile blank).rdropWhile blank

/-- The word neither starts nor ends with a blank letter. -/
structure IsTrimmed (s : List α) : Prop where
  head : ∀ c ∈ s.head?, blank c = false
  last : ∀ c ∈ s.getLast?, blank c = false

variable {blank}

/-! ### Trimming -/

lemma trim_nil : trim blank [] = [] := by simp [trim]

lemma dropWhile_eq_self {s : List α} (h : ∀ c ∈ s.head?, blank c = false) :
    s.dropWhile blank = s := by
  cases s with
  | nil => rfl
  | cons c s => exact List.dropWhile_cons_of_neg (by simp [h c rfl])

lemma head?_dropWhile (s : List α) : ∀ c ∈ (s.dropWhile blank).head?, blank c = false := by
  intro c hc
  have hhead := List.head?_dropWhile_not blank s
  rwa [hc] at hhead

/-- What is left of a word that starts with a letter that is not blank starts with it. -/
lemma head?_rdropWhile {s : List α} (h : ∀ c ∈ s.head?, blank c = false) :
    ∀ c ∈ (s.rdropWhile blank).head?, blank c = false := by
  intro c hc
  obtain ⟨t, ht⟩ := List.rdropWhile_prefix blank s
  refine h c ?_
  rw [← ht, List.head?_append, hc]
  rfl

/-- A word without blank ends is left as it is. -/
lemma trim_eq_self {s : List α} (h : IsTrimmed blank s) : trim blank s = s := by
  have hreverse : s.reverse.dropWhile blank = s.reverse :=
    dropWhile_eq_self (by simpa using h.last)
  rw [trim, dropWhile_eq_self h.head, List.rdropWhile, hreverse, List.reverse_reverse]

lemma isTrimmed_trim (s : List α) : IsTrimmed blank (trim blank s) := by
  refine ⟨head?_rdropWhile (head?_dropWhile s), ?_⟩
  rw [trim, List.rdropWhile, List.getLast?_reverse]
  exact head?_dropWhile _

/-- What is trimmed is blank. -/
lemma exists_eq_append_trim (s : List α) : ∃ pre post, s = pre ++ trim blank s ++ post ∧
    (∀ c ∈ pre, blank c = true) ∧ ∀ c ∈ post, blank c = true := by
  refine ⟨s.takeWhile blank, (s.dropWhile blank).rtakeWhile blank, ?_, ?_, ?_⟩
  · rw [trim, List.append_assoc, List.rdropWhile_append_rtakeWhile,
      List.takeWhile_append_dropWhile]
  · intro c hc
    exact List.mem_takeWhile_imp hc
  · intro c hc
    exact List.mem_rtakeWhile_imp hc

lemma subset_of_trim (s : List α) : trim blank s ⊆ s := by
  obtain ⟨pre, post, hs, -, -⟩ := @exists_eq_append_trim _ blank s
  intro c hc
  rw [hs]
  simp [hc]

/-- Nothing is left of a blank word only. -/
lemma trim_eq_nil_iff {s : List α} : trim blank s = [] ↔ ∀ c ∈ s, blank c = true := by
  constructor
  · intro h
    obtain ⟨pre, post, hs, hpre, hpost⟩ := @exists_eq_append_trim _ blank s
    rw [h, List.append_nil] at hs
    intro c hc
    rw [hs] at hc
    exact (List.mem_append.1 hc).elim (hpre c) (hpost c)
  · intro h
    rw [trim, List.dropWhile_eq_nil_iff.2 h, List.rdropWhile_nil]

/-! ### Fields -/

variable [DecidableEq α] {sep : α}

/-- The parts of the word that are not blank, as they stand in it. -/
def parts (blank : α → Bool) (sep : α) (s : List α) : List (List α) :=
  (s.splitOn sep).filter fun part => !part.all blank

/-- The fields of a word. -/
def fields (blank : α → Bool) (sep : α) (s : List α) : List (List α) :=
  ((s.splitOn sep).map (trim blank)).filter fun w => !w.isEmpty

/-- A word that can be read as a field. -/
structure IsField (blank : α → Bool) (sep : α) (w : List α) : Prop extends IsTrimmed blank w where
  ne_nil : w ≠ []
  sep_not_mem : sep ∉ w

omit [DecidableEq α] in
lemma isEmpty_trim (s : List α) : (trim blank s).isEmpty = s.all blank := by
  rw [Bool.eq_iff_iff, List.isEmpty_iff, trim_eq_nil_iff, List.all_eq_true]

/-- Every field is a part that has been trimmed. -/
lemma fields_eq_map (s : List α) : fields blank sep s = (parts blank sep s).map (trim blank) := by
  rw [fields, parts, List.filter_map]
  congr 2
  funext part
  simp only [Function.comp_apply, isEmpty_trim]

/-- No part contains the separator. -/
lemma sep_not_mem_of_mem_splitOn (s : List α) : ∀ part ∈ s.splitOn sep, sep ∉ part := by
  induction s with
  | nil => simp
  | cons c s ih =>
    rw [List.splitOn_cons_eq_if_modifyHead]
    by_cases hc : c = sep
    · rw [if_pos (by simpa using hc)]
      rintro part hpart
      rcases List.mem_cons.1 hpart with rfl | hpart
      · exact List.not_mem_nil
      · exact ih part hpart
    · rw [if_neg (by simpa using hc)]
      -- the letter goes to the first part
      obtain ⟨first, rest, hsplit⟩ := List.exists_cons_of_ne_nil (List.splitOn_ne_nil sep s)
      rw [hsplit] at ih ⊢
      intro part hpart
      rcases List.mem_cons.1 hpart with rfl | hpart
      · have hfirst := ih first List.mem_cons_self
        simp [hfirst, Ne.symm hc]
      · exact ih part (List.mem_cons_of_mem _ hpart)

/-- What is read are fields. -/
lemma isField_of_mem_fields {s w : List α} (h : w ∈ fields blank sep s) : IsField blank sep w := by
  obtain ⟨hmem, hne⟩ := List.mem_filter.1 h
  obtain ⟨part, hpart, rfl⟩ := List.mem_map.1 hmem
  refine ⟨isTrimmed_trim part, by simpa using hne, ?_⟩
  intro hsep
  exact sep_not_mem_of_mem_splitOn s part hpart (subset_of_trim part hsep)

/-- **Joining and reading**: fields that are joined by the separator are read as they were. -/
theorem fields_intercalate {l : List (List α)} (h : ∀ w ∈ l, IsField blank sep w) :
    fields blank sep ([sep].intercalate l) = l := by
  by_cases hl : l = []
  · subst hl
    simp [fields, trim_nil]
  · rw [fields, List.splitOn_intercalate sep (fun w hw => (h w hw).sep_not_mem) hl]
    have htrim : l.map (trim blank) = l := by
      refine (List.map_congr_left ?_).trans (List.map_id l)
      intro w hw
      exact trim_eq_self (h w hw).toIsTrimmed
    rw [htrim, List.filter_eq_self]
    intro w hw
    simpa using (h w hw).ne_nil

/-- **Reading a concatenation.** -/
theorem fields_append (s t : List α) :
    fields blank sep (s ++ sep :: t) = fields blank sep s ++ fields blank sep t := by
  rw [fields, List.splitOn_append_cons_self, List.map_append, List.filter_append]
  rfl

end AxonTask.Lib.Delimited
