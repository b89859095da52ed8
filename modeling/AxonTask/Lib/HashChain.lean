import Mathlib.Data.List.Induction
import Mathlib.Tactic.Common

/-!
# Hash chains

A log in which every entry names a mark of its own (`curr`) and the mark of the entry
before it (`prev`, absent at the start) is *chained* when the names match up, and *sealed*
by a function `digest` when in addition every own mark is the digest of the mark before it
and the entry.

The main result is the commitment theorem `Links.Sealed.agree`: when the digest binds the
mark before and the content of an entry, the mark of the last entry of a sealed log
determines the whole log, among the logs of its length.
-/

namespace AxonTask.Lib

/-- How an entry names the mark of the entry before it and its own. -/
structure Links (D E : Type*) where
  /-- The mark of the entry before. -/
  prev : E → Option D
  /-- The mark of the entry itself. -/
  curr : E → D

namespace Links

variable {D E C : Type*} (K : Links D E) (digest : Option D → E → D)

/-- Every entry names the mark of the entry before it, the first one the mark `d`. -/
def Chained : Option D → List E → Prop
  | _, [] => True
  | d, e :: l => K.prev e = d ∧ Chained (some (K.curr e)) l

/-- A chained log whose own digests are the seals of their links. -/
def Sealed : Option D → List E → Prop
  | _, [] => True
  | d, e :: l => K.prev e = d ∧ K.curr e = digest d e ∧ Sealed (some (K.curr e)) l

/-- The mark that the next entry has to name. -/
def tip (d : Option D) (l : List E) : Option D := l.foldl (fun _ e => some (K.curr e)) d

@[simp] lemma tip_nil (d : Option D) : K.tip d [] = d := rfl

@[simp] lemma tip_cons (d : Option D) (e : E) (l : List E) :
    K.tip d (e :: l) = K.tip (some (K.curr e)) l := rfl

@[simp] lemma tip_concat (d : Option D) (l : List E) (e : E) :
    K.tip d (l ++ [e]) = some (K.curr e) := by
  simp [tip]

/-- The next entry after a log has to name the mark of the last one. -/
lemma tip_none (l : List E) : K.tip none l = l.getLast?.map K.curr := by
  induction l using List.reverseRecOn with
  | nil => rfl
  | append_singleton l e _ => simp

lemma tip_isSome (l : List E) : (K.tip none l).isSome = !l.isEmpty := by
  induction l using List.reverseRecOn with
  | nil => rfl
  | append_singleton l e _ => simp

variable {K digest}

lemma chained_append {d : Option D} {l l' : List E} :
    K.Chained d (l ++ l') ↔ K.Chained d l ∧ K.Chained (K.tip d l) l' := by
  induction l generalizing d with
  | nil => simp [Chained]
  | cons a l ih => simp [Chained, ih, and_assoc]

lemma chained_concat {d : Option D} {l : List E} {e : E} :
    K.Chained d (l ++ [e]) ↔ K.Chained d l ∧ K.prev e = K.tip d l := by
  simp [chained_append, Chained]

lemma Chained.of_append {d : Option D} {l l' : List E} (h : K.Chained d (l ++ l')) :
    K.Chained d l :=
  (chained_append.1 h).1

/-- An entry names the last mark before it. -/
lemma Chained.prev_eq {d : Option D} {l l' : List E} {e : E} (h : K.Chained d (l ++ e :: l')) :
    K.prev e = K.tip d l :=
  (chained_append.1 h).2.1

lemma sealed_append {d : Option D} {l l' : List E} :
    K.Sealed digest d (l ++ l') ↔ K.Sealed digest d l ∧ K.Sealed digest (K.tip d l) l' := by
  induction l generalizing d with
  | nil => simp [Sealed]
  | cons a l ih => simp [Sealed, ih, and_assoc]

lemma sealed_concat {d : Option D} {l : List E} {e : E} :
    K.Sealed digest d (l ++ [e]) ↔
      K.Sealed digest d l ∧ K.prev e = K.tip d l ∧ K.curr e = digest (K.tip d l) e := by
  simp [sealed_append, Sealed]

lemma Sealed.chained {d : Option D} {l : List E} (h : K.Sealed digest d l) : K.Chained d l := by
  induction l generalizing d with
  | nil => trivial
  | cons a l ih => exact ⟨h.1, ih h.2.2⟩

lemma Sealed.curr_eq {d : Option D} {l : List E} (h : K.Sealed digest d l) :
    ∀ e ∈ l, K.curr e = digest (K.prev e) e := by
  induction l generalizing d with
  | nil => simp
  | cons a l ih =>
    intro e he
    obtain ⟨hp, hc, hl⟩ := h
    rcases List.mem_cons.1 he with rfl | he
    · rw [hp, hc]
    · exact ih hl e he

/-- A chained log whose entries carry the digests of what they name is sealed. -/
lemma Chained.sealed {d : Option D} {l : List E} (h : K.Chained d l)
    (hcurr : ∀ e ∈ l, K.curr e = digest (K.prev e) e) : K.Sealed digest d l := by
  induction l generalizing d with
  | nil => trivial
  | cons a l ih =>
    obtain ⟨hp, hl⟩ := h
    refine ⟨hp, ?_, ih hl fun e he => hcurr e (List.mem_cons_of_mem _ he)⟩
    rw [← hp]
    exact hcurr a List.mem_cons_self

/-- A previous mark is the starting one or the mark of an entry of the log. -/
lemma Chained.prev_mem {d : Option D} {l : List E} (h : K.Chained d l) :
    ∀ e ∈ l, K.prev e = d ∨ ∃ e' ∈ l, K.prev e = some (K.curr e') := by
  induction l generalizing d with
  | nil => simp
  | cons a l ih =>
    intro e he
    obtain ⟨hp, hl⟩ := h
    rcases List.mem_cons.1 he with rfl | he
    · exact Or.inl hp
    · rcases ih hl e he with h | ⟨e', he', h⟩
      · exact Or.inr ⟨a, by simp, h⟩
      · exact Or.inr ⟨e', by simp [he'], h⟩

/-- **The head commits to the log.**  If the digest binds the previous mark and the content
of an entry, two sealed logs of the same length with the same last mark agree in the
content, the previous mark and the own mark of every entry.  The digest need only bind
entries that are both first in their logs or both not. -/
theorem Sealed.agree {content : E → C} {l l' : List E} (h : K.Sealed digest none l)
    (h' : K.Sealed digest none l') (hlen : l.length = l'.length)
    (htip : K.tip none l = K.tip none l')
    (hbind : ∀ e ∈ l, ∀ e' ∈ l', (K.prev e).isSome = (K.prev e').isSome →
      digest (K.prev e) e = digest (K.prev e') e' → K.prev e = K.prev e' ∧ content e = content e') :
    l.map (fun e => (content e, K.prev e, K.curr e)) =
      l'.map (fun e => (content e, K.prev e, K.curr e)) := by
  induction l using List.reverseRecOn generalizing l' with
  | nil =>
    obtain rfl : l' = [] := List.eq_nil_of_length_eq_zero hlen.symm
    rfl
  | append_singleton l e ih =>
    cases l' using List.reverseRecOn with
    | nil => simp at hlen
    | append_singleton l' e' =>
      rw [sealed_concat] at h h'
      obtain ⟨hl, hp, hc⟩ := h
      obtain ⟨hl', hp', hc'⟩ := h'
      have hlen' : l.length = l'.length := by simpa using hlen
      have hcurr : K.curr e = K.curr e' := by simpa using htip
      -- the logs before the last entries are both empty or both not
      have hsome : (K.prev e).isSome = (K.prev e').isSome := by
        have hempty : l.isEmpty = l'.isEmpty := by
          rw [Bool.eq_iff_iff, List.isEmpty_iff_length_eq_zero, List.isEmpty_iff_length_eq_zero,
            hlen']
        rw [hp, hp', tip_isSome, tip_isSome, hempty]
      have hdigest : digest (K.prev e) e = digest (K.prev e') e' := by
        rw [hp, hp', ← hc, ← hc', hcurr]
      obtain ⟨hprev, hcontent⟩ := hbind e (by simp) e' (by simp) hsome hdigest
      -- the marks before the last entries are the last marks of the rest
      have hrest := ih hl hl' hlen' (by rw [← hp, ← hp', hprev])
        fun a ha a' ha' => hbind a (by simp [ha]) a' (by simp [ha'])
      simp [hrest, hprev, hcontent, hcurr]

end Links

end AxonTask.Lib
