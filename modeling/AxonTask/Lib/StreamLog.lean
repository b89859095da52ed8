import Mathlib.Data.List.Induction
import Mathlib.Order.Lattice
import Mathlib.Tactic.Common

/-!
# Reading a log by pages

The entries of a log carry identifiers that increase along it.  A reader keeps the
identifier of the last entry that it could decode and asks for a page of the entries after
it, some of which it cannot decode.

A *window* of the log is what lies after one identifier and up to another.  What a page
decodes to is what the window up to the last entry decoded from it does
(`exists_window_of_getLast?`), so the reader's windows fit together (`window_append`), and
what is left to read is a shorter part of the log.
-/

namespace AxonTask.Lib.StreamLog

variable {ι E β : Type*} [LinearOrder ι] (id : E → ι)

/-- The identifiers increase along the log. -/
def Increasing (l : List E) : Prop := l.Pairwise fun a b => id a < id b

/-- The entries after an identifier. -/
def after (i : ι) (l : List E) : List E := l.filter fun e => decide (i < id e)

/-- The entries up to an identifier. -/
def upTo (i : ι) (l : List E) : List E := l.filter fun e => decide (id e ≤ i)

/-- The entries after one identifier and up to another. -/
def window (i j : ι) (l : List E) : List E :=
  l.filter fun e => decide (i < id e) && decide (id e ≤ j)

/-- The first `n` entries after an identifier; the number 0 stands for all of them. -/
def page (n : ℕ) (i : ι) (l : List E) : List E :=
  if n = 0 then after id i l else (after id i l).take n

variable {id} {l : List E} {i j k : ι} {e : E}

/-! ### Windows -/

@[simp] lemma mem_after : e ∈ after id i l ↔ e ∈ l ∧ i < id e := by simp [after]

@[simp] lemma mem_window : e ∈ window id i j l ↔ e ∈ l ∧ i < id e ∧ id e ≤ j := by simp [window]

@[simp] lemma window_self (i : ι) (l : List E) : window id i i l = [] := by
  rw [List.eq_nil_iff_forall_not_mem]
  intro e he
  obtain ⟨-, hlow, hhigh⟩ := mem_window.1 he
  exact absurd hlow (not_lt.2 hhigh)

lemma after_after (h : i ≤ j) (l : List E) : after id j (after id i l) = after id j l := by
  rw [after, after, after, List.filter_filter]
  refine List.filter_congr ?_
  intro e _
  by_cases he : j < id e
  · simp [he, h.trans_lt he]
  · simp [he]

/-- What is appended after the end of a window does not matter. -/
lemma window_concat (h : j < id e) : window id i j (l ++ [e]) = window id i j l := by
  simp [window, not_le.2 h]

lemma Increasing.sublist {l' : List E} (h : Increasing id l) (hl : l'.Sublist l) :
    Increasing id l' :=
  List.Pairwise.sublist hl h

lemma Increasing.le_getLast? {z : E} (h : Increasing id l) (hz : l.getLast? = some z)
    (he : e ∈ l) : id e ≤ id z := by
  obtain ⟨l', rfl⟩ := List.getLast?_eq_some_iff.1 hz
  rcases List.mem_append.1 he with he | he
  · exact ((List.pairwise_append.1 h).2.2 e he z (List.mem_singleton_self z)).le
  · rw [List.mem_singleton.1 he]

lemma Increasing.head?_le {a : E} (h : Increasing id l) (ha : l.head? = some a) (he : e ∈ l) :
    id a ≤ id e := by
  cases l with
  | nil => cases ha
  | cons b l =>
    cases ha
    rcases List.mem_cons.1 he with rfl | he
    · exact le_rfl
    · exact (List.rel_of_pairwise_cons h he).le

lemma length_upTo_add_length_after (i : ι) (l : List E) :
    (upTo id i l).length + (after id i l).length = l.length := by
  rw [upTo, after, ← List.countP_eq_length_filter, ← List.countP_eq_length_filter,
    List.length_eq_countP_add_countP fun e => decide (id e ≤ i)]
  simp

/-- **Counting what is behind.**  The length of a log less the number of entries up to an
identifier is the number of entries after it, also when the latter are counted after more
has been appended. -/
lemma length_sub_upTo {m : List E} (h : Increasing id (l ++ m)) (i : ι) :
    l.length - (upTo id i (l ++ m)).length = (after id i l).length := by
  have hsum : (upTo id i l).length + (after id i l).length = l.length :=
    length_upTo_add_length_after i l
  have hsplit : (upTo id i (l ++ m)).length = (upTo id i l).length + (upTo id i m).length := by
    rw [upTo, List.filter_append, List.length_append]
    rfl
  cases hm : upTo id i m with
  | nil =>
    rw [hsplit, hm, List.length_nil]
    omega
  | cons e rest =>
    -- an appended entry is counted, and with it the whole log
    obtain ⟨he, hei⟩ := List.mem_filter.1 (hm ▸ List.mem_cons_self : e ∈ upTo id i m)
    have hnone : after id i l = [] := by
      rw [List.eq_nil_iff_forall_not_mem]
      intro a ha
      obtain ⟨ha, hai⟩ := mem_after.1 ha
      exact absurd (hai.trans ((List.pairwise_append.1 h).2.2 a ha e he))
        (not_lt.2 (of_decide_eq_true hei))
    rw [hnone, List.length_nil] at hsum ⊢
    omega

/-- Adjacent windows make up one window. -/
lemma window_append (h : Increasing id l) (hij : i ≤ j) (hjk : j ≤ k) :
    window id i k l = window id i j l ++ window id j k l := by
  induction l with
  | nil => rfl
  | cons a l ih =>
    obtain ⟨ha, hl⟩ := List.pairwise_cons.1 h
    have hrest := ih hl
    rcases le_or_gt (id a) j with hle | hlt
    · have hnot : ¬ j < id a := not_lt.2 hle
      have hk : id a ≤ k := hle.trans hjk
      by_cases hi : i < id a
      · simpa [window, hle, hnot, hk, hi] using hrest
      · simpa [window, hle, hnot, hk, hi] using hrest
    · -- nothing before `j` is left
      have hnone : window id i j (a :: l) = [] := by
        rw [List.eq_nil_iff_forall_not_mem]
        intro e he
        obtain ⟨he, -, hej⟩ := mem_window.1 he
        rcases List.mem_cons.1 he with rfl | he
        · exact absurd hej (not_le.2 hlt)
        · exact absurd hej (not_le.2 (hlt.trans (ha e he)))
      rw [hnone, List.nil_append]
      refine List.filter_congr ?_
      intro e he
      have hje : j < id e := by
        rcases List.mem_cons.1 he with rfl | he
        · exact hlt
        · exact hlt.trans (ha e he)
      simp [hje, hij.trans_lt hje]

/-- What is up to an identifier comes before what is after it. -/
lemma upTo_append_after (h : Increasing id l) (i : ι) : upTo id i l ++ after id i l = l := by
  induction l with
  | nil => rfl
  | cons a l ih =>
    obtain ⟨ha, hl⟩ := List.pairwise_cons.1 h
    rcases le_or_gt (id a) i with hle | hlt
    · simpa [upTo, after, hle, not_lt.2 hle] using ih hl
    · have hnone : upTo id i (a :: l) = [] := by
        rw [List.eq_nil_iff_forall_not_mem]
        intro e he
        obtain ⟨he, hei⟩ := List.mem_filter.1 he
        rcases List.mem_cons.1 he with rfl | he
        · exact absurd (of_decide_eq_true hei) (not_le.2 hlt)
        · exact absurd (of_decide_eq_true hei) (not_le.2 (hlt.trans (ha e he)))
      rw [hnone, List.nil_append, after, List.filter_eq_self]
      intro e he
      rcases List.mem_cons.1 he with rfl | he
      · simpa using hlt
      · simpa using hlt.trans (ha e he)

/-- A window and what is after it are what is after the start of the window. -/
lemma window_append_after (h : Increasing id l) (hij : i ≤ j) :
    window id i j l ++ after id j l = after id i l := by
  have hwindow : upTo id j (after id i l) = window id i j l := by
    rw [upTo, after, window, List.filter_filter]
    exact List.filter_congr fun e _ => Bool.and_comm ..
  have hsorted : Increasing id (after id i l) := h.sublist List.filter_sublist
  rw [← hwindow, ← after_after hij, upTo_append_after hsorted]

/-- Where the entries after `i` split at `x`, the entries after `x` are the second part. -/
lemma after_of_split {a b : List E} {x : E} (h : Increasing id l)
    (hs : after id i l = a ++ x :: b) : after id (id x) l = b := by
  have hx : i < id x := (mem_after.1 (hs ▸ by simp : x ∈ after id i l)).2
  have hsorted : Increasing id (a ++ x :: b) := hs ▸ h.sublist List.filter_sublist
  obtain ⟨-, hxb, hab⟩ := List.pairwise_append.1 hsorted
  have ha : after id (id x) a = [] := by
    rw [List.eq_nil_iff_forall_not_mem]
    intro e he
    obtain ⟨he, hlt⟩ := mem_after.1 he
    exact absurd (hab e he x List.mem_cons_self) (not_lt_of_gt hlt)
  have hb : after id (id x) b = b := by
    rw [after, List.filter_eq_self]
    intro e he
    simpa using List.rel_of_pairwise_cons hxb he
  rw [← after_after hx.le, hs, after, List.filter_append]
  have hsingle : (x :: b).filter (fun e => decide (id x < id e)) = after id (id x) b := by
    simp [after]
  rw [hsingle, hb]
  simpa [after] using ha

/-- The window up to an entry is what precedes it among the entries after `i`, and itself. -/
lemma window_of_split {a b : List E} {x : E} (h : Increasing id l)
    (hs : after id i l = a ++ x :: b) : window id i (id x) l = a ++ [x] := by
  have hsorted : Increasing id (a ++ x :: b) := hs ▸ h.sublist List.filter_sublist
  obtain ⟨-, hxb, hab⟩ := List.pairwise_append.1 hsorted
  have hwindow : window id i (id x) l = (after id i l).filter fun e => decide (id e ≤ id x) := by
    rw [window, after, List.filter_filter]
    refine List.filter_congr ?_
    intro e _
    rw [Bool.and_comm]
  have ha : a.filter (fun e => decide (id e ≤ id x)) = a := by
    rw [List.filter_eq_self]
    intro e he
    simpa using (hab e he x List.mem_cons_self).le
  have hb : b.filter (fun e => decide (id e ≤ id x)) = [] := by
    rw [List.filter_eq_nil_iff]
    intro e he
    simpa using List.rel_of_pairwise_cons hxb he
  rw [hwindow, hs, List.filter_append, ha, List.filter_cons_of_pos (by simp), hb]

/-! ### Pages -/

lemma isPrefix_page (n : ℕ) (i : ι) (l : List E) : page id n i l <+: after id i l := by
  unfold page
  split
  · exact List.prefix_rfl
  · exact List.take_prefix n _

lemma page_ne_nil {n : ℕ} (h : after id i l ≠ []) : page id n i l ≠ [] := by
  unfold page
  split
  · exact h
  · rename_i hn
    simp [List.take_eq_nil_iff, hn, h]

/-- The last of the decoded entries, and those around it. -/
lemma exists_split_of_getLast? {f : E → Option β} {p : List E} {y : β}
    (h : (p.filterMap f).getLast? = some y) :
    ∃ a x b, p = a ++ x :: b ∧ f x = some y ∧ p.filterMap f = (a ++ [x]).filterMap f := by
  induction p using List.reverseRecOn with
  | nil => simp at h
  | append_singleton p z ih =>
    cases hz : f z with
    | none =>
      have hsame : (p ++ [z]).filterMap f = p.filterMap f := by simp [hz]
      rw [hsame] at h
      obtain ⟨a, x, b, rfl, hx, hmap⟩ := ih h
      exact ⟨a, x, b ++ [z], by simp, hx, hsame.trans hmap⟩
    | some y' =>
      obtain rfl : y' = y := by simpa [hz] using h
      exact ⟨p, z, [], rfl, hz, rfl⟩

/-- **What a page decodes to.**  It is what the window up to the last decoded entry does, and
the entries after that one are left. -/
lemma exists_window_of_getLast? {f : E → Option β} {p : List E} {y : β} (hl : Increasing id l)
    (hp : p <+: after id i l) (h : (p.filterMap f).getLast? = some y) :
    ∃ x ∈ l, f x = some y ∧ i < id x ∧ (window id i (id x) l).filterMap f = p.filterMap f := by
  obtain ⟨a, x, b, rfl, hx, hmap⟩ := exists_split_of_getLast? h
  obtain ⟨c, hc⟩ := hp
  have hs : after id i l = a ++ x :: (b ++ c) := by simpa using hc.symm
  obtain ⟨hxl, hix⟩ := mem_after.1 (hs ▸ by simp : x ∈ after id i l)
  refine ⟨x, hxl, hx, hix, ?_⟩
  rw [window_of_split hl hs, hmap]

/-! ### Gaps -/

/-- Every entry that can be decoded is preceded, since the last such entry, by fewer than `k`
entries that cannot; `n` of these come before the list. -/
def Dense (f : E → Option β) (k : ℕ) : ℕ → List E → Prop
  | _, [] => True
  | n, e :: l => if (f e).isSome then n < k ∧ Dense f k 0 l else Dense f k (n + 1) l

instance (f : E → Option β) (k : ℕ) : ∀ n l, Decidable (Dense f k n l)
  | _, [] => isTrue trivial
  | n, e :: l =>
    have := instDecidableDense f k 0 l
    have := instDecidableDense f k (n + 1) l
    inferInstanceAs (Decidable (if (f e).isSome then n < k ∧ Dense f k 0 l
      else Dense f k (n + 1) l))

/-- Up to a decoded entry among the first `k`, there is no gap of `k`. -/
lemma dense_append {f : E → Option β} {k n : ℕ} {a b : List E} {x : E} (hx : (f x).isSome)
    (hn : n + a.length < k) : Dense f k n (a ++ x :: b) ↔ Dense f k 0 b := by
  induction a generalizing n with
  | nil =>
    have hk : n < k := hn
    simp [Dense, hx, hk]
  | cons z a ih =>
    rw [List.length_cons] at hn
    rw [List.cons_append, Dense]
    split
    · rw [ih (by omega)]
      exact and_iff_right (by omega)
    · exact ih (by omega)

/-- Where the first `k` entries cannot be decoded, there is no gap only if none can. -/
lemma dense_iff_of_take {f : E → Option β} {k n : ℕ} {l : List E}
    (h : ∀ e ∈ l.take (k - n), f e = none) : Dense f k n l ↔ l.filterMap f = [] := by
  induction l generalizing n with
  | nil => simp [Dense]
  | cons e l ih =>
    rw [Dense, List.filterMap_cons]
    rcases Nat.lt_or_ge n k with hn | hn
    · -- the entry is one of the first
      have htake : (e :: l).take (k - n) = e :: l.take (k - (n + 1)) := by
        rw [show k - n = k - (n + 1) + 1 by omega, List.take_succ_cons]
      rw [htake] at h
      have he := h e List.mem_cons_self
      simpa [he] using ih fun e' he' => h e' (List.mem_cons_of_mem _ he')
    · cases he : f e with
      | none =>
        have hzero : k - (n + 1) = 0 := by omega
        simpa using ih (n := n + 1) (by simp [hzero])
      | some y => simp [Nat.not_lt.2 hn]

end AxonTask.Lib.StreamLog
