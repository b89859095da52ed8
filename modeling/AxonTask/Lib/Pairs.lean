import Mathlib.Data.List.Nodup

/-!
# Loops that go two elements at a time

A flat list of names and values is read by a loop over positions that looks at two elements in each
round, and by a recursion that takes two elements off the list.  Both compute the same, and no
round of the loop accesses an element that is not there.  What is read of a list whose names are
distinct does not depend on the order of its fields.
-/

namespace AxonTask.Lib.Pairs

variable {α β γ κ σ τ : Type*}

/-- `while i < len { round; i += 2 }`; a round is `none` when it accesses an element that is not
there. -/
def loop (len : ℕ) (round : ℕ → σ → Option σ) (i : ℕ) (s : σ) : Option σ :=
  if _h : i < len then (round i s).bind (loop len round (i + 2)) else some s
termination_by len - i

/-- The recursion over pairs; what is left over has no effect. -/
def fold (f : α → α → σ → σ) : List α → σ → σ
  | a :: b :: l, s => fold f l (f a b s)
  | _, s => s

lemma fold_of_short {f : α → α → σ → σ} {l : List α} (hshort : ∀ a b rest, l ≠ a :: b :: rest)
    (s : σ) : fold f l s = s := by
  match l, hshort with
  | [], _ => rfl
  | [a], _ => rfl
  | a :: b :: rest, hshort => exact absurd rfl (hshort a b rest)

/-- Two recursions whose steps correspond. -/
lemma map_fold {f : α → α → σ → σ} {g : α → α → τ → τ} {h : σ → τ}
    (hstep : ∀ a b s, h (f a b s) = g a b (h s)) (l : List α) (s : σ) :
    h (fold f l s) = fold g l (h s) := by
  induction l, s using fold.induct f with
  | case1 a b l s ih => rw [fold, fold, ih, hstep]
  | case2 l s hshort =>
    rw [fold_of_short hshort, fold_of_short hshort]

/-- **The loop is the recursion**: when a round does with two elements what a step does, and
nothing with a last element, the loop ends with what the recursion computes. -/
theorem loop_eq_fold {f : α → α → σ → σ} {l : List α} {round : ℕ → σ → Option σ}
    (hpair : ∀ i s a b rest, l.drop i = a :: b :: rest → round i s = some (f a b s))
    (hlast : ∀ i s a, l.drop i = [a] → round i s = some s) (i : ℕ) (s : σ) :
    loop l.length round i s = some (fold f (l.drop i) s) := by
  generalize hrest : l.drop i = rest
  induction rest, s using fold.induct f generalizing i with
  | case1 a b rest s ih =>
    have hlt : i < l.length := by
      by_contra hge
      rw [List.drop_eq_nil_of_le (by omega)] at hrest
      cases hrest
    have hnext : l.drop (i + 2) = rest := by
      rw [← List.drop_drop, hrest]
      rfl
    rw [loop, dif_pos hlt, hpair i s a b rest hrest, Option.bind_some, ih (i + 2) hnext, fold]
  | case2 rest s hshort =>
    rw [fold_of_short hshort]
    match rest, hshort with
    | [], _ =>
      rw [loop, dif_neg (by simpa [List.drop_eq_nil_iff] using hrest)]
    | [a], _ =>
      have hlen : l.length = i + 1 := by
        have hlength := congrArg List.length hrest
        simp only [List.length_drop, List.length_singleton] at hlength
        omega
      rw [loop, dif_pos (by omega), hlast i s a hrest, Option.bind_some, loop,
        dif_neg (by omega)]
    | a :: b :: rest, hshort => exact absurd rfl (hshort a b rest)

/-- A list of fields that are written one after another. -/
lemma fold_flatMap (f : α → α → σ → σ) (name value : β → α) (fields : List β) (s : σ) :
    fold f (fields.flatMap fun x => [name x, value x]) s =
      fields.foldl (fun s x => f (name x) (value x) s) s := by
  induction fields generalizing s with
  | nil => rfl
  | cons x fields ih =>
    rw [List.flatMap_cons, List.cons_append, List.cons_append, List.nil_append, fold, ih]
    rfl

/-! ### Fields with distinct names -/

/-- Other fields leave alone what is read of a field. -/
lemma foldl_of_not_mem {step : σ → β → σ} {read : σ → γ} {name : β → κ} {k : κ}
    (hother : ∀ s x, name x ≠ k → read (step s x) = read s) {fields : List β}
    (h : k ∉ fields.map name) (s : σ) : read (fields.foldl step s) = read s := by
  induction fields generalizing s with
  | nil => rfl
  | cons x fields ih =>
    rw [List.map_cons, List.mem_cons, not_or] at h
    rw [List.foldl_cons, ih h.2, hother s x (Ne.symm h.1)]

/-- **What is read of a field**, wherever it stands. -/
theorem foldl_of_mem {step : σ → β → σ} {read : σ → γ} {name : β → κ} {x : β} {c : γ}
    (hother : ∀ s y, name y ≠ name x → read (step s y) = read s)
    (hread : ∀ s, read (step s x) = c) {fields : List β} (hnames : (fields.map name).Nodup)
    (hx : x ∈ fields) (s : σ) : read (fields.foldl step s) = c := by
  induction fields generalizing s with
  | nil => cases hx
  | cons y fields ih =>
    rw [List.map_cons, List.nodup_cons] at hnames
    rw [List.foldl_cons]
    rcases List.mem_cons.1 hx with rfl | hx
    · rw [foldl_of_not_mem hother hnames.1, hread]
    · exact ih hnames.2 hx (step s y)

end AxonTask.Lib.Pairs
