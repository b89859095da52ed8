import Mathlib.Algebra.Group.Int.Defs
import Mathlib.Algebra.GroupWithZero.Nat
import Mathlib.Data.List.Induction
import Mathlib.Logic.Function.Basic
import Mathlib.Tactic.Common

/-!
# Values that expire

A store keeps each value until a deadline.  What it returns for a key after any sequence of
writes, deletions and waits is said by the sequence alone: the value of the last write to
the key, when the time since then is within the bound of that write and no deletion has come
in between.
-/

namespace AxonTask.Lib

/-- The clock, in milliseconds, and the values with their deadlines. -/
structure ExpiryStore (κ ν : Type*) where
  now : ℕ
  entries : κ → Option (ν × ℕ)

/-- A command, or the passing of time. -/
inductive ExpiryOp (κ ν : Type*)
  /-- `SETEX`, with the time to live in seconds. -/
  | setEx (k : κ) (seconds : ℕ) (v : ν)
  | del (k : κ)
  | wait (ms : ℕ)

namespace ExpiryOp

variable {κ ν : Type*}

/-- The key that a command writes. -/
def key : ExpiryOp κ ν → Option κ
  | setEx k _ _ | del k => some k
  | wait _ => none

/-- The time that passes. -/
def duration : ExpiryOp κ ν → ℕ
  | wait ms => ms
  | _ => 0

end ExpiryOp

/-- The time that passes in a sequence. -/
def elapsed {κ ν : Type*} (l : List (ExpiryOp κ ν)) : ℕ := (l.map ExpiryOp.duration).sum

lemma elapsed_snoc {κ ν : Type*} (l : List (ExpiryOp κ ν)) (op : ExpiryOp κ ν) :
    elapsed (l ++ [op]) = elapsed l + op.duration := by
  simp [elapsed]

namespace ExpiryStore

variable {κ ν : Type*} (s : ExpiryStore κ ν)

/-- The store without values, at a time. -/
def empty (now : ℕ) : ExpiryStore κ ν := ⟨now, fun _ => none⟩

/-- `GET`: a value is there up to its deadline. -/
def get (k : κ) : Option ν :=
  match s.entries k with
  | some (v, deadline) => if s.now ≤ deadline then some v else none
  | none => none

/-- `EXISTS`. -/
def contains (k : κ) : Bool := (s.get k).isSome

/-- `TTL`: the rest of the time to live, rounded to seconds; -2 when there is no value. -/
def ttl (k : κ) : ℤ :=
  match s.entries k with
  | some (_, deadline) => if s.now ≤ deadline then ((deadline - s.now + 500) / 1000 : ℕ) else -2
  | none => -2

variable [DecidableEq κ]

/-- `SETEX`. -/
def setEx (k : κ) (seconds : ℕ) (v : ν) : ExpiryStore κ ν :=
  { s with entries := Function.update s.entries k (some (v, s.now + seconds * 1000)) }

/-- `DEL`, with the number of values that were there. -/
def del (k : κ) : ℕ × ExpiryStore κ ν :=
  (if s.contains k then 1 else 0, { s with entries := Function.update s.entries k none })

/-- The store after a command. -/
def apply : ExpiryOp κ ν → ExpiryStore κ ν
  | .setEx k seconds v => s.setEx k seconds v
  | .del k => (s.del k).2
  | .wait ms => { s with now := s.now + ms }

/-- The store after a sequence. -/
def run (l : List (ExpiryOp κ ν)) : ExpiryStore κ ν :=
  l.foldl (fun s op => s.apply op) s

lemma run_snoc (l : List (ExpiryOp κ ν)) (op : ExpiryOp κ ν) :
    s.run (l ++ [op]) = (s.run l).apply op := by
  rw [run, List.foldl_append]
  rfl

/-- Only waiting moves the clock. -/
lemma now_apply (op : ExpiryOp κ ν) : (s.apply op).now = s.now + op.duration := by
  cases op <;> rfl

/-- A command writes its own key only. -/
lemma entries_apply_of_ne {op : ExpiryOp κ ν} {k : κ} (h : op.key ≠ some k) :
    (s.apply op).entries k = s.entries k := by
  cases op with
  | setEx k' seconds v =>
    have hne : k ≠ k' := fun hk => h (congrArg some hk.symm)
    exact Function.update_of_ne hne _ _
  | del k' =>
    have hne : k ≠ k' := fun hk => h (congrArg some hk.symm)
    exact Function.update_of_ne hne _ _
  | wait ms => rfl

/-- The last write to the key was this one, `ms` ago, and no deletion has followed. -/
def LastWrite (l : List (ExpiryOp κ ν)) (k : κ) (seconds : ℕ) (v : ν) (ms : ℕ) : Prop :=
  ∃ l₁ l₂, l = l₁ ++ .setEx k seconds v :: l₂ ∧ (∀ op ∈ l₂, op.key ≠ some k) ∧ elapsed l₂ = ms

omit [DecidableEq κ] in
/-- How the last write moves on. -/
lemma lastWrite_snoc {l : List (ExpiryOp κ ν)} {op : ExpiryOp κ ν} {k : κ} {seconds : ℕ} {v : ν}
    {ms : ℕ} : LastWrite (l ++ [op]) k seconds v ms ↔
      (op = .setEx k seconds v ∧ ms = 0) ∨
        (op.key ≠ some k ∧ ∃ ms₀, LastWrite l k seconds v ms₀ ∧ ms = ms₀ + op.duration) := by
  constructor
  · rintro ⟨l₁, l₂, hsplit, hfree, rfl⟩
    rcases List.eq_nil_or_concat l₂ with rfl | ⟨l₂, op', rfl⟩
    · have hop := (List.append_inj' hsplit rfl).2
      exact Or.inl ⟨(List.cons.inj hop).1, rfl⟩
    · rw [List.concat_eq_append] at *
      rw [← List.cons_append, ← List.append_assoc] at hsplit
      obtain ⟨hl, hop⟩ := List.append_inj' hsplit rfl
      obtain rfl : op = op' := (List.cons.inj hop).1
      refine Or.inr ⟨hfree op (by simp), elapsed l₂, ⟨l₁, l₂, hl, ?_, rfl⟩, elapsed_snoc l₂ op⟩
      exact fun op' hop' => hfree op' (by simp [hop'])
  · rintro (⟨rfl, rfl⟩ | ⟨hne, ms₀, ⟨l₁, l₂, rfl, hfree, rfl⟩, rfl⟩)
    · exact ⟨l, [], rfl, by simp, rfl⟩
    · refine ⟨l₁, l₂ ++ [op], by simp, ?_, elapsed_snoc l₂ op⟩
      intro op' hop'
      rcases List.mem_append.1 hop' with hmem | hmem
      · exact hfree op' hmem
      · rw [List.mem_singleton.1 hmem]
        exact hne

/-- **What the store holds**: the value of the last write, with the deadline that it set. -/
lemma entries_run_iff (t : ℕ) (l : List (ExpiryOp κ ν)) (k : κ) (v : ν) (deadline : ℕ) :
    ((empty t : ExpiryStore κ ν).run l).entries k = some (v, deadline) ↔
      ∃ seconds ms, LastWrite l k seconds v ms ∧
        deadline + ms = ((empty t : ExpiryStore κ ν).run l).now + seconds * 1000 := by
  induction l using List.reverseRecOn generalizing v deadline with
  | nil =>
    constructor
    · intro h
      cases h
    · rintro ⟨seconds, ms, ⟨l₁, l₂, hl, -⟩, -⟩
      simp at hl
  | append_singleton l op ih =>
    rw [run_snoc, now_apply]
    by_cases hkey : op.key = some k
    · cases op with
      | setEx k' seconds' v' =>
        obtain rfl : k' = k := Option.some.inj hkey
        simp only [apply, setEx, Function.update_self, lastWrite_snoc, ExpiryOp.duration, add_zero]
        constructor
        · rintro ⟨⟩
          exact ⟨seconds', 0, Or.inl ⟨rfl, rfl⟩, rfl⟩
        · rintro ⟨seconds, ms, ⟨hop, rfl⟩ | ⟨hne, -⟩, hdeadline⟩
          · cases hop
            rw [show deadline = _ from hdeadline]
          · exact absurd hkey hne
      | del k' =>
        obtain rfl : k' = k := Option.some.inj hkey
        simp only [apply, del, Function.update_self, lastWrite_snoc]
        constructor
        · intro h
          cases h
        · rintro ⟨seconds, ms, ⟨hop, -⟩ | ⟨hne, -⟩, -⟩
          · cases hop
          · exact absurd hkey hne
      | wait ms => cases hkey
    · rw [entries_apply_of_ne _ hkey, ih]
      constructor
      · rintro ⟨seconds, ms, hlast, hdeadline⟩
        exact ⟨seconds, ms + op.duration, lastWrite_snoc.2 (Or.inr ⟨hkey, ms, hlast, rfl⟩),
          by omega⟩
      · rintro ⟨seconds, ms, hlast, hdeadline⟩
        rcases lastWrite_snoc.1 hlast with ⟨rfl, -⟩ | ⟨-, ms₀, hlast₀, rfl⟩
        · exact absurd rfl hkey
        · exact ⟨seconds, ms₀, hlast₀, by omega⟩

/-- The clock shows the time that has passed. -/
lemma now_run (t : ℕ) (l : List (ExpiryOp κ ν)) :
    ((empty t : ExpiryStore κ ν).run l).now = t + elapsed l := by
  induction l using List.reverseRecOn with
  | nil => rfl
  | append_singleton l op ih => rw [run_snoc, now_apply, ih, elapsed_snoc, add_assoc]

omit [DecidableEq κ] in
lemma LastWrite.le_elapsed {l : List (ExpiryOp κ ν)} {k : κ} {seconds : ℕ} {v : ν} {ms : ℕ}
    (h : LastWrite l k seconds v ms) : ms ≤ elapsed l := by
  obtain ⟨l₁, l₂, rfl, -, rfl⟩ := h
  simp only [elapsed, List.map_append, List.map_cons, List.sum_append, List.sum_cons]
  omega

/-- The entry of the last write. -/
lemma entries_run_of_lastWrite (t : ℕ) {l : List (ExpiryOp κ ν)} {k : κ} {seconds : ℕ} {v : ν}
    {ms : ℕ} (h : LastWrite l k seconds v ms) :
    ∃ deadline, ((empty t : ExpiryStore κ ν).run l).entries k = some (v, deadline) ∧
      deadline + ms = ((empty t : ExpiryStore κ ν).run l).now + seconds * 1000 := by
  have hnow := now_run t l
  have hle := h.le_elapsed
  have hdeadline : ((empty t : ExpiryStore κ ν).run l).now + seconds * 1000 - ms + ms =
      ((empty t : ExpiryStore κ ν).run l).now + seconds * 1000 := by omega
  exact ⟨_, (entries_run_iff t l k v _).2 ⟨seconds, ms, h, hdeadline⟩, hdeadline⟩

/-- **What a read returns** when there was a write: its value, within its time to live. -/
theorem get_run_of_lastWrite (t : ℕ) {l : List (ExpiryOp κ ν)} {k : κ} {seconds : ℕ} {v : ν}
    {ms : ℕ} (h : LastWrite l k seconds v ms) :
    ((empty t : ExpiryStore κ ν).run l).get k = if ms ≤ seconds * 1000 then some v else none := by
  obtain ⟨deadline, hentry, hdeadline⟩ := entries_run_of_lastWrite t h
  rw [get, hentry]
  refine if_congr ?_ rfl rfl
  omega

/-- What a read returns is the value of the last write. -/
lemma lastWrite_of_get_run {t : ℕ} {l : List (ExpiryOp κ ν)} {k : κ} {v : ν}
    (h : ((empty t : ExpiryStore κ ν).run l).get k = some v) :
    ∃ seconds ms, LastWrite l k seconds v ms ∧ ms ≤ seconds * 1000 := by
  rw [get] at h
  split at h
  · rename_i v' deadline hentry
    obtain ⟨hle, hv⟩ := Option.ite_none_right_eq_some.1 h
    obtain rfl : v' = v := Option.some.inj hv
    obtain ⟨seconds, ms, hlast, hdeadline⟩ := (entries_run_iff t l k v' deadline).1 hentry
    exact ⟨seconds, ms, hlast, by omega⟩
  · cases h

/-- **What `TTL` returns**: the rest of the time to live of the last write. -/
theorem ttl_run_of_lastWrite (t : ℕ) {l : List (ExpiryOp κ ν)} {k : κ} {seconds : ℕ} {v : ν}
    {ms : ℕ} (h : LastWrite l k seconds v ms) : ((empty t : ExpiryStore κ ν).run l).ttl k =
      if ms ≤ seconds * 1000 then (((seconds * 1000 - ms + 500) / 1000 : ℕ) : ℤ) else -2 := by
  obtain ⟨deadline, hentry, hdeadline⟩ := entries_run_of_lastWrite t h
  rw [ttl, hentry]
  dsimp only
  by_cases hlive : ms ≤ seconds * 1000
  · rw [if_pos (by omega), if_pos hlive]
    congr 3
    omega
  · rw [if_neg (by omega), if_neg hlive]

end ExpiryStore

end AxonTask.Lib
