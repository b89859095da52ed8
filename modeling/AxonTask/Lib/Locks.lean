import Mathlib.Logic.Function.Basic

/-!
# Exclusive locks

A lock table names for each item the owner that has locked it.  A system in which every
owner records its own locks keeps the two in agreement; the relation `Locks.HeldBy` says
that they do, and comes with a rule for each thing that can happen to a lock.
-/

namespace AxonTask.Lib

/-- The owner of every locked item. -/
abbrev Locks (ι κ : Type*) := ι → Option κ

namespace Locks

variable {ι κ : Type*} [DecidableEq ι] [DecidableEq κ] {L : Locks ι κ} {held held' : κ → List ι}

/-- No item is locked. -/
def free : Locks ι κ := fun _ => none

/-- The owner `k` locks the item `i`. -/
def acquire (L : Locks ι κ) (i : ι) (k : κ) : Locks ι κ := Function.update L i (some k)

/-- The owner `k` releases its locks. -/
def release (L : Locks ι κ) (k : κ) : Locks ι κ := fun i => if L i = some k then none else L i

/-- The owners record the locks that they have. -/
def HeldBy (L : Locks ι κ) (held : κ → List ι) : Prop := ∀ i k, L i = some k ↔ i ∈ held k

omit [DecidableEq ι] [DecidableEq κ] in
lemma heldBy_free (h : ∀ k, held k = []) : HeldBy (free : Locks ι κ) held := by
  intro i k
  simp [free, h]

namespace HeldBy

omit [DecidableEq ι] [DecidableEq κ] in
/-- Two owners have no lock in common. -/
lemma exclusive (h : L.HeldBy held) {i : ι} {k k' : κ} (hk : i ∈ held k) (hk' : i ∈ held k') :
    k = k' :=
  Option.some.inj (((h i k).2 hk).symm.trans ((h i k').2 hk'))

omit [DecidableEq ι] [DecidableEq κ] in
lemma congr (h : L.HeldBy held) (hheld : ∀ k, held' k = held k) : L.HeldBy held' := by
  intro i k
  rw [hheld]
  exact h i k

omit [DecidableEq κ] in
/-- A free item is locked, and its owner records it. -/
lemma acquire (h : L.HeldBy held) {i : ι} {k : κ} (hfree : L i = none)
    (hk : ∀ j, j ∈ held' k ↔ j ∈ held k ∨ j = i) (hother : ∀ k' ≠ k, held' k' = held k') :
    (L.acquire i k).HeldBy held' := by
  intro j k'
  have hno : ∀ k', i ∉ held k' := fun k' hmem => by simp [(h i k').2 hmem] at hfree
  by_cases hj : j = i
  · subst hj
    rw [Locks.acquire, Function.update_self, Option.some.injEq]
    by_cases hk' : k' = k
    · subst hk'
      simp [hk]
    · simp [hother k' hk', hno, Ne.symm hk']
  · rw [Locks.acquire, Function.update_of_ne hj, h]
    by_cases hk' : k' = k
    · subst hk'
      simp [hk, hj]
    · rw [hother k' hk']

omit [DecidableEq ι] in
/-- An owner releases its locks, and records none. -/
lemma release (h : L.HeldBy held) {k : κ} (hk : held' k = [])
    (hother : ∀ k' ≠ k, held' k' = held k') : (L.release k).HeldBy held' := by
  intro i k'
  unfold Locks.release
  by_cases hi : L i = some k
  · rw [if_pos hi]
    by_cases hk' : k' = k
    · simp [hk', hk]
    · rw [hother k' hk', ← h, hi]
      simp [Ne.symm hk']
  · rw [if_neg hi]
    by_cases hk' : k' = k
    · subst hk'
      simp [hk, hi]
    · rw [hother k' hk', h]

end HeldBy

end Locks

end AxonTask.Lib
