import Mathlib.Data.List.Basic

/-!
# Labelled machines, their runs and their invariants

A `Machine` is a state space with a partial step function: the label of a step carries
all the nondeterminism (which party moves, what the clock reads, what the environment
answers), so that a run is determined by its labels and can be computed.

Runs are taken under a *condition* `C` on the state before a step and its label.  The
condition `Machine.anyStep` gives all runs; a stronger one gives the runs in which some
step of interest does not happen.
-/

namespace AxonTask.Lib

/-- A state space with initial states and a partial step function on labels. -/
structure Machine (σ : Type*) (α : Type*) where
  /-- The initial states. -/
  Init : σ → Prop
  /-- The state after a step; `none` when the label is not enabled. -/
  step : σ → α → Option σ

namespace Machine

variable {σ α τ β : Type*} {M : Machine σ α} {C D : σ → α → Prop}

/-- The condition met by every step. -/
def anyStep : σ → α → Prop := fun _ _ => True

instance (s : σ) (a : α) : Decidable (anyStep s a) := isTrue trivial

variable (M C) in
/-- The runs of `M` all of whose steps meet the condition `C`. -/
inductive Run : σ → List α → σ → Prop
  | nil (s : σ) : Run s [] s
  | snoc {s s' s'' : σ} {l : List α} {a : α} :
      Run s l s' → C s' a → M.step s' a = some s'' → Run s (l ++ [a]) s''

variable (M C) in
/-- A state that a run under the condition `C` reaches from an initial state. -/
def Reachable (s : σ) : Prop := ∃ s₀ l, M.Init s₀ ∧ M.Run C s₀ l s

namespace Run

lemma single {s s' : σ} {a : α} (hC : C s a) (h : M.step s a = some s') : M.Run C s [a] s' :=
  Run.snoc (l := []) (Run.nil s) hC h

lemma trans {s s' s'' : σ} {l l' : List α} (h : M.Run C s l s') (h' : M.Run C s' l' s'') :
    M.Run C s (l ++ l') s'' := by
  induction h' with
  | nil => simpa using h
  | snoc _ hC hs ih =>
    rw [← List.append_assoc]
    exact ih.snoc hC hs

lemma cons {s s' s'' : σ} {a : α} {l : List α} (hC : C s a) (hs : M.step s a = some s')
    (h : M.Run C s' l s'') : M.Run C s (a :: l) s'' :=
  (single hC hs).trans h

/-- A run under a condition is a run under any weaker one. -/
lemma mono (hCD : ∀ s a, C s a → D s a) {s s' : σ} {l : List α} (h : M.Run C s l s') :
    M.Run D s l s' := by
  induction h with
  | nil => exact Run.nil _
  | snoc _ hC hs ih => exact ih.snoc (hCD _ _ hC) hs

/-- **The invariant rule.**  What every step under the condition preserves holds at the
end of a run that starts with it. -/
theorem preserves {P : σ → Prop}
    (hstep : ∀ s a s', C s a → P s → M.step s a = some s' → P s') {s s' : σ} {l : List α}
    (h : M.Run C s l s') (hP : P s) : P s' := by
  induction h with
  | nil => exact hP
  | snoc _ hC hs ih => exact hstep _ _ _ hC ih hs

/-- A condition on labels can be read off the labels of an arbitrary run. -/
lemma of_forall_label {Q : α → Prop} {s s' : σ} {l : List α} (h : M.Run C s l s')
    (hQ : ∀ a ∈ l, Q a) : M.Run (fun s a => C s a ∧ Q a) s l s' := by
  induction h with
  | nil => exact Run.nil _
  | @snoc _ _ l a _ hC hs ih =>
    exact (ih fun b hb => hQ b (by simp [hb])).snoc ⟨hC, hQ a (by simp)⟩ hs

end Run

lemma Reachable.init {s : σ} (h : M.Init s) : M.Reachable C s := ⟨s, [], h, Run.nil s⟩

lemma Reachable.run {s s' : σ} {l : List α} (h : M.Reachable C s) (hr : M.Run C s l s') :
    M.Reachable C s' := by
  obtain ⟨s₀, l₀, h₀, hr₀⟩ := h
  exact ⟨s₀, l₀ ++ l, h₀, hr₀.trans hr⟩

/-- **The invariant rule for reachable states.** -/
theorem Reachable.invariant {P : σ → Prop} (hinit : ∀ s, M.Init s → P s)
    (hstep : ∀ s a s', C s a → P s → M.step s a = some s' → P s') {s : σ}
    (h : M.Reachable C s) : P s := by
  obtain ⟨s₀, l, h₀, hr⟩ := h
  exact hr.preserves hstep (hinit _ h₀)

/-- The invariant rule, with what is known of all reachable states. -/
theorem Reachable.invariant_of_reachable {P : σ → Prop} (hinit : ∀ s, M.Init s → P s)
    (hstep : ∀ s a s', M.Reachable C s → C s a → P s → M.step s a = some s' → P s') {s : σ}
    (h : M.Reachable C s) : P s := by
  have hboth : M.Reachable C s ∧ P s := by
    refine h.invariant (P := fun s => M.Reachable C s ∧ P s) ?_ ?_
    · intro s hs
      exact ⟨Reachable.init hs, hinit s hs⟩
    · rintro s a s' hC ⟨hr, hP⟩ hs
      exact ⟨hr.run (Run.single hC hs), hstep s a s' hr hC hP hs⟩
  exact hboth.2

/-- **Changing the condition.**  When an invariant of the runs under `C` makes every step of them
meet `D`, what they reach is reached under `D`. -/
theorem Reachable.of_invariant {P : σ → Prop} (hinit : ∀ s, M.Init s → P s)
    (hstep : ∀ s a s', C s a → P s → M.step s a = some s' → D s a ∧ P s') {s : σ}
    (h : M.Reachable C s) : M.Reachable D s := by
  have hboth : M.Reachable D s ∧ P s := by
    refine h.invariant (P := fun s => M.Reachable D s ∧ P s) ?_ ?_
    · intro s hs
      exact ⟨Reachable.init hs, hinit s hs⟩
    · rintro s a s' hC ⟨hr, hP⟩ hs
      obtain ⟨hD, hP'⟩ := hstep s a s' hC hP hs
      exact ⟨hr.run (Run.single hD hs), hP'⟩
  exact hboth.1

/-! ### Computing a run -/

variable (M) in
/-- The state after a list of labels, when all of them are enabled and meet `C`. -/
def exec (C : σ → α → Prop) [∀ s a, Decidable (C s a)] : σ → List α → Option σ
  | s, [] => some s
  | s, a :: l => if C s a then (M.step s a).bind fun s' => exec C s' l else none

lemma exec_append [∀ s a, Decidable (C s a)] (l l' : List α) (s : σ) :
    M.exec C s (l ++ l') = (M.exec C s l).bind fun s' => M.exec C s' l' := by
  induction l generalizing s with
  | nil => rfl
  | cons a l ih =>
    by_cases hC : C s a
    · simp only [List.cons_append, exec, if_pos hC, Option.bind_assoc]
      exact congrArg _ (funext ih)
    · simp [exec, hC]

/-- What `exec` computes is a run. -/
lemma run_of_exec [∀ s a, Decidable (C s a)] :
    ∀ {l : List α} {s s' : σ}, M.exec C s l = some s' → M.Run C s l s'
  | [], s, s', h => by
    obtain rfl : s = s' := by simpa [exec] using h
    exact Run.nil s
  | a :: l, s, s', h => by
    by_cases hC : C s a
    · simp only [exec, if_pos hC, Option.bind_eq_some_iff] at h
      obtain ⟨t, hs, h⟩ := h
      exact Run.cons hC hs (run_of_exec h)
    · simp [exec, hC] at h

/-! ### Simulation -/

/-- `R` relates every step of `M` to a run of `N`. -/
structure Simulation (M : Machine σ α) (N : Machine τ β) (C : σ → α → Prop) (D : τ → β → Prop)
    (R : σ → τ → Prop) : Prop where
  init : ∀ s, M.Init s → ∃ t, N.Init t ∧ R s t
  step : ∀ s a s' t, C s a → R s t → M.step s a = some s' → ∃ l t', N.Run D t l t' ∧ R s' t'

/-- A reachable state of the simulated machine is related to a reachable state of the
simulating one. -/
theorem Simulation.reachable {N : Machine τ β} {D : τ → β → Prop} {R : σ → τ → Prop}
    (h : Simulation M N C D R) {s : σ} (hs : M.Reachable C s) : ∃ t, N.Reachable D t ∧ R s t := by
  refine hs.invariant (P := fun s => ∃ t, N.Reachable D t ∧ R s t) ?_ ?_
  · intro s hs
    obtain ⟨t, ht, hR⟩ := h.init s hs
    exact ⟨t, Reachable.init ht, hR⟩
  · rintro s a s' hC ⟨t, ht, hR⟩ hstep
    obtain ⟨l, t', hrun, hR'⟩ := h.step s a s' t hC hR hstep
    exact ⟨t', ht.run hrun, hR'⟩

/-- **The projection rule.**  When the part `f` of the state starts in a reachable state of
`N`, and every step leaves it alone or is a step of `N` on it, it is always reachable. -/
theorem Reachable.project {N : Machine τ β} (f : σ → τ)
    (hinit : ∀ s, M.Init s → N.Reachable anyStep (f s))
    (hstep : ∀ s a s', C s a → N.Reachable anyStep (f s) → M.step s a = some s' →
      f s' = f s ∨ ∃ b, N.step (f s) b = some (f s'))
    {s : σ} (h : M.Reachable C s) : N.Reachable anyStep (f s) := by
  refine h.invariant (P := fun s => N.Reachable anyStep (f s)) hinit ?_
  intro s a s' hC hf hs
  rcases hstep s a s' hC hf hs with hsame | ⟨b, hb⟩
  · rwa [hsame]
  · exact hf.run (Run.single trivial hb)

end Machine

end AxonTask.Lib
