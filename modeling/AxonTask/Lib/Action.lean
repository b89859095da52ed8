import Mathlib.Logic.Basic

/-!
# Computations that change a state and may fail

An `Action` returns a result or an error, and leaves a state in both cases: an error does not
undo what was done before it.  An action is *atomic* at a state when it does undo it, and for
a sequence of actions this is a matter of the first lasting change: before it the state is
still the old one, and after it nothing may fail any more.
-/

namespace AxonTask.Lib

universe u

/-- A computation on states of the type `σ` that returns an `α` or an error. -/
def Action (σ ε α : Type u) : Type u := σ → Except ε α × σ

namespace Action

variable {σ ε α β : Type u}

instance : Monad (Action σ ε) where
  pure a s := (.ok a, s)
  bind p f s :=
    match p s with
    | (.ok a, s') => f a s'
    | (.error e, s') => (.error e, s')

/-- A computation that does not look at the state. -/
def ofExcept (x : Except ε α) : Action σ ε α := fun s => (x, s)

variable {p : Action σ ε α} {f : α → Action σ ε β} {s s' : σ}

lemma bind_ok {a : α} (h : p s = (.ok a, s')) : (p >>= f) s = f a s' := by
  simp only [bind, h]

lemma bind_error {e : ε} (h : p s = (.error e, s')) : (p >>= f) s = (.error e, s') := by
  simp only [bind, h]

/-- Inversion of a sequence that succeeds. -/
lemma bind_eq_ok {b : β} (h : (p >>= f) s = (.ok b, s')) :
    ∃ a s₁, p s = (.ok a, s₁) ∧ f a s₁ = (.ok b, s') := by
  rcases hp : p s with ⟨e | a, s₁⟩
  · rw [bind_error hp] at h
    cases h
  · exact ⟨a, s₁, rfl, by rwa [bind_ok hp] at h⟩

/-- Inversion of a sequence that fails. -/
lemma bind_eq_error {e : ε} (h : (p >>= f) s = (.error e, s')) :
    p s = (.error e, s') ∨ ∃ a s₁, p s = (.ok a, s₁) ∧ f a s₁ = (.error e, s') := by
  rcases hp : p s with ⟨e₁ | a, s₁⟩
  · rw [bind_error hp] at h
    cases h
    exact Or.inl rfl
  · exact Or.inr ⟨a, s₁, rfl, by rwa [bind_ok hp] at h⟩

/-- A check that has succeeded has left the state. -/
lemma ofExcept_eq_ok {x : Except ε α} {a : α} (h : ofExcept x s = (.ok a, s')) :
    x = .ok a ∧ s' = s := by
  cases h
  exact ⟨rfl, rfl⟩

lemma ofExcept_eq_error {x : Except ε α} {e : ε} (h : ofExcept x s = (.error e, s')) :
    x = .error e := by
  cases h
  rfl

/-- Inversion of a sequence that begins with a check. -/
lemma ofExcept_bind_eq_ok {x : Except ε α} {b : β} (h : (ofExcept x >>= f) s = (.ok b, s')) :
    ∃ a, x = .ok a ∧ f a s = (.ok b, s') := by
  obtain ⟨a, s₁, hx, hf⟩ := bind_eq_ok h
  obtain ⟨rfl, rfl⟩ := ofExcept_eq_ok hx
  exact ⟨a, rfl, hf⟩

lemma ofExcept_bind_eq_error {x : Except ε α} {e : ε}
    (h : (ofExcept x >>= f) s = (.error e, s')) :
    x = .error e ∨ ∃ a, x = .ok a ∧ f a s = (.error e, s') := by
  rcases bind_eq_error h with hx | ⟨a, s₁, hx, hf⟩
  · exact Or.inl (ofExcept_eq_error hx)
  · obtain ⟨rfl, rfl⟩ := ofExcept_eq_ok hx
    exact Or.inr ⟨a, rfl, hf⟩

/-! ### What an action does to the state -/

/-- The states before and after the action are related, whether it fails or not. -/
def Within (R : σ → σ → Prop) (p : Action σ ε α) : Prop := ∀ s, R s (p s).2

lemma within_ofExcept {R : σ → σ → Prop} (hrefl : ∀ s, R s s) (x : Except ε α) :
    Within R (ofExcept x : Action σ ε α) := fun s => hrefl s

lemma Within.bind {R : σ → σ → Prop} (htrans : ∀ s₁ s₂ s₃, R s₁ s₂ → R s₂ s₃ → R s₁ s₃)
    (hp : Within R p) (hf : ∀ a, Within R (f a)) : Within R (p >>= f) := by
  intro s
  have hs := hp s
  rcases h : p s with ⟨e | a, s₁⟩
  · rw [bind_error h]
    rwa [h] at hs
  · rw [h] at hs
    rw [bind_ok h]
    exact htrans _ _ _ hs (hf a s₁)

/-- The action leaves the part `g` of every state as it is. -/
def Keeps {γ : Sort*} (g : σ → γ) (p : Action σ ε α) : Prop := Within (fun s s' => g s' = g s) p

lemma keeps_ofExcept {γ : Sort*} (g : σ → γ) (x : Except ε α) :
    Keeps g (ofExcept x : Action σ ε α) :=
  within_ofExcept (R := fun s s' => g s' = g s) (fun _ => rfl) x

lemma Keeps.bind {γ : Sort*} {g : σ → γ} (hp : Keeps g p) (hf : ∀ a, Keeps g (f a)) :
    Keeps g (p >>= f) :=
  Within.bind (fun _ _ _ h₁ h₂ => h₂.trans h₁) hp hf

/-! ### Atomic actions -/

/-- When the action fails at `s`, it leaves `s`. -/
def AtomicAt (p : Action σ ε α) (s : σ) : Prop := ∀ e s', p s = (.error e, s') → s' = s

/-- Before a change, a check that fails does no harm. -/
lemma atomicAt_ofExcept_bind {x : Except ε α} :
    AtomicAt (ofExcept x >>= f) s ↔ ∀ a, x = .ok a → AtomicAt (f a) s := by
  cases x with
  | error e =>
    have herror : (ofExcept (.error e) >>= f) s = (.error e, s) := bind_error rfl
    simp [AtomicAt, herror]
  | ok a =>
    have hok : (ofExcept (.ok a) >>= f) s = f a s := bind_ok rfl
    simp [AtomicAt, hok]

/-- After a change that the rest of the sequence keeps, the rest may not fail. -/
lemma atomicAt_bind_iff {γ : Sort*} {g : σ → γ} {a : α} (hp : p s = (.ok a, s'))
    (hchange : g s' ≠ g s) (hkeep : Keeps g (f a)) :
    AtomicAt (p >>= f) s ↔ ∃ b s'', f a s' = (.ok b, s'') := by
  unfold AtomicAt
  rw [bind_ok hp]
  have hkept := hkeep s'
  rcases hrest : f a s' with ⟨e | b, s''⟩
  · rw [hrest] at hkept
    constructor
    · intro h
      exact absurd (hkept.symm.trans (congrArg g (h e s'' rfl))) hchange
    · rintro ⟨b, s₂, hb⟩
      cases hb
  · exact ⟨fun _ => ⟨b, s'', rfl⟩, fun _ e s₂ h => by cases h⟩

/-- A sequence that fails in its first part. -/
lemma atomicAt_bind_of_error {e : ε} (hp : p s = (.error e, s')) :
    AtomicAt (p >>= f) s ↔ s' = s := by
  unfold AtomicAt
  rw [bind_error hp]
  constructor
  · exact fun h => h e s' rfl
  · rintro rfl e₁ s₁ h
    cases h
    rfl

end Action

end AxonTask.Lib
