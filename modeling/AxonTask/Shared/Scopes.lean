import AxonTask.Lib.Wildcard
import AxonTask.Shared.ApiKeyLifecycle

/-!
# Scopes (`auth/api_key.rs`, `auth/middleware.rs` and `models/api_key.rs` of `axontask-shared`)

What a list of scopes grants is decided in two places: `has_scope` of `auth/api_key.rs`, which
`AuthContext::has_scope` calls, knows wildcards, and `ApiKey::has_scope` knows administrators.
-/

namespace AxonTask

open Lib

/-! ### The two matchers -/

/-- `has_scope` (`auth/api_key.rs`). -/
def hasScope : List String → String → Bool
  | [], _ => false
  | scope :: scopes, required =>
    if scope = "*" then true
    else if scope = required then true
    else if ":*".toList.isSuffixOf scope.toList then
      -- the slice leaves out the last byte, which is the star
      let pre := scope.toList.dropLast
      if pre.isPrefixOf required.toList then true else hasScope scopes required
    else hasScope scopes required

/-- `AuthContext::has_scope`. -/
def AuthContext.hasScope (auth : AuthContext) (requiredScope : String) : Bool :=
  match auth.method with
  | .jwt => true
  | .apiKey =>
    match auth.scopes with
    | some scopes => AxonTask.hasScope scopes requiredScope
    | none => false

/-- `ApiKey::has_scope`. -/
def ApiKey.hasScope (k : ApiKey) (scope : String) : Bool :=
  k.scopes.contains scope || k.scopes.contains "admin"

/-! ### Wildcards -/

/-- The scope is `*`, or it is `p:*` and `required` starts with `p:`. -/
def IsWildcardFor (required scope : String) : Prop :=
  scope = "*" ∨ ∃ p q, scope = p ++ ":*" ∧ required = p ++ ":" ++ q

namespace Scopes

/-- The separator of scopes is not the star. -/
lemma sep_ne_star : ':' ≠ '*' := by decide

lemma isWildcardFor_iff {required scope : String} :
    IsWildcardFor required scope ↔ Wildcard.Matches ':' '*' scope.toList required.toList := by
  constructor
  · rintro (rfl | ⟨p, q, rfl, rfl⟩)
    · exact Or.inl rfl
    · exact Or.inr ⟨p.toList, by simp, by simp⟩
  · rintro (hstar | ⟨p, hscope, q, hrequired⟩)
    · exact Or.inl (String.toList_inj.1 hstar)
    · refine Or.inr ⟨String.ofList p, String.ofList q, ?_, ?_⟩
      · exact String.toList_inj.1 (by simp [hscope])
      · exact String.toList_inj.1 (by simp [← hrequired])

/-- The scopes as patterns. -/
def patterns (scopes : List String) : Set (List Char) := {s | ∃ scope ∈ scopes, scope.toList = s}

lemma patterns_mono {A B : List String} (h : A ⊆ B) : patterns A ⊆ patterns B := by
  rintro _ ⟨scope, hscope, rfl⟩
  exact ⟨scope, h hscope, rfl⟩

/-- **Spec of `has_scope`.** -/
lemma hasScope_eq_true_iff {scopes : List String} {required : String} :
    hasScope scopes required = true ↔
      ∃ scope ∈ scopes, scope = required ∨ IsWildcardFor required scope := by
  induction scopes with
  | nil => simp [hasScope]
  | cons scope scopes ih =>
    have hwildcard : IsWildcardFor required scope ↔ scope = "*" ∨
        ":*".toList.isSuffixOf scope.toList = true ∧
          scope.toList.dropLast.isPrefixOf required.toList = true := by
      rw [isWildcardFor_iff, Wildcard.matches_iff_dropLast, List.isSuffixOf_iff_suffix,
        List.isPrefixOf_iff_prefix, ← String.toList_inj]
      rfl
    rw [List.exists_mem_cons_iff, ← ih, hwildcard, hasScope]
    grind

/-- What `has_scope` accepts is what the scopes grant. -/
lemma hasScope_eq_true_iff_granted {scopes : List String} {required : String} :
    hasScope scopes required = true ↔
      required.toList ∈ Wildcard.granted sep_ne_star (patterns scopes) := by
  simp only [hasScope_eq_true_iff, Wildcard.mem_granted, patterns, Set.mem_ofPred_eq,
    Wildcard.Covers, isWildcardFor_iff]
  constructor
  · rintro ⟨scope, hscope, hcovers⟩
    exact ⟨_, ⟨scope, hscope, rfl⟩, hcovers.imp_left (congrArg String.toList)⟩
  · rintro ⟨_, ⟨scope, hscope, rfl⟩, hcovers⟩
    exact ⟨scope, hscope, hcovers.imp_left String.toList_inj.1⟩

end Scopes

/-- **Scope matching**: what `has_scope` accepts, that only the set of scopes matters and more
scopes grant more, and that scopes which are all covered by other scopes grant no more than
those. -/
theorem hasScope_exact :
    (∀ scopes required, hasScope scopes required = true ↔ ∃ scope ∈ scopes,
      scope = "*" ∨ scope = required ∨
        ∃ p q, scope = p ++ ":*" ∧ required = p ++ ":" ++ q) ∧
    (∀ A B required, (∀ scope, scope ∈ A ↔ scope ∈ B) →
      hasScope A required = hasScope B required) ∧
    (∀ A B required, A ⊆ B → hasScope A required = true → hasScope B required = true) ∧
    ∀ A B required, (∀ b ∈ B, hasScope A b = true) → hasScope B required = true →
      hasScope A required = true := by
  refine ⟨?_, ?_, ?_, ?_⟩
  · intro scopes required
    simp only [Scopes.hasScope_eq_true_iff, IsWildcardFor, or_left_comm]
  · intro A B required h
    rw [Bool.eq_iff_iff, Scopes.hasScope_eq_true_iff, Scopes.hasScope_eq_true_iff]
    simp only [h]
  · intro A B required h
    rw [Scopes.hasScope_eq_true_iff_granted, Scopes.hasScope_eq_true_iff_granted]
    exact fun hA => (Wildcard.granted _).monotone (Scopes.patterns_mono h) hA
  · intro A B required hcovered hrequired
    rw [Scopes.hasScope_eq_true_iff_granted] at hrequired ⊢
    -- what the scopes `B` are is granted by `A`, and hence what they grant
    have hB : Scopes.patterns B ≤ Wildcard.granted Scopes.sep_ne_star (Scopes.patterns A) := by
      rintro _ ⟨b, hb, rfl⟩
      exact Scopes.hasScope_eq_true_iff_granted.1 (hcovered b hb)
    exact (Wildcard.granted _).le_closure_iff.1 hB hrequired

/-- A key that is delegated a part of `tasks:*`, which is listed after another scope, too. -/
theorem hasScope_exact_delegated :
    hasScope ["tasks:*", "keys:read"] "tasks:log:read" = true ∧
      hasScope ["keys:read", "tasks:*"] "tasks:log:read" =
        hasScope ["tasks:*", "keys:read"] "tasks:log:read" ∧
      hasScope ["tasks:*", "keys:read"] "tasks:log:*" = true :=
  ⟨hasScope_exact.2.2.2 _ ["tasks:log:*"] _ (by decide) (by decide),
    hasScope_exact.2.1 _ _ _ (by simp [or_comm]),
    hasScope_exact.2.2.1 ["tasks:*"] _ _ (by simp) (by decide)⟩

/-! ### Both matchers on one key -/

/-- Both matchers decide alike. -/
def OneMeaning (k : ApiKey) (scope : String) : Prop :=
  (AuthContext.fromApiKey k).hasScope scope = k.hasScope scope

lemma ApiKey.hasScope_eq_true_iff {k : ApiKey} {scope : String} :
    k.hasScope scope = true ↔ scope ∈ k.scopes ∨ "admin" ∈ k.scopes := by
  simp [ApiKey.hasScope]

lemma AuthContext.hasScope_fromApiKey_eq_true_iff {k : ApiKey} {scope : String} :
    (AuthContext.fromApiKey k).hasScope scope = true ↔
      scope ∈ k.scopes ∨ ∃ s ∈ k.scopes, IsWildcardFor scope s := by
  show AxonTask.hasScope k.scopes scope = true ↔ _
  rw [Scopes.hasScope_eq_true_iff]
  constructor
  · rintro ⟨s, hs, rfl | hwildcard⟩
    · exact Or.inl hs
    · exact Or.inr ⟨s, hs, hwildcard⟩
  · rintro (hmem | ⟨s, hs, hwildcard⟩)
    · exact ⟨scope, hmem, Or.inl rfl⟩
    · exact ⟨s, hs, Or.inr hwildcard⟩

/-- **Where a scope has one meaning**: where the key has the scope itself, and where it is an
administrator's key exactly when it has a wildcard for the scope. -/
theorem oneMeaning_iff (k : ApiKey) (scope : String) :
    OneMeaning k scope ↔
      scope ∈ k.scopes ∨ ("admin" ∈ k.scopes ↔ ∃ s ∈ k.scopes, IsWildcardFor scope s) := by
  rw [OneMeaning, Bool.eq_iff_iff, AuthContext.hasScope_fromApiKey_eq_true_iff,
    ApiKey.hasScope_eq_true_iff]
  by_cases hmem : scope ∈ k.scopes
  · simp only [hmem, true_or]
  · simp only [hmem, false_or]
    exact iff_comm

/-- A key with the given scopes. -/
def ApiKey.sampleScopes (scopes : List String) : ApiKey :=
  ApiKey.new .sample ⟨2, "ci", scopes, none⟩ "axon_" 1 0

/-- A wildcard is known to one matcher only, and so is an administrator. -/
theorem not_oneMeaning_wildcard :
    ¬ OneMeaning (.sampleScopes ["tasks:*"]) "tasks:read" ∧
      ¬ OneMeaning (.sampleScopes ["admin"]) "read:task" := by
  constructor
  · intro h
    exact absurd h (show ¬ hasScope ["tasks:*"] "tasks:read" =
      (["tasks:*"].contains "tasks:read" || ["tasks:*"].contains "admin") by decide)
  · intro h
    exact absurd h (show ¬ hasScope ["admin"] "read:task" =
      (["admin"].contains "read:task" || ["admin"].contains "admin") by decide)

end AxonTask
