import AxonTask.Lib.Table

/-!
# Tables whose rows have owners

Two tables *agree* on the rows that a predicate selects when they have the same ones among
them.  A statement that touches only rows of one owner has the same outcome on two tables
that agree on this owner's rows, it leaves them in agreement, and it keeps the rows of all
others.  The second fact is an agreement too: of the table before and the table after, on the
rows that the owner does not have.
-/

namespace AxonTask.Lib

namespace Table

variable {κ ρ : Type*} {S : Schema κ ρ} {own p : ρ → Bool} {T T' T'' : Table S}

/-- The tables have the same rows among those that `own` selects. -/
def AgreeOn (own : ρ → Bool) (T T' : Table S) : Prop :=
  ∀ r, own r = true → (r ∈ T.rows ↔ r ∈ T'.rows)

namespace AgreeOn

lemma refl (T : Table S) : AgreeOn own T T := fun _ _ => Iff.rfl

lemma symm (h : AgreeOn own T T') : AgreeOn own T' T := fun r hr => (h r hr).symm

lemma trans (h : AgreeOn own T T') (h' : AgreeOn own T' T'') : AgreeOn own T T'' := fun r hr =>
  (h r hr).trans (h' r hr)

/-- The rows of the owner, in some order. -/
lemma filter_perm (h : AgreeOn own T T') : (T.rows.filter own).Perm (T'.rows.filter own) := by
  have hnodup : ∀ T : Table S, (T.rows.filter own).Nodup := fun T =>
    (List.Nodup.of_map _ T.keys_nodup).filter _
  rw [List.perm_ext_iff_of_nodup (hnodup T) (hnodup T')]
  intro r
  simp only [List.mem_filter]
  constructor
  · rintro ⟨hr, hown⟩
    exact ⟨(h r hown).1 hr, hown⟩
  · rintro ⟨hr, hown⟩
    exact ⟨(h r hown).2 hr, hown⟩

/-- As many rows of the owner satisfy a condition. -/
lemma count_eq (h : AgreeOn own T T') (hp : ∀ r, p r = true → own r = true) :
    T.count p = T'.count p := by
  have hfilter : ∀ T : Table S, T.count p = (T.rows.filter own).countP p := by
    intro T
    rw [count, List.countP_filter]
    refine List.countP_congr ?_
    intro r _
    simpa using hp r
  rw [hfilter T, hfilter T']
  exact h.filter_perm.countP_eq p

variable [DecidableEq κ]

/-- The row with a key, if the owner has it. -/
lemma row_filter_eq (h : AgreeOn own T T') (k : κ) :
    (T.row k).filter own = (T'.row k).filter own := by
  have hle : ∀ {T T' : Table S}, AgreeOn own T T' → ∀ r,
      (T.row k).filter own = some r → (T'.row k).filter own = some r := by
    intro T T' h r hr
    obtain ⟨hrow, hown⟩ := Option.filter_eq_some_iff.1 hr
    obtain ⟨hmem, hkey⟩ := row_eq_some_iff.1 hrow
    exact Option.filter_eq_some_iff.2 ⟨row_eq_some_iff.2 ⟨(h r hown).1 hmem, hkey⟩, hown⟩
  exact Option.ext fun r => ⟨hle h r, hle h.symm r⟩

end AgreeOn

/-- Two tables agree when each key has the same row of the owner. -/
lemma agreeOn_of_row [DecidableEq κ]
    (h : ∀ k, (T.row k).filter own = (T'.row k).filter own) : AgreeOn own T T' := by
  have hle : ∀ {T T' : Table S}, (∀ k, (T.row k).filter own = (T'.row k).filter own) →
      ∀ r, own r = true → r ∈ T.rows → r ∈ T'.rows := by
    intro T T' h r hown hr
    have hrow : (T.row (S.key r)).filter own = some r := by
      rw [row_key_of_mem hr, Option.filter_some, if_pos hown]
    rw [h] at hrow
    exact mem_of_row (Option.filter_eq_some_iff.1 hrow).1
  exact fun r hown => ⟨hle h r hown, hle (fun k => (h k).symm) r hown⟩

/-! ### Insertions -/

section Insert

variable [DecidableEq κ]

/-- A row under a new key is inserted when it satisfies the constraint. -/
lemma insert_of_row_none {r : ρ} (hc : S.check r = true) (hk : T.row (S.key r) = none) :
    ∃ T₁, T.insert r = .ok T₁ ∧ T₁.rows = T.rows ++ [r] := by
  cases h : T.insert r with
  | ok T₁ => exact ⟨T₁, rfl, (insert_eq_ok h).2.2⟩
  | error v =>
    have hmem : S.key r ∉ T.rows.map S.key := by
      rintro hmem
      obtain ⟨r', hr', hkey⟩ := List.mem_map.1 hmem
      exact row_eq_none_iff.1 hk r' hr' hkey
    unfold insert at h
    rw [dif_pos hc, dif_neg hmem] at h
    cases h

lemma insert_of_check {r : ρ} (hc : S.check r = false) : T.insert r = .error .check := by
  unfold insert
  rw [dif_neg (by simp [hc])]

/-- **An insertion under a new key.**  It has the same outcome on tables that agree, and they
agree afterwards. -/
lemma AgreeOn.insert (h : AgreeOn own T T') {r : ρ} (hk : T.row (S.key r) = none)
    (hk' : T'.row (S.key r) = none) :
    (∃ v, T.insert r = .error v ∧ T'.insert r = .error v) ∨
      ∃ T₁ T₁', T.insert r = .ok T₁ ∧ T'.insert r = .ok T₁' ∧ AgreeOn own T₁ T₁' := by
  cases hc : S.check r with
  | false => exact Or.inl ⟨.check, insert_of_check hc, insert_of_check hc⟩
  | true =>
    obtain ⟨T₁, hins, hrows⟩ := insert_of_row_none hc hk
    obtain ⟨T₁', hins', hrows'⟩ := insert_of_row_none hc hk'
    refine Or.inr ⟨T₁, T₁', hins, hins', ?_⟩
    intro r' hr'
    simp only [hrows, hrows', List.mem_append, h r' hr']

/-- An insertion keeps the rows of the others. -/
lemma agreeOn_insert {T₁ : Table S} {r : ρ} (h : T.insert r = .ok T₁) (hr : own r = false) :
    AgreeOn own T T₁ := by
  intro r' hr'
  rw [(insert_eq_ok h).2.2]
  have hne : r' ≠ r := by
    rintro rfl
    rw [hr] at hr'
    cases hr'
  simp [hne]

end Insert

/-! ### Updates -/

section Update

variable {f : ρ → ρ} {hf : ∀ r, S.key (f r) = S.key r}

lemma mem_rows_update {T₁ : Table S} (h : T.update p f hf = .ok T₁) {r' : ρ} :
    r' ∈ T₁.rows ↔ ∃ r ∈ T.rows, (if p r = true then f r else r) = r' := by
  rw [(update_eq_ok h).2, updateRows, List.mem_map]

/-- The row that an update makes one of the owner's has been one before. -/
lemma AgreeOn.mem_of_update {T₁ T₁' : Table S} (h : AgreeOn own T T')
    (hp : ∀ r ∈ T.rows, p r = true → own r = true) (hu : T.update p f hf = .ok T₁)
    (hu' : T'.update p f hf = .ok T₁') {r' : ρ} (hr' : own r' = true) (hmem : r' ∈ T₁.rows) :
    r' ∈ T₁'.rows := by
  obtain ⟨r, hr, rfl⟩ := (mem_rows_update hu).1 hmem
  refine (mem_rows_update hu').2 ⟨r, (h r ?_).1 hr, rfl⟩
  by_cases hsel : p r = true
  · exact hp r hr hsel
  · rwa [if_neg hsel] at hr'

/-- **An update of rows of the owner.**  It has the same outcome on tables that agree, and
they agree afterwards. -/
lemma AgreeOn.update {f : ρ → ρ} (hf : ∀ r, S.key (f r) = S.key r) (h : AgreeOn own T T')
    (hp : ∀ r ∈ T.rows, p r = true → own r = true)
    (hp' : ∀ r ∈ T'.rows, p r = true → own r = true) :
    (∃ v, T.update p f hf = .error v ∧ T'.update p f hf = .error v) ∨
      ∃ T₁ T₁', T.update p f hf = .ok T₁ ∧ T'.update p f hf = .ok T₁' ∧ AgreeOn own T₁ T₁' := by
  by_cases hc : ∀ r ∈ T.rows, p r = true → S.check (f r) = true
  · have hc' : ∀ r ∈ T'.rows, p r = true → S.check (f r) = true := by
      intro r hr hsel
      exact hc r ((h r (hp' r hr hsel)).2 hr) hsel
    obtain ⟨T₁, hu⟩ := exists_update hf hc
    obtain ⟨T₁', hu'⟩ := exists_update hf hc'
    refine Or.inr ⟨T₁, T₁', hu, hu', ?_⟩
    intro r' hr'
    exact ⟨h.mem_of_update hp hu hu' hr', h.symm.mem_of_update hp' hu' hu hr'⟩
  · have hc' : ¬ ∀ r ∈ T'.rows, p r = true → S.check (f r) = true := by
      intro hall
      exact hc fun r hr hsel => hall r ((h r (hp r hr hsel)).1 hr) hsel
    refine Or.inl ⟨.check, ?_, ?_⟩
    · unfold Table.update
      rw [dif_neg hc]
    · unfold Table.update
      rw [dif_neg hc']

/-- An update keeps the rows of the others. -/
lemma agreeOn_update {T₁ : Table S} (h : T.update p f hf = .ok T₁)
    (hp : ∀ r ∈ T.rows, p r = true → own r = false ∧ own (f r) = false) : AgreeOn own T T₁ := by
  intro r' hr'
  rw [mem_rows_update h]
  constructor
  · intro hmem
    refine ⟨r', hmem, if_neg ?_⟩
    intro hsel
    rw [(hp r' hmem hsel).1] at hr'
    cases hr'
  · rintro ⟨r, hr, rfl⟩
    by_cases hsel : p r = true
    · rw [if_pos hsel, (hp r hr hsel).2] at hr'
      cases hr'
    · rwa [if_neg hsel]

end Update

section UpdateKey

variable [DecidableEq κ] {k : κ} {f : ρ → ρ} {hf : ∀ r, S.key (f r) = S.key r} {o : Option ρ}

/-- **An update of a row of the owner by its key.**  It returns the same row on tables that
agree. -/
lemma AgreeOn.updateKey {f : ρ → ρ} (hf : ∀ r, S.key (f r) = S.key r) (h : AgreeOn own T T')
    (hp : ∀ r, T.row k = some r → p r = true → own r = true)
    (hp' : ∀ r, T'.row k = some r → p r = true → own r = true) :
    (∃ v, T.updateKey k p f hf = .error v ∧ T'.updateKey k p f hf = .error v) ∨
      ∃ o T₁ T₁', T.updateKey k p f hf = .ok (o, T₁) ∧ T'.updateKey k p f hf = .ok (o, T₁') ∧
        AgreeOn own T₁ T₁' := by
  have hsel : ∀ {T : Table S}, (∀ r, T.row k = some r → p r = true → own r = true) →
      ∀ r ∈ T.rows, (decide (S.key r = k) && p r) = true → own r = true := by
    intro T hp r hr hpr
    simp only [Bool.and_eq_true, decide_eq_true_eq] at hpr
    exact hp r (row_eq_some_iff.2 ⟨hr, hpr.1⟩) hpr.2
  have hfilter : ∀ {T : Table S}, (∀ r, T.row k = some r → p r = true → own r = true) →
      (T.row k).filter p = ((T.row k).filter own).filter p := by
    intro T hp
    cases hr : T.row k with
    | none => rfl
    | some r =>
      by_cases hpr : p r = true
      · simp [Option.filter_some, hpr, hp r hr hpr]
      · by_cases hown : own r = true
        · simp [Option.filter_some, hpr, hown]
        · simp [Option.filter_some, hpr, hown]
  unfold Table.updateKey
  rcases h.update hf (hsel hp) (hsel hp') with
    ⟨v, hu, hu'⟩ | ⟨T₁, T₁', hu, hu', hagree⟩
  · exact Or.inl ⟨v, by rw [hu]; rfl, by rw [hu']; rfl⟩
  · refine Or.inr ⟨((T.row k).filter p).map f, T₁, T₁', by rw [hu]; rfl, ?_, hagree⟩
    rw [hu', hfilter hp, h.row_filter_eq k, ← hfilter hp']
    rfl

/-- An update by key keeps the rows of the others. -/
lemma agreeOn_updateKey {T₁ : Table S} (h : T.updateKey k p f hf = .ok (o, T₁))
    (hp : ∀ r, T.row k = some r → p r = true → own r = false ∧ own (f r) = false) :
    AgreeOn own T T₁ := by
  unfold Table.updateKey at h
  cases hu : T.update (fun r => decide (S.key r = k) && p r) f hf with
  | error v =>
    rw [hu] at h
    cases h
  | ok T₂ =>
    rw [hu] at h
    simp only [Except.map, Except.ok.injEq, Prod.mk.injEq] at h
    obtain ⟨-, rfl⟩ := h
    refine agreeOn_update hu ?_
    intro r hr hpr
    simp only [Bool.and_eq_true, decide_eq_true_eq] at hpr
    exact hp r (row_eq_some_iff.2 ⟨hr, hpr.1⟩) hpr.2

end UpdateKey

end Table

end AxonTask.Lib
