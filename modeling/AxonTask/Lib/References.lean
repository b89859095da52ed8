import AxonTask.Lib.Table

/-!
# Foreign keys and what a deletion does to them

A table *refers* to another one by a column when every value of the column, unless it is
NULL, is the key of a row there.  When rows of the other table are deleted, `ON DELETE
CASCADE` deletes the rows that have lost their partner, and `ON DELETE SET NULL` clears the
column in them.  Either action restores the reference, and neither disturbs another one.
-/

namespace AxonTask.Lib

namespace Table

variable {κ κ' κ'' ρ ρ' ρ'' : Type*} {S : Schema κ ρ} {S' : Schema κ' ρ'} {S'' : Schema κ'' ρ''}
  [DecidableEq κ'] [DecidableEq κ'']

/-- The foreign key `col` of `T` on the table `P`. -/
def Refers (T : Table S) (P : Table S') (col : ρ → Option κ') : Prop :=
  ∀ r ∈ T.rows, (col r).all (fun k => (P.row k).isSome) = true

instance (T : Table S) (P : Table S') (col : ρ → Option κ') : Decidable (T.Refers P col) :=
  inferInstanceAs (Decidable (∀ r ∈ T.rows, (col r).all (fun k => (P.row k).isSome) = true))

/-- The row has lost the row that it refers to. -/
def dangles (P : Table S') (col : ρ → Option κ') (r : ρ) : Bool :=
  (col r).any fun k => (P.row k).isNone

/-- `ON DELETE CASCADE`, when `P` is what is left of the other table. -/
def cascade (T : Table S) (P : Table S') (col : ρ → Option κ') : Table S := T.delete (dangles P col)

/-- `ON DELETE SET NULL`, when `P` is what is left of the other table. -/
def setNull (T : Table S) (P : Table S') (col : ρ → Option κ') (clear : ρ → ρ)
    (hkey : ∀ r, S.key (clear r) = S.key r) (hcheck : ∀ r, S.check (clear r) = S.check r) :
    Table S where
  rows := updateRows (dangles P col) clear T.rows
  keys_nodup := by rw [map_key_updateRows hkey]; exact T.keys_nodup
  checked := by
    intro r' hr'
    obtain ⟨r, hr, rfl⟩ := mem_updateRows hr'
    split
    · rw [hcheck]
      exact T.checked r hr
    · exact T.checked r hr

variable {T T' : Table S} {P P' : Table S'} {Q : Table S''} {col : ρ → Option κ'}
  {col' : ρ → Option κ''}

/-! ### References -/

lemma refers_iff :
    T.Refers P col ↔ ∀ r ∈ T.rows, ∀ k, col r = some k → (P.row k).isSome = true := by
  refine forall₂_congr ?_
  intro r _
  rw [Option.all_eq_true]

lemma dangles_eq_false_iff {r : ρ} :
    dangles P col r = false ↔ ∀ k, col r = some k → (P.row k).isSome = true := by
  rw [dangles, Option.any_eq_false]
  refine forall₂_congr ?_
  intro k _
  exact Option.isNone_eq_false_iff

lemma refers_iff_dangles : T.Refers P col ↔ ∀ r ∈ T.rows, dangles P col r = false := by
  simp only [refers_iff, dangles_eq_false_iff]

lemma refers_empty : (empty S).Refers P col := by
  intro r hr
  cases hr

/-- A table whose rows are among those of another one refers to what this refers to. -/
lemma Refers.of_subset (h : T.Refers P col) (hsub : ∀ r ∈ T'.rows, r ∈ T.rows) : T'.Refers P col :=
  fun r hr => h r (hsub r hr)

lemma Refers.delete (h : T.Refers P col) (p : ρ → Bool) : (T.delete p).Refers P col :=
  h.of_subset fun _ hr => List.mem_of_mem_filter hr

/-- An update that leaves the column alone, or clears it, keeps the reference. -/
lemma Refers.updateRows {p : ρ → Bool} {f : ρ → ρ} (h : T.Refers P col)
    (hrows : T'.rows = updateRows p f T.rows) (hf : ∀ r, col (f r) = col r ∨ col (f r) = none) :
    T'.Refers P col := by
  rw [refers_iff] at h ⊢
  intro r' hr' k hk
  rw [hrows] at hr'
  obtain ⟨r, hr, rfl⟩ := mem_updateRows hr'
  by_cases hp : p r = true
  · rw [if_pos hp] at hk
    rcases hf r with hsame | hnone
    · exact h r hr k (hsame ▸ hk)
    · rw [hnone] at hk
      cases hk
  · rw [if_neg hp] at hk
    exact h r hr k hk

/-- The other table may grow. -/
lemma Refers.mono (h : T.Refers P col)
    (hP : ∀ k, (P.row k).isSome = true → (P'.row k).isSome = true) : T.Refers P' col := by
  rw [refers_iff] at h ⊢
  exact fun r hr k hk => hP k (h r hr k hk)

/-! ### Rows that were there before -/

/-- After an insertion, a row was there before or is the new one. -/
lemma isSome_row_of_append {r : ρ'} {k : κ'} (h : P'.rows = P.rows ++ [r])
    (hk : (P'.row k).isSome = true) : (P.row k).isSome = true ∨ S'.key r = k := by
  obtain ⟨r', hr'⟩ := Option.isSome_iff_exists.1 hk
  obtain ⟨hmem, hkey⟩ := row_eq_some_iff.1 hr'
  rw [h, List.mem_append, List.mem_singleton] at hmem
  rcases hmem with hmem | rfl
  · exact Or.inl (Option.isSome_iff_exists.2 ⟨r', row_eq_some_iff.2 ⟨hmem, hkey⟩⟩)
  · exact Or.inr hkey

lemma isSome_row_of_delete {p : ρ' → Bool} {k : κ'} (hk : ((P.delete p).row k).isSome = true) :
    (P.row k).isSome = true := by
  rw [row_delete] at hk
  obtain ⟨r, hr⟩ := Option.isSome_iff_exists.1 hk
  rw [(Option.filter_eq_some_iff.1 hr).1, Option.isSome_some]

/-! ### The two actions -/

lemma mem_cascade {r : ρ} : r ∈ (T.cascade P col).rows ↔ r ∈ T.rows ∧ dangles P col r = false := by
  rw [cascade, delete, List.mem_filter, Bool.not_eq_true']

/-- **A cascade restores the reference.** -/
lemma refers_cascade (T : Table S) (P : Table S') (col : ρ → Option κ') :
    (T.cascade P col).Refers P col :=
  refers_iff_dangles.2 fun _ hr => (mem_cascade.1 hr).2

/-- It keeps every other one. -/
lemma Refers.cascade (h : T.Refers Q col') (P : Table S') (col : ρ → Option κ') :
    (T.cascade P col).Refers Q col' := h.delete _

/-- Without a row that has lost its partner nothing is deleted. -/
lemma Refers.cascade_eq_self (h : T.Refers P col) : T.cascade P col = T := by
  refine ext (List.filter_eq_self.2 ?_)
  intro r hr
  rw [refers_iff_dangles.1 h r hr, Bool.not_false]

/-- Rows that have kept their partner are not deleted. -/
lemma filter_cascade {p : ρ → Bool} (h : ∀ r ∈ T.rows, p r = true → dangles P col r = false) :
    (T.cascade P col).rows.filter p = T.rows.filter p := by
  rw [Table.cascade, delete, List.filter_filter]
  refine List.filter_congr ?_
  intro r hr
  by_cases hp : p r = true
  · simp [hp, h r hr hp]
  · simp [hp]

/-- No row refers to a row that is not there. -/
lemma Refers.filter_eq_nil {p : ρ → Bool} {k : κ'} (h : T.Refers P col) (hk : P.row k = none)
    (hp : ∀ r, p r = true → col r = some k) : T.rows.filter p = [] := by
  refine List.filter_eq_nil_iff.2 ?_
  intro r hr hsel
  have hsome := refers_iff.1 h r hr k (hp r hsel)
  rw [hk] at hsome
  cases hsome

section SetNull

variable {clear : ρ → ρ} {hkey : ∀ r, S.key (clear r) = S.key r}
  {hcheck : ∀ r, S.check (clear r) = S.check r}

/-- **Clearing the column restores the reference.** -/
lemma refers_setNull (hclear : ∀ r, col (clear r) = none) :
    (T.setNull P col clear hkey hcheck).Refers P col := by
  rw [refers_iff_dangles]
  intro r' hr'
  obtain ⟨r, hr, rfl⟩ := mem_updateRows hr'
  split
  · rw [dangles_eq_false_iff]
    intro k hk
    rw [hclear] at hk
    cases hk
  · rename_i hdangles
    simpa using hdangles

/-- It keeps every other one. -/
lemma Refers.setNull (h : T.Refers Q col') (hcol : ∀ r, col' (clear r) = col' r) :
    (T.setNull P col clear hkey hcheck).Refers Q col' :=
  h.updateRows rfl fun r => Or.inl (hcol r)

variable (hkey hcheck)

/-- Without a row that has lost its partner nothing is cleared. -/
lemma Refers.setNull_eq_self (h : T.Refers P col) : T.setNull P col clear hkey hcheck = T :=
  ext (updateRows_of_forall (refers_iff_dangles.1 h))

lemma row_setNull [DecidableEq κ] (k : κ) :
    (T.setNull P col clear hkey hcheck).row k =
      (T.row k).map fun r => if dangles P col r then clear r else r :=
  row_updateRows hkey rfl k

end SetNull

end Table

end AxonTask.Lib
