import Mathlib.Data.List.Nodup
import Mathlib.Data.List.Perm.Subperm

/-!
# Relational tables with a primary key and a CHECK constraint

A `Schema` names the key column of a row type and its row constraint.  A `Table` is a
list of rows that carries the proofs that no two rows share a key and that every row
satisfies the constraint, so a table that violates its schema cannot be built.  The
statements `insert`, `update` and `delete` are atomic: a statement that would violate the
schema is rejected as a whole and the table stays as it was.
-/

namespace AxonTask.Lib

/-- The key column of a row type and its row constraint. -/
structure Schema (κ ρ : Type*) where
  /-- The primary key of a row. -/
  key : ρ → κ
  /-- The row constraint. -/
  check : ρ → Bool

/-- The constraint that rejects a statement. -/
inductive Violation
  | check
  | unique
deriving DecidableEq, Repr

/-- A table of the schema `S`. -/
structure Table {κ ρ : Type*} (S : Schema κ ρ) where
  /-- The rows. -/
  rows : List ρ
  keys_nodup : (rows.map S.key).Nodup
  checked : ∀ r ∈ rows, S.check r = true

namespace Table

variable {κ ρ : Type*} {S : Schema κ ρ}

@[ext] lemma ext {T T' : Table S} (h : T.rows = T'.rows) : T = T' := by
  cases T; cases T'; cases h; rfl

/-- The table without rows. -/
def empty (S : Schema κ ρ) : Table S := ⟨[], by simp, by simp⟩

/-! ### The rows an update visits -/

/-- `f` applied to the rows that `p` selects. -/
def updateRows (p : ρ → Bool) (f : ρ → ρ) (l : List ρ) : List ρ :=
  l.map fun r => if p r then f r else r

lemma map_key_updateRows {p : ρ → Bool} {f : ρ → ρ} (hf : ∀ r, S.key (f r) = S.key r)
    (l : List ρ) : (updateRows p f l).map S.key = l.map S.key := by
  simp only [updateRows, List.map_map]
  refine List.map_congr_left ?_
  intro r _
  by_cases hp : p r
  · simp [hp, hf]
  · simp [hp]

/-- An update that selects no row changes nothing. -/
lemma updateRows_of_forall {p : ρ → Bool} {f : ρ → ρ} {l : List ρ} (h : ∀ r ∈ l, p r = false) :
    updateRows p f l = l := by
  refine (List.map_congr_left ?_).trans (List.map_id l)
  intro r hr
  simp [h r hr]

lemma mem_updateRows {p : ρ → Bool} {f : ρ → ρ} {l : List ρ} {r' : ρ}
    (h : r' ∈ updateRows p f l) : ∃ r ∈ l, r' = if p r then f r else r := by
  obtain ⟨r, hr, rfl⟩ := List.mem_map.1 h
  exact ⟨r, hr, rfl⟩

/-! ### Statements -/

/-- `DELETE … WHERE p`. -/
def delete (T : Table S) (p : ρ → Bool) : Table S where
  rows := T.rows.filter fun r => !p r
  keys_nodup := T.keys_nodup.sublist (List.filter_sublist.map _)
  checked r hr := T.checked r (List.mem_of_mem_filter hr)

/-- `UPDATE … SET f WHERE p`: rejected when an updated row fails the constraint. -/
def update (T : Table S) (p : ρ → Bool) (f : ρ → ρ) (hf : ∀ r, S.key (f r) = S.key r) :
    Except Violation (Table S) :=
  if h : ∀ r ∈ T.rows, p r = true → S.check (f r) = true then
    .ok
      { rows := updateRows p f T.rows
        keys_nodup := by rw [map_key_updateRows hf]; exact T.keys_nodup
        checked := by
          intro r' hr'
          obtain ⟨r, hr, rfl⟩ := mem_updateRows hr'
          by_cases hp : p r
          · simpa [hp] using h r hr hp
          · simpa [hp] using T.checked r hr }
  else .error .check

variable [DecidableEq κ]

/-- `INSERT`: rejected when the row fails the constraint or its key is taken. -/
def insert (T : Table S) (r : ρ) : Except Violation (Table S) :=
  if hc : S.check r = true then
    if hk : S.key r ∈ T.rows.map S.key then .error .unique
    else
      .ok
        { rows := T.rows ++ [r]
          keys_nodup := by
            rw [List.map_append, List.nodup_append]
            refine ⟨T.keys_nodup, by simp, ?_⟩
            rintro a ha b hb rfl
            exact hk (by simpa [List.mem_singleton.1 hb] using ha)
          checked := by
            intro r' hr'
            rcases List.mem_append.1 hr' with h | h
            · exact T.checked r' h
            · rw [List.mem_singleton.1 h]; exact hc }
  else .error .check

/-- The row with a given key. -/
def row (T : Table S) (k : κ) : Option ρ := T.rows.find? fun r => decide (S.key r = k)

/-- `UPDATE … SET f WHERE key = k AND p RETURNING …`: the updated row, if there was one. -/
def updateKey (T : Table S) (k : κ) (p : ρ → Bool) (f : ρ → ρ) (hf : ∀ r, S.key (f r) = S.key r) :
    Except Violation (Option ρ × Table S) :=
  (T.update (fun r => decide (S.key r = k) && p r) f hf).map fun T' =>
    (((T.row k).filter p).map f, T')

/-- The row with the key of `r` replaced by `r`. -/
def replace (T : Table S) (r : ρ) : Except Violation (Table S) :=
  T.update (fun r' => decide (S.key r' = S.key r))
    (fun r' => if S.key r' = S.key r then r else r') (by
      intro r'
      split
      · rename_i h
        exact h.symm
      · rfl)

/-! ### Reading a row -/

lemma row_eq_some_iff {T : Table S} {k : κ} {r : ρ} :
    T.row k = some r ↔ r ∈ T.rows ∧ S.key r = k := by
  constructor
  · intro h
    exact ⟨List.mem_of_find?_eq_some h, by simpa using List.find?_some h⟩
  · rintro ⟨hr, rfl⟩
    cases h : T.row (S.key r) with
    | none =>
      have := List.find?_eq_none.1 h r hr
      simp at this
    | some r' =>
      have hr' := List.mem_of_find?_eq_some h
      have hk : S.key r' = S.key r := by simpa using List.find?_some h
      rw [List.inj_on_of_nodup_map T.keys_nodup hr' hr hk]

lemma row_eq_none_iff {T : Table S} {k : κ} : T.row k = none ↔ ∀ r ∈ T.rows, S.key r ≠ k := by
  simp [row, List.find?_eq_none]

lemma key_of_row {T : Table S} {k : κ} {r : ρ} (h : T.row k = some r) : S.key r = k :=
  (row_eq_some_iff.1 h).2

lemma mem_of_row {T : Table S} {k : κ} {r : ρ} (h : T.row k = some r) : r ∈ T.rows :=
  (row_eq_some_iff.1 h).1

lemma row_key_of_mem {T : Table S} {r : ρ} (h : r ∈ T.rows) : T.row (S.key r) = some r :=
  row_eq_some_iff.2 ⟨h, rfl⟩

/-- The rows with given keys have these keys. -/
lemma map_key_filterMap_row {T : Table S} {l : List κ} (h : ∀ k ∈ l, ∃ r, T.row k = some r) :
    (l.filterMap T.row).map S.key = l := by
  rw [List.map_filterMap]
  refine (List.filterMap_congr ?_).trans List.filterMap_some
  intro k hk
  obtain ⟨r, hr⟩ := h k hk
  rw [hr, Option.map_some, key_of_row hr]

@[simp] lemma row_empty (k : κ) : (empty S).row k = none := rfl

/-- The row with a key, after the rows with that key have been mapped. -/
lemma row_updateRows {T T' : Table S} {p : ρ → Bool} {f : ρ → ρ}
    (hf : ∀ r, S.key (f r) = S.key r) (h : T'.rows = updateRows p f T.rows) (k : κ) :
    T'.row k = (T.row k).map fun r => if p r then f r else r := by
  have hkey : ∀ r, S.key (if p r then f r else r) = S.key r := by
    intro r
    by_cases hp : p r
    · simp [hp, hf]
    · simp [hp]
  cases hr : T.row k with
  | none =>
    rw [row_eq_none_iff] at hr
    rw [Option.map_none, row_eq_none_iff, h]
    intro r' hr'
    obtain ⟨r, hmem, rfl⟩ := mem_updateRows hr'
    rw [hkey]
    exact hr r hmem
  | some r =>
    obtain ⟨hmem, hk⟩ := row_eq_some_iff.1 hr
    rw [Option.map_some, row_eq_some_iff, h, hkey]
    exact ⟨List.mem_map_of_mem hmem, hk⟩

/-! ### Counting rows -/

omit [DecidableEq κ] in
/-- `SELECT COUNT(*) … WHERE p`. -/
def count (T : Table S) (p : ρ → Bool) : ℕ := T.rows.countP p

omit [DecidableEq κ] in
lemma count_le_of_imp {T : Table S} {p q : ρ → Bool} (h : ∀ r ∈ T.rows, p r = true → q r = true) :
    T.count p ≤ T.count q :=
  List.countP_mono_left h

/-- When every row that `q` selects was selected by `p` under the same key, there are not
more of them. -/
lemma count_le_of_row {T T' : Table S} {p q : ρ → Bool}
    (h : ∀ k r', T'.row k = some r' → q r' = true → ∃ r, T.row k = some r ∧ p r = true) :
    T'.count q ≤ T.count p := by
  have hnodup : ((T'.rows.filter q).map S.key).Nodup :=
    T'.keys_nodup.sublist (List.filter_sublist.map _)
  have hsub : (T'.rows.filter q).map S.key ⊆ (T.rows.filter p).map S.key := by
    intro k hk
    obtain ⟨r', hr', rfl⟩ := List.mem_map.1 hk
    obtain ⟨hmem, hq⟩ := List.mem_filter.1 hr'
    obtain ⟨r, hr, hp⟩ := h _ _ (row_key_of_mem hmem) hq
    rw [← key_of_row hr]
    exact List.mem_map_of_mem (List.mem_filter.2 ⟨mem_of_row hr, hp⟩)
  have hlen := (List.subperm_of_subset hnodup hsub).length_le
  simpa [count, List.countP_eq_length_filter] using hlen

/-! ### What a statement can do -/

/-- **Inversion of an insertion.** -/
lemma insert_eq_ok {T T' : Table S} {r : ρ} (h : T.insert r = .ok T') :
    S.check r = true ∧ T.row (S.key r) = none ∧ T'.rows = T.rows ++ [r] := by
  unfold insert at h
  split at h
  · rename_i hc
    split at h
    · cases h
    · rename_i hk
      cases h
      refine ⟨hc, row_eq_none_iff.2 fun r' hr' heq => hk ?_, rfl⟩
      rw [← heq]
      exact List.mem_map_of_mem hr'
  · cases h

/-- A row that satisfies the constraint and whose key is free can be inserted. -/
lemma exists_insert {T : Table S} {r : ρ} (hc : S.check r = true) (hk : T.row (S.key r) = none) :
    ∃ T', T.insert r = .ok T' := by
  have hfree : S.key r ∉ T.rows.map S.key := by
    intro hmem
    obtain ⟨r', hr', heq⟩ := List.mem_map.1 hmem
    exact row_eq_none_iff.1 hk r' hr' heq
  unfold insert
  rw [dif_pos hc, dif_neg hfree]
  exact ⟨_, rfl⟩

lemma mem_rows_insert {T T' : Table S} {r r' : ρ} (h : T.insert r = .ok T') :
    r' ∈ T'.rows ↔ r' ∈ T.rows ∨ r' = r := by
  rw [(insert_eq_ok h).2.2, List.mem_append, List.mem_singleton]

/-- A row that has been inserted hides no other row. -/
lemma isSome_row_insert {T T' : Table S} {r : ρ} (h : T.insert r = .ok T') {k : κ}
    (hk : (T.row k).isSome = true) : (T'.row k).isSome = true := by
  obtain ⟨r', hr'⟩ := Option.isSome_iff_exists.1 hk
  obtain ⟨hmem, hkey⟩ := row_eq_some_iff.1 hr'
  exact Option.isSome_iff_exists.2
    ⟨r', row_eq_some_iff.2 ⟨(mem_rows_insert h).2 (Or.inl hmem), hkey⟩⟩

lemma count_insert {T T' : Table S} {r : ρ} (h : T.insert r = .ok T') (p : ρ → Bool) :
    T'.count p = T.count p + if p r = true then 1 else 0 := by
  rw [count, (insert_eq_ok h).2.2, List.countP_append, List.countP_singleton]
  rfl

lemma row_insert {T T' : Table S} {r : ρ} (h : T.insert r = .ok T') (k : κ) :
    T'.row k = if S.key r = k then some r else T.row k := by
  obtain ⟨-, hnone, hrows⟩ := insert_eq_ok h
  unfold row at hnone ⊢
  rw [hrows, List.find?_append]
  by_cases hk : S.key r = k
  · subst hk
    simp [hnone]
  · simp [hk]

omit [DecidableEq κ] in
/-- **Inversion of an update.** -/
lemma update_eq_ok {T T' : Table S} {p : ρ → Bool} {f : ρ → ρ} {hf : ∀ r, S.key (f r) = S.key r}
    (h : T.update p f hf = .ok T') :
    (∀ r ∈ T.rows, p r = true → S.check (f r) = true) ∧ T'.rows = updateRows p f T.rows := by
  unfold update at h
  split at h
  · rename_i hc
    cases h
    exact ⟨hc, rfl⟩
  · cases h

omit [DecidableEq κ] in
lemma exists_update {T : Table S} {p : ρ → Bool} {f : ρ → ρ} (hf : ∀ r, S.key (f r) = S.key r)
    (h : ∀ r ∈ T.rows, p r = true → S.check (f r) = true) : ∃ T', T.update p f hf = .ok T' := by
  unfold update
  rw [dif_pos h]
  exact ⟨_, rfl⟩

omit [DecidableEq κ] in
/-- What an update does on the rows of the table is all that matters. -/
lemma update_congr {T : Table S} {p q : ρ → Bool} {f g : ρ → ρ}
    {hf : ∀ r, S.key (f r) = S.key r} {hg : ∀ r, S.key (g r) = S.key r}
    (hpq : ∀ r ∈ T.rows, p r = q r) (hfg : ∀ r ∈ T.rows, p r = true → f r = g r) :
    T.update p f hf = T.update q g hg := by
  have hcheck : (∀ r ∈ T.rows, p r = true → S.check (f r) = true) ↔
      ∀ r ∈ T.rows, q r = true → S.check (g r) = true := by
    refine forall₂_congr ?_
    intro r hr
    rw [← hpq r hr]
    refine forall_congr' ?_
    intro hp
    rw [hfg r hr hp]
  have hrows : updateRows p f T.rows = updateRows q g T.rows := by
    refine List.map_congr_left ?_
    intro r hr
    rw [← hpq r hr]
    by_cases hp : p r = true
    · simp only [hp, if_true, hfg r hr hp]
    · simp only [hp, if_false, Bool.false_eq_true]
  unfold update
  by_cases h : ∀ r ∈ T.rows, p r = true → S.check (f r) = true
  · rw [dif_pos h, dif_pos (hcheck.1 h)]
    congr 1
    exact Table.ext hrows
  · rw [dif_neg h, dif_neg fun hq => h (hcheck.2 hq)]

lemma row_update {T T' : Table S} {p : ρ → Bool} {f : ρ → ρ} {hf : ∀ r, S.key (f r) = S.key r}
    (h : T.update p f hf = .ok T') (k : κ) :
    T'.row k = (T.row k).map fun r => if p r then f r else r :=
  row_updateRows hf (update_eq_ok h).2 k

/-- A row that satisfies the constraint can replace another one. -/
lemma exists_replace (T : Table S) {r : ρ} (hc : S.check r = true) :
    ∃ T', T.replace r = .ok T' := by
  refine exists_update _ ?_
  intro r' _ hkey
  rw [if_pos (by simpa using hkey)]
  exact hc

/-- A row can be replaced by one that satisfies the constraint. -/
lemma exists_replace_iff {T : Table S} {r old : ρ} (h : T.row (S.key r) = some old) :
    (∃ T', T.replace r = .ok T') ↔ S.check r = true := by
  constructor
  · rintro ⟨T', hT'⟩
    have hcheck := (update_eq_ok hT').1 old (mem_of_row h) (decide_eq_true (key_of_row h))
    rwa [if_pos (key_of_row h)] at hcheck
  · exact exists_replace T

/-- Replacing a row leaves the other keys alone. -/
lemma row_replace {T T' : Table S} {r : ρ} (h : T.replace r = .ok T') (k : κ) :
    T'.row k = if S.key r = k then (T.row k).map fun _ => r else T.row k := by
  rw [row_update h]
  cases hk : T.row k with
  | none => simp
  | some r' =>
    obtain rfl := key_of_row hk
    by_cases hkey : S.key r = S.key r'
    · simp [hkey]
    · simp [hkey, Ne.symm hkey]

lemma row_delete (T : Table S) (p : ρ → Bool) (k : κ) :
    (T.delete p).row k = (T.row k).filter fun r => !p r := by
  cases hr : T.row k with
  | none =>
    rw [row_eq_none_iff] at hr
    rw [Option.filter_none, row_eq_none_iff]
    exact fun r hmem => hr r (List.mem_of_mem_filter hmem)
  | some r =>
    obtain ⟨hmem, hk⟩ := row_eq_some_iff.1 hr
    by_cases hp : p r
    · rw [Option.filter_some, if_neg (by simp [hp]), row_eq_none_iff]
      intro r' hr' hk'
      obtain ⟨hr'mem, hp'⟩ := List.mem_filter.1 hr'
      obtain rfl : r' = r := List.inj_on_of_nodup_map T.keys_nodup hr'mem hmem (hk'.trans hk.symm)
      simp [hp] at hp'
    · rw [Option.filter_some, if_pos (by simp [hp]), row_eq_some_iff]
      exact ⟨List.mem_filter.2 ⟨hmem, by simp [hp]⟩, hk⟩

/-- Deletion by key. -/
lemma row_delete_key (T : Table S) (k j : κ) :
    (T.delete fun r => decide (S.key r = k)).row j = if j = k then none else T.row j := by
  rw [row_delete]
  cases hr : T.row j with
  | none => simp
  | some r =>
    obtain rfl : S.key r = j := key_of_row hr
    by_cases hk : S.key r = k <;> simp [hk]

section UpdateKey

variable {T T' : Table S} {k : κ} {p : ρ → Bool} {f : ρ → ρ} {hf : ∀ r, S.key (f r) = S.key r}
  {o : Option ρ}

lemma update_of_updateKey (h : T.updateKey k p f hf = .ok (o, T')) :
    T.update (fun r => decide (S.key r = k) && p r) f hf = .ok T' := by
  unfold updateKey at h
  cases hu : T.update (fun r => decide (S.key r = k) && p r) f hf with
  | error e => rw [hu] at h; cases h
  | ok T₁ =>
    rw [hu] at h
    cases h
    rfl

/-- **Inversion of an update by key.**  Either no row has the key and satisfies the WHERE
clause, and nothing changes; or there is such a row, the updated row satisfies the
constraint, and it replaces the old one. -/
lemma updateKey_eq_ok (h : T.updateKey k p f hf = .ok (o, T')) :
    ((T.row k).filter p = none ∧ o = none ∧ T' = T) ∨
      ∃ r, T.row k = some r ∧ p r = true ∧ S.check (f r) = true ∧ o = some (f r) ∧
        T'.row k = some (f r) ∧ ∀ j ≠ k, T'.row j = T.row j := by
  unfold updateKey at h
  cases hu : T.update (fun r => decide (S.key r = k) && p r) f hf with
  | error e => rw [hu] at h; cases h
  | ok T₁ =>
    rw [hu] at h
    obtain ⟨hcheck, hrows⟩ := update_eq_ok hu
    have hrow := row_update hu
    simp only [Except.map, Except.ok.injEq, Prod.mk.injEq] at h
    obtain ⟨rfl, rfl⟩ := h
    cases hr : T.row k with
    | none =>
      refine Or.inl ⟨rfl, rfl, ext (hrows.trans (updateRows_of_forall ?_))⟩
      intro r hmem
      simp [row_eq_none_iff.1 hr r hmem]
    | some r =>
      obtain ⟨hmem, hk⟩ := row_eq_some_iff.1 hr
      by_cases hp : p r
      · refine Or.inr ⟨r, rfl, hp, hcheck r hmem (by simp [hk, hp]), by simp [hp], ?_, ?_⟩
        · rw [hrow, hr]
          simp [hk, hp]
        · intro j hj
          rw [hrow]
          cases hrj : T.row j with
          | none => rfl
          | some r' => simp [key_of_row hrj, hj]
      · refine Or.inl ⟨by simp [hp], by simp [hp],
          ext (hrows.trans (updateRows_of_forall ?_))⟩
        intro r' hr'
        by_cases hk' : S.key r' = k
        · obtain rfl : r' = r :=
            List.inj_on_of_nodup_map T.keys_nodup hr' hmem (hk'.trans hk.symm)
          simp [hp]
        · simp [hk']

/-- An update by key rejects exactly when its row would leave the constraint. -/
lemma updateKey_eq_error {e : Violation} (h : T.updateKey k p f hf = .error e) :
    ∃ r, T.row k = some r ∧ p r = true ∧ S.check (f r) = false := by
  unfold updateKey update at h
  split at h
  · cases h
  · rename_i hno
    simp only [not_forall] at hno
    obtain ⟨r, hmem, hsel, hc⟩ := hno
    simp only [Bool.and_eq_true, decide_eq_true_eq] at hsel
    exact ⟨r, row_eq_some_iff.2 ⟨hmem, hsel.1⟩, hsel.2, by simpa using hc⟩

/-- An update by a key that no row has changes nothing. -/
lemma updateKey_eq_none (hr : T.row k = none) : T.updateKey k p f hf = .ok (none, T) := by
  have hno : ∀ r ∈ T.rows, (decide (S.key r = k) && p r) = false := by
    intro r hmem
    simp [row_eq_none_iff.1 hr r hmem]
  have hcheck : ∀ r ∈ T.rows, (decide (S.key r = k) && p r) = true → S.check (f r) = true := by
    intro r hmem hsel
    rw [hno r hmem] at hsel
    cases hsel
  obtain ⟨T', hupdate⟩ := exists_update hf hcheck
  obtain rfl : T' = T := ext ((update_eq_ok hupdate).2.trans (updateRows_of_forall hno))
  rw [updateKey, hupdate, hr]
  rfl

/-- An update of one row replaces it. -/
lemma updateKey_eq_replace {r : ρ} (hr : T.row k = some r) (hp : p r = true) :
    T.updateKey k p f hf = (T.replace (f r)).map fun T' => (some (f r), T') := by
  have hkey : S.key (f r) = k := (hf r).trans (key_of_row hr)
  have hupdate : T.update (fun r' => decide (S.key r' = k) && p r') f hf = T.replace (f r) := by
    refine update_congr ?_ ?_
    · intro r' hr'
      by_cases hk : S.key r' = k
      · obtain rfl : r' = r := by simpa [← hk, row_key_of_mem hr'] using hr
        simp [hk, hp, hkey]
      · simp [hk, hkey]
    · intro r' hr' hmatch
      obtain ⟨hk, -⟩ : S.key r' = k ∧ p r' = true := by simpa using hmatch
      obtain rfl : r' = r := by simpa [← hk, row_key_of_mem hr'] using hr
      simp [hk, hkey]
  rw [updateKey, hupdate, hr, Option.filter_some, if_pos hp, Option.map_some]

end UpdateKey

end Table

end AxonTask.Lib
