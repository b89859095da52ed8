import AxonTask.Lib.Table

/-!
# UPDATE statements with numbered placeholders

An UPDATE statement of which only some columns are assigned is put together in two passes
over the same fields: the first one writes the SET list and numbers the placeholders of the
fields that are present, the second one binds their values.  When both passes go through the
fields in the same order, every placeholder gets the value of its own field, whichever
fields are present.
-/

namespace AxonTask.Lib

/-- An item of a SET list: `column = $n`, or `column = column || $n`. -/
structure SetItem (γ : Type*) where
  column : γ
  concat : Bool
  placeholder : ℕ

/-- The SET list so far, and the number of the last placeholder; `$1` is the key of the
row. -/
structure SetList (γ : Type*) where
  items : List (SetItem γ) := []
  bindCount : ℕ := 1

/-- How the values of parameters go into the columns of a row. -/
structure Columns (γ V ρ : Type*) where
  get : γ → ρ → V
  /-- `none` when the value does not have the type of the column. -/
  set : γ → V → ρ → Option ρ
  /-- The operator `||`. -/
  concat : V → V → Option V

/-- A field that may be present, with its column. -/
structure UpdateField (γ V : Type*) where
  column : γ
  concat : Bool
  value : Option V

variable {γ V ρ κ : Type*}

/-! ### The two passes -/

namespace SetList

/-- The next item of the SET list, when its field is present. -/
def pushItem (l : SetList γ) (present : Bool) (column : γ) (concat : Bool) : SetList γ :=
  if present then
    { items := l.items ++ [⟨column, concat, l.bindCount + 1⟩], bindCount := l.bindCount + 1 }
  else l

/-- `, column = $n`. -/
def push (l : SetList γ) (present : Bool) (column : γ) : SetList γ :=
  l.pushItem present column false

/-- `, column = column || $n`. -/
def pushConcat (l : SetList γ) (present : Bool) (column : γ) : SetList γ :=
  l.pushItem present column true

/-- The first pass over a list of fields. -/
def ofFields (fields : List (UpdateField γ V)) : SetList γ :=
  fields.foldl (fun l f => l.pushItem f.value.isSome f.column f.concat) {}

end SetList

/-- The value of the next parameter, when its field is present. -/
def bindValue (params : List V) (value : Option V) : List V := params ++ value.toList

/-- The second pass over a list of fields. -/
def bindFields (key : V) (fields : List (UpdateField γ V)) : List V :=
  fields.foldl (fun params f => bindValue params f.value) [key]

/-! ### The SET list as it is evaluated -/

/-- The value of an expression, which reads the row as it was. -/
def Columns.value (C : Columns γ V ρ) (old : ρ) (column : γ) (concat : Bool) (v : V) : Option V :=
  if concat then C.concat (C.get column old) v else some v

/-- The row `r` with the values of the items assigned. -/
def assignItems (C : Columns γ V ρ) (params : List V) (old : ρ) :
    List (SetItem γ) → ρ → Option ρ
  | [], r => some r
  | item :: items, r =>
    (params[item.placeholder - 1]?.bind (C.value old item.column item.concat)).bind fun v =>
      (C.set item.column v r).bind (assignItems C params old items)

/-- The row `r` with the value of the field assigned, when it is present. -/
def UpdateField.assign (C : Columns γ V ρ) (old : ρ) (f : UpdateField γ V) (r : ρ) : Option ρ :=
  match f.value with
  | none => some r
  | some v => (C.value old f.column f.concat v).bind fun v => C.set f.column v r

/-- The row `r` with the values of the fields that are present assigned. -/
def assignFields (C : Columns γ V ρ) (old : ρ) : List (UpdateField γ V) → ρ → Option ρ
  | [], r => some r
  | f :: fields, r => (f.assign C old r).bind (assignFields C old fields)

/-! ### Every placeholder gets its own value -/

/-- The items of fields, after `n` placeholders. -/
def itemsFrom : ℕ → List (UpdateField γ V) → List (SetItem γ)
  | _, [] => []
  | n, f :: fields =>
    if f.value.isSome then ⟨f.column, f.concat, n + 1⟩ :: itemsFrom (n + 1) fields
    else itemsFrom n fields

/-- The values of the fields that are present. -/
def valuesOf (fields : List (UpdateField γ V)) : List V := fields.filterMap UpdateField.value

lemma items_foldl_pushItem (fields : List (UpdateField γ V)) (l : SetList γ) :
    (fields.foldl (fun l f => l.pushItem f.value.isSome f.column f.concat) l).items =
      l.items ++ itemsFrom l.bindCount fields := by
  induction fields generalizing l with
  | nil => simp [itemsFrom]
  | cons f fields ih =>
    rw [List.foldl_cons, ih]
    cases hvalue : f.value with
    | none => simp [SetList.pushItem, itemsFrom, hvalue]
    | some v => simp [SetList.pushItem, itemsFrom, hvalue]

lemma foldl_bindValue (fields : List (UpdateField γ V)) (params : List V) :
    fields.foldl (fun params f => bindValue params f.value) params = params ++ valuesOf fields := by
  induction fields generalizing params with
  | nil => simp [valuesOf]
  | cons f fields ih =>
    rw [List.foldl_cons, ih]
    cases hvalue : f.value with
    | none => simp [bindValue, valuesOf, hvalue]
    | some v => simp [bindValue, valuesOf, hvalue]

lemma head?_bindFields (key : V) (fields : List (UpdateField γ V)) :
    (bindFields key fields).head? = some key := by
  rw [bindFields, foldl_bindValue]
  rfl

/-- The items of fields, with the values of the same fields after those already bound. -/
lemma assignItems_itemsFrom (C : Columns γ V ρ) (old : ρ) (fields : List (UpdateField γ V))
    (params : List V) (r : ρ) :
    assignItems C (params ++ valuesOf fields) old (itemsFrom params.length fields) r =
      assignFields C old fields r := by
  induction fields generalizing params r with
  | nil => simp only [itemsFrom, assignItems, assignFields]
  | cons f fields ih =>
    cases hvalue : f.value with
    | none =>
      have hvalues : valuesOf (f :: fields) = valuesOf fields := by simp [valuesOf, hvalue]
      simp only [itemsFrom, hvalue, hvalues, ih, assignFields, UpdateField.assign,
        Option.isSome_none, Bool.false_eq_true, if_false, Option.bind_some]
    | some v =>
      -- the placeholder of the field is the first one that is not bound yet
      have hvalues : params ++ valuesOf (f :: fields) = (params ++ [v]) ++ valuesOf fields := by
        simp [valuesOf, hvalue]
      have hlookup : ((params ++ [v]) ++ valuesOf fields)[params.length]? = some v := by simp
      have hlater : assignItems C ((params ++ [v]) ++ valuesOf fields) old
          (itemsFrom (params.length + 1) fields) = assignFields C old fields := by
        funext r
        have htail := ih (params ++ [v]) r
        rwa [List.length_append, List.length_singleton] at htail
      simp only [itemsFrom, hvalue, Option.isSome_some, if_true, assignItems, hvalues,
        Nat.add_sub_cancel, hlookup, Option.bind_some, hlater, assignFields, UpdateField.assign,
        Option.bind_assoc]

/-- **The passes are aligned**, whichever fields are present. -/
theorem assignItems_ofFields (C : Columns γ V ρ) (old : ρ) (key : V)
    (fields : List (UpdateField γ V)) (r : ρ) :
    assignItems C (bindFields key fields) old (SetList.ofFields fields).items r =
      assignFields C old fields r := by
  rw [bindFields, foldl_bindValue, SetList.ofFields, items_foldl_pushItem, List.nil_append]
  exact assignItems_itemsFrom C old fields [key] r

/-! ### The statement -/

/-- Why a statement is rejected. -/
inductive UpdateError
  /-- A parameter cannot be stored in any column. -/
  | badParameter
  /-- A parameter does not have the type of its column. -/
  | badType
  | violation (v : Violation)
  /-- Another row has the values of a UNIQUE constraint. -/
  | conflict
deriving DecidableEq, Repr

/-- What there is to know about a table in order to execute updates. -/
structure UpdateTarget (γ V ρ κ : Type*) extends Columns γ V ρ where
  rejects : V → Bool
  keyOf : V → Option κ
  /-- The row conflicts with other rows. -/
  conflicts : List ρ → ρ → Bool

section Statement

variable [DecidableEq κ] {S : Schema κ ρ}

/-- `UPDATE … SET …, items WHERE key = $1 RETURNING …`, where `touch` is the fixed part of the
SET list, with the table it leaves. -/
def execUpdate (U : UpdateTarget γ V ρ κ) (touch : ρ → ρ) (T : Table S) (items : List (SetItem γ))
    (params : List V) : Except UpdateError (Option ρ) × Table S :=
  if params.any U.rejects then (.error .badParameter, T)
  else
    match params.head?.bind U.keyOf with
    | none => (.error .badType, T)
    | some k =>
      match T.row k with
      | none => (.ok none, T)
      | some old =>
        match assignItems U.toColumns params old items (touch old) with
        | none => (.error .badType, T)
        | some new =>
          if U.conflicts (T.rows.filter fun r => !decide (S.key r = k)) new then
            (.error .conflict, T)
          else
            match T.replace new with
            | .error v => (.error (.violation v), T)
            | .ok T' => (.ok (some new), T')

/-- What the statement does for a key that no row has. -/
lemma execUpdate_of_row_eq_none {U : UpdateTarget γ V ρ κ} {touch : ρ → ρ} {T : Table S}
    {items : List (SetItem γ)} {params : List V} {k : κ}
    (hparams : params.any U.rejects = false) (hkey : params.head?.bind U.keyOf = some k)
    (hrow : T.row k = none) : execUpdate U touch T items params = (.ok none, T) := by
  simp only [execUpdate, hparams, hkey, hrow, Bool.false_eq_true, if_false]

/-- What the statement does for the key of a row, when nothing rejects it. -/
lemma execUpdate_of_row_eq_some {U : UpdateTarget γ V ρ κ} {touch : ρ → ρ} {T T' : Table S}
    {items : List (SetItem γ)} {params : List V} {k : κ} {old new : ρ}
    (hparams : params.any U.rejects = false) (hkey : params.head?.bind U.keyOf = some k)
    (hrow : T.row k = some old)
    (hassign : assignItems U.toColumns params old items (touch old) = some new)
    (hfree : U.conflicts (T.rows.filter fun r => !decide (S.key r = k)) new = false)
    (hreplace : T.replace new = .ok T') :
    execUpdate U touch T items params = (.ok (some new), T') := by
  simp only [execUpdate, hparams, hkey, hrow, hassign, hfree, hreplace, Bool.false_eq_true,
    if_false]

/-- **When the statement returns a row.** -/
lemma execUpdate_eq_ok_some_iff {U : UpdateTarget γ V ρ κ} {touch : ρ → ρ} {T : Table S}
    {items : List (SetItem γ)} {params : List V} {k : κ} {new : ρ}
    (hkey : params.head?.bind U.keyOf = some k) :
    (execUpdate U touch T items params).1 = .ok (some new) ↔
      params.any U.rejects = false ∧ ∃ old, T.row k = some old ∧
        assignItems U.toColumns params old items (touch old) = some new ∧
        U.conflicts (T.rows.filter fun r => !decide (S.key r = k)) new = false ∧
        ∃ T', T.replace new = .ok T' := by
  constructor
  · unfold execUpdate
    intro h
    split at h
    · cases h
    rename_i hparams
    simp only [hkey] at h
    cases hold : T.row k with
    | none => simp [hold] at h
    | some old =>
      simp only [hold] at h
      cases hassign : assignItems U.toColumns params old items (touch old) with
      | none => simp [hassign] at h
      | some new' =>
        simp only [hassign] at h
        split at h
        · cases h
        rename_i hfree
        cases hreplace : T.replace new' with
        | error v => simp [hreplace] at h
        | ok T' =>
          simp only [hreplace, Except.ok.injEq, Option.some.injEq] at h
          subst h
          exact ⟨by simpa using hparams, old, rfl, hassign, by simpa using hfree, T', hreplace⟩
  · rintro ⟨hparams, old, hold, hassign, hfree, T', hreplace⟩
    rw [execUpdate_of_row_eq_some hparams hkey hold hassign hfree hreplace]

/-- The call updates at most the row with the key `k`, from `old` to `new` with
`assigned old new`; it returns the row that it stores, and what it does not return leaves the
table as it was. -/
structure UpdatesRow {ε : Type*} (T : Table S) (k : κ) (assigned : ρ → ρ → Prop)
    (out : Except ε (Option ρ) × Table S) : Prop where
  ok_some : ∀ new, out.1 = .ok (some new) → (∃ old, T.row k = some old ∧ assigned old new) ∧
    out.2.row k = some new ∧ ∀ k', k' ≠ k → out.2.row k' = T.row k'
  ok_none : out.1 = .ok none → out.2 = T
  error : ∀ e, out.1 = .error e → out.2 = T

/-- A call that changes nothing and returns no row. -/
lemma UpdatesRow.unchanged {ε : Type*} {T : Table S} {k : κ} {assigned : ρ → ρ → Prop}
    {result : Except ε (Option ρ)} (h : ∀ new, result ≠ .ok (some new)) :
    UpdatesRow T k assigned (result, T) :=
  ⟨fun new hnew => absurd hnew (h new), fun _ => rfl, fun _ _ => rfl⟩

/-- A row that is there afterwards was there before. -/
lemma UpdatesRow.isSome_row {ε : Type*} {T : Table S} {k k' : κ} {assigned : ρ → ρ → Prop}
    {out : Except ε (Option ρ) × Table S} (h : UpdatesRow T k assigned out)
    (hk' : (out.2.row k').isSome = true) : (T.row k').isSome = true := by
  cases hout : out.1 with
  | error e => rwa [h.error e hout] at hk'
  | ok o =>
    cases o with
    | none => rwa [h.ok_none hout] at hk'
    | some new =>
      obtain ⟨⟨old, hold, -⟩, -, hothers⟩ := h.ok_some new hout
      by_cases hk : k' = k
      · rw [hk, hold, Option.isSome_some]
      · rwa [hothers k' hk] at hk'

/-- **Spec of the statement.** -/
theorem updatesRow_execUpdate {U : UpdateTarget γ V ρ κ} {touch : ρ → ρ} {T : Table S}
    {items : List (SetItem γ)} {params : List V} {k : κ} {assigned : ρ → ρ → Prop}
    (hkey : params.head?.bind U.keyOf = some k)
    (hassigned : ∀ old new, T.row k = some old →
      assignItems U.toColumns params old items (touch old) = some new →
        S.key new = k ∧ assigned old new) :
    UpdatesRow T k assigned (execUpdate U touch T items params) := by
  unfold execUpdate
  split
  · exact .unchanged (by simp)
  simp only [hkey]
  cases hold : T.row k with
  | none => exact .unchanged (by simp)
  | some old =>
    dsimp only
    cases hnew : assignItems U.toColumns params old items (touch old) with
    | none => exact .unchanged (by simp)
    | some new =>
      obtain ⟨hsame, hassign⟩ := hassigned old new hold hnew
      dsimp only
      split
      · exact .unchanged (by simp)
      cases hreplace : T.replace new with
      | error v => exact .unchanged (by simp)
      | ok T' =>
        refine ⟨?_, by simp, by simp⟩
        rintro _ ⟨⟩
        refine ⟨⟨old, hold, hassign⟩, ?_, ?_⟩
        · simp [Table.row_replace hreplace, hsame, hold]
        · intro k' hk'
          rw [Table.row_replace hreplace, hsame, if_neg (Ne.symm hk')]

/-- **Spec of the statement for a list of fields**: the passes are aligned, so it is enough to
know what the fields assign. -/
theorem updatesRow_execUpdate_ofFields {U : UpdateTarget γ V ρ κ} {touch : ρ → ρ} {T : Table S}
    {fields : List (UpdateField γ V)} {key : V} {k : κ} {assigned : ρ → ρ → Prop} {new : ρ → ρ}
    (hkey : U.keyOf key = some k)
    (hnew : ∀ old, assignFields U.toColumns old fields (touch old) = some (new old))
    (hassigned : ∀ old, T.row k = some old → S.key (new old) = k ∧ assigned old (new old)) :
    UpdatesRow T k assigned
      (execUpdate U touch T (SetList.ofFields fields).items (bindFields key fields)) := by
  refine updatesRow_execUpdate ?_ ?_
  · rw [head?_bindFields]
    exact hkey
  · intro old row hold hrow
    rw [assignItems_ofFields, hnew old] at hrow
    obtain rfl : new old = row := Option.some.inj hrow
    exact hassigned old hold

/-- **When a list of fields is written**: the parameters can be stored, the row is there, and with
the fields assigned it conflicts with no other row and satisfies the constraint. -/
theorem execUpdate_ofFields_eq_ok_some_iff {U : UpdateTarget γ V ρ κ} {touch : ρ → ρ}
    {T : Table S} {fields : List (UpdateField γ V)} {key : V} {k : κ} {new : ρ → ρ} {row : ρ}
    (hkey : U.keyOf key = some k)
    (hnew : ∀ old, assignFields U.toColumns old fields (touch old) = some (new old))
    (hid : ∀ old, T.row k = some old → S.key (new old) = k) :
    (execUpdate U touch T (SetList.ofFields fields).items (bindFields key fields)).1 =
        .ok (some row) ↔
      (bindFields key fields).any U.rejects = false ∧ ∃ old, T.row k = some old ∧ row = new old ∧
        U.conflicts (T.rows.filter fun r => !decide (S.key r = k)) row = false ∧
        S.check row = true := by
  rw [execUpdate_eq_ok_some_iff (k := k) (by rw [head?_bindFields]; exact hkey)]
  refine and_congr_right fun _ => exists_congr fun old => and_congr_right fun hold => ?_
  rw [assignItems_ofFields, hnew old, Option.some.injEq, eq_comm (a := new old)]
  refine and_congr_right ?_
  rintro rfl
  rw [Table.exists_replace_iff ((hid old hold).symm ▸ hold)]

/-- Other names for the errors change nothing. -/
lemma UpdatesRow.mapError {ε ε' : Type*} {T : Table S} {k : κ} {assigned : ρ → ρ → Prop}
    {out : Except ε (Option ρ) × Table S} (h : UpdatesRow T k assigned out) (f : ε → ε') :
    UpdatesRow T k assigned (out.1.mapError f, out.2) := by
  obtain ⟨result, T'⟩ := out
  cases result with
  | error e =>
    obtain rfl : T' = T := h.error e rfl
    exact .unchanged (by simp [Except.mapError])
  | ok row =>
    refine ⟨?_, ?_, by simp [Except.mapError]⟩
    · rintro new ⟨⟩
      exact h.ok_some new rfl
    · rintro ⟨⟩
      exact h.ok_none rfl

end Statement

end AxonTask.Lib
