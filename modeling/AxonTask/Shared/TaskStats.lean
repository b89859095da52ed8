import AxonTask.Shared.PartialUpdates
import AxonTask.Shared.Task

/-!
# The statistics of a task (`Task::update_stats` of `shared/src/models/task.rs`)

`Task::update_stats` takes all fields of `UpdateTask`, and both of its passes go through the
same three of them.
-/

namespace AxonTask.Task

open Lib

/-! ### The two passes -/

/-- The columns that `Task::update_stats` assigns. -/
inductive StatsColumn
  | cursor | bytesStreamed | minutesUsed

/-- The values that `Task::update_stats` binds. -/
inductive StatsParam
  | uuid (id : Uuid)
  | bigint (n : Int64)
  | integer (n : Int32)

/-- The table `tasks` for `Task::update_stats`. -/
def statsTarget : UpdateTarget StatsColumn StatsParam Task Uuid where
  get
    | .cursor, t => .bigint t.cursor
    | .bytesStreamed, t => .bigint t.bytesStreamed
    | .minutesUsed, t => .integer t.minutesUsed
  set
    | .cursor, .bigint n, t => some { t with cursor := n }
    | .bytesStreamed, .bigint n, t => some { t with bytesStreamed := n }
    | .minutesUsed, .integer n, t => some { t with minutesUsed := n }
    | _, _, _ => none
  concat _ _ := none
  rejects _ := false
  keyOf
    | .uuid id => some id
    | _ => none
  conflicts _ _ := false

/-- The SET list of `Task::update_stats`. -/
def statsQuery (data : UpdateTask) : SetList StatsColumn :=
  let query : SetList StatsColumn := {}
  let query := query.push data.cursor.isSome .cursor
  let query := query.push data.bytesStreamed.isSome .bytesStreamed
  query.push data.minutesUsed.isSome .minutesUsed

/-- The parameters of `Task::update_stats`. -/
def statsParams (id : Uuid) (data : UpdateTask) : List StatsParam :=
  let q : List StatsParam := [.uuid id]
  let q := bindValue q (data.cursor.map .bigint)
  let q := bindValue q (data.bytesStreamed.map .bigint)
  bindValue q (data.minutesUsed.map .integer)

/-- `Task::update_stats`, with its two passes. -/
def execUpdateStats (T : TaskTable) (id : Uuid) (data : UpdateTask) (now : DateTime) :
    Except DbError (Option Task) × TaskTable :=
  let (task, T') := execUpdate statsTarget (fun t => { t with updatedAt := now }) T
    (statsQuery data).items (statsParams id data)
  (task.mapError (updateErrorOf "tasks_pkey" tooLong), T')

/-! ### What the passes assign -/

/-- The fields of the two passes. -/
def statsFields (data : UpdateTask) : List (UpdateField StatsColumn StatsParam) :=
  [⟨.cursor, false, data.cursor.map .bigint⟩,
    ⟨.bytesStreamed, false, data.bytesStreamed.map .bigint⟩,
    ⟨.minutesUsed, false, data.minutesUsed.map .integer⟩]

lemma statsQuery_eq (data : UpdateTask) : statsQuery data = .ofFields (statsFields data) := by
  simp [statsQuery, SetList.ofFields, statsFields, SetList.push]

lemma statsParams_eq (id : Uuid) (data : UpdateTask) :
    statsParams id data = bindFields (.uuid id) (statsFields data) := rfl

/-- The items assign what `updateStats` does. -/
lemma assignItems_statsQuery (id : Uuid) (data : UpdateTask) (now : DateTime) (old : Task) :
    assignItems statsTarget.toColumns (statsParams id data) old (statsQuery data).items
      { old with updatedAt := now } = some ((updateStats data).set now old) := by
  rw [statsQuery_eq, statsParams_eq, assignItems_ofFields]
  obtain ⟨cursor, bytesStreamed, minutesUsed, errorMessage, exitCode⟩ := data
  cases cursor <;> cases bytesStreamed <;> cases minutesUsed <;> rfl

/-- The statistics are under no constraint. -/
lemma check_updateStats (data : UpdateTask) (now : DateTime) (t : Task) :
    schema.check ((updateStats data).set now t) = schema.check t := rfl

section Exec

variable {T : TaskTable} {id : Uuid} (data : UpdateTask) (now : DateTime)

lemma execUpdateStats_of_row_eq_none (hrow : T.row id = none) :
    execUpdateStats T id data now = (.ok none, T) := by
  have hkey : (statsParams id data).head?.bind statsTarget.keyOf = some id := by
    rw [statsParams_eq, head?_bindFields]
    rfl
  rw [execUpdateStats, execUpdate_of_row_eq_none (by simp [statsTarget]) hkey hrow]
  rfl

/-- The row of the task is replaced, and nothing rejects it. -/
lemma execUpdateStats_of_row_eq_some {old : Task} (hrow : T.row id = some old) :
    ∃ T', T.replace ((updateStats data).set now old) = .ok T' ∧
      execUpdateStats T id data now = (.ok (some ((updateStats data).set now old)), T') := by
  have hkey : (statsParams id data).head?.bind statsTarget.keyOf = some id := by
    rw [statsParams_eq, head?_bindFields]
    rfl
  have hcheck : schema.check ((updateStats data).set now old) = true := by
    rw [check_updateStats]
    exact T.checked old (Table.mem_of_row hrow)
  obtain ⟨T', hreplace⟩ := T.exists_replace hcheck
  refine ⟨T', hreplace, ?_⟩
  rw [execUpdateStats, execUpdate_of_row_eq_some (by simp [statsTarget]) hkey hrow
    (assignItems_statsQuery id data now old) rfl hreplace]
  rfl

/-- **The two passes are the update `updateStats`**, which the life cycle of tasks uses. -/
theorem execUpdateStats_eq_exec :
    ∃ task T', (updateStats data).exec T id now = .ok (task, T') ∧
      execUpdateStats T id data now = (.ok task, T') := by
  cases hrow : T.row id with
  | none =>
    refine ⟨none, T, ?_, execUpdateStats_of_row_eq_none data now hrow⟩
    exact Table.updateKey_eq_none hrow
  | some old =>
    obtain ⟨T', hreplace, hexec⟩ := execUpdateStats_of_row_eq_some data now hrow
    refine ⟨some ((updateStats data).set now old), T', ?_, hexec⟩
    have hadmits : (updateStats data).admits old = true := by
      simpa [RowUpdate.admits, updateStats] using TaskState.mem_all old.state
    refine (Table.updateKey_eq_replace hrow hadmits).trans ?_
    rw [hreplace]
    rfl

end Exec

/-! ### All fields -/

/-- The columns of the fields that are present have their values, and all other columns but
`updated_at` are as they were. -/
def StatsAssigned (data : UpdateTask) (old new : Task) : Prop :=
  new =
    { old with
      cursor := data.cursor.getD old.cursor
      bytesStreamed := data.bytesStreamed.getD old.bytesStreamed
      minutesUsed := data.minutesUsed.getD old.minutesUsed
      errorMessage := data.errorMessage.or old.errorMessage
      exitCode := data.exitCode.or old.exitCode
      updatedAt := new.updatedAt }

/-- `Task::update_stats` assigns what it is given, and nothing else. -/
def StatsExact (T : TaskTable) (id : Uuid) (data : UpdateTask) (now : DateTime) : Prop :=
  UpdatesRow T id (StatsAssigned data) (execUpdateStats T id data now)

/-- A field that is dropped is missed when it would change its column. -/
lemma statsAssigned_updateStats_iff (data : UpdateTask) (now : DateTime) (old : Task) :
    StatsAssigned data old ((updateStats data).set now old) ↔
      data.errorMessage.or old.errorMessage = old.errorMessage ∧
        data.exitCode.or old.exitCode = old.exitCode := by
  constructor
  · intro h
    exact ⟨(congrArg Task.errorMessage h).symm, (congrArg Task.exitCode h).symm⟩
  · rintro ⟨hmessage, hcode⟩
    rw [StatsAssigned, hmessage, hcode]
    rfl

/-- **What `Task::update_stats` stores**: it assigns what it is given exactly when the fields
that neither pass looks at, the error message and the exit code, would change nothing in the
row of the task, if there is one. -/
theorem statsExact_iff (T : TaskTable) (id : Uuid) (data : UpdateTask) (now : DateTime) :
    StatsExact T id data now ↔ ∀ old, T.row id = some old →
      (data.errorMessage = none ∨ data.errorMessage = old.errorMessage) ∧
        (data.exitCode = none ∨ data.exitCode = old.exitCode) := by
  have hor : ∀ {α : Type} (a b : Option α), a.or b = b ↔ a = none ∨ a = b := by
    intro α a b
    cases a <;> simp
  simp only [← hor]
  cases hrow : T.row id with
  | none =>
    have hexact : StatsExact T id data now := by
      rw [StatsExact, execUpdateStats_of_row_eq_none data now hrow]
      exact .unchanged (by simp)
    exact iff_of_true hexact (by simp)
  | some old =>
    obtain ⟨T', hreplace, hexec⟩ := execUpdateStats_of_row_eq_some data now hrow
    rw [StatsExact, hexec]
    constructor
    · rintro ⟨hsome, -, -⟩ _ ⟨⟩
      obtain ⟨⟨old', hold, hassigned⟩, -, -⟩ := hsome _ rfl
      obtain rfl : old = old' := by simpa [hrow] using hold
      exact (statsAssigned_updateStats_iff data now old).1 hassigned
    · intro h
      have hkey : schema.key ((updateStats data).set now old) = id :=
        ((updateStats data).set_id now old).trans (Table.key_of_row hrow)
      refine ⟨?_, by simp, by simp⟩
      rintro _ ⟨⟩
      refine ⟨⟨old, hrow, (statsAssigned_updateStats_iff data now old).2 (h old rfl)⟩, ?_, ?_⟩
      · rw [Table.row_replace hreplace, hkey, if_pos rfl, hrow, Option.map_some]
      · intro id' hid'
        rw [Table.row_replace hreplace, hkey, if_neg (Ne.symm hid')]

/-- A running task. -/
def sampleRunning : Task :=
  { new { tenantId := 2, createdBy := none, name := "deploy", adapter := "mock", args := .null } 1
      0 with
    state := .running, startedAt := some 0 }

/-- An exit code that is present and not stored. -/
theorem not_statsExact_exitCode :
    ¬ StatsExact ⟨[sampleRunning], by simp, by decide +kernel⟩ 1
      { cursor := some 7, exitCode := some 1 } 5 := by
  intro h
  obtain ⟨⟨old, hold, hassigned⟩, -, -⟩ := h.ok_some
    { sampleRunning with cursor := 7, updatedAt := 5 } rfl
  cases hold
  exact absurd (congrArg Task.exitCode hassigned) (by decide)

end AxonTask.Task
