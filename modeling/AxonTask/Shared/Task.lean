import AxonTask.Lib.Table
import AxonTask.Shared.Basic

/-!
# Tasks (`axontask-shared/src/models/task.rs`)

`Task` rows, the table `tasks` with its constraints, and the statements on it.  Every
statement is atomic; `NOW()` and `gen_random_uuid()` are arguments.  A violated foreign key
or a lost connection leaves the table as it is, so only the constraints on the rows
themselves are modelled as errors.
-/

namespace AxonTask

open Lib

/-- `TaskState`. -/
inductive TaskState
  | pending | running | succeeded | failed | canceled | timeout
deriving DecidableEq, Repr

namespace TaskState

/-- `TaskState::as_str`. -/
def asStr : TaskState → String
  | pending => "pending"
  | running => "running"
  | succeeded => "succeeded"
  | failed => "failed"
  | canceled => "canceled"
  | timeout => "timeout"

/-- `TaskState::is_terminal`. -/
def isTerminal : TaskState → Bool
  | succeeded | failed | canceled | timeout => true
  | _ => false

/-- `TaskState::is_active`. -/
def isActive : TaskState → Bool
  | pending | running => true
  | _ => false

/-- `TaskState::can_transition_to`. -/
def canTransitionTo : TaskState → TaskState → Bool
  | pending, running => true
  | pending, canceled => true
  | running, succeeded => true
  | running, failed => true
  | running, timeout => true
  | running, canceled => true
  | _, _ => false

/-- All states. -/
def all : List TaskState := [pending, running, succeeded, failed, canceled, timeout]

lemma mem_all (s : TaskState) : s ∈ all := by cases s <;> decide

/-- Nothing leaves a terminal state. -/
lemma canTransitionTo_of_isTerminal {s t : TaskState} (h : s.isTerminal = true) :
    s.canTransitionTo t = false := by
  cases s <;> cases t <;> first | rfl | cases h

/-- Nothing becomes pending. -/
lemma canTransitionTo_pending (s : TaskState) : s.canTransitionTo pending = false := by
  cases s <;> rfl

end TaskState

/-- `Task`. -/
structure Task where
  id : Uuid
  tenantId : Uuid
  createdBy : Option Uuid
  name : String
  adapter : String
  args : JsonValue
  state : TaskState
  startedAt : Option DateTime
  endedAt : Option DateTime
  cursor : Int64
  bytesStreamed : Int64
  minutesUsed : Int32
  timeoutSeconds : Int32
  errorMessage : Option String
  exitCode : Option Int32
  createdAt : DateTime
  updatedAt : DateTime

/-- `CreateTask`. -/
structure CreateTask where
  tenantId : Uuid
  createdBy : Option Uuid
  name : String
  adapter : String
  args : JsonValue
  timeoutSeconds : Int32 := 3600

/-- `UpdateTask`. -/
structure UpdateTask where
  cursor : Option Int64 := none
  bytesStreamed : Option Int64 := none
  minutesUsed : Option Int32 := none
  errorMessage : Option String := none
  exitCode : Option Int32 := none

namespace Task

/-- The constraint `tasks_ended_after_started`. -/
def endedAfterStarted (t : Task) : Bool :=
  match t.startedAt, t.endedAt with
  | some started, some ended => decide (started ≤ ended)
  | _, _ => true

/-- The texts that the column types accept: at most 255 and 50 characters, and no U+0000. -/
def textsOk (t : Task) : Bool :=
  decide (t.name.length ≤ 255) && decide (t.adapter.length ≤ 50) && !hasNul t.name &&
    !hasNul t.adapter && !t.args.hasNul && !(t.errorMessage.any hasNul)

/-- The table `tasks`: its primary key, its two CHECK constraints, and the column types. -/
def schema : Schema Uuid Task where
  key := id
  check t :=
    decide (1 ≤ t.timeoutSeconds) && decide (t.timeoutSeconds ≤ 86400) && t.endedAfterStarted &&
      t.textsOk

@[simp] lemma schema_key (t : Task) : schema.key t = t.id := rfl

end Task

/-- The rows of `tasks`. -/
abbrev TaskTable := Table Task.schema

namespace Task

/-- The row that `Task::create` inserts, with the defaults of the table. -/
def new (data : CreateTask) (id : Uuid) (now : DateTime) : Task where
  id := id
  tenantId := data.tenantId
  createdBy := data.createdBy
  name := data.name
  adapter := data.adapter
  args := data.args
  state := .pending
  startedAt := none
  endedAt := none
  cursor := 0
  bytesStreamed := 0
  minutesUsed := 0
  timeoutSeconds := data.timeoutSeconds
  errorMessage := none
  exitCode := none
  createdAt := now
  updatedAt := now

/-- `Task::create`. -/
def create (T : TaskTable) (data : CreateTask) (id : Uuid) (now : DateTime) :
    Except Violation (Task × TaskTable) :=
  (T.insert (new data id now)).map fun T' => (new data id now, T')

/-- `Task::find_by_id`. -/
def findById (T : TaskTable) (id : Uuid) : Option Task := T.row id

/-- `Task::find_by_id_and_tenant`. -/
def findByIdAndTenant (T : TaskTable) (id tenantId : Uuid) : Option Task :=
  (T.row id).filter fun t => decide (t.tenantId = tenantId)

/-- The task belongs to the tenant. -/
def isOf (tenantId : Uuid) (t : Task) : Bool := decide (t.tenantId = tenantId)

/-- The state of the row with a given key. -/
def rowState (T : TaskTable) (id : Uuid) : Option TaskState := (T.row id).map state

/-- `Task::delete`. -/
def delete (T : TaskTable) (id : Uuid) : Bool × TaskTable :=
  ((T.row id).isSome, T.delete fun t => decide (t.id = id))

lemma row_delete (T : TaskTable) (id id' : Uuid) :
    (delete T id).2.row id' = if id' = id then none else T.row id' :=
  Table.row_delete_key T id id'

lemma rowState_eq_some_iff {T : TaskTable} {id : Uuid} {st : TaskState} :
    rowState T id = some st ↔ ∃ t, T.row id = some t ∧ t.state = st := by
  simp [rowState]

/-! ### Updates -/

/-- The SET list of an update, and the states that its WHERE clause admits. -/
structure RowUpdate where
  sources : List TaskState
  /-- The updated row, at the time `NOW()`. -/
  set : DateTime → Task → Task
  set_id : ∀ now t, (set now t).id = t.id := by intros; rfl

/-- The WHERE clause of an update, but for the `id`. -/
def RowUpdate.admits (u : RowUpdate) (t : Task) : Bool := u.sources.contains t.state

/-- `UPDATE tasks SET … WHERE id = $1 AND state IN (…) RETURNING …`. -/
def RowUpdate.exec (u : RowUpdate) (T : TaskTable) (id : Uuid) (now : DateTime) :
    Except Violation (Option Task × TaskTable) :=
  T.updateKey id u.admits (u.set now) (u.set_id now)

/-- `Task::transition_to_running`. -/
def transitionToRunning : RowUpdate where
  sources := [.pending]
  set now t := { t with state := .running, startedAt := some now, updatedAt := now }

/-- `Task::transition_to_succeeded`. -/
def transitionToSucceeded (exitCode : Option Int32) : RowUpdate where
  sources := [.running]
  set now t := { t with state := .succeeded, endedAt := some now, exitCode, updatedAt := now }

/-- `Task::transition_to_failed`. -/
def transitionToFailed (errorMessage : String) (exitCode : Option Int32) : RowUpdate where
  sources := [.running]
  set now t :=
    { t with
      state := .failed, endedAt := some now, errorMessage := some errorMessage, exitCode,
      updatedAt := now }

/-- `Task::transition_to_canceled`. -/
def transitionToCanceled : RowUpdate where
  sources := [.pending, .running]
  set now t := { t with state := .canceled, endedAt := some now, updatedAt := now }

/-- `Task::transition_to_timeout`. -/
def transitionToTimeout : RowUpdate where
  sources := [.running]
  set now t :=
    { t with
      state := .timeout, endedAt := some now,
      errorMessage := some "Task exceeded timeout limit", updatedAt := now }

/-- `Task::update_stats`.  The error message and the exit code of the input are not
written. -/
def updateStats (data : UpdateTask) : RowUpdate where
  sources := TaskState.all
  set now t :=
    { t with
      updatedAt := now
      cursor := data.cursor.getD t.cursor
      bytesStreamed := data.bytesStreamed.getD t.bytesStreamed
      minutesUsed := data.minutesUsed.getD t.minutesUsed }

end Task

end AxonTask
