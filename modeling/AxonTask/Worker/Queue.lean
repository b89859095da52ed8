import AxonTask.Shared.Task

/-!
# The task queue (`axontask-worker/src/queue.rs`)

The updates by which a worker claims tasks and records their outcomes.  They repeat the
transitions of the task model with their own SET lists, and turn an update that finds no
row into an error.
-/

namespace AxonTask

open Lib

/-- `QueueError`; a database error is a violated constraint here. -/
inductive QueueError
  | database (v : Violation)
  | taskNotFound (taskId : Uuid)
deriving DecidableEq

/-- What `TaskQueue` knows besides its connections: a `usize` has 64 bits. -/
structure TaskQueue where
  batchSize : UInt64 := 10

namespace TaskQueue

/-- The LIMIT of `claim_tasks`: `limit.unwrap_or(self.batch_size) as i64`. -/
def limit (q : TaskQueue) (limit : Option UInt64) : Int64 := (limit.getD q.batchSize).toInt64

/-- As a number of rows, the LIMIT is not more than what the caller asked for. -/
lemma toNat_limit_le (q : TaskQueue) (limit : Option UInt64) :
    (q.limit limit).toInt.toNat ≤ (limit.getD q.batchSize).toNat := by
  have hle : (q.limit limit).toInt ≤ (limit.getD q.batchSize).toNat := by
    generalize hn : limit.getD q.batchSize = n
    have hint : (q.limit limit).toInt = n.toBitVec.toInt := by
      rw [TaskQueue.limit, hn]
      rfl
    rw [hint, BitVec.toInt_eq_toNat_cond, UInt64.toNat_toBitVec]
    split <;> omega
  omega

/-- The SET list of `TaskQueue::claim_tasks`. -/
def claimUpdate : Task.RowUpdate where
  sources := [.pending]
  set now t := { t with state := .running, startedAt := some now, updatedAt := now }
  set_id := Task.transitionToRunning.set_id

/-- The update of `TaskQueue::claim_tasks`, when its CTE has locked the rows `ids` in the
state `pending`; which rows these are is the matter of the query. -/
def claimTasks (T : TaskTable) (ids : List Uuid) (now : DateTime) :
    Except Violation (List Task × TaskTable) :=
  (T.update (fun t => ids.contains t.id) (claimUpdate.set now) (claimUpdate.set_id now)).map
    fun T' => (ids.filterMap T'.row, T')

/-- The update of `TaskQueue::mark_succeeded`. -/
def markSucceeded (exitCode : Option Int32) : Task.RowUpdate where
  sources := [.running]
  set now t := { t with state := .succeeded, endedAt := some now, updatedAt := now, exitCode }
  set_id := (Task.transitionToSucceeded exitCode).set_id

/-- The update of `TaskQueue::mark_failed`. -/
def markFailed (error : String) : Task.RowUpdate where
  sources := [.running]
  set now t :=
    { t with state := .failed, endedAt := some now, updatedAt := now, errorMessage := some error }

/-- The update of `TaskQueue::mark_timeout`. -/
def markTimeout : Task.RowUpdate where
  sources := [.running]
  set now t :=
    { t with
      state := .timeout, endedAt := some now, updatedAt := now,
      errorMessage := some "Task timed out" }

/-- What `mark_succeeded`, `mark_failed` and `mark_timeout` do with their update: no row is
the error `TaskNotFound`. -/
def mark (u : Task.RowUpdate) (T : TaskTable) (taskId : Uuid) (now : DateTime) :
    Except QueueError TaskTable :=
  match u.exec T taskId now with
  | .error v => .error (.database v)
  | .ok (none, _) => .error (.taskNotFound taskId)
  | .ok (some _, T') => .ok T'

lemma claimTasks_eq_ok {T T' : TaskTable} {ids : List Uuid} {now : DateTime} {ts : List Task}
    (h : claimTasks T ids now = .ok (ts, T')) :
    T.update (fun t => ids.contains t.id) (claimUpdate.set now) (claimUpdate.set_id now) = .ok T' ∧
      ts = ids.filterMap T'.row := by
  unfold claimTasks at h
  cases hup : T.update (fun t => ids.contains t.id) (claimUpdate.set now)
      (claimUpdate.set_id now) with
  | error v => rw [hup] at h; cases h
  | ok T₁ =>
    rw [hup] at h
    simp only [Except.map, Except.ok.injEq, Prod.mk.injEq] at h
    obtain ⟨rfl, rfl⟩ := h
    exact ⟨rfl, rfl⟩

/-- The rows after a claim. -/
lemma row_claimTasks {T T' : TaskTable} {ids : List Uuid} {now : DateTime} {ts : List Task}
    (h : claimTasks T ids now = .ok (ts, T')) (id : Uuid) :
    T'.row id = if id ∈ ids then (T.row id).map (claimUpdate.set now) else T.row id := by
  rw [Table.row_update (claimTasks_eq_ok h).1 id]
  cases ht : T.row id with
  | none => simp
  | some t =>
    have hid : t.id = id := Table.key_of_row ht
    by_cases hmem : id ∈ ids <;> simp [hid, hmem]

/-- A mark that succeeds leaves the row in the state that its SET list writes. -/
lemma rowState_mark {u : Task.RowUpdate} {T T' : TaskTable} {taskId : Uuid} {now : DateTime}
    {st : TaskState} (hst : ∀ t, (u.set now t).state = st)
    (h : mark u T taskId now = .ok T') : Task.rowState T' taskId = some st := by
  unfold mark at h
  split at h
  · cases h
  · cases h
  · rename_i t T₁ hup
    cases h
    rcases Table.updateKey_eq_ok hup with ⟨-, hnone, -⟩ | ⟨t₀, -, -, -, -, hrow, -⟩
    · cases hnone
    · exact Task.rowState_eq_some_iff.2 ⟨_, hrow, hst t₀⟩

/-- A mark finds a row in a state that it admits, and writes it unless that violates a
constraint. -/
lemma exists_mark {u : Task.RowUpdate} {T : TaskTable} {taskId : Uuid} {now : DateTime} {t : Task}
    (ht : T.row taskId = some t) (hadm : u.admits t = true)
    (hcheck : Task.schema.check (u.set now t) = true) : ∃ T', mark u T taskId now = .ok T' := by
  unfold mark
  split
  · rename_i hup
    obtain ⟨t', ht', -, hno⟩ := Table.updateKey_eq_error hup
    rw [ht] at ht'
    cases ht'
    rw [hcheck] at hno
    cases hno
  · rename_i hup
    rcases Table.updateKey_eq_ok hup with ⟨hnone, -⟩ | ⟨t', -, -, -, hsome, -⟩
    · rw [ht, Option.filter_some, if_pos hadm] at hnone
      cases hnone
    · cases hsome
  · exact ⟨_, rfl⟩

/-- A mark that does not admit the row leaves the table. -/
lemma mark_of_not_admits {u : Task.RowUpdate} {T : TaskTable} {taskId : Uuid} {now : DateTime}
    {t : Task} (ht : T.row taskId = some t) (hadm : u.admits t = false) :
    mark u T taskId now = .error (.taskNotFound taskId) := by
  unfold mark
  split
  · rename_i hup
    obtain ⟨t', ht', hadm', -⟩ := Table.updateKey_eq_error hup
    rw [ht] at ht'
    cases ht'
    rw [hadm] at hadm'
    cases hadm'
  · rfl
  · rename_i hup
    rcases Table.updateKey_eq_ok hup with ⟨-, hnone, -⟩ | ⟨t', ht', hadm', -⟩
    · cases hnone
    · rw [ht] at ht'
      cases ht'
      rw [hadm] at hadm'
      cases hadm'

/-- A mark that finds no row has found none in a state that it admits. -/
lemma not_admits_of_mark {u : Task.RowUpdate} {T : TaskTable} {taskId id : Uuid} {now : DateTime}
    (h : mark u T taskId now = .error (.taskNotFound id)) {t : Task}
    (ht : T.row taskId = some t) : u.admits t = false := by
  unfold mark at h
  split at h
  · cases h
  · rename_i hup
    rcases Table.updateKey_eq_ok hup with ⟨hnone, -⟩ | ⟨t₀, -, -, -, hsome, -⟩
    · rw [ht] at hnone
      simpa [Option.filter_some] using hnone
    · cases hsome
  · cases h

end TaskQueue

end AxonTask
