import AxonTask.Worker.Adapter
import AxonTask.Worker.Lifecycle
import AxonTask.Worker.Timeout

/-!
# The execution of a task (`execute_task` in `axontask-worker/src/orchestrator.rs`)

An execution runs the adapter beside two activities that may cancel the token of the task:
the timeout enforcer, from its deadline on, and the control listener, when a cancel command
arrives.  After the adapter has returned, the execution looks at the token and at the time
since the row was started, and writes a state.  The machine below interleaves all of them
with the statements of other processes, on one clock.
-/

namespace AxonTask

open Lib

/-- Who cancels the token of a task. -/
inductive Cause
  | command
  | timeout
deriving DecidableEq, Repr

/-- How far `execute_task` has come. -/
inductive ExecPc
  | validating
  /-- The adapter, the enforcer and the listener have been started. -/
  | executing
  /-- The adapter has returned; the enforcer and the listener are being stopped. -/
  | returned (r : Except AdapterError Unit) (since : DateTime)
  /-- The token is cancelled, and the row is read for the time of its start. -/
  | reading
  | marking (op : RowOp)
  /-- The execution is over, with the state that it has written. -/
  | done (recorded : Option TaskState)

/-- What an execution that is over has written. -/
def ExecPc.recorded : ExecPc → Option (Option TaskState)
  | .done st => some st
  | _ => none

/-- What happened so far: what the adapter returned, and who had first cancelled the token
when it returned and when `execute_task` looked at the token. -/
structure History where
  result : Option (Except AdapterError Unit) := none
  atReturn : Option Cause := none
  atDecision : Option Cause := none

/-- An execution with its history, the table and the clock. -/
structure Execution where
  tasks : TaskTable
  clock : DateTime
  pc : ExecPc
  /-- The instant from which the enforcer may cancel the token. -/
  enforcer : Option DateTime
  listening : Bool
  /-- Who has first cancelled the token. -/
  token : Option Cause
  history : History

/-- A step of an execution, of the activities beside it, or of another process. -/
inductive ExecStep
  | other (st : Statement)
  /-- The answer of `validate_args`; the activities are started if it is `Ok`. -/
  | validateArgs (r : Except AdapterError Unit)
  | enforcer
  | command
  | adapter (r : Except AdapterError Unit)
  | adapterPanics
  | decide
  | read
  | mark
  | databaseFails

namespace Execution

/-- The seconds from `started` to `now`: `num_seconds`, which rounds towards zero. -/
def elapsedSecs (started now : DateTime) : ℤ := (now - started).tdiv (10 ^ 9)

/-- The update by which `execute_task` records a cancelled token, given the row it reads. -/
def causeOp (task current : Task) (now : DateTime) : RowOp :=
  match current.startedAt with
  | some started =>
    if task.timeoutSeconds.toInt ≤ elapsedSecs started now then .markTimeout
    else .markFailed "Task cancelled by user"
  | none => .markFailed "Task cancelled"

/-- A step at the time `now`, which the clock already shows. -/
def move (task : Task) (now : DateTime) (s : Execution) : ExecStep → Option Execution
  | .other st => (Lifecycle.step s.tasks (st, now)).map fun T => { s with tasks := T }
  | .validateArgs r =>
    match s.pc, r with
    | .validating, .error e =>
      some { s with pc := .marking (.markFailed ("Invalid arguments: " ++ e.toString)) }
    | .validating, .ok () =>
      let timeout := (TimeoutEnforcer.fromTaskTimeout (some task.timeoutSeconds)).timeout
      some { s with pc := .executing, enforcer := some (now + timeout), listening := true }
    | _, _ => none
  | .enforcer =>
    match s.enforcer with
    | some wake =>
      if wake ≤ now then some { s with enforcer := none, token := s.token.or (some .timeout) }
      else none
    | none => none
  | .command =>
    if s.listening then some { s with listening := false, token := s.token.or (some .command) }
    else none
  | .adapter r =>
    match s.pc with
    | .executing =>
      some
        { s with
          pc := .returned r now
          history := { s.history with result := some r, atReturn := s.token } }
    | _ => none
  | .adapterPanics =>
    match s.pc with
    | .executing => some { s with pc := .done none }
    | _ => none
  | .decide =>
    match s.pc with
    | .returned r since =>
      -- `abort` has long taken effect after the pause of 100 ms
      if since + Duration.fromMillis 100 ≤ now then
        let s :=
          { s with
            enforcer := none
            listening := false
            history := { s.history with atDecision := s.token } }
        match r with
        | .error e => some { s with pc := .marking (.markFailed e.toString) }
        | .ok () =>
          if s.token.isSome then some { s with pc := .reading }
          else some { s with pc := .marking (.markSucceeded (some 0)) }
      else none
    | _ => none
  | .read =>
    match s.pc with
    | .reading =>
      match Task.findById s.tasks task.id with
      | some current => some { s with pc := .marking (causeOp task current now) }
      | none => some { s with pc := .done none }
    | _ => none
  | .mark =>
    match s.pc with
    | .marking op =>
      match TaskQueue.mark op.update s.tasks task.id now with
      | .ok T => some { s with tasks := T, pc := .done (Task.rowState T task.id) }
      | .error _ => some { s with pc := .done none }
    | _ => none
  | .databaseFails =>
    match s.pc with
    | .reading | .marking _ => some { s with pc := .done none }
    | _ => none

/-- A step at a time that is not before the last one. -/
def step (task : Task) (s : Execution) (a : ExecStep × DateTime) : Option Execution :=
  if s.clock ≤ a.2 then move task a.2 { s with clock := a.2 } a.1 else none

/-- The clock does not go back. -/
lemma move_of_step {task : Task} {s s' : Execution} {a : ExecStep × DateTime}
    (h : step task s a = some s') :
    s.clock ≤ a.2 ∧ move task a.2 { s with clock := a.2 } a.1 = some s' := by
  simpa [step, Option.ite_none_right_eq_some] using h

/-- The steps, case by case, with what each of them finds. -/
inductive Effect (task : Task) (now : DateTime) (s : Execution) : ExecStep → Execution → Prop
  | other {st : Statement} {T : TaskTable} (step : Lifecycle.step s.tasks (st, now) = some T) :
      Effect task now s (.other st) { s with tasks := T }
  | invalid {e : AdapterError} (pc : s.pc = .validating) :
      Effect task now s (.validateArgs (.error e))
        { s with pc := .marking (.markFailed ("Invalid arguments: " ++ e.toString)) }
  | valid (pc : s.pc = .validating) :
      Effect task now s (.validateArgs (.ok ()))
        { s with
          pc := .executing
          enforcer :=
            some (now + (TimeoutEnforcer.fromTaskTimeout (some task.timeoutSeconds)).timeout)
          listening := true }
  | wakes {wake : DateTime} (enforcer : s.enforcer = some wake) (due : wake ≤ now) :
      Effect task now s .enforcer { s with enforcer := none, token := s.token.or (some .timeout) }
  | command (listening : s.listening = true) :
      Effect task now s .command { s with listening := false, token := s.token.or (some .command) }
  | returned {r : Except AdapterError Unit} (pc : s.pc = .executing) :
      Effect task now s (.adapter r)
        { s with
          pc := .returned r now
          history := { s.history with result := some r, atReturn := s.token } }
  | panicked (pc : s.pc = .executing) : Effect task now s .adapterPanics { s with pc := .done none }
  | decideFailed {e : AdapterError} {since : DateTime} (pc : s.pc = .returned (.error e) since) :
      Effect task now s .decide
        { s with
          enforcer := none
          listening := false
          history := { s.history with atDecision := s.token }
          pc := .marking (.markFailed e.toString) }
  | decideCancelled {since : DateTime} (pc : s.pc = .returned (.ok ()) since)
      (token : s.token.isSome = true) :
      Effect task now s .decide
        { s with
          enforcer := none
          listening := false
          history := { s.history with atDecision := s.token }
          pc := .reading }
  | decideSucceeded {since : DateTime} (pc : s.pc = .returned (.ok ()) since)
      (token : s.token = none) :
      Effect task now s .decide
        { s with
          enforcer := none
          listening := false
          history := { s.history with atDecision := s.token }
          pc := .marking (.markSucceeded (some 0)) }
  | found {current : Task} (pc : s.pc = .reading) (row : s.tasks.row task.id = some current) :
      Effect task now s .read { s with pc := .marking (causeOp task current now) }
  | notFound (pc : s.pc = .reading) (row : s.tasks.row task.id = none) :
      Effect task now s .read { s with pc := .done none }
  | marked {op : RowOp} {T : TaskTable} (pc : s.pc = .marking op)
      (mark : TaskQueue.mark op.update s.tasks task.id now = .ok T) :
      Effect task now s .mark { s with tasks := T, pc := .done (Task.rowState T task.id) }
  | notMarked {op : RowOp} {e : QueueError} (pc : s.pc = .marking op)
      (mark : TaskQueue.mark op.update s.tasks task.id now = .error e) :
      Effect task now s .mark { s with pc := .done none }
  | databaseFails : Effect task now s .databaseFails { s with pc := .done none }

/-- **Inversion of a step.** -/
lemma effect_of_move {task : Task} {now : DateTime} {s s' : Execution} {a : ExecStep}
    (h : move task now s a = some s') : Effect task now s a s' := by
  cases a with
  | other st =>
    obtain ⟨T, hT, rfl⟩ := Option.map_eq_some_iff.1 h
    exact .other hT
  | validateArgs r =>
    simp only [move] at h
    split at h
    · rename_i e hpc
      cases h
      exact .invalid hpc
    · rename_i hpc
      cases h
      exact .valid hpc
    · cases h
  | enforcer =>
    simp only [move] at h
    split at h
    · rename_i wake henforcer
      split at h
      · rename_i hdue
        cases h
        exact .wakes henforcer hdue
      · cases h
    · cases h
  | command =>
    simp only [move] at h
    split at h
    · rename_i hlistening
      cases h
      exact .command hlistening
    · cases h
  | adapter r =>
    simp only [move] at h
    split at h
    · rename_i hpc
      cases h
      exact .returned hpc
    · cases h
  | adapterPanics =>
    simp only [move] at h
    split at h
    · rename_i hpc
      cases h
      exact .panicked hpc
    · cases h
  | decide =>
    simp only [move] at h
    split at h
    · rename_i r since hpc
      split at h
      · split at h
        · cases h
          exact .decideFailed hpc
        · split at h
          · rename_i htoken
            cases h
            exact .decideCancelled hpc htoken
          · rename_i htoken
            cases h
            exact .decideSucceeded hpc (by simpa using htoken)
      · cases h
    · cases h
  | read =>
    simp only [move] at h
    split at h
    · rename_i hpc
      split at h
      · rename_i current hrow
        cases h
        exact .found hpc hrow
      · rename_i hrow
        cases h
        exact .notFound hpc hrow
    · cases h
  | mark =>
    simp only [move] at h
    split at h
    · rename_i op hpc
      split at h
      · rename_i T hmark
        cases h
        exact .marked hpc hmark
      · rename_i e hmark
        cases h
        exact .notMarked hpc hmark
    · cases h
  | databaseFails =>
    simp only [move] at h
    split at h
    · cases h
      exact .databaseFails
    · cases h
      exact .databaseFails
    · cases h

/-- The execution of a claimed task is about to begin. -/
structure Begins (task : Task) (s : Execution) : Prop where
  reachable : Lifecycle.machine.Reachable Machine.anyStep s.tasks
  row : s.tasks.row task.id = some task
  running : task.state = .running
  started : ∀ started, task.startedAt = some started → started ≤ s.clock
  pc : s.pc = .validating
  enforcer : s.enforcer = none
  listening : s.listening = false
  token : s.token = none
  history : s.history = {}

/-- The execution of a claimed task. -/
def machine (task : Task) : Machine Execution (ExecStep × DateTime) where
  Init := Begins task
  step := step task

/-- Every task that a claim returns can be executed. -/
lemma begins_of_claim {T T' : TaskTable} {ids : List Uuid} {now clock : DateTime}
    {tasks : List Task} {task : Task} (hT : Lifecycle.machine.Reachable Machine.anyStep T)
    (hids : ids.all (Lifecycle.isPending T) = true)
    (h : TaskQueue.claimTasks T ids now = .ok (tasks, T')) (ht : task ∈ tasks)
    (hclock : now ≤ clock) : Begins task ⟨T', clock, .validating, none, false, none, {}⟩ := by
  have hstep : Lifecycle.machine.step T (.claim ids, now) = some T' := by
    simp [Lifecycle.machine, Lifecycle.step, hids, h]
  have hT' : Lifecycle.machine.Reachable Machine.anyStep T' :=
    hT.run (Machine.Run.single trivial hstep)
  obtain ⟨id, hid, hrow⟩ := List.mem_filterMap.1 ((TaskQueue.claimTasks_eq_ok h).2 ▸ ht)
  obtain rfl : task.id = id := Table.key_of_row hrow
  -- the claim has started the row
  have hset : (T.row task.id).map (TaskQueue.claimUpdate.set now) = some task := by
    rw [← hrow, TaskQueue.row_claimTasks h, if_pos hid]
  obtain ⟨t₀, -, rfl⟩ := Option.map_eq_some_iff.1 hset
  exact
    { reachable := hT'
      row := hrow
      running := rfl
      started := by
        rintro started ⟨⟩
        exact hclock
      pc := rfl
      enforcer := rfl
      listening := rfl
      token := rfl
      history := rfl }

/-- An execution that has begun does not begin again. -/
lemma pc_ne_validating_of_move {task : Task} {now : DateTime} {s s' : Execution} {a : ExecStep}
    (h : move task now s a = some s') (hpc : s.pc ≠ .validating) :
    s'.pc ≠ .validating ∧ ∀ r, a ≠ .validateArgs r := by
  cases effect_of_move h with
  | other | wakes | command => exact ⟨hpc, by simp⟩
  | invalid heq | valid heq => exact absurd heq hpc
  | returned | panicked | decideFailed | decideCancelled | decideSucceeded | found | notFound
  | marked | notMarked | databaseFails => exact ⟨by simp, by simp⟩

lemma pc_ne_validating_of_step {task : Task} {s s' : Execution} {a : ExecStep × DateTime}
    (h : step task s a = some s') (hpc : s.pc ≠ .validating) :
    s'.pc ≠ .validating ∧ ∀ r, a.1 ≠ .validateArgs r :=
  pc_ne_validating_of_move (move_of_step h).2 hpc

/-- Before it has begun, an execution does nothing to the table itself. -/
lemma pc_or_tasks_of_move {task : Task} {now : DateTime} {s s' : Execution} {a : ExecStep}
    (h : move task now s a = some s') (hpc : s.pc = .validating) :
    s'.pc = .validating ∨ s'.tasks = s.tasks := by
  cases effect_of_move h with
  | other => exact Or.inl hpc
  | marked heq => cases hpc.symm.trans heq
  | invalid | valid | wakes | command | returned | panicked | decideFailed | decideCancelled
  | decideSucceeded | found | notFound | notMarked | databaseFails => exact Or.inr rfl

lemma pc_or_tasks_of_step {task : Task} {s s' : Execution} {a : ExecStep × DateTime}
    (h : step task s a = some s') (hpc : s.pc = .validating) :
    s'.pc = .validating ∨ s'.tasks = s.tasks :=
  pc_or_tasks_of_move (s := { s with clock := a.2 }) (move_of_step h).2 hpc

/-- On the table, a step is a statement or nothing. -/
lemma tasks_move {task : Task} {now : DateTime} {s s' : Execution} {a : ExecStep}
    (h : move task now s a = some s') :
    s'.tasks = s.tasks ∨ ∃ st, Lifecycle.step s.tasks (st, now) = some s'.tasks := by
  cases effect_of_move h with
  | other hT => exact Or.inr ⟨_, hT⟩
  | marked _ hmark => exact Or.inr ⟨_, Lifecycle.step_of_mark hmark⟩
  | invalid | valid | wakes | command | returned | panicked | decideFailed | decideCancelled
  | decideSucceeded | found | notFound | notMarked | databaseFails => exact Or.inl rfl

/-- **Refinement.**  The execution runs the statements of the life cycle. -/
theorem tasks_reachable {task : Task} {s : Execution}
    (h : (machine task).Reachable Machine.anyStep s) :
    Lifecycle.machine.Reachable Machine.anyStep s.tasks := by
  refine Machine.Reachable.project Execution.tasks (fun _ => Begins.reachable) ?_ h
  rintro s ⟨a, now⟩ s' - - hstep
  rcases tasks_move (move_of_step hstep).2 with hsame | ⟨st, hst⟩
  · exact Or.inl hsame
  · exact Or.inr ⟨(st, now), hst⟩

/-! ### The recorded outcome -/

/-- The outcome that the cause asks for: what the adapter returned, and who had first
cancelled the token when it returned. -/
def outcome : Except AdapterError Unit → Option Cause → TaskState
  | .error _, _ => .failed
  | .ok (), none => .succeeded
  | .ok (), some .timeout => .timeout
  | .ok (), some .command => .canceled

/-- The database call of a step succeeds. -/
def databaseOk (task : Task) (s : Execution) : ExecStep × DateTime → Bool
  | (.databaseFails, _) => false
  | (.mark, now) =>
    match s.pc with
    | .marking op => (TaskQueue.mark op.update s.tasks task.id now).isOk
    | _ => true
  | _ => true

/-- The row stays in the state `running` until it is marked, and the database calls
succeed. -/
def Undisturbed (task : Task) (s : Execution) (a : ExecStep × DateTime) : Prop :=
  (s.pc.recorded.isSome = true ∨ Task.rowState s.tasks task.id = some .running) ∧
    databaseOk task s a = true

instance (task : Task) (s : Execution) (a : ExecStep × DateTime) :
    Decidable (Undisturbed task s a) :=
  inferInstanceAs (Decidable ((_ ∨ _) ∧ _))

/-- The timeout of the task has passed since its start. -/
def Overdue (task : Task) (now : ℤ) : Prop :=
  ∀ started : ℤ, task.startedAt = some started →
    started + task.timeoutSeconds.toInt * 10 ^ 9 ≤ now

variable {task : Task} {s s' : Execution}

lemma Overdue.mono {now now' : ℤ} (h : Overdue task now) (hle : now ≤ now') :
    Overdue task now' := fun started hs => Int.le_trans (h started hs) hle

/-- An overdue task is recorded as timed out. -/
lemma causeOp_of_overdue {current : Task} {now : ℤ} (hmin : 1 ≤ task.timeoutSeconds)
    (hstarted : current.startedAt = task.startedAt) (hsome : task.startedAt.isSome = true)
    (h : Overdue task now) : causeOp task current now = .markTimeout := by
  obtain ⟨started, hs⟩ := Option.isSome_iff_exists.1 hsome
  have hpos : 1 ≤ task.timeoutSeconds.toInt := by simpa [Int32.le_iff_toInt_le] using hmin
  have hle := h started hs
  have helapsed : task.timeoutSeconds.toInt ≤ elapsedSecs started now := by
    unfold elapsedSecs
    rw [Int.tdiv_eq_ediv_of_nonneg (by omega)]
    omega
  simp [causeOp, hstarted, hs, helapsed]

/-- The enforcer wakes up when the task is overdue. -/
lemma overdue_wake {now : ℤ} (hmin : 1 ≤ task.timeoutSeconds)
    (hmax : task.timeoutSeconds ≤ 86400)
    (hstart : ∀ started : ℤ, task.startedAt = some started → started ≤ now) :
    Overdue task
      (now + ((TimeoutEnforcer.fromTaskTimeout (some task.timeoutSeconds)).timeout : ℕ)) := by
  intro started hs
  have hle := hstart started hs
  have hpos : 1 ≤ task.timeoutSeconds.toInt := by simpa [Int32.le_iff_toInt_le] using hmin
  rw [TimeoutEnforcer.timeout_fromTaskTimeout hmin hmax]
  unfold Duration.fromSecs
  omega

/-- The state that a mark leaves agrees with the history, as far as it goes. -/
def Consistent (r : Except AdapterError Unit) (atReturn atDecision : Option Cause)
    (st : TaskState) : Prop :=
  match r, atDecision with
  | .error _, _ => st = .failed
  | .ok (), none => atReturn = none ∧ st = .succeeded
  | .ok (), some .timeout => (atReturn = none ∨ atReturn = some .timeout) ∧ st = .timeout
  | .ok (), some .command =>
    (atReturn = none ∨ atReturn = some .command) ∧ (st = .timeout ∨ st = .failed)

/-- The update leaves the state `st`. -/
def Marks (op : RowOp) (st : TaskState) : Prop := ∀ now t, (op.update.set now t).state = st

/-- What is known at each point of the execution. -/
def PcInv (task : Task) (clock : ℤ) (token : Option Cause) (h : History) : ExecPc → Prop
  | .validating | .executing => h.result = none
  | .returned r _ => h.result = some r ∧ (h.atReturn = none ∨ h.atReturn = token)
  | .reading =>
    h.result = some (.ok ()) ∧ ∃ c, h.atDecision = some c ∧
      (c = .timeout → Overdue task clock) ∧ (h.atReturn = none ∨ h.atReturn = some c)
  | .marking op =>
    ∀ r, h.result = some r → ∃ st, Marks op st ∧ Consistent r h.atReturn h.atDecision st
  | .done recorded =>
    ∀ r, h.result = some r → ∃ st, recorded = some st ∧ Consistent r h.atReturn h.atDecision st

/-- The invariant of undisturbed executions. -/
structure Inv (task : Task) (s : Execution) : Prop where
  rows : Lifecycle.RowsInv s.tasks
  timeout : 1 ≤ task.timeoutSeconds ∧ task.timeoutSeconds ≤ 86400
  started : task.startedAt.isSome = true
  clock : ∀ started : ℤ, task.startedAt = some started → started ≤ s.clock
  row : s.pc.recorded = none → ∀ t, s.tasks.row task.id = some t → t.state = .running →
    t.startedAt = task.startedAt
  enforcer : ∀ wake, s.enforcer = some wake → Overdue task wake
  token : s.token = some .timeout → Overdue task s.clock
  pc : PcInv task s.clock s.token s.history s.pc

lemma Begins.inv (h : Begins task s) : Inv task s := by
  have hrows := Lifecycle.reachable_rowsInv h.reachable
  have hcheck := s.tasks.checked task (Table.mem_of_row h.row)
  simp only [Task.schema, Bool.and_eq_true, decide_eq_true_eq] at hcheck
  exact
    { rows := hrows
      timeout := ⟨hcheck.1.1.1, hcheck.1.1.2⟩
      started := ((hrows _ _ h.row).running h.running).1
      clock := h.started
      row := fun _ t ht _ => by rw [h.row] at ht; cases ht; rfl
      enforcer := by simp [h.enforcer]
      token := by simp [h.token]
      pc := by simp [PcInv, h.pc, h.history] }

lemma PcInv.tick {clock now : ℤ} {token : Option Cause} {h : History} {pc : ExecPc}
    (hpc : PcInv task clock token h pc) (hle : clock ≤ now) : PcInv task now token h pc := by
  cases pc with
  | reading =>
    obtain ⟨hr, c, hc, hover, hret⟩ := hpc
    exact ⟨hr, c, hc, fun hct => (hover hct).mono hle, hret⟩
  | validating | executing | returned | marking | done => exact hpc

/-- The token may be cancelled later; it keeps who cancelled it first. -/
lemma PcInv.cancel {clock : ℤ} {token : Option Cause} {h : History} {pc : ExecPc}
    (hpc : PcInv task clock token h pc) (c : Cause) :
    PcInv task clock (token.or (some c)) h pc := by
  cases pc with
  | returned r since =>
    obtain ⟨hr, hnone | htok⟩ := hpc
    · exact ⟨hr, Or.inl hnone⟩
    · cases token with
      | none => exact ⟨hr, Or.inl htok⟩
      | some c' => exact ⟨hr, Or.inr htok⟩
  | validating | executing | reading | marking | done => exact hpc

/-- Time passes. -/
lemma Inv.tick {now : ℤ} (hi : Inv task s) (hle : s.clock ≤ now) :
    Inv task { s with clock := now } :=
  { hi with
    clock := fun started hs => Int.le_trans (hi.clock started hs) hle
    token := fun h => (hi.token h).mono hle
    pc := hi.pc.tick hle }

/-- A statement of another process. -/
lemma Inv.other {st : Statement} {now : DateTime} {T : TaskTable} (hi : Inv task s)
    (hrun : s.pc.recorded.isSome = true ∨ Task.rowState s.tasks task.id = some .running)
    (h : Lifecycle.step s.tasks (st, now) = some T) : Inv task { s with tasks := T } := by
  refine { hi with rows := hi.rows.step h, row := ?_ }
  intro hpc t ht hstate
  obtain ⟨t₀, ht₀, hstate₀⟩ := Task.rowState_eq_some_iff.1 (hrun.resolve_left (by simp [hpc]))
  have hsame := (Lifecycle.change_of_step hi.rows h ht₀ ht).startedAt (by simp [hstate₀])
  rw [hsame]
  exact hi.row hpc t₀ ht₀ hstate₀

/-- What the decision on the token leads to. -/
lemma marks_markFailed (error : String) : Marks (.markFailed error) .failed := fun _ _ => rfl

lemma marks_markSucceeded (exitCode : Option Int32) : Marks (.markSucceeded exitCode) .succeeded :=
  fun _ _ => rfl

lemma marks_markTimeout : Marks .markTimeout .timeout := fun _ _ => rfl

/-- The mark of a cancelled token. -/
lemma exists_marks_causeOp {current : Task} {now : ℤ} {c : Cause} {atReturn : Option Cause}
    (hmin : 1 ≤ task.timeoutSeconds) (hstarted : current.startedAt = task.startedAt)
    (hsome : task.startedAt.isSome = true) (hover : c = .timeout → Overdue task now)
    (hret : atReturn = none ∨ atReturn = some c) :
    ∃ st, Marks (causeOp task current now) st ∧ Consistent (.ok ()) atReturn (some c) st := by
  cases c with
  | timeout =>
    rw [causeOp_of_overdue hmin hstarted hsome (hover rfl)]
    exact ⟨.timeout, marks_markTimeout, hret, rfl⟩
  | command =>
    unfold causeOp
    split
    · split
      · exact ⟨.timeout, marks_markTimeout, hret, Or.inl rfl⟩
      · exact ⟨.failed, marks_markFailed _, hret, Or.inr rfl⟩
    · exact ⟨.failed, marks_markFailed _, hret, Or.inr rfl⟩

/-- The execution moves on, to a point where `PcInv` holds. -/
lemma Inv.goto {pc : ExecPc} {h : History} (hi : Inv task s) (hnot : s.pc.recorded = none)
    (hpc : PcInv task s.clock s.token h pc) : Inv task { s with pc := pc, history := h } :=
  { hi with row := fun _ => hi.row hnot, pc := hpc }

/-- The enforcer or the listener cancels the token. -/
lemma Inv.cancel {c : Cause} (hi : Inv task s) (hover : c = .timeout → Overdue task s.clock) :
    Inv task { s with token := s.token.or (some c) } := by
  refine { hi with token := ?_, pc := hi.pc.cancel c }
  intro htok
  cases htoken : s.token with
  | none =>
    simp only [htoken, Option.none_or, Option.some.injEq] at htok
    exact hover htok
  | some c' =>
    simp only [htoken, Option.some_or] at htok
    exact hi.token (htoken.trans htok)

/-- The enforcer and the listener are stopped. -/
lemma Inv.stop (hi : Inv task s) : Inv task { s with enforcer := none, listening := false } :=
  { hi with enforcer := by simp }

/-- The look at the token: a cancelled one keeps its first cause, but the code does not look
at it. -/
lemma Inv.decide (hi : Inv task s) (h : Execution.move task s.clock s .decide = some s') :
    Inv task s' := by
  have hpc := hi.pc
  cases effect_of_move h with
  | decideFailed heq =>
    rw [heq] at hpc
    refine hi.stop.goto (by rw [heq]; rfl) fun r hr => ⟨.failed, marks_markFailed _, ?_⟩
    rw [hpc.1] at hr
    cases hr
    rfl
  | decideCancelled heq htoken =>
    rw [heq] at hpc
    obtain ⟨c, hc⟩ := Option.isSome_iff_exists.1 htoken
    refine hi.stop.goto (by rw [heq]; rfl) ⟨hpc.1, c, hc, ?_, hc ▸ hpc.2⟩
    intro hct
    exact hi.token (hct ▸ hc)
  | decideSucceeded heq hnone =>
    rw [heq] at hpc
    refine hi.stop.goto (by rw [heq]; rfl) fun r hr => ⟨.succeeded, marks_markSucceeded _, ?_⟩
    rw [hpc.1] at hr
    cases hr
    simpa [Consistent, hnone] using hpc.2

/-- The start of the row that is read is the start of the task. -/
lemma Inv.read (hi : Inv task s)
    (hrun : s.pc.recorded.isSome = true ∨ Task.rowState s.tasks task.id = some .running)
    (h : Execution.move task s.clock s .read = some s') : Inv task s' := by
  have hpc := hi.pc
  have hrow : s.pc = .reading →
      ∃ t, s.tasks.row task.id = some t ∧ t.state = .running := by
    intro heq
    exact Task.rowState_eq_some_iff.1 (hrun.resolve_left (by simp [heq, ExecPc.recorded]))
  cases effect_of_move h with
  | found heq ht =>
    obtain ⟨t, ht', hstate⟩ := hrow heq
    obtain rfl := Option.some.inj (ht.symm.trans ht')
    rw [heq] at hpc
    obtain ⟨hres, c, hc, hover, hret⟩ := hpc
    have hnot : s.pc.recorded = none := by
      rw [heq]
      rfl
    refine hi.goto hnot ?_
    intro r hr
    rw [hres] at hr
    cases hr
    simp only [hc]
    exact exists_marks_causeOp hi.timeout.1 (hi.row hnot _ ht hstate) hi.started hover hret
  | notFound heq hnone =>
    obtain ⟨t, ht, -⟩ := hrow heq
    cases hnone.symm.trans ht

/-- The state that is written is the one of the mark. -/
lemma Inv.mark (hi : Inv task s) (hok : databaseOk task s (.mark, s.clock) = true)
    (h : Execution.move task s.clock s .mark = some s') : Inv task s' := by
  have hpc := hi.pc
  cases effect_of_move h with
  | marked heq hT =>
    rw [heq] at hpc
    have hrows := hi.rows.step (Lifecycle.step_of_mark hT)
    refine { hi with rows := hrows, row := by simp [ExecPc.recorded], pc := ?_ }
    intro r hr
    obtain ⟨st, hst, hcons⟩ := hpc r hr
    exact ⟨st, TaskQueue.rowState_mark (hst _) hT, hcons⟩
  | notMarked heq he =>
    simp only [databaseOk, heq, he] at hok
    cases hok

/-- An execution without a result may go where nothing is said about results. -/
lemma PcInv.of_result_none {clock : ℤ} {token : Option Cause} {h : History} {pc : ExecPc}
    (hnone : h.result = none) (hpc : (∃ op, pc = .marking op) ∨ ∃ recorded, pc = .done recorded) :
    PcInv task clock token h pc := by
  rcases hpc with ⟨op, rfl⟩ | ⟨recorded, rfl⟩
  · intro r hr
    cases hnone.symm.trans hr
  · intro r hr
    cases hnone.symm.trans hr

/-- A step keeps the invariant. -/
lemma Inv.move {a : ExecStep} {now : ℤ} (hi : Inv task s) (hnow : s.clock = now)
    (hC : Undisturbed task s (a, now)) (h : move task now s a = some s') : Inv task s' := by
  obtain ⟨hrun, hok⟩ := hC
  have hpc := hi.pc
  subst hnow
  cases effect_of_move h with
  | other hT => exact hi.other hrun hT
  | invalid heq =>
    rw [heq] at hpc
    exact hi.goto (by rw [heq]; rfl) (.of_result_none hpc (Or.inl ⟨_, rfl⟩))
  | valid heq =>
    rw [heq] at hpc
    have hwake := overdue_wake hi.timeout.1 hi.timeout.2 hi.clock
    have hnext : Inv task { s with pc := .executing } :=
      hi.goto (h := s.history) (by rw [heq]; rfl) hpc
    exact { hnext with enforcer := fun wake hw => Option.some.inj hw ▸ hwake }
  | wakes hwake hdue =>
    exact { hi.cancel fun _ => (hi.enforcer _ hwake).mono hdue with enforcer := by simp }
  | command => exact { hi.cancel (c := .command) (by simp) with }
  | returned heq => exact hi.goto (by rw [heq]; rfl) ⟨rfl, Or.inr rfl⟩
  | panicked heq =>
    rw [heq] at hpc
    exact hi.goto (by rw [heq]; rfl) (.of_result_none hpc (Or.inr ⟨_, rfl⟩))
  | decideFailed | decideCancelled | decideSucceeded => exact hi.decide h
  | found | notFound => exact hi.read hrun h
  | marked | notMarked => exact hi.mark hok h
  | databaseFails => cases hok

lemma reachable_inv (h : (machine task).Reachable (Undisturbed task) s) : Inv task s := by
  refine h.invariant (fun _ => Begins.inv) ?_
  intro s a s' hC hi hstep
  obtain ⟨hle, hmove⟩ := move_of_step hstep
  exact (hi.tick hle).move rfl hC hmove

/-- **When the recorded outcome follows the cause.**  In every undisturbed execution whose
adapter has returned, a state is written; it is the one that the cause asks for if and only
if the adapter returned an error, or nobody had cancelled the token when it was looked at, or
the enforcer was the first to cancel it and did so before the adapter returned. -/
theorem recorded_eq_outcome_iff (h : (machine task).Reachable (Undisturbed task) s)
    {recorded : Option TaskState} (hdone : s.pc.recorded = some recorded)
    {r : Except AdapterError Unit} (hr : s.history.result = some r) :
    ∃ st, recorded = some st ∧
      (st = outcome r s.history.atReturn ↔
        (∃ e, r = .error e) ∨ s.history.atDecision = none ∨
          s.history.atReturn = some .timeout) := by
  have hpc := (reachable_inv h).pc
  have hpcDone : s.pc = .done recorded := by
    cases hcase : s.pc <;> simp_all [ExecPc.recorded]
  rw [hpcDone] at hpc
  obtain ⟨st, hst, hcons⟩ := hpc r hr
  refine ⟨st, hst, ?_⟩
  -- by the result, and by who had cancelled the token when it was looked at
  match r, hd : s.history.atDecision with
  | .error e, _ =>
    obtain rfl : st = .failed := hcons
    simp [outcome]
  | .ok (), none =>
    obtain ⟨hret, rfl⟩ : s.history.atReturn = none ∧ st = .succeeded := by
      simpa [Consistent, hd] using hcons
    simp [outcome, hret]
  | .ok (), some .timeout =>
    obtain ⟨hret | hret, rfl⟩ : _ ∧ st = .timeout := by simpa [Consistent, hd] using hcons
    · simp [outcome, hret]
    · simp [outcome, hret]
  | .ok (), some .command =>
    obtain ⟨hret | hret, rfl | rfl⟩ : _ ∧ (st = .timeout ∨ st = .failed) := by
      simpa [Consistent, hd] using hcons
    all_goals simp [outcome, hret]

/-! ### Two executions -/

/-- The row of a task that was created at the time 0 and claimed at the time 1. -/
def sampleRow : Task := TaskQueue.claimUpdate.set 1 (Task.new Lifecycle.sampleTask 1 0)

/-- The table with this row. -/
def sampleTable : TaskTable where
  rows := [sampleRow]
  keys_nodup := by simp
  checked := by
    intro t ht
    obtain rfl := List.mem_singleton.1 ht
    decide +kernel

/-- The execution of this task is about to begin. -/
def sampleStart : Execution where
  tasks := sampleTable
  clock := 1
  pc := .validating
  enforcer := none
  listening := false
  token := none
  history := {}

lemma begins_sampleStart : Begins sampleRow sampleStart where
  reachable := ⟨_, Lifecycle.sampleStatements.take 2, rfl, Machine.run_of_exec rfl⟩
  row := rfl
  running := rfl
  started := by
    rintro started ⟨⟩
    exact Int.le_refl _
  pc := rfl
  enforcer := rfl
  listening := rfl
  token := rfl
  history := rfl

/-- A cancel command arrives while the adapter runs. -/
def commandSteps : List (ExecStep × DateTime) :=
  [(.validateArgs (.ok ()), 2), (.command, 3), (.adapter (.ok ()), 4), (.decide, 10 ^ 9),
    (.read, 10 ^ 9), (.mark, 10 ^ 9)]

/-- The cancel command asks for `Canceled`, and `Failed` is written. -/
theorem not_outcome_commandSteps :
    ∃ s, (machine sampleRow).Reachable (Undisturbed sampleRow) s ∧
      s.history.result = some (.ok ()) ∧
      s.pc.recorded ≠ some (some (outcome (.ok ()) s.history.atReturn)) := by
  have hrun : ((machine sampleRow).exec (Undisturbed sampleRow) sampleStart commandSteps).map
        (fun s => (s.history.result.map Except.toOption, s.history.atReturn, s.pc.recorded)) =
      some (some (some ()), some .command, some (some .failed)) := by decide +kernel
  obtain ⟨s, hs, hobs⟩ := Option.map_eq_some_iff.1 hrun
  simp only [Prod.mk.injEq] at hobs
  obtain ⟨hresult, hret, hrec⟩ := hobs
  refine ⟨s, ⟨sampleStart, _, begins_sampleStart, Machine.run_of_exec hs⟩, ?_, ?_⟩
  · obtain ⟨r, hr, hok⟩ := Option.map_eq_some_iff.1 hresult
    cases r with
    | error e => cases hok
    | ok u => exact hr
  · rw [hret, hrec]
    decide

/-- Nobody cancels the token. -/
def quietSteps : List (ExecStep × DateTime) :=
  [(.validateArgs (.ok ()), 2), (.adapter (.ok ()), 4), (.decide, 10 ^ 9), (.mark, 10 ^ 9)]

/-- The outcome of an execution whose token nobody cancels. -/
theorem recorded_eq_outcome_iff_quietSteps :
    ∃ s r, (machine sampleRow).exec (Undisturbed sampleRow) sampleStart quietSteps = some s ∧
      s.history.result = some r ∧ ∃ st, some .succeeded = some st ∧
        (st = outcome r s.history.atReturn ↔
          (∃ e, r = .error e) ∨ s.history.atDecision = none ∨
            s.history.atReturn = some .timeout) := by
  have hrun : ((machine sampleRow).exec (Undisturbed sampleRow) sampleStart quietSteps).map
      (fun s => (s.history.result.isSome, s.pc.recorded)) =
        some (true, some (some .succeeded)) := by
    decide +kernel
  obtain ⟨s, hs, hobs⟩ := Option.map_eq_some_iff.1 hrun
  obtain ⟨hresult, hrec⟩ := Prod.mk.inj hobs
  obtain ⟨r, hr⟩ := Option.isSome_iff_exists.1 hresult
  exact ⟨s, r, hs, hr, recorded_eq_outcome_iff
    ⟨sampleStart, _, begins_sampleStart, Machine.run_of_exec hs⟩ hrec hr⟩

end Execution

end AxonTask
