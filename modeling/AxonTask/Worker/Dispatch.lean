import AxonTask.Worker.Execute
import AxonTask.Worker.Orchestrator

/-!
# From the dispatch of a task to its end (`axontask-worker/src/orchestrator.rs`)

`dispatch_task` records a task without an adapter as failed, and spawns `execute_task` for
all others.  Every way out of `execute_task` stops the timeout enforcer and the control
listener and leaves the row in a terminal state, but one: when the adapter panics, the `?`
behind the join of its handle returns at once.
-/

namespace AxonTask

open Lib

/-- How far `dispatch_task` has come. -/
inductive DispatchPc
  | called
  /-- The adapter of the task is not registered. -/
  | refusing
  /-- `dispatch_task` has returned without spawning. -/
  | returned
  /-- `execute_task` has been spawned. -/
  | spawned
deriving DecidableEq

/-- A task that has been claimed, its execution, and the two activities that `execute_task`
spawns beside the adapter. -/
structure Dispatch where
  pc : DispatchPc
  exec : Execution
  enforcerRuns : Bool
  listenerRuns : Bool

/-- A step. -/
inductive DispatchStep
  /-- A statement of another process. -/
  | other (st : Statement)
  /-- The adapter is looked up. -/
  | lookup
  /-- The task is recorded as failed. -/
  | refuse
  /-- A step of `execute_task`, of its adapter, or of the activities beside it. -/
  | exec (a : ExecStep)
  /-- The enforcer returns, after it has found the token cancelled or cancelled it itself. -/
  | enforcerReturns
  /-- The listener returns, after it has found the token cancelled or cancelled it itself. -/
  | listenerReturns

namespace Dispatch

section Machine

variable (adapters : List String) (task : Task)

/-- The activities after a step of the execution: they are spawned when the arguments are
valid, and aborted when the adapter has returned. -/
def withHelpers (s : Dispatch) : ExecStep → Dispatch
  | .validateArgs (.ok ()) => { s with enforcerRuns := true, listenerRuns := true }
  | .decide => { s with enforcerRuns := false, listenerRuns := false }
  | _ => s

/-- A step at the time `now`, which the clock already shows. -/
def move (now : DateTime) (s : Dispatch) : DispatchStep → Option Dispatch
  | .other st => (Execution.move task now s.exec (.other st)).map fun exec => { s with exec }
  | .lookup =>
    match s.pc with
    | .called =>
      if adapters.contains task.adapter then some { s with pc := .spawned }
      else some { s with pc := .refusing }
    | _ => none
  | .refuse =>
    match s.pc with
    | .refusing =>
      let tasks := Orchestrator.markNotFound s.exec.tasks task now
      some { s with pc := .returned, exec := { s.exec with tasks } }
    | _ => none
  | .exec a =>
    match s.pc with
    | .spawned =>
      (Execution.move task now s.exec a).map fun exec => { s.withHelpers a with exec }
    | _ => none
  | .enforcerReturns =>
    if s.exec.enforcer.isNone && s.exec.token.isSome then some { s with enforcerRuns := false }
    else none
  | .listenerReturns =>
    if s.exec.token.isSome then
      some { s with listenerRuns := false, exec := { s.exec with listening := false } }
    else none

/-- A step at a time that is not before the last one. -/
def step (s : Dispatch) (a : DispatchStep × DateTime) : Option Dispatch :=
  if s.exec.clock ≤ a.2 then
    move adapters task a.2 { s with exec := { s.exec with clock := a.2 } } a.1
  else none

/-- The clock does not go back. -/
lemma move_of_step {s s' : Dispatch} {a : DispatchStep × DateTime}
    (h : step adapters task s a = some s') :
    s.exec.clock ≤ a.2 ∧
      move adapters task a.2 { s with exec := { s.exec with clock := a.2 } } a.1 = some s' := by
  simpa [step, Option.ite_none_right_eq_some] using h

/-- The claimed task is about to be dispatched. -/
structure Begins (s : Dispatch) : Prop where
  pc : s.pc = .called
  exec : Execution.Begins task s.exec
  enforcerRuns : s.enforcerRuns = false
  listenerRuns : s.listenerRuns = false

/-- The dispatch and the execution of a claimed task. -/
def machine : Machine Dispatch (DispatchStep × DateTime) where
  Init := Begins task
  step := step adapters task

/-- `dispatch_task` has returned without spawning, or `execute_task` has returned. -/
def isOver (s : Dispatch) : Bool :=
  match s.pc, s.exec.pc with
  | .returned, _ => true
  | .spawned, .done _ => true
  | _, _ => false

/-- The row of the task is terminal, and neither the enforcer nor the listener runs. -/
def settled (s : Dispatch) : Bool :=
  Lifecycle.isEnded s.exec.tasks task.id && !s.enforcerRuns && !s.listenerRuns

/-- When the execution is over, everything is settled. -/
def Finished (s : Dispatch) : Prop := s.isOver = true → s.settled task = true

/-- A mark does not fail in the database; whether it finds a row does not matter. -/
def markOk (op : RowOp) (s : Dispatch) (now : DateTime) : Bool :=
  match TaskQueue.mark op.update s.exec.tasks task.id now with
  | .error (.database _) => false
  | _ => true

/-- The database calls of a step succeed. -/
def callsSucceed (s : Dispatch) : DispatchStep × DateTime → Bool
  | (.refuse, now) => markOk task (.markFailed ("Adapter not found: " ++ task.adapter)) s now
  | (.exec .databaseFails, _) => false
  | (.exec .mark, now) =>
    match s.exec.pc with
    | .marking op => markOk task op s now
    | _ => true
  | _ => true

/-- A statement deletes the row of the task. -/
def deletes : DispatchStep → Bool
  | .other (.delete id) => decide (id = task.id)
  | .exec (.other (.delete id)) => decide (id = task.id)
  | _ => false

/-- The adapter panics while the row is not terminal or one of the activities runs. -/
def panics (s : Dispatch) : DispatchStep → Bool
  | .exec .adapterPanics => !s.settled task
  | _ => false

/-- The database calls succeed, nobody deletes the row, and the adapter does not panic. -/
def Orderly (s : Dispatch) (a : DispatchStep × DateTime) : Prop :=
  (callsSucceed task s a && !deletes task a.1 && !panics task s a.1) = true

end Machine

variable {adapters : List String} {task : Task} {s s' : Dispatch}

lemma settled_eq_true_iff :
    s.settled task = true ↔ Lifecycle.isEnded s.exec.tasks task.id = true ∧
      s.enforcerRuns = false ∧ s.listenerRuns = false := by
  simp [settled, and_assoc]

/-! ### Recording the end -/

/-- The update admits only rows in the state `running`, and leaves a terminal state. -/
structure IsFinal (op : RowOp) : Prop where
  sources : op.update.sources = [.running]
  marks : ∃ st, st.isTerminal = true ∧ Execution.Marks op st

lemma isFinal_markFailed (error : String) : IsFinal (.markFailed error) :=
  ⟨rfl, .failed, rfl, Execution.marks_markFailed error⟩

lemma isFinal_markSucceeded (exitCode : Option Int32) : IsFinal (.markSucceeded exitCode) :=
  ⟨rfl, .succeeded, rfl, Execution.marks_markSucceeded exitCode⟩

lemma isFinal_markTimeout : IsFinal .markTimeout :=
  ⟨rfl, .timeout, rfl, Execution.marks_markTimeout⟩

lemma isFinal_causeOp (task current : Task) (now : DateTime) :
    IsFinal (Execution.causeOp task current now) := by
  unfold Execution.causeOp
  split
  · split
    · exact isFinal_markTimeout
    · exact isFinal_markFailed _
  · exact isFinal_markFailed _

section Mark

variable {T T' : TaskTable} {id : Uuid} {op : RowOp} {now : DateTime}

lemma isEnded_of_mark_ok (hop : IsFinal op) (h : TaskQueue.mark op.update T id now = .ok T') :
    Lifecycle.isEnded T' id = true := by
  obtain ⟨st, hterm, hmarks⟩ := hop.marks
  exact (Option.any_eq_true _ _).2 ⟨st, TaskQueue.rowState_mark (hmarks now) h, hterm⟩

/-- A mark that finds no row to update finds the row ended. -/
lemma isEnded_of_mark_notFound (hop : IsFinal op) {id' : Uuid}
    (h : TaskQueue.mark op.update T id now = .error (.taskNotFound id'))
    (htaken : ∃ state, Task.rowState T id = some state ∧ state ≠ .pending) :
    Lifecycle.isEnded T id = true := by
  obtain ⟨state, hrow, hne⟩ := htaken
  refine (Option.any_eq_true _ _).2 ⟨state, hrow, ?_⟩
  obtain ⟨t, ht, rfl⟩ := Task.rowState_eq_some_iff.1 hrow
  have hnot := TaskQueue.not_admits_of_mark h ht
  rw [Task.RowUpdate.admits, hop.sources] at hnot
  cases hstate : t.state with
  | pending => exact absurd hstate hne
  | running => simp [hstate] at hnot
  | succeeded | failed | canceled | timeout => rfl

end Mark

/-! ### The invariant -/

/-- What is known at each point of `execute_task`. -/
def ExecInv (task : Task) (s : Dispatch) : Prop :=
  match s.exec.pc with
  | .validating | .reading => s.enforcerRuns = false ∧ s.listenerRuns = false
  | .executing | .returned .. => True
  | .marking op => IsFinal op ∧ s.enforcerRuns = false ∧ s.listenerRuns = false
  | .done _ => s.settled task = true

/-- What is known at each point. -/
def PcInv (task : Task) (s : Dispatch) : Prop :=
  match s.pc with
  | .called | .refusing =>
    s.exec.pc = .validating ∧ s.enforcerRuns = false ∧ s.listenerRuns = false
  | .returned => s.settled task = true
  | .spawned => ExecInv task s

/-- The invariant of the orderly runs. -/
structure Inv (task : Task) (s : Dispatch) : Prop where
  rows : Lifecycle.RowsInv s.exec.tasks
  taken : ∃ state, Task.rowState s.exec.tasks task.id = some state ∧ state ≠ .pending
  pc : PcInv task s

/-- The execution moves on without touching the table. -/
lemma Inv.goto (hi : Inv task s) (hspawned : s'.pc = .spawned)
    (htasks : s'.exec.tasks = s.exec.tasks) (h : ExecInv task s') : Inv task s' where
  rows := htasks ▸ hi.rows
  taken := htasks ▸ hi.taken
  pc := by
    rw [PcInv, hspawned]
    exact h

lemma Begins.inv (h : Begins task s) : Inv task s where
  rows := Lifecycle.reachable_rowsInv h.exec.reachable
  taken := ⟨.running, Task.rowState_eq_some_iff.2 ⟨task, h.exec.row, h.exec.running⟩, by simp⟩
  pc := by
    rw [PcInv, h.pc]
    exact ⟨h.exec.pc, h.enforcerRuns, h.listenerRuns⟩

/-- An activity returns, or another process moves on. -/
lemma PcInv.mono (hi : PcInv task s) (hpc : s'.pc = s.pc) (hexec : s'.exec.pc = s.exec.pc)
    (henforcer : s.enforcerRuns = false → s'.enforcerRuns = false)
    (hlistener : s.listenerRuns = false → s'.listenerRuns = false)
    (hended : Lifecycle.isEnded s.exec.tasks task.id = true →
      Lifecycle.isEnded s'.exec.tasks task.id = true) : PcInv task s' := by
  have hsettled : s.settled task = true → s'.settled task = true := by
    rw [settled_eq_true_iff, settled_eq_true_iff]
    rintro ⟨h₁, h₂, h₃⟩
    exact ⟨hended h₁, henforcer h₂, hlistener h₃⟩
  unfold PcInv at hi ⊢
  rw [hpc]
  cases hcase : s.pc with
  | called | refusing =>
    rw [hcase] at hi
    exact ⟨hexec.trans hi.1, henforcer hi.2.1, hlistener hi.2.2⟩
  | returned =>
    rw [hcase] at hi
    exact hsettled hi
  | spawned =>
    rw [hcase] at hi
    simp only [ExecInv] at hi ⊢
    rw [hexec]
    cases hpcExec : s.exec.pc with
    | validating | reading =>
      rw [hpcExec] at hi
      exact ⟨henforcer hi.1, hlistener hi.2⟩
    | executing | returned => trivial
    | marking op =>
      rw [hpcExec] at hi
      exact ⟨hi.1, henforcer hi.2.1, hlistener hi.2.2⟩
    | done =>
      rw [hpcExec] at hi
      exact hsettled hi

/-- A statement of another process. -/
lemma Inv.other {st : Statement} {now : DateTime} {T : TaskTable} (hi : Inv task s)
    (h : Lifecycle.step s.exec.tasks (st, now) = some T) (hst : st ≠ .delete task.id) :
    Inv task { s with exec := { s.exec with tasks := T } } where
  rows := hi.rows.step h
  taken := Lifecycle.taken_of_step hi.rows h hst hi.taken
  pc := hi.pc.mono rfl rfl (fun h => h) (fun h => h) (Lifecycle.isEnded_of_step hi.rows h hst)

/-- The execution marks the row and is over. -/
lemma Inv.mark {now : DateTime} {exec : Execution} (hi : Inv task s) (hspawned : s.pc = .spawned)
    (hpc : ExecInv task s) (hok : callsSucceed task s (.exec .mark, now) = true)
    (h : Execution.move task now s.exec .mark = some exec) : Inv task { s with exec } := by
  cases Execution.effect_of_move h with
  | marked heq hT =>
    rw [ExecInv, heq] at hpc
    obtain ⟨hfinal, henforcer, hlistener⟩ := hpc
    have hended := isEnded_of_mark_ok hfinal hT
    have hstep := Lifecycle.step_of_mark hT
    refine ⟨hi.rows.step hstep, Lifecycle.taken_of_step hi.rows hstep (by simp) hi.taken, ?_⟩
    rw [PcInv]
    simp only [hspawned, ExecInv]
    exact settled_eq_true_iff.2 ⟨hended, henforcer, hlistener⟩
  | @notMarked op e heq he =>
    rw [ExecInv, heq] at hpc
    obtain ⟨hfinal, henforcer, hlistener⟩ := hpc
    cases e with
    | database v => simp [callsSucceed, heq, markOk, he] at hok
    | taskNotFound id =>
      have hended := isEnded_of_mark_notFound hfinal he hi.taken
      exact hi.goto hspawned rfl (settled_eq_true_iff.2 ⟨hended, henforcer, hlistener⟩)

/-- A step of the execution. -/
lemma Inv.exec {a : ExecStep} {now : DateTime} {exec : Execution} (hi : Inv task s)
    (hspawned : s.pc = .spawned) (hok : callsSucceed task s (.exec a, now) = true)
    (hdeletes : deletes task (.exec a) = false) (hpanics : panics task s (.exec a) = false)
    (h : Execution.move task now s.exec a = some exec) :
    Inv task { s.withHelpers a with exec } := by
  have hpc : ExecInv task s := by
    have hpc := hi.pc
    rwa [PcInv, hspawned] at hpc
  cases Execution.effect_of_move h with
  | other hT =>
    refine hi.other hT ?_
    rintro rfl
    simp [deletes] at hdeletes
  | invalid heq =>
    rw [ExecInv, heq] at hpc
    exact hi.goto hspawned rfl ⟨isFinal_markFailed _, hpc⟩
  | valid | returned => exact hi.goto hspawned rfl trivial
  | wakes | command =>
    exact { hi with pc := hi.pc.mono rfl rfl (fun h => h) (fun h => h) fun h => h }
  | panicked =>
    have hsettled : s.settled task = true := by simpa [panics] using hpanics
    exact hi.goto hspawned rfl hsettled
  | decideFailed => exact hi.goto hspawned rfl ⟨isFinal_markFailed _, rfl, rfl⟩
  | decideCancelled => exact hi.goto hspawned rfl ⟨rfl, rfl⟩
  | decideSucceeded => exact hi.goto hspawned rfl ⟨isFinal_markSucceeded _, rfl, rfl⟩
  | found heq =>
    rw [ExecInv, heq] at hpc
    exact hi.goto hspawned rfl ⟨isFinal_causeOp _ _ _, hpc⟩
  | notFound _ hnone =>
    -- the row is there
    obtain ⟨state, hrow, -⟩ := hi.taken
    rw [Task.rowState, hnone] at hrow
    cases hrow
  | marked | notMarked => exact hi.mark hspawned hpc hok h
  | databaseFails => cases hok

/-- The task has no adapter. -/
lemma Inv.refuse {now : DateTime} (hi : Inv task s)
    (hok : callsSucceed task s (.refuse, now) = true) (henforcer : s.enforcerRuns = false)
    (hlistener : s.listenerRuns = false) :
    Inv task
      { s with
        pc := .returned
        exec := { s.exec with tasks := Orchestrator.markNotFound s.exec.tasks task now } } := by
  have hfinal := isFinal_markFailed ("Adapter not found: " ++ task.adapter)
  unfold Orchestrator.markNotFound
  cases hmark : TaskQueue.mark (RowOp.markFailed ("Adapter not found: " ++ task.adapter)).update
      s.exec.tasks task.id now with
  | ok T =>
    have hstep := Lifecycle.step_of_mark hmark
    exact ⟨hi.rows.step hstep, Lifecycle.taken_of_step hi.rows hstep (by simp) hi.taken,
      settled_eq_true_iff.2 ⟨isEnded_of_mark_ok hfinal hmark, henforcer, hlistener⟩⟩
  | error e =>
    cases e with
    | database v => simp [callsSucceed, markOk, hmark] at hok
    | taskNotFound id =>
      exact ⟨hi.rows, hi.taken, settled_eq_true_iff.2
        ⟨isEnded_of_mark_notFound hfinal hmark hi.taken, henforcer, hlistener⟩⟩

/-- A step keeps the invariant. -/
lemma Inv.move {a : DispatchStep} {now : DateTime} (hi : Inv task s)
    (hC : Orderly task s (a, now)) (h : Dispatch.move adapters task now s a = some s') :
    Inv task s' := by
  simp only [Orderly, Bool.and_eq_true, Bool.not_eq_true'] at hC
  obtain ⟨⟨hok, hdeletes⟩, hpanics⟩ := hC
  have hpc := hi.pc
  unfold PcInv at hpc
  cases a with
  | other st =>
    simp only [Dispatch.move, Option.map_eq_some_iff] at h
    obtain ⟨exec, hexec, rfl⟩ := h
    obtain ⟨T, hT, rfl⟩ := Option.map_eq_some_iff.1 hexec
    refine hi.other hT ?_
    rintro rfl
    simp [deletes] at hdeletes
  | lookup =>
    simp only [Dispatch.move] at h
    split at h
    · rename_i heq
      rw [heq] at hpc
      split at h
      · cases h
        refine hi.goto rfl rfl ?_
        rw [ExecInv, hpc.1]
        exact hpc.2
      · cases h
        exact { hi with pc := hpc }
    · cases h
  | refuse =>
    simp only [Dispatch.move] at h
    split at h
    · rename_i heq
      rw [heq] at hpc
      obtain ⟨-, henforcer, hlistener⟩ := hpc
      cases h
      exact hi.refuse hok henforcer hlistener
    · cases h
  | exec a =>
    simp only [Dispatch.move] at h
    split at h
    · rename_i hspawned
      obtain ⟨exec, hexec, rfl⟩ := Option.map_eq_some_iff.1 h
      exact hi.exec hspawned hok hdeletes hpanics hexec
    · cases h
  | enforcerReturns =>
    simp only [Dispatch.move] at h
    split at h
    · cases h
      exact { hi with pc := hi.pc.mono rfl rfl (fun _ => rfl) (fun h => h) fun h => h }
    · cases h
  | listenerReturns =>
    simp only [Dispatch.move] at h
    split at h
    · cases h
      exact { hi with pc := hi.pc.mono rfl rfl (fun h => h) (fun _ => rfl) fun h => h }
    · cases h

lemma Inv.finished (hi : Inv task s) : Finished task s := by
  intro hover
  have hpc := hi.pc
  unfold PcInv at hpc
  unfold isOver at hover
  split at hover
  · rename_i heq
    rwa [heq] at hpc
  · rename_i heq hdone
    rw [heq, ExecInv, hdone] at hpc
    exact hpc
  · cases hover

lemma finished_of_reachable (h : (machine adapters task).Reachable (Orderly task) s) :
    Finished task s := by
  have hi : Inv task s := by
    refine h.invariant (fun _ => Begins.inv) ?_
    intro s a s' hC hi hstep
    exact Inv.move (s := { s with exec := { s.exec with clock := a.2 } })
      { hi with pc := hi.pc.mono rfl rfl (fun h => h) (fun h => h) fun h => h } hC
      (move_of_step _ _ hstep).2
  exact hi.finished

/-- **Without a panic.**  When the database calls succeed, nobody deletes the row and the adapter
always returns, everything is settled when the execution is over. -/
theorem finished_of_returns
    (h : (machine adapters task).Reachable (fun s a => callsSucceed task s a = true ∧
      deletes task a.1 = false ∧ a.1 ≠ .exec .adapterPanics) s) : Finished task s := by
  obtain ⟨s₀, l, h₀, hrun⟩ := h
  refine finished_of_reachable ⟨s₀, l, h₀, hrun.mono ?_⟩
  rintro s a ⟨hcalls, hkept, hreturns⟩
  have hpanics : panics task s a.1 = false := by
    unfold panics
    split
    · exact absurd ‹_› hreturns
    · rfl
  simp [Orderly, hcalls, hkept, hpanics]

/-- **Every execution ends the task.**  When the database calls succeed, nobody deletes the
row and the adapter does not panic before everything else is over, everything is settled when
the execution is over; and right after a panic before that it is not. -/
theorem finished_of_orderly (adapters : List String) (task : Task) :
    (∀ s, (machine adapters task).Reachable (Orderly task) s → Finished task s) ∧
      ∀ s a s', step adapters task s a = some s' → panics task s a.1 = true →
        ¬ Finished task s' := by
  constructor
  · exact fun s h => finished_of_reachable h
  · rintro s ⟨a, now⟩ s' h hpanics hfin
    unfold panics at hpanics
    split at hpanics
    · rename_i heq
      obtain rfl : a = .exec .adapterPanics := heq
      replace h := (move_of_step _ _ h).2
      simp only [move] at h
      split at h
      · rename_i hspawned
        obtain ⟨exec, hexec, rfl⟩ := Option.map_eq_some_iff.1 h
        cases Execution.effect_of_move hexec with
        | panicked =>
          -- the row and the activities are as they were
          have hsettled : s.settled task = true := hfin (by simp [isOver, withHelpers, hspawned])
          simp [hsettled] at hpanics
      · cases h
    · cases hpanics

/-! ### Two executions -/

/-- The task has been claimed. -/
def sampleStart : Dispatch := ⟨.called, Execution.sampleStart, false, false⟩

lemma begins_sampleStart : Begins Execution.sampleRow sampleStart :=
  ⟨rfl, Execution.begins_sampleStart, rfl, rfl⟩

instance (task : Task) (s : Dispatch) (a : DispatchStep × DateTime) :
    Decidable (Orderly task s a) :=
  inferInstanceAs (Decidable (_ = true))

/-- The adapter panics. -/
def panicSteps : List (DispatchStep × DateTime) :=
  [(.lookup, 1), (.exec (.validateArgs (.ok ())), 2), (.exec .adapterPanics, 3)]

/-- The execution is over, and the row is still running. -/
theorem not_finished_panicSteps :
    ∃ s, (machine ["mock"] Execution.sampleRow).Reachable
        (fun s a => callsSucceed Execution.sampleRow s a = true) s ∧
      Task.rowState s.exec.tasks Execution.sampleRow.id = some .running ∧
      s.enforcerRuns = true ∧ s.listenerRuns = true ∧ ¬ Finished Execution.sampleRow s := by
  have hrun : ((machine ["mock"] Execution.sampleRow).exec
      (fun s a => callsSucceed Execution.sampleRow s a = true) sampleStart panicSteps).map
      (fun s => (s.isOver, Task.rowState s.exec.tasks Execution.sampleRow.id, s.enforcerRuns,
        s.listenerRuns)) = some (true, some .running, true, true) := by decide +kernel
  obtain ⟨s, hs, hobs⟩ := Option.map_eq_some_iff.1 hrun
  simp only [Prod.mk.injEq] at hobs
  obtain ⟨hover, hrow, henforcer, hlistener⟩ := hobs
  refine ⟨s, ⟨sampleStart, panicSteps, begins_sampleStart, Machine.run_of_exec hs⟩, hrow, henforcer,
    hlistener, ?_⟩
  intro h
  have hsettled := settled_eq_true_iff.1 (h hover)
  simp [henforcer] at hsettled

/-- The adapter returns. -/
def returnSteps : List (DispatchStep × DateTime) :=
  [(.lookup, 1), (.exec (.validateArgs (.ok ())), 2), (.exec (.adapter (.ok ())), 4),
    (.exec .decide, 10 ^ 9), (.exec .mark, 10 ^ 9)]

/-- Then everything is settled. -/
theorem finished_of_orderly_returnSteps :
    ∃ s, (machine ["mock"] Execution.sampleRow).exec (Orderly Execution.sampleRow) sampleStart
        returnSteps = some s ∧ Finished Execution.sampleRow s := by
  have hrun : ((machine ["mock"] Execution.sampleRow).exec (Orderly Execution.sampleRow)
      sampleStart returnSteps).isSome = true := by decide +kernel
  obtain ⟨s, hs⟩ := Option.isSome_iff_exists.1 hrun
  exact ⟨s, hs, (finished_of_orderly ["mock"] Execution.sampleRow).1 s
    ⟨sampleStart, returnSteps, begins_sampleStart, Machine.run_of_exec hs⟩⟩

end Dispatch

end AxonTask
