import AxonTask.Worker.Execute
import AxonTask.Worker.Forwarding
import AxonTask.Worker.Mock

/-!
# The last event of a task and the state of its row

The mock adapter decides at its checkpoints how the task ends, and says so in its last event;
`execute_task` decides it again, from what the adapter returns, the token and the time; and
the cancel endpoint writes the row by itself.  The machine below runs an execution of the mock
adapter with the emission loops of its worker, when neither Redis nor the database fails.
-/

namespace AxonTask

open Lib

/-- An execution of the mock adapter, and the emission loops. -/
structure MockRun where
  exec : Execution
  fwd : Forwarding
  /-- Where the adapter stands. -/
  pc : MockPc
  /-- When `execute_task` has read the row. -/
  readAt : Option DateTime

/-- A step. -/
inductive MockStep
  /-- A step of `execute_task` or of the activities beside it, or a statement. -/
  | exec (a : ExecStep × DateTime)
  /-- `validate_args`, and the start of the adapter. -/
  | begin (now : DateTime)
  /-- The next step of the adapter. -/
  | advance (now : DateTime)
  /-- The adapter returns. -/
  | ret (now : DateTime)
  | forward (a : ForwardStep)

/-- What the last event of a task says of its state. -/
def Agrees (kind : String) (st : TaskState) : Prop :=
  (kind = "completed" ∧ st = .succeeded) ∨ (kind = "failed" ∧ st = .failed) ∨
    (kind = "cancelled" ∧ (st = .canceled ∨ st = .timeout))

namespace MockRun

section Machine

variable (L : Libs) (task : Task)

/-- The statement that the cancel endpoint runs. -/
def cancels : Statement → Bool
  | .update .transitionToCanceled _ => true
  | _ => false

/-- The steps of `execute_task` that do not depend on the adapter and are no failures, and the
statements on other tasks and of the cancel endpoint. -/
def allowed : ExecStep → Bool
  | .other st => !st.targets.contains task.id || cancels st
  | .enforcer | .command | .decide | .read | .mark => true
  | .validateArgs _ | .adapter _ | .adapterPanics | .databaseFails => false

/-- The time of the read, when the step is one. -/
def readTime (s : MockRun) : ExecStep × DateTime → Option DateTime
  | (.read, now) => some now
  | _ => s.readAt

/-- The emission loops after an event of the adapter. -/
def send (fwd : Forwarding) : Option AdapterEvent → Option Forwarding
  | some event => fwd.step L (.send task.id event)
  | none => some fwd

/-- A step. -/
def step (s : MockRun) : MockStep → Option MockRun
  | .exec a =>
    if allowed task a.1 then
      (Execution.step task s.exec a).map fun exec => { s with exec, readAt := s.readTime a }
    else none
  | .begin now =>
    match MockAdapter.validateArgs task.args with
    | .ok () =>
      (Execution.step task s.exec (.validateArgs (.ok ()), now)).map fun exec =>
        { s with exec, pc := MockAdapter.start (MockAdapter.config task.args) }
    | .error e =>
      (Execution.step task s.exec (.validateArgs (.error e), now)).map fun exec => { s with exec }
  | .advance now =>
    if s.exec.clock ≤ now then
      (MockAdapter.advance (MockAdapter.config task.args) s.exec.token.isSome now s.pc).bind
        fun (event, pc) => (send L task s.fwd event).map fun fwd =>
          { s with exec := { s.exec with clock := now }, fwd, pc }
    else none
  | .ret now =>
    match s.pc with
    | .emitting [] (.ret r) =>
      (Execution.step task s.exec (.adapter r, now)).map fun exec =>
        { s with exec, pc := .returned }
    | _ => none
  | .forward a =>
    if Forwarding.redisOk a && Forwarding.keepsSilent task.id a then
      (s.fwd.step L a).map fun fwd => { s with fwd }
    else none

/-- The execution of the task is about to begin, and nothing has been sent for it. -/
structure Begins (s : MockRun) : Prop where
  exec : Execution.Begins task s.exec
  channel : s.fwd.channel task.id = []
  idle : s.fwd.shared.pcs task.id = .idle
  sent : s.fwd.sent task.id = []
  pc : s.pc = .notStarted

/-- The executions of the task by the mock adapter. -/
def machine : Machine MockRun MockStep where
  Init := Begins task
  step := step L task

/-- `execute_task` has returned, and all events that were sent are written. -/
structure Over (s : MockRun) : Prop where
  returned : s.exec.pc.recorded.isSome = true
  channel : s.fwd.channel task.id = []
  idle : s.fwd.shared.pcs task.id = .idle

/-- When everything is over, the last entry of the stream and the row agree. -/
def Agree (s : MockRun) : Prop :=
  Over task s → ∃ e st, (s.fwd.shared.streams task.id).getLast? = some e ∧
    Task.rowState s.exec.tasks task.id = some st ∧ Agrees e.kind st

/-- The kind of the last event that the adapter has sent. -/
def lastSent (s : MockRun) : Option AdapterEventKind :=
  (s.fwd.sent task.id).getLast?.map AdapterEvent.kind

/-- The timeout of the task had passed when its row was read. -/
def timedOut (s : MockRun) : Bool :=
  match s.readAt, task.startedAt with
  | some now, some started =>
    decide (task.timeoutSeconds.toInt ≤ Execution.elapsedSecs started now)
  | _, _ => false

/-- The row and the token are still as the last event of the adapter says: the row runs and
nobody has cancelled the token after `completed`, the row runs after `failed`, and after
`cancelled` the cancel endpoint has written the row or the timeout has passed. -/
def settled (s : MockRun) : Bool :=
  match s.lastSent task with
  | some .completed =>
    decide (Task.rowState s.exec.tasks task.id = some .running) && s.exec.token.isNone
  | some .failed => decide (Task.rowState s.exec.tasks task.id = some .running)
  | some .cancelled =>
    decide (Task.rowState s.exec.tasks task.id = some .canceled) || s.timedOut task
  | _ => true

/-- The row is marked only when it is settled. -/
def Settles (s : MockRun) : MockStep → Prop
  | .exec (.mark, _) => s.settled task = true
  | _ => True

/-! ### The invariant -/

/-- The row of the task runs, or the cancel endpoint has written it. -/
def Live (T : TaskTable) : Prop :=
  ∃ t, T.row task.id = some t ∧ (t.state = .running ∨ t.state = .canceled) ∧
    t.startedAt = task.startedAt

/-- The enforcer and the listener have been stopped. -/
def Stopped (exec : Execution) : Prop := exec.enforcer = none ∧ exec.listening = false

/-- How the adapter ends: its last event and what it returns. -/
def Ends (events : List AdapterEvent) (r : Except AdapterError Unit) (token : Option Cause) :
    Prop :=
  ∃ e, events.getLast? = some e ∧
    ((e.kind = .completed ∧ r = .ok ()) ∨
      (e.kind = .failed ∧ ∃ c ∈ MockAdapter.checkpoints,
        r = .error (.executionFailed (MockAdapter.simulatedFailure c.percent))) ∨
      (e.kind = .cancelled ∧ r = .ok () ∧ token.isSome = true))

/-- The update by which `execute_task` records the end. -/
def decision (s : MockRun) : Except AdapterError Unit → RowOp
  | .error e => .markFailed e.toString
  | .ok () =>
    if s.exec.token.isSome then
      if s.timedOut task then .markTimeout else .markFailed "Task cancelled by user"
    else .markSucceeded (some 0)

/-- What is known after the adapter has returned. -/
def Returned (s : MockRun) : ExecPc → Prop
  | .validating | .executing => False
  | .returned r _ => Live task s.exec.tasks ∧ Ends (s.fwd.sent task.id) r s.exec.token
  | .reading =>
    Live task s.exec.tasks ∧ Stopped s.exec ∧ s.exec.token.isSome = true ∧
      Ends (s.fwd.sent task.id) (.ok ()) s.exec.token
  | .marking op =>
    Live task s.exec.tasks ∧ Stopped s.exec ∧ ∃ r, Ends (s.fwd.sent task.id) r s.exec.token ∧
      op = s.decision task r
  | .done _ => Lifecycle.isEnded s.exec.tasks task.id = true

/-- What is known at each point of the adapter. -/
def PcInv (s : MockRun) : MockPc → Prop
  | .notStarted => s.exec.pc = .validating ∧ Live task s.exec.tasks
  | .loop checkpoints _ | .emitting _ (.loop checkpoints _) =>
    s.exec.pc = .executing ∧ Live task s.exec.tasks ∧ checkpoints ⊆ MockAdapter.checkpoints
  | .emitting events (.ret r) =>
    s.exec.pc = .executing ∧ Live task s.exec.tasks ∧
      Ends (s.fwd.sent task.id ++ events) r s.exec.token
  | .returned => s.Returned task s.exec.pc

/-- The invariant of all runs; `old` is what the stream held before. -/
structure Inv (old : List (String × JsonValue)) (s : MockRun) : Prop where
  rows : Lifecycle.RowsInv s.exec.tasks
  started : ∃ started : ℤ, task.startedAt = some started ∧ started ≤ s.exec.clock
  carried : s.fwd.carried task.id = old ++ s.fwd.sentContents task.id
  pc : s.PcInv task s.pc

end Machine

variable {L : Libs} {task : Task} {s s' : MockRun} {old : List (String × JsonValue)}

lemma Begins.inv (h : Begins task s) :
    Inv task (s.fwd.shared.contents task.id) s where
  rows := Lifecycle.reachable_rowsInv h.exec.reachable
  started := by
    obtain ⟨started, hs⟩ := Option.isSome_iff_exists.1
      (((Lifecycle.reachable_rowsInv h.exec.reachable) _ _ h.exec.row).running h.exec.running).1
    exact ⟨started, hs, h.exec.started started hs⟩
  carried := by
    simp [Forwarding.carried, SharedEmitter.inTransit, h.channel, h.idle, EmitPc.content,
      Forwarding.sentContents, h.sent]
  pc := by
    rw [h.pc]
    exact ⟨h.exec.pc, task, h.exec.row, Or.inl h.exec.running, rfl⟩

/-! ### The row -/

/-- The statements of others leave the row running, or cancel it. -/
lemma Live.other {T T' : TaskTable} {st : Statement} {now : DateTime} (hlive : Live task T)
    (hst : allowed task (.other st) = true) (h : Lifecycle.step T (st, now) = some T') :
    Live task T' := by
  obtain ⟨t, ht, hstate, hstarted⟩ := hlive
  rcases Lifecycle.row_cases_applies h task.id with
    hsame | ⟨-, -, hnone, -⟩ | ⟨rfl, -⟩ | ⟨u, t', hu, ht', hadmits, -, hset⟩
  · exact ⟨t, hsame.trans ht, hstate, hstarted⟩
  · cases hnone.symm.trans ht
  · simp [allowed, cancels, Statement.targets] at hst
  · obtain rfl := Option.some.inj (ht.symm.trans ht')
    rcases hu with ⟨ids, rfl, rfl⟩ | ⟨op, rfl, rfl⟩
    · -- a claim takes pending rows only
      rcases hstate with hstate | hstate <;>
        simp [Task.RowUpdate.admits, TaskQueue.claimUpdate, hstate] at hadmits
    · have hcancel : cancels (.update op task.id) = true := by
        simpa [allowed, Statement.targets] using hst
      cases op with
      | transitionToCanceled => exact ⟨_, hset, Or.inr rfl, hstarted⟩
      | transitionToRunning | transitionToSucceeded | transitionToFailed | transitionToTimeout
      | updateStats | markSucceeded | markFailed | markTimeout => cases hcancel

/-- No text that is recorded contains U+0000. -/
lemma hasNul_simulatedFailure :
    ∀ c ∈ MockAdapter.checkpoints, hasNul (AdapterError.toString
      (.executionFailed (MockAdapter.simulatedFailure c.percent))) = false := by
  decide +kernel

/-- A started row may be finished. -/
lemma check_finish {t : Task} {started now : ℤ} (ht : Task.schema.check t = true)
    (hstarted : t.startedAt = some started) (hle : started ≤ now) (state : TaskState)
    (exitCode : Option Int32) (error : Option String) (hnul : error.any hasNul = false) :
    Task.schema.check
      { t with
        state, endedAt := some now, updatedAt := now, errorMessage := error, exitCode } = true := by
  simp only [Task.schema, Task.textsOk, Task.endedAfterStarted, hstarted, hnul,
    Bool.and_eq_true, decide_eq_true_eq] at ht ⊢
  exact ⟨⟨ht.1.1, hle⟩, ht.2.1, rfl⟩

/-- Whatever `execute_task` records of a started row is accepted. -/
lemma check_decision {r : Except AdapterError Unit} {events : List AdapterEvent} {t : Task}
    {started now : ℤ} (hends : Ends events r s.exec.token) (ht : Task.schema.check t = true)
    (hstarted : t.startedAt = some started) (hle : started ≤ now) :
    Task.schema.check ((s.decision task r).update.set now t) = true := by
  have hnone : t.errorMessage.any hasNul = false := by
    have htexts := ht
    simp only [Task.schema, Task.textsOk, Bool.and_eq_true] at htexts
    simpa using htexts.2.2
  cases r with
  | error err =>
    obtain ⟨e, -, ⟨-, hr⟩ | ⟨-, c, hc, hr⟩ | ⟨-, hr, -⟩⟩ := hends <;> cases hr
    exact check_finish ht hstarted hle .failed t.exitCode _ (hasNul_simulatedFailure c hc)
  | ok u =>
    simp only [decision]
    split
    · split
      · exact check_finish ht hstarted hle .timeout t.exitCode (some "Task timed out")
          (by decide +kernel)
      · exact check_finish ht hstarted hle .failed t.exitCode (some "Task cancelled by user")
          (by decide +kernel)
    · exact check_finish ht hstarted hle .succeeded (some 0) _ hnone

/-- The state that `execute_task` records. -/
def decided (task : Task) (s : MockRun) : Except AdapterError Unit → TaskState
  | .error _ => .failed
  | .ok () =>
    if s.exec.token.isSome then if s.timedOut task then .timeout else .failed else .succeeded

lemma isFinal_decision (task : Task) (s : MockRun) (r : Except AdapterError Unit) :
    (s.decision task r).update.sources = [.running] ∧
      Execution.Marks (s.decision task r) (s.decided task r) := by
  cases r with
  | error e => exact ⟨rfl, Execution.marks_markFailed _⟩
  | ok u =>
    simp only [decision, decided]
    split
    · split
      · exact ⟨rfl, Execution.marks_markTimeout⟩
      · exact ⟨rfl, Execution.marks_markFailed _⟩
    · exact ⟨rfl, Execution.marks_markSucceeded _⟩

/-- **The mark.**  A running row gets the state that has been decided, a canceled one keeps
its own. -/
lemma mark_cases {r : Except AdapterError Unit} {events : List AdapterEvent} {now : ℤ}
    {exec : Execution} (hlive : Live task s.exec.tasks) (hends : Ends events r s.exec.token)
    (hstarted : ∃ started : ℤ, task.startedAt = some started ∧ started ≤ now)
    (hpc : s.exec.pc = .marking (s.decision task r))
    (h : Execution.move task now s.exec .mark = some exec) :
    (∃ recorded, exec.pc = .done recorded) ∧
      ((Task.rowState s.exec.tasks task.id = some .running ∧
          Task.rowState exec.tasks task.id = some (s.decided task r)) ∨
        (Task.rowState s.exec.tasks task.id = some .canceled ∧
          Task.rowState exec.tasks task.id = some .canceled)) := by
  obtain ⟨t, ht, hstate, hsame⟩ := hlive
  obtain ⟨started, hs, hle⟩ := hstarted
  obtain ⟨hsources, hmarks⟩ := isFinal_decision task s r
  simp only [Execution.move, hpc] at h
  rcases hstate with hstate | hstate
  · have hadm : (s.decision task r).update.admits t = true := by
      simp [Task.RowUpdate.admits, hsources, hstate]
    obtain ⟨T, hT⟩ := TaskQueue.exists_mark ht hadm (check_decision hends
      (s.exec.tasks.checked t (Table.mem_of_row ht)) (hsame.trans hs) hle)
    rw [hT] at h
    cases h
    exact ⟨⟨_, rfl⟩, Or.inl ⟨Task.rowState_eq_some_iff.2 ⟨t, ht, hstate⟩,
      TaskQueue.rowState_mark (hmarks now) hT⟩⟩
  · have hadm : (s.decision task r).update.admits t = false := by
      simp [Task.RowUpdate.admits, hsources, hstate]
    rw [TaskQueue.mark_of_not_admits ht hadm] at h
    cases h
    have hrow := Task.rowState_eq_some_iff.2 ⟨t, ht, hstate⟩
    exact ⟨⟨_, rfl⟩, Or.inr ⟨hrow, hrow⟩⟩

/-- What the mark leaves agrees with the last event exactly when the step settles the task. -/
lemma agrees_iff_settles {r : Except AdapterError Unit} {st : TaskState} (now : DateTime)
    (hends : Ends (s.fwd.sent task.id) r s.exec.token)
    (hst : (Task.rowState s.exec.tasks task.id = some .running ∧ st = s.decided task r) ∨
      (Task.rowState s.exec.tasks task.id = some .canceled ∧ st = .canceled)) :
    ∃ e, (s.fwd.sent task.id).getLast? = some e ∧
      (Agrees e.kind.toString st ↔ Settles task s (.exec (.mark, now))) := by
  obtain ⟨e, he, hkind⟩ := hends
  refine ⟨e, he, ?_⟩
  have hlast : s.lastSent task = some e.kind := by simp [lastSent, he]
  simp only [Settles, settled, hlast]
  rcases hkind with ⟨hk, rfl⟩ | ⟨hk, c, -, rfl⟩ | ⟨hk, rfl, htoken⟩
  · -- completed: the row runs, and nobody has cancelled the token
    rcases hst with ⟨hrow, rfl⟩ | ⟨hrow, rfl⟩
    · cases htoken : s.exec.token with
      | none => simp [hk, hrow, decided, htoken, Agrees, AdapterEventKind.toString]
      | some c =>
        cases htimed : s.timedOut task <;>
          simp [hk, hrow, decided, htoken, htimed, Agrees, AdapterEventKind.toString]
    · simp [hk, hrow, Agrees, AdapterEventKind.toString]
  · -- failed: the row runs
    rcases hst with ⟨hrow, rfl⟩ | ⟨hrow, rfl⟩
    · simp [hk, hrow, decided, Agrees, AdapterEventKind.toString]
    · simp [hk, hrow, Agrees, AdapterEventKind.toString]
  · -- cancelled: the row is canceled, or the timeout has passed
    rcases hst with ⟨hrow, rfl⟩ | ⟨hrow, rfl⟩
    · cases htimed : s.timedOut task <;>
        simp [hk, hrow, decided, htoken, htimed, Agrees, AdapterEventKind.toString]
    · simp [hk, hrow, Agrees, AdapterEventKind.toString]

/-! ### What a step preserves -/

lemma Ends.mono {events : List AdapterEvent} {r : Except AdapterError Unit}
    {token token' : Option Cause} (h : Ends events r token)
    (htoken : token.isSome = true → token'.isSome = true) : Ends events r token' := by
  obtain ⟨e, he, hk | hk | ⟨hk, hr, ht⟩⟩ := h
  · exact ⟨e, he, Or.inl hk⟩
  · exact ⟨e, he, Or.inr (Or.inl hk)⟩
  · exact ⟨e, he, Or.inr (Or.inr ⟨hk, hr, htoken ht⟩)⟩

/-- What a step has to leave alone that moves neither `execute_task` nor the adapter. -/
structure Frame (task : Task) (s s' : MockRun) : Prop where
  pc : s'.exec.pc = s.exec.pc
  live : Live task s.exec.tasks → Live task s'.exec.tasks
  ended : Lifecycle.isEnded s.exec.tasks task.id = true →
    Lifecycle.isEnded s'.exec.tasks task.id = true
  sent : s'.fwd.sent task.id = s.fwd.sent task.id
  readAt : s'.readAt = s.readAt
  token : s.exec.token.isSome = true → s'.exec.token.isSome = true
  stopped : Stopped s.exec → Stopped s'.exec ∧ s'.exec.token = s.exec.token

lemma PcInv.frame {pc : MockPc} (h : s.PcInv task pc) (hf : Frame task s s') :
    s'.PcInv task pc := by
  have hpc := hf.pc
  cases pc with
  | notStarted => exact ⟨hpc.trans h.1, hf.live h.2⟩
  | loop checkpoints wake => exact ⟨hpc.trans h.1, hf.live h.2.1, h.2.2⟩
  | emitting events next =>
    cases next with
    | loop checkpoints pause => exact ⟨hpc.trans h.1, hf.live h.2.1, h.2.2⟩
    | ret r =>
      refine ⟨hpc.trans h.1, hf.live h.2.1, ?_⟩
      rw [hf.sent]
      exact h.2.2.mono hf.token
  | returned =>
    simp only [PcInv] at h ⊢
    rw [hpc]
    cases hcase : s.exec.pc with
    | validating | executing => rw [hcase] at h; exact h
    | returned r since =>
      rw [hcase] at h
      refine ⟨hf.live h.1, ?_⟩
      rw [hf.sent]
      exact h.2.mono hf.token
    | reading =>
      rw [hcase] at h
      obtain ⟨hlive, hstopped, htoken, hends⟩ := h
      obtain ⟨hstopped', htoken'⟩ := hf.stopped hstopped
      refine ⟨hf.live hlive, hstopped', htoken' ▸ htoken, ?_⟩
      rw [hf.sent, htoken']
      exact hends
    | marking op =>
      rw [hcase] at h
      obtain ⟨hlive, hstopped, r, hends, hop⟩ := h
      obtain ⟨hstopped', htoken'⟩ := hf.stopped hstopped
      have hdecision : s'.decision task r = s.decision task r := by
        have htimed : s'.timedOut task = s.timedOut task := by rw [timedOut, hf.readAt]; rfl
        cases r with
        | error e => rfl
        | ok u => simp only [decision, htimed, htoken']
      refine ⟨hf.live hlive, hstopped', r, ?_, hop.trans hdecision.symm⟩
      rw [hf.sent, htoken']
      exact hends
    | done recorded =>
      rw [hcase] at h
      exact hf.ended h

/-- Time passes. -/
lemma Inv.tick {now : ℤ} (hi : Inv task old s) (hle : s.exec.clock ≤ now) :
    Inv task old { s with exec := { s.exec with clock := now } } := by
  obtain ⟨started, hs, hstarted⟩ := hi.started
  exact
    { rows := hi.rows
      started := ⟨started, hs, Int.le_trans hstarted hle⟩
      carried := hi.carried
      pc := hi.pc.frame ⟨rfl, fun h => h, fun h => h, rfl, rfl, fun h => h, fun h => ⟨h, rfl⟩⟩ }

/-- After the adapter has returned, `execute_task` is not before its return. -/
lemma Inv.returned (hi : Inv task old s) (hpc : s.exec.pc ≠ .validating ∧ s.exec.pc ≠ .executing) :
    s.pc = .returned ∧ s.Returned task s.exec.pc := by
  have h := hi.pc
  cases hcase : s.pc with
  | notStarted => rw [hcase] at h; exact absurd h.1 hpc.1
  | loop => rw [hcase] at h; exact absurd h.1 hpc.2
  | emitting events next =>
    rw [hcase] at h
    cases next with
    | loop => exact absurd h.1 hpc.2
    | ret => exact absurd h.1 hpc.2
  | returned =>
    rw [hcase] at h
    exact ⟨rfl, h⟩

/-- A step that moves neither `execute_task` nor the adapter. -/
lemma Inv.frame (hi : Inv task old s) (hrows : Lifecycle.RowsInv s'.exec.tasks)
    (hclock : s'.exec.clock = s.exec.clock)
    (hcarried : s'.fwd.carried task.id = s.fwd.carried task.id) (hpc : s'.pc = s.pc)
    (hf : Frame task s s') : Inv task old s' where
  rows := hrows
  started := hclock ▸ hi.started
  carried := by
    rw [hcarried, hi.carried, Forwarding.sentContents, Forwarding.sentContents, hf.sent]
  pc := by
    rw [hpc]
    exact hi.pc.frame hf

/-- The look at the token. -/
lemma Inv.decide {now : ℤ} {exec : Execution} (hi : Inv task old s)
    (h : Execution.move task now s.exec .decide = some exec) :
    Inv task old { s with exec } := by
  have hreturned : ∀ r since, s.exec.pc = .returned r since →
      s.pc = .returned ∧ Live task s.exec.tasks ∧ Ends (s.fwd.sent task.id) r s.exec.token := by
    intro r since hpc
    obtain ⟨hret, hreturned⟩ := hi.returned (by simp [hpc])
    rw [hpc] at hreturned
    exact ⟨hret, hreturned⟩
  cases Execution.effect_of_move h with
  | decideFailed hpc =>
    obtain ⟨hret, hlive, hends⟩ := hreturned _ _ hpc
    refine ⟨hi.rows, hi.started, hi.carried, ?_⟩
    rw [hret]
    exact ⟨hlive, ⟨rfl, rfl⟩, _, hends, rfl⟩
  | decideCancelled hpc htoken =>
    obtain ⟨hret, hlive, hends⟩ := hreturned _ _ hpc
    refine ⟨hi.rows, hi.started, hi.carried, ?_⟩
    rw [hret]
    exact ⟨hlive, ⟨rfl, rfl⟩, htoken, hends⟩
  | decideSucceeded hpc hnone =>
    obtain ⟨hret, hlive, hends⟩ := hreturned _ _ hpc
    refine ⟨hi.rows, hi.started, hi.carried, ?_⟩
    rw [hret]
    exact ⟨hlive, ⟨rfl, rfl⟩, _, hends, by simp [decision, hnone]⟩

/-- While `execute_task` reads the row, the row is there. -/
lemma Inv.row_of_reading (hi : Inv task old s) (hpc : s.exec.pc = .reading) :
    s.exec.tasks.row task.id ≠ none := by
  obtain ⟨-, hreturned⟩ := hi.returned (by simp [hpc])
  rw [hpc] at hreturned
  obtain ⟨⟨t, ht, -⟩, -⟩ := hreturned
  simp [ht]

/-- The read of the row. -/
lemma Inv.read {now : ℤ} {exec : Execution} (hi : Inv task old s)
    (h : Execution.move task now s.exec .read = some exec) :
    Inv task old { s with exec, readAt := some now } := by
  cases Execution.effect_of_move h with
  | found hpc hrow =>
    obtain ⟨hret, hreturned⟩ := hi.returned (by simp [hpc])
    rw [hpc] at hreturned
    obtain ⟨⟨t, ht, hstate, hsame⟩, hstopped, htoken, hends⟩ := hreturned
    obtain rfl := Option.some.inj (hrow.symm.trans ht)
    obtain ⟨started, hs, -⟩ := hi.started
    refine ⟨hi.rows, hi.started, hi.carried, ?_⟩
    rw [hret]
    refine ⟨⟨_, ht, hstate, hsame⟩, hstopped, .ok (), hends, ?_⟩
    -- the row has the start of the task
    simp [decision, htoken, timedOut, Execution.causeOp, hsame, hs]
  | notFound hpc hnone => exact absurd hnone (hi.row_of_reading hpc)

/-- The mark of the row. -/
lemma Inv.mark {now : ℤ} {exec : Execution} (hi : Inv task old s) (hclock : s.exec.clock = now)
    (h : Execution.move task now s.exec .mark = some exec) :
    (Inv task old { s with exec } ∧ ∃ recorded, exec.pc = .done recorded) ∧
      ∃ e st, (s.fwd.sent task.id).getLast? = some e ∧
        Task.rowState exec.tasks task.id = some st ∧
        (Agrees e.kind.toString st ↔ Settles task s (.exec (.mark, now))) := by
  obtain ⟨op, hpc, hexec⟩ : ∃ op, s.exec.pc = .marking op ∧ exec.clock = s.exec.clock := by
    cases Execution.effect_of_move h with
    | marked hpc | notMarked hpc => exact ⟨_, hpc, rfl⟩
  obtain ⟨hret, hreturned⟩ := hi.returned (by simp [hpc])
  rw [hpc] at hreturned
  obtain ⟨hlive, -, r, hends, rfl⟩ := hreturned
  obtain ⟨hdone, hrow⟩ := mark_cases hlive hends (hclock ▸ hi.started) hpc h
  obtain ⟨st, hst, hterm, hcases⟩ : ∃ st, Task.rowState exec.tasks task.id = some st ∧
      st.isTerminal = true ∧
      ((Task.rowState s.exec.tasks task.id = some .running ∧ st = s.decided task r) ∨
        (Task.rowState s.exec.tasks task.id = some .canceled ∧ st = .canceled)) := by
    rcases hrow with ⟨hrun, hst⟩ | ⟨hcanceled, hst⟩
    · refine ⟨_, hst, ?_, Or.inl ⟨hrun, rfl⟩⟩
      unfold decided
      split
      · rfl
      · repeat' split
        all_goals rfl
    · exact ⟨_, hst, rfl, Or.inr ⟨hcanceled, rfl⟩⟩
  obtain ⟨e, he, hiff⟩ := agrees_iff_settles now hends hcases
  refine ⟨⟨⟨?_, hexec ▸ hi.started, hi.carried, ?_⟩, hdone⟩, e, st, he, hst, hiff⟩
  · rcases Execution.tasks_move h with hsame | ⟨statement, hstep⟩
    · rw [hsame]
      exact hi.rows
    · exact hi.rows.step hstep
  · obtain ⟨recorded, hdone⟩ := hdone
    rw [hret]
    simp only [PcInv, hdone]
    exact (Option.any_eq_true _ _).2 ⟨st, hst, hterm⟩

/-- A statement of the cancel endpoint or on other tasks. -/
lemma Frame.other {T : TaskTable} {st : Statement} {now : DateTime}
    (hrows : Lifecycle.RowsInv s.exec.tasks) (hst : allowed task (.other st) = true)
    (h : Lifecycle.step s.exec.tasks (st, now) = some T) :
    Frame task s { s with exec := { s.exec with tasks := T } } := by
  refine ⟨rfl, fun hlive => hlive.other hst h, ?_, rfl, rfl, fun h => h, fun h => ⟨h, rfl⟩⟩
  refine Lifecycle.isEnded_of_step hrows h ?_
  rintro rfl
  simp [allowed, Statement.targets, cancels] at hst

/-- The token is cancelled, while the enforcer or the listener runs. -/
lemma Frame.cancel {exec : Execution} {c : Cause} (hpc : exec.pc = s.exec.pc)
    (htasks : exec.tasks = s.exec.tasks) (htoken : exec.token = s.exec.token.or (some c))
    (hrunning : ¬ Stopped s.exec) : Frame task s { s with exec } where
  pc := hpc
  live h := htasks ▸ h
  ended h := htasks ▸ h
  sent := rfl
  readAt := rfl
  token _ := by simp [htoken]
  stopped h := absurd h hrunning

/-- A step of `execute_task` or of the activities beside it, or a statement. -/
lemma Inv.exec {a : ExecStep} {now : ℤ} {exec : Execution} (hi : Inv task old s)
    (ha : allowed task a = true) (hclock : s.exec.clock = now)
    (h : Execution.move task now s.exec a = some exec) :
    Inv task old { s with exec, readAt := s.readTime (a, now) } := by
  cases Execution.effect_of_move h with
  | other hT => exact hi.frame (hi.rows.step hT) rfl rfl rfl (Frame.other hi.rows ha hT)
  | wakes henforcer =>
    exact hi.frame hi.rows rfl rfl rfl
      (Frame.cancel rfl rfl rfl fun hstopped => by simp [hstopped.1] at henforcer)
  | command hlistening =>
    exact hi.frame hi.rows rfl rfl rfl
      (Frame.cancel rfl rfl rfl fun hstopped => by simp [hstopped.2] at hlistening)
  | decideFailed | decideCancelled | decideSucceeded => exact hi.decide h
  | found | notFound => exact hi.read h
  | marked | notMarked => exact (hi.mark hclock h).1.1
  | invalid | valid | returned | panicked | databaseFails => cases ha

/-- The adapter is started. -/
lemma Inv.begin {now : ℤ} {exec : Execution} (hi : Inv task old s)
    (h : Execution.move task now s.exec (.validateArgs (.ok ())) = some exec) :
    Inv task old
      { s with exec, pc := MockAdapter.start (MockAdapter.config task.args) } := by
  cases Execution.effect_of_move h with
  | valid hpc =>
    refine ⟨hi.rows, hi.started, hi.carried, rfl, ?_, List.Subset.refl _⟩
    have hlive := hi.pc
    cases hcase : s.pc with
    | notStarted => rw [hcase] at hlive; exact hlive.2
    | loop => rw [hcase] at hlive; exact hlive.2.1
    | emitting events next =>
      rw [hcase] at hlive
      cases next with
      | loop => exact hlive.2.1
      | ret => exact hlive.2.1
    | returned =>
      rw [hcase] at hlive
      simp only [PcInv, hpc] at hlive
      exact hlive.elim

/-- The next round of the loop over the checkpoints. -/
lemma PcInv.round {checkpoints : List Checkpoint} (config : MockConfig)
    (hpc : s.exec.pc = .executing) (hlive : Live task s.exec.tasks)
    (hsub : checkpoints ⊆ MockAdapter.checkpoints) :
    s.PcInv task (MockAdapter.round config s.exec.token.isSome checkpoints) := by
  cases checkpoints with
  | nil =>
    refine ⟨hpc, hlive, _, List.getLast?_concat .., Or.inl ⟨rfl, rfl⟩⟩
  | cons c rest =>
    simp only [MockAdapter.round]
    split
    · rename_i htoken
      exact ⟨hpc, hlive, _, List.getLast?_concat .., Or.inr (Or.inr ⟨rfl, rfl, htoken⟩)⟩
    · split
      · have hc : c ∈ MockAdapter.checkpoints := hsub (by simp)
        exact ⟨hpc, hlive, _, List.getLast?_concat .., Or.inr (Or.inl ⟨rfl, c, hc, rfl⟩)⟩
      · exact ⟨hpc, hlive, fun c' hc' => hsub (by simp [hc'])⟩

/-- The adapter moves on. -/
lemma Inv.advance {now : ℤ} {event : Option AdapterEvent} {pc : MockPc} {fwd : Forwarding}
    (hi : Inv task old s)
    (h : MockAdapter.advance (MockAdapter.config task.args) s.exec.token.isSome now s.pc =
      some (event, pc))
    (hsend : send L task s.fwd event = some fwd) : Inv task old { s with fwd, pc } := by
  have hpc := hi.pc
  cases hcase : s.pc with
  | notStarted => simp [MockAdapter.advance, hcase] at h
  | returned => simp [MockAdapter.advance, hcase] at h
  | loop checkpoints wake =>
    rw [hcase] at h hpc
    simp only [MockAdapter.advance] at h
    split at h
    · cases h
      obtain rfl : s.fwd = fwd := by simpa [send] using hsend
      exact ⟨hi.rows, hi.started, hi.carried, PcInv.round _ hpc.1 hpc.2.1 hpc.2.2⟩
    · cases h
  | emitting events next =>
    rw [hcase] at h hpc
    cases events with
    | nil =>
      cases next with
      | loop checkpoints pause =>
        simp only [MockAdapter.advance] at h
        cases h
        obtain rfl : s.fwd = fwd := by simpa [send] using hsend
        exact ⟨hi.rows, hi.started, hi.carried, hpc⟩
      | ret r => simp [MockAdapter.advance] at h
    | cons e events =>
      simp only [MockAdapter.advance] at h
      cases h
      obtain ⟨hcarried, hsent⟩ := Forwarding.carried_send (L := L) hsend
      refine ⟨hi.rows, hi.started, ?_, ?_⟩
      · simp [hcarried, hi.carried, Forwarding.sentContents, hsent]
      · cases next with
        | loop checkpoints pause => exact hpc
        | ret r =>
          refine ⟨hpc.1, hpc.2.1, ?_⟩
          simpa [hsent] using hpc.2.2

/-- The adapter returns. -/
lemma Inv.ret {now : ℤ} {r : Except AdapterError Unit} {exec : Execution} (hi : Inv task old s)
    (hpc : s.pc = .emitting [] (.ret r))
    (h : Execution.move task now s.exec (.adapter r) = some exec) :
    Inv task old { s with exec, pc := .returned } := by
  have hinv := hi.pc
  rw [hpc] at hinv
  obtain ⟨-, hlive, hends⟩ := hinv
  cases Execution.effect_of_move h with
  | returned => exact ⟨hi.rows, hi.started, hi.carried, hlive, by simpa using hends⟩

/-- **Inversion of a step.** -/
lemma step_cases {a : MockStep} (hvalid : MockAdapter.validateArgs task.args = .ok ())
    (h : step L task s a = some s') :
    (∃ b exec, a = .exec b ∧ allowed task b.1 = true ∧ Execution.step task s.exec b = some exec ∧
      s' = { s with exec, readAt := s.readTime b }) ∨
    (∃ now exec, a = .begin now ∧
      Execution.step task s.exec (.validateArgs (.ok ()), now) = some exec ∧
      s' = { s with exec, pc := MockAdapter.start (MockAdapter.config task.args) }) ∨
    (∃ now event pc fwd, a = .advance now ∧ s.exec.clock ≤ now ∧
      MockAdapter.advance (MockAdapter.config task.args) s.exec.token.isSome now s.pc =
        some (event, pc) ∧
      send L task s.fwd event = some fwd ∧
      s' = { s with exec := { s.exec with clock := now }, fwd, pc }) ∨
    (∃ now r exec, a = .ret now ∧ s.pc = .emitting [] (.ret r) ∧
      Execution.step task s.exec (.adapter r, now) = some exec ∧
      s' = { s with exec, pc := .returned }) ∨
    ∃ b fwd, a = .forward b ∧ Forwarding.redisOk b = true ∧
      Forwarding.keepsSilent task.id b = true ∧ s.fwd.step L b = some fwd ∧
      s' = { s with fwd } := by
  cases a with
  | exec b =>
    simp only [step] at h
    split at h
    · rename_i hallowed
      obtain ⟨exec, hexec, rfl⟩ := Option.map_eq_some_iff.1 h
      exact Or.inl ⟨b, exec, rfl, hallowed, hexec, rfl⟩
    · cases h
  | begin now =>
    simp only [step, hvalid] at h
    obtain ⟨exec, hexec, rfl⟩ := Option.map_eq_some_iff.1 h
    exact Or.inr (Or.inl ⟨now, exec, rfl, hexec, rfl⟩)
  | advance now =>
    simp only [step] at h
    split at h
    · rename_i hle
      obtain ⟨⟨event, pc⟩, hadvance, h⟩ := Option.bind_eq_some_iff.1 h
      obtain ⟨fwd, hsend, rfl⟩ := Option.map_eq_some_iff.1 h
      exact Or.inr (Or.inr (Or.inl ⟨now, event, pc, fwd, rfl, hle, hadvance, hsend, rfl⟩))
    · cases h
  | ret now =>
    simp only [step] at h
    split at h
    · rename_i r hpc
      obtain ⟨exec, hexec, rfl⟩ := Option.map_eq_some_iff.1 h
      exact Or.inr (Or.inr (Or.inr (Or.inl ⟨now, r, exec, rfl, hpc, hexec, rfl⟩)))
    · cases h
  | forward b =>
    simp only [step] at h
    split at h
    · rename_i hguard
      obtain ⟨fwd, hfwd, rfl⟩ := Option.map_eq_some_iff.1 h
      rw [Bool.and_eq_true] at hguard
      exact Or.inr (Or.inr (Or.inr (Or.inr ⟨b, fwd, rfl, hguard.1, hguard.2, hfwd, rfl⟩)))
    · cases h

lemma Inv.step {a : MockStep} (hserde : ∀ v, (L.serdeToString v).isSome = true)
    (hvalid : MockAdapter.validateArgs task.args = .ok ()) (hi : Inv task old s)
    (h : step L task s a = some s') : Inv task old s' := by
  rcases step_cases hvalid h with ⟨b, exec, -, hallowed, hexec, rfl⟩ | ⟨now, exec, -, hexec, rfl⟩ |
    ⟨now, event, pc, fwd, -, hle, hadvance, hsend, rfl⟩ | ⟨now, r, exec, -, hpc, hexec, rfl⟩ |
    ⟨b, fwd, -, hok, hsilent, hfwd, rfl⟩
  · obtain ⟨hle, hmove⟩ := Execution.move_of_step hexec
    exact (hi.tick hle).exec hallowed rfl hmove
  · obtain ⟨hle, hmove⟩ := Execution.move_of_step hexec
    exact (hi.tick hle).begin hmove
  · exact (hi.tick hle).advance hadvance hsend
  · obtain ⟨hle, hmove⟩ := Execution.move_of_step hexec
    exact (hi.tick hle).ret hpc hmove
  · obtain ⟨hcarried, hsent⟩ := Forwarding.carried_of_redisOk hserde hok hsilent hfwd
    exact hi.frame hi.rows rfl hcarried rfl
      ⟨rfl, fun h => h, fun h => h, hsent, rfl, fun h => h, fun h => ⟨h, rfl⟩⟩

/-! ### The end -/

/-- `execute_task` is over, and the last event that was sent agrees with the row exactly
when `P` holds. -/
structure Decided (task : Task) (P : Prop) (s : MockRun) : Prop where
  done : ∃ recorded, s.exec.pc = .done recorded
  agrees : ∃ e st, (s.fwd.sent task.id).getLast? = some e ∧
    Task.rowState s.exec.tasks task.id = some st ∧ (Agrees e.kind.toString st ↔ P)

/-- The mark decides. -/
lemma decided_of_mark {now : DateTime} (hi : Inv task old s)
    (h : step L task s (.exec (.mark, now)) = some s') :
    Decided task (Settles task s (.exec (.mark, now))) s' := by
  simp only [step] at h
  split at h
  · obtain ⟨exec, hexec, rfl⟩ := Option.map_eq_some_iff.1 h
    obtain ⟨hle, hmove⟩ := Execution.move_of_step hexec
    obtain ⟨⟨-, hdone⟩, hagrees⟩ := (hi.tick hle).mark rfl hmove
    exact ⟨hdone, hagrees⟩
  · cases h

/-- Nothing ends an execution but the mark. -/
lemma done_of_step {a : MockStep} (hvalid : MockAdapter.validateArgs task.args = .ok ())
    (hi : Inv task old s) (h : step L task s a = some s') {recorded : Option TaskState}
    (hdone : s'.exec.pc = .done recorded) :
    s.exec.pc = .done recorded ∨ ∃ now, a = .exec (.mark, now) := by
  rcases step_cases hvalid h with ⟨⟨b, now⟩, exec, rfl, hallowed, hexec, rfl⟩ |
    ⟨now, exec, -, hexec, rfl⟩ | ⟨now, event, pc, fwd, -, -, -, -, rfl⟩ |
    ⟨now, r, exec, -, -, hexec, rfl⟩ | ⟨b, fwd, -, -, -, -, rfl⟩
  · obtain ⟨-, hmove⟩ := Execution.move_of_step hexec
    cases Execution.effect_of_move hmove with
    | other | wakes | command => exact Or.inl hdone
    | decideFailed | decideCancelled | decideSucceeded | found => cases hdone
    | notFound hpc hnone => exact absurd hnone (hi.row_of_reading hpc)
    | marked | notMarked => exact Or.inr ⟨now, rfl⟩
    | invalid | valid | returned | panicked | databaseFails => cases hallowed
  · cases Execution.effect_of_move (Execution.move_of_step hexec).2 with
    | valid => cases hdone
  · exact Or.inl hdone
  · cases Execution.effect_of_move (Execution.move_of_step hexec).2 with
    | returned => cases hdone
  · exact Or.inl hdone

/-- After the end, the row and the last event stay. -/
lemma Decided.step {P : Prop} {a : MockStep} (hserde : ∀ v, (L.serdeToString v).isSome = true)
    (hvalid : MockAdapter.validateArgs task.args = .ok ()) (hi : Inv task old s)
    (hd : Decided task P s) (h : step L task s a = some s') : Decided task P s' := by
  obtain ⟨⟨recorded, hdone⟩, e, st, he, hst, hiff⟩ := hd
  obtain ⟨hret, hended⟩ := hi.returned (by simp [hdone])
  rw [hdone] at hended
  have hterm : st.isTerminal = true := by
    have hended' := hended
    simp only [Returned, Lifecycle.isEnded, hst] at hended'
    simpa using hended'
  rcases step_cases hvalid h with ⟨⟨b, now⟩, exec, rfl, hallowed, hexec, rfl⟩ |
    ⟨now, exec, -, hexec, rfl⟩ | ⟨now, event, pc, fwd, -, -, hadvance, -, rfl⟩ |
    ⟨now, r, exec, -, hpc, hexec, rfl⟩ | ⟨b, fwd, -, hok, hsilent, hfwd, rfl⟩
  · obtain ⟨-, hmove⟩ := Execution.move_of_step hexec
    cases Execution.effect_of_move hmove with
    | @other statement T hT =>
      refine ⟨⟨recorded, hdone⟩, e, st, he, ?_, hiff⟩
      -- a terminal state is final
      have hne : statement ≠ .delete task.id := by
        rintro rfl
        simp [allowed, Statement.targets, cancels] at hallowed
      obtain ⟨st', hst', rfl | hcan⟩ := Lifecycle.rowState_of_step hi.rows hT hne hst
      · exact hst'
      · rw [TaskState.canTransitionTo_of_isTerminal hterm] at hcan
        cases hcan
    | wakes | command => exact ⟨⟨recorded, hdone⟩, e, st, he, hst, hiff⟩
    | decideFailed heq | decideCancelled heq | decideSucceeded heq | found heq | notFound heq
    | marked heq | notMarked heq => cases hdone.symm.trans heq
    | invalid | valid | returned | panicked | databaseFails => cases hallowed
  · cases Execution.effect_of_move (Execution.move_of_step hexec).2 with
    | valid heq => cases hdone.symm.trans heq
  · simp [MockAdapter.advance, hret] at hadvance
  · simp [hret] at hpc
  · obtain ⟨-, hsent⟩ := Forwarding.carried_of_redisOk hserde hok hsilent hfwd
    exact ⟨⟨recorded, hdone⟩, e, st, by rw [hsent]; exact he, hst, hiff⟩

/-- When everything is written, the last entry of the stream is the last event that was
sent. -/
lemma Decided.agree_iff {P : Prop} (hd : Decided task P s) (hi : Inv task old s)
    (hover : Over task s) : Agree task s ↔ P := by
  obtain ⟨-, e, st, he, hst, hiff⟩ := hd
  have hcontents : s.fwd.shared.contents task.id = old ++ s.fwd.sentContents task.id := by
    have hcarried := hi.carried
    simpa [Forwarding.carried, SharedEmitter.inTransit, hover.channel, hover.idle, EmitPc.content]
      using hcarried
  obtain ⟨e', he', hkind⟩ : ∃ e', (s.fwd.shared.streams task.id).getLast? = some e' ∧
      e'.kind = e.kind.toString := by
    have hlast := congrArg List.getLast? hcontents
    rw [SharedEmitter.contents, List.getLast?_map, List.getLast?_append, Forwarding.sentContents,
      List.getLast?_map, he, Option.map_some, Option.some_or] at hlast
    obtain ⟨e', he', hcontent⟩ := Option.map_eq_some_iff.1 hlast
    exact ⟨e', he', congrArg Prod.fst hcontent⟩
  rw [← hiff, ← hkind]
  constructor
  · intro h
    obtain ⟨e'', st'', he'', hst'', hagrees⟩ := h hover
    rw [he'] at he''
    rw [hst] at hst''
    cases he''
    cases hst''
    exact hagrees
  · exact fun hagrees _ => ⟨e', st, he', hst, hagrees⟩

/-- **When the stream and the row agree.**  In every run whose mark settles the task, the last
entry of the stream and the row agree when everything is over; after any other mark they never
do. -/
theorem agree_of_settles (L : Libs) (task : Task) (hserde : ∀ v, (L.serdeToString v).isSome = true)
    (hvalid : MockAdapter.validateArgs task.args = .ok ()) :
    (∀ s, (machine L task).Reachable (Settles task) s → Agree task s) ∧
      ∀ s s' s'' now l, (machine L task).Reachable Machine.anyStep s →
        ¬ Settles task s (.exec (.mark, now)) →
        (machine L task).step s (.exec (.mark, now)) = some s' →
        (machine L task).Run Machine.anyStep s' l s'' → Over task s'' → ¬ Agree task s'' := by
  constructor
  · rintro s ⟨s₀, l, h₀, hrun⟩ hover
    have hi : Inv task (s₀.fwd.shared.contents task.id) s ∧
        ((∃ recorded, s.exec.pc = .done recorded) → Decided task True s) := by
      refine hrun.preserves (P := fun s => Inv task (s₀.fwd.shared.contents task.id) s ∧
        ((∃ recorded, s.exec.pc = .done recorded) → Decided task True s)) ?_
        ⟨Begins.inv h₀, ?_⟩
      · rintro s a s' hC ⟨hi, hd⟩ hstep
        refine ⟨hi.step hserde hvalid hstep, ?_⟩
        rintro ⟨recorded, hdone⟩
        rcases done_of_step hvalid hi hstep hdone with hbefore | ⟨now, rfl⟩
        · exact (hd ⟨recorded, hbefore⟩).step hserde hvalid hi hstep
        · obtain ⟨hend, e, st, he, hst, hiff⟩ := decided_of_mark (L := L) hi hstep
          exact ⟨hend, e, st, he, hst, hiff.trans (iff_true_intro hC)⟩
      · rintro ⟨recorded, hdone⟩
        have hpc : s₀.exec.pc = .validating := (Begins.exec h₀).pc
        rw [hpc] at hdone
        cases hdone
    have hdone : ∃ recorded, s.exec.pc = .done recorded := by
      have hreturned := hover.returned
      cases hcase : s.exec.pc with
      | done recorded => exact ⟨recorded, rfl⟩
      | validating | executing | returned | reading | marking =>
        simp [hcase, ExecPc.recorded] at hreturned
    exact ((hi.2 hdone).agree_iff hi.1 hover).2 trivial hover
  · rintro s s' s'' now l ⟨s₀, l₀, h₀, hrun₀⟩ hnot hstep hrun hover hagree
    have hmark : step L task s (.exec (.mark, now)) = some s' := hstep
    have hi : Inv task (s₀.fwd.shared.contents task.id) s :=
      hrun₀.preserves (P := Inv task (s₀.fwd.shared.contents task.id))
        (fun _ _ _ _ hi hstep => hi.step hserde hvalid hstep) (Begins.inv h₀)
    have hend : Inv task (s₀.fwd.shared.contents task.id) s'' ∧
        Decided task (Settles task s (.exec (.mark, now))) s'' := by
      refine hrun.preserves (P := fun s'' => Inv task (s₀.fwd.shared.contents task.id) s'' ∧
        Decided task (Settles task s (.exec (.mark, now))) s'') ?_
        ⟨hi.step hserde hvalid hmark, decided_of_mark (L := L) hi hmark⟩
      rintro s₁ a s₂ - ⟨hi₁, hd⟩ hstep
      exact ⟨hi₁.step hserde hvalid hstep, hd.step hserde hvalid hi₁ hstep⟩
    exact hnot ((hend.2.agree_iff hend.1 hover).1 hagree)

/-! ### Runs that nobody cancels -/

/-- The step does not cancel the task: it is neither the enforcer's nor a command, and no
statement on its row. -/
def leavesAlone (task : Task) : MockStep → Bool
  | .exec (.enforcer, _) | .exec (.command, _) => false
  | .exec (.other st, _) => !st.targets.contains task.id
  | _ => true

/-- The row runs until `execute_task` is over, and the token is not cancelled. -/
structure Untouched (task : Task) (s : MockRun) : Prop where
  inv : ∃ old, Inv task old s
  token : s.exec.token = none
  running : s.exec.pc.recorded = none → Task.rowState s.exec.tasks task.id = some .running

lemma Begins.untouched (h : Begins task s) : Untouched task s where
  inv := ⟨_, h.inv⟩
  token := h.exec.token
  running _ := Task.rowState_eq_some_iff.2 ⟨task, h.exec.row, h.exec.running⟩

lemma Untouched.step {a : MockStep} (hserde : ∀ v, (L.serdeToString v).isSome = true)
    (hvalid : MockAdapter.validateArgs task.args = .ok ()) (ha : leavesAlone task a = true)
    (hi : Untouched task s) (h : step L task s a = some s') : Untouched task s' := by
  obtain ⟨old, hinv⟩ := hi.inv
  have htoken := hi.token
  have hrunning := hi.running
  have hinv' : ∃ old, Inv task old s' := ⟨old, hinv.step hserde hvalid h⟩
  -- before the end the row runs, wherever `execute_task` stands
  have hrow {pc : ExecPc} (hpc : s.exec.pc = pc) (hnone : pc.recorded = none) :
      Task.rowState s.exec.tasks task.id = some .running := hrunning (hpc ▸ hnone)
  rcases step_cases hvalid h with ⟨⟨b, now⟩, exec, rfl, hallowed, hexec, rfl⟩ |
    ⟨now, exec, -, hexec, rfl⟩ | ⟨now, event, pc, fwd, -, -, -, -, rfl⟩ |
    ⟨now, r, exec, -, -, hexec, rfl⟩ | ⟨b, fwd, -, -, -, -, rfl⟩
  · cases Execution.effect_of_move (Execution.move_of_step hexec).2 with
    | other hT =>
      refine ⟨hinv', htoken, fun hpc => ?_⟩
      rw [Task.rowState, Lifecycle.row_of_step hT (by simpa [leavesAlone] using ha)]
      exact hrunning hpc
    | wakes | command => cases ha
    | decideFailed hpc | decideCancelled hpc | decideSucceeded hpc | found hpc =>
      exact ⟨hinv', htoken, fun _ => hrow hpc rfl⟩
    | notFound | marked | notMarked => exact ⟨hinv', htoken, fun hpc => by cases hpc⟩
    | invalid | valid | returned | panicked | databaseFails => cases hallowed
  · cases Execution.effect_of_move (Execution.move_of_step hexec).2 with
    | valid hpc => exact ⟨hinv', htoken, fun _ => hrow hpc rfl⟩
  · exact ⟨hinv', htoken, hrunning⟩
  · cases Execution.effect_of_move (Execution.move_of_step hexec).2 with
    | returned hpc => exact ⟨hinv', htoken, fun _ => hrow hpc rfl⟩
  · exact ⟨hinv', htoken, hrunning⟩

/-- The mark settles a task that nobody has cancelled. -/
lemma Untouched.settles {now : DateTime} (hi : Untouched task s)
    (h : MockRun.step L task s (.exec (.mark, now)) = some s') :
    Settles task s (.exec (.mark, now)) := by
  obtain ⟨old, hinv⟩ := hi.inv
  obtain ⟨op, hpc⟩ : ∃ op, s.exec.pc = .marking op := by
    simp only [MockRun.step] at h
    split at h
    · obtain ⟨exec, hexec, -⟩ := Option.map_eq_some_iff.1 h
      cases Execution.effect_of_move (Execution.move_of_step hexec).2 with
      | marked hpc | notMarked hpc => exact ⟨_, hpc⟩
    · cases h
  have hrow := hi.running (by rw [hpc]; rfl)
  obtain ⟨-, hreturned⟩ := hinv.returned (by simp [hpc])
  rw [hpc] at hreturned
  obtain ⟨-, -, r, ⟨e, he, hkind⟩, -⟩ := hreturned
  have hlast : s.lastSent task = some e.kind := by simp [lastSent, he]
  simp only [Settles, settled, hlast]
  rcases hkind with ⟨hk, -⟩ | ⟨hk, -⟩ | ⟨-, -, htoken⟩
  · simp [hk, hrow, hi.token]
  · simp [hk, hrow]
  · simp [hi.token] at htoken

/-- **Without a cancellation.**  When neither the enforcer nor a command nor the cancel endpoint
cancels the task, its mark settles it, so that the stream and the row agree. -/
theorem reachable_settles (hserde : ∀ v, (L.serdeToString v).isSome = true)
    (hvalid : MockAdapter.validateArgs task.args = .ok ())
    (h : (machine L task).Reachable (fun _ a => leavesAlone task a = true) s) :
    (machine L task).Reachable (Settles task) s := by
  refine h.of_invariant (P := Untouched task) (fun s hs => Begins.untouched hs) ?_
  intro s a s' ha hi hstep
  refine ⟨?_, hi.step hserde hvalid ha hstep⟩
  unfold Settles
  split
  · exact hi.settles (L := L) hstep
  · trivial

/-! ### Two runs -/

/-- The execution of the sample task is about to begin. -/
def sampleStart : MockRun := ⟨Execution.sampleStart, .start, .notStarted, none⟩

lemma begins_sampleStart : Begins Execution.sampleRow sampleStart :=
  ⟨Execution.begins_sampleStart, rfl, rfl, rfl, rfl⟩

/-- The next event of the sample task is written. -/
def writeNext (t : Uuid) : List MockStep :=
  [.forward (.recv t Libs.sampleTime), .forward (.emit (.computeHash t)),
    .forward (.emit (.setPrevHash t)), .forward (.emit (.xadd t true))]

/-- The token is cancelled by the step `a` before the first checkpoint, and the adapter reports
it; the row is marked at the time `now`. -/
def cancelledSteps (a : ExecStep) (now : DateTime) : List MockStep :=
  [.begin 2, .advance 2, .advance 2, .exec (a, now), .advance now, .advance now, .ret now] ++
    writeNext 1 ++ writeNext 1 ++
    [.exec (.decide, now + 10 ^ 9), .exec (.read, now + 10 ^ 9), .exec (.mark, now + 10 ^ 9)]

instance (task : Task) (s : MockRun) : ∀ a, Decidable (Settles task s a)
  | .exec (.mark, _) => inferInstanceAs (Decidable (_ = true))
  | .exec (.other _, _) | .exec (.validateArgs _, _) | .exec (.enforcer, _)
  | .exec (.command, _) | .exec (.adapter _, _) | .exec (.adapterPanics, _)
  | .exec (.decide, _) | .exec (.read, _) | .exec (.databaseFails, _) | .begin _ | .advance _
  | .ret _ | .forward _ => isTrue trivial

/-- The kinds of the last entry, the state of the row, and whether everything is over. -/
def observe (s : MockRun) : Option String × Option TaskState × Bool :=
  ((s.fwd.shared.streams 1).getLast?.map TaskEvent.kind, Task.rowState s.exec.tasks 1,
    s.exec.pc.recorded.isSome && (s.fwd.channel 1).isEmpty && (s.fwd.shared.pcs 1).seq.isNone)

/-- The enforcer cancels the token: the stream says `cancelled`, and the row `Timeout`. -/
theorem agree_of_settles_timeout :
    ∃ s, (machine Libs.sample Execution.sampleRow).exec (Settles Execution.sampleRow) sampleStart
        (cancelledSteps .enforcer (3601 * 10 ^ 9)) = some s ∧
      observe s = (some "cancelled", some .timeout, true) ∧ Agree Execution.sampleRow s := by
  have hrun : ((machine Libs.sample Execution.sampleRow).exec (Settles Execution.sampleRow)
      sampleStart (cancelledSteps .enforcer (3601 * 10 ^ 9))).map observe =
      some (some "cancelled", some .timeout, true) := by decide +kernel
  obtain ⟨s, hs, hobs⟩ := Option.map_eq_some_iff.1 hrun
  exact ⟨s, hs, hobs, (agree_of_settles Libs.sample Execution.sampleRow (fun _ => rfl)
    (by decide)).1 s ⟨sampleStart, _, begins_sampleStart, Machine.run_of_exec hs⟩⟩

/-- A cancel command arrives before the first checkpoint: the stream says `cancelled`, and the
row `Failed`. -/
theorem not_agree_of_command :
    ∃ s, (machine Libs.sample Execution.sampleRow).Reachable Machine.anyStep s ∧
      observe s = (some "cancelled", some .failed, true) ∧ ¬ Agree Execution.sampleRow s := by
  have hrun : ((machine Libs.sample Execution.sampleRow).exec Machine.anyStep sampleStart
      (cancelledSteps .command (10 ^ 9))).map observe =
      some (some "cancelled", some .failed, true) := by decide +kernel
  obtain ⟨s, hs, hobs⟩ := Option.map_eq_some_iff.1 hrun
  refine ⟨s, ⟨sampleStart, _, begins_sampleStart, Machine.run_of_exec hs⟩, hobs, ?_⟩
  simp only [observe, Prod.mk.injEq, Bool.and_eq_true] at hobs
  obtain ⟨hstream, hrow, ⟨hdone, hchannel⟩, hidle⟩ := hobs
  have hidle' : s.fwd.shared.pcs 1 = .idle := by
    generalize s.fwd.shared.pcs 1 = pc at hidle
    cases pc with
    | idle => rfl
    | numbered | hashed | stored => cases hidle
  intro hagree
  obtain ⟨e, st, he, hst, hagrees⟩ := hagree ⟨hdone, List.isEmpty_iff.1 hchannel, hidle'⟩
  -- the last entry and the row are those observed
  have hkind : e.kind = "cancelled" := by
    have hlast : (s.fwd.shared.streams 1).getLast? = some e := he
    rw [hlast] at hstream
    exact Option.some.inj hstream
  have hstate : st = .failed := Option.some.inj (hst.symm.trans hrow)
  rw [hkind, hstate] at hagrees
  simp [Agrees] at hagrees

end MockRun

end AxonTask
