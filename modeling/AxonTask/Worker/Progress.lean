import AxonTask.Api.Endpoints
import AxonTask.Worker.Forwarding
import AxonTask.Worker.Lifecycle

/-!
# The progress of a task (`execute_task`, `TaskQueue::update_last_seq`, `get_task_status`)

After each event that Redis has accepted, the emission loop writes its own count into the
columns `last_seq` and `last_event_id` of the row.  The table `tasks` has no such columns, so
the database rejects the statement, and the loop goes on.  The status endpoint reads the
column `cursor`, which no statement of the worker or of the API writes after the row has been
created.
-/

namespace AxonTask

open Lib

/-! ### Statements and columns -/

/-- The types of the columns. -/
inductive SqlType
  | uuid | text | jsonb | taskState | timestamptz | bigint | integer
deriving DecidableEq, Repr

/-- The columns of the table `tasks`. -/
def Task.columns : List (String × SqlType) :=
  [("id", .uuid), ("tenant_id", .uuid), ("created_by", .uuid), ("name", .text),
    ("adapter", .text), ("args", .jsonb), ("state", .taskState), ("started_at", .timestamptz),
    ("ended_at", .timestamptz), ("cursor", .bigint), ("bytes_streamed", .bigint),
    ("minutes_used", .integer), ("timeout_seconds", .integer), ("error_message", .text),
    ("exit_code", .integer), ("created_at", .timestamptz), ("updated_at", .timestamptz)]

/-- A value that is assigned to a column. -/
inductive SqlValue
  | text (s : String)
  | timestamptz (t : DateTime)
  | bigint (x : Int64)

/-- The type of a value. -/
def SqlValue.type : SqlValue → SqlType
  | text _ => .text
  | timestamptz _ => .timestamptz
  | bigint _ => .bigint

/-- The table has the column, and the value is of its type. -/
def Task.fits (a : String × SqlValue) : Bool := decide (columns.lookup a.1 = some a.2.type)

/-- The row after an assignment to a column. -/
def Task.setColumn (t : Task) : String × SqlValue → Task
  | ("name", .text s) => { t with name := s }
  | ("adapter", .text s) => { t with adapter := s }
  | ("error_message", .text s) => { t with errorMessage := some s }
  | ("started_at", .timestamptz x) => { t with startedAt := some x }
  | ("ended_at", .timestamptz x) => { t with endedAt := some x }
  | ("created_at", .timestamptz x) => { t with createdAt := x }
  | ("updated_at", .timestamptz x) => { t with updatedAt := x }
  | ("cursor", .bigint x) => { t with cursor := x }
  | ("bytes_streamed", .bigint x) => { t with bytesStreamed := x }
  | _ => t

lemma Task.id_setColumn (t : Task) (a : String × SqlValue) : (t.setColumn a).id = t.id := by
  unfold setColumn
  split <;> rfl

lemma Task.id_foldl_setColumn (set : List (String × SqlValue)) (t : Task) :
    (set.foldl setColumn t).id = t.id := by
  induction set generalizing t with
  | nil => rfl
  | cons a set ih => exact (ih _).trans (t.id_setColumn a)

/-- Why the database rejects a statement. -/
inductive StatementError
  /-- The statement does not fit the columns of the table. -/
  | schema
  | violated (v : Violation)
deriving DecidableEq

/-- `UPDATE tasks SET … WHERE id = $1`: a statement that does not fit the columns is rejected
before any row is looked at. -/
def Task.updateColumns (T : TaskTable) (id : Uuid) (set : List (String × SqlValue)) :
    Except StatementError TaskTable :=
  if set.all fits then
    match T.updateKey id (fun _ => true) (fun t => set.foldl setColumn t)
        (id_foldl_setColumn set) with
    | .ok (_, T') => .ok T'
    | .error v => .error (.violated v)
  else .error .schema

/-- `TaskQueue::update_last_seq`. -/
def TaskQueue.updateLastSeq (T : TaskTable) (taskId : Uuid) (seq : Int64) (eventId : String)
    (now : DateTime) : Except StatementError TaskTable :=
  Task.updateColumns T taskId
    [("last_seq", .bigint seq), ("last_event_id", .text eventId), ("updated_at", .timestamptz now)]

/-- The table has no column `last_seq`. -/
lemma TaskQueue.updateLastSeq_eq (T : TaskTable) (taskId : Uuid) (seq : Int64) (eventId : String)
    (now : DateTime) : updateLastSeq T taskId seq eventId now = .error .schema := rfl

/-- The column that the status endpoint reads would take the number. -/
example : Task.fits ("cursor", .bigint 1) = true := by decide

/-! ### The emission loops and the table -/

/-- The emission loops of a worker with the table. -/
structure Progress where
  fwd : Forwarding
  tasks : TaskTable
  /-- The counter `seq` of the emission loop of a task. -/
  counter : Uuid → Int64
  /-- The stream id of an event that was appended and is to be recorded. -/
  toRecord : Uuid → Option String

/-- A step of an execution, of an emission loop or of another process. -/
inductive ProgressStep
  /-- `execute_task` spawns the emission loop of a task. -/
  | spawn (taskId : Uuid)
  /-- A step up to the answer of Redis, which names the stream id if it accepts the event. -/
  | forward (a : ForwardStep) (streamId : String)
  /-- The call of `update_last_seq`. -/
  | record (taskId : Uuid) (now : DateTime)
  /-- A statement of a worker or of the API. -/
  | statement (st : Statement) (now : DateTime)

namespace Progress

/-- The task whose emission loop makes a step. -/
def loopOf : ForwardStep → Option Uuid
  | .send .. => none
  | .recv t _ => some t
  | .emit b => some b.task

/-- The task to whose stream a step appends. -/
def appendsTo : ForwardStep → Option Uuid
  | .emit (.xadd t true) => some t
  | _ => none

/-- `Task::update_stats`, which nothing in the worker or in the API calls. -/
def isUpdateStats : Statement → Bool
  | .update (.updateStats _) _ => true
  | _ => false

/-- The table after a call of `update_last_seq`; an error is logged. -/
def recorded (s : Progress) (t : Uuid) (streamId : String) (now : DateTime) : TaskTable :=
  match TaskQueue.updateLastSeq s.tasks t (s.counter t) streamId now with
  | .ok T => T
  | .error _ => s.tasks

/-- A step. -/
def step (L : Libs) (s : Progress) : ProgressStep → Option Progress
  | .spawn t => some { s with counter := Function.update s.counter t 0 }
  | .forward a streamId =>
    -- a loop that is about to record an event does nothing else
    if (loopOf a).all fun t => (s.toRecord t).isNone then
      (s.fwd.step L a).map fun fwd =>
        match appendsTo a with
        | some t => { s with fwd, toRecord := Function.update s.toRecord t (some streamId) }
        | none => { s with fwd }
    else none
  | .record t now =>
    (s.toRecord t).map fun streamId =>
      { s with
        tasks := s.recorded t streamId now
        counter := Function.update s.counter t (s.counter t + 1)
        toRecord := Function.update s.toRecord t none }
  | .statement st now =>
    if isUpdateStats st then none
    else (Lifecycle.step s.tasks (st, now)).map fun tasks => { s with tasks }

/-- A fresh worker and an empty table. -/
def start : Progress := ⟨.start, Table.empty Task.schema, fun _ => 0, fun _ => none⟩

/-- The emission loops of a worker with the table. -/
def machine (L : Libs) : Machine Progress ProgressStep where
  Init s := s = start
  step := step L

/-- The row of a task has `seq` as its last sequence number, and the status endpoint says
so. -/
def Records (s : Progress) (t : Uuid) (seq : Int64) : Prop :=
  ∀ row, s.tasks.row t = some row → row.cursor = seq ∧
    ∀ env (auth : AuthContext) (db : Api.Database), db.tasks = s.tasks →
      auth.tenantId = row.tenantId →
      (Api.getTaskStatus env auth t db).map (fun r => r.1.lastSeq) = .ok (some seq)

/-- Whatever event was appended last to the stream of a task, once it is handled the row
records its number. -/
def Tracks (s : Progress) : Prop :=
  ∀ t e, (s.fwd.shared.streams t).getLast? = some e → s.toRecord t = none → s.Records t e.seq

/-- The event that is appended has the number 0. -/
def First (s : Progress) : ProgressStep → Prop
  | .forward (.emit (.xadd t true)) _ => ∀ e, s.fwd.shared.pcs t = .stored e → e.seq = 0
  | _ => True

variable {L : Libs} {s s' : Progress}

/-! ### The column `cursor` -/

/-- The rows have the cursor with which they were created. -/
def CursorsZero (T : TaskTable) : Prop := ∀ id t, T.row id = some t → t.cursor = 0

/-- No statement but `update_stats` writes the column. -/
lemma CursorsZero.step {T T' : TaskTable} {st : Statement} {now : DateTime} (hz : CursorsZero T)
    (hst : isUpdateStats st = false) (h : Lifecycle.step T (st, now) = some T') :
    CursorsZero T' := by
  intro id t' ht'
  rcases Lifecycle.row_cases_applies h id with
    hsame | ⟨data, -, -, hnew⟩ | ⟨-, hnone⟩ | ⟨u, t, hu, ht, -, -, hset⟩
  · exact hz id t' (hsame.symm.trans ht')
  · obtain rfl := Option.some.inj (hnew.symm.trans ht')
    rfl
  · cases hnone.symm.trans ht'
  · obtain rfl := Option.some.inj (hset.symm.trans ht')
    have hcursor := hz id t ht
    rcases hu with ⟨ids, -, rfl⟩ | ⟨op, rfl, rfl⟩
    · exact hcursor
    · cases op with
      | updateStats => cases hst
      | transitionToRunning | transitionToSucceeded | transitionToFailed
      | transitionToCanceled | transitionToTimeout | markSucceeded | markFailed
      | markTimeout => exact hcursor

/-- What is recorded of a task is the number 0. -/
lemma CursorsZero.records_iff (hz : CursorsZero s.tasks) {t : Uuid} {row : Task}
    (hrow : s.tasks.row t = some row) (seq : Int64) : s.Records t seq ↔ seq = 0 := by
  have hcursor := hz t row hrow
  constructor
  · intro h
    exact (h row hrow).1.symm.trans hcursor
  · rintro rfl row' hrow'
    obtain rfl := Option.some.inj (hrow.symm.trans hrow')
    refine ⟨hcursor, ?_⟩
    intro env auth db hdb hauth
    have hfind : Task.findByIdAndTenant db.tasks t auth.tenantId = some row := by
      simp [Task.findByIdAndTenant, hdb, hrow, hauth]
    simp [Api.getTaskStatus, Api.findTask, hfind, Except.map, Api.statusOf, hcursor]

/-! ### The runs -/

/-- The streams are changed by an accepted `XADD` only. -/
lemma streams_emit {e₁ e₂ : SharedEmitter} {a : EmitStep} (h : e₁.step L a = some e₂) (t : Uuid) :
    e₂.streams t = e₁.streams t ∨
      ∃ e, a = .xadd t true ∧ e₁.pcs t = .stored e ∧ e₂.streams t = e₁.streams t ++ [e] := by
  cases a with
  | nextSeq u event ts | computeHash u | setPrevHash u =>
    simp only [SharedEmitter.step] at h
    repeat' split at h
    all_goals cases h <;> exact Or.inl rfl
  | xadd u accepted =>
    simp only [SharedEmitter.step] at h
    split at h
    · rename_i e hpc
      cases h
      cases accepted with
      | false => exact Or.inl rfl
      | true =>
        by_cases ht : t = u
        · subst ht
          exact Or.inr ⟨e, rfl, hpc, by simp [SharedEmitter.setPc]⟩
        · exact Or.inl (by simp [SharedEmitter.setPc, Function.update_of_ne ht])
    · cases h

lemma streams_step {f f' : Forwarding} {a : ForwardStep} (h : f.step L a = some f') (t : Uuid) :
    f'.shared.streams t = f.shared.streams t ∨
      ∃ e, a = .emit (.xadd t true) ∧ f.shared.pcs t = .stored e ∧
        f'.shared.streams t = f.shared.streams t ++ [e] := by
  rcases Forwarding.step_cases h with ⟨u, event, rfl, rfl⟩ |
    ⟨u, ts, event, rest, shared, rfl, -, hs, rfl⟩ | ⟨b, shared, rfl, -, hs, rfl⟩
  · exact Or.inl rfl
  · rcases streams_emit hs t with hsame | ⟨e, hxadd, -⟩
    · exact Or.inl hsame
    · cases hxadd
  · rcases streams_emit hs t with hsame | ⟨e, rfl, hpc, hstream⟩
    · exact Or.inl hsame
    · exact Or.inr ⟨e, rfl, hpc, hstream⟩

/-- **Inversion of a step.**  The table changes by the statements only, and the streams by
the answers of Redis only. -/
lemma step_cases {a : ProgressStep} (h : step L s a = some s') :
    (s'.tasks = s.tasks ∧ s'.fwd = s.fwd) ∨
    (s'.tasks = s.tasks ∧ ∃ b streamId, a = .forward b streamId ∧ s.fwd.step L b = some s'.fwd) ∨
    (s'.fwd = s.fwd ∧ ∃ st now, isUpdateStats st = false ∧
      Lifecycle.step s.tasks (st, now) = some s'.tasks) := by
  cases a with
  | spawn t =>
    cases h
    exact Or.inl ⟨rfl, rfl⟩
  | forward b streamId =>
    simp only [step] at h
    split at h
    · obtain ⟨fwd, hfwd, rfl⟩ := Option.map_eq_some_iff.1 h
      refine Or.inr (Or.inl ?_)
      cases happ : appendsTo b with
      | none => exact ⟨rfl, b, streamId, rfl, hfwd⟩
      | some t => exact ⟨rfl, b, streamId, rfl, hfwd⟩
    · cases h
  | record t now =>
    -- the statement of the loop is rejected
    obtain ⟨streamId, -, rfl⟩ := Option.map_eq_some_iff.1 h
    exact Or.inl ⟨by simp [recorded, TaskQueue.updateLastSeq_eq], rfl⟩
  | statement st now =>
    simp only [step] at h
    split at h
    · cases h
    · rename_i hst
      obtain ⟨tasks, htasks, rfl⟩ := Option.map_eq_some_iff.1 h
      exact Or.inr (Or.inr ⟨rfl, st, now, by simpa using hst, htasks⟩)

lemma cursorsZero_of_reachable {C : Progress → ProgressStep → Prop}
    (h : (machine L).Reachable C s) : CursorsZero s.tasks := by
  refine h.invariant (P := fun s => CursorsZero s.tasks) ?_ ?_
  · rintro s rfl id t ht
    cases ht
  · intro s a s' _ hz hstep
    rcases step_cases hstep with ⟨htasks, -⟩ | ⟨htasks, -⟩ | ⟨-, st, now, hst, hlife⟩
    · rwa [htasks]
    · rwa [htasks]
    · exact hz.step hst hlife

/-- In a run whose appended events have the number 0, all entries have it. -/
lemma seq_eq_zero_of_first (h : (machine L).Reachable First s) (t : Uuid) :
    ∀ e ∈ s.fwd.shared.streams t, e.seq = 0 := by
  refine h.invariant (P := fun s => ∀ e ∈ s.fwd.shared.streams t, e.seq = 0) ?_ ?_
  · rintro s rfl e he
    cases he
  · intro s a s' hC hall hstep
    rcases step_cases hstep with ⟨-, hfwd⟩ | ⟨-, b, streamId, rfl, hfwd⟩ | ⟨hfwd, -⟩
    · rwa [hfwd]
    · rcases streams_step hfwd t with hsame | ⟨e, rfl, hpc, hstream⟩
      · rwa [hsame]
      · rw [hstream]
        intro e' he'
        rcases List.mem_append.1 he' with he' | he'
        · exact hall e' he'
        · obtain rfl := List.mem_singleton.1 he'
          exact hC _ hpc
    · rwa [hfwd]

/-- **When the progress of a task is recorded.**  In every run in which only events with the
number 0 are appended, the row and the status endpoint show the number of the last event that
was handled; and in every run a row shows the number of the last event exactly when it is
0. -/
theorem tracks_of_first (L : Libs) :
    (∀ s, (machine L).Reachable First s → Tracks s) ∧
      ∀ s, (machine L).Reachable Machine.anyStep s → ∀ t row e, s.tasks.row t = some row →
        (s.fwd.shared.streams t).getLast? = some e → s.toRecord t = none →
        (s.Records t e.seq ↔ e.seq = 0) := by
  refine ⟨?_, fun s h t row e hrow _ _ => (cursorsZero_of_reachable h).records_iff hrow e.seq⟩
  intro s h t e hlast _ row hrow
  have hseq := seq_eq_zero_of_first h t e (List.mem_of_getLast? hlast)
  exact ((cursorsZero_of_reachable h).records_iff hrow e.seq).2 hseq row hrow

/-! ### Two runs -/

/-- The steps by which an event of the task 1 is sent, appended and handled. -/
def handleSteps (event : AdapterEvent) : List ProgressStep :=
  (Forwarding.forwardSteps 1 Libs.sampleTime event).map (fun a => .forward a "1-0") ++ [.record 1 2]

/-- The task 1 is created and claimed, and its execution is spawned. -/
def beginSteps : List ProgressStep :=
  [.statement (.create Lifecycle.sampleTask 1) 0, .statement (.claim [1]) 1, .spawn 1]

instance (s : Progress) : ∀ a, Decidable (First s a)
  | .forward (.emit (.xadd t true)) _ =>
    match h : s.fwd.shared.pcs t with
    | .stored e => decidable_of_iff (e.seq = 0) (by simp [First, h])
    | .idle | .numbered .. | .hashed _ => isTrue (by simp [First, h])
  | .forward (.emit (.xadd _ false)) _ | .forward (.emit (.nextSeq ..)) _
  | .forward (.emit (.computeHash _)) _ | .forward (.emit (.setPrevHash _)) _
  | .forward (.send ..) _ | .forward (.recv ..) _ | .spawn _ | .record .. | .statement .. =>
    isTrue trivial

/-- The last sequence numbers of the stream and of the row of the task 1. -/
def observe (s : Progress) : Option Int64 × Option Int64 × Bool :=
  ((s.fwd.shared.streams 1).getLast?.map TaskEvent.seq, (s.tasks.row 1).map Task.cursor,
    (s.toRecord 1).isNone)

/-- The first event of a worker. -/
theorem tracks_of_first_oneEvent :
    ∃ s, (machine Libs.sample).exec First start
        (beginSteps ++ handleSteps (.started (.object []))) = some s ∧
      observe s = (some 0, some 0, true) ∧ Tracks s := by
  have hrun : ((machine Libs.sample).exec First start
      (beginSteps ++ handleSteps (.started (.object [])))).map observe =
      some (some 0, some 0, true) := by decide +kernel
  obtain ⟨s, hs, hobs⟩ := Option.map_eq_some_iff.1 hrun
  exact ⟨s, hs, hobs,
    (tracks_of_first Libs.sample).1 s ⟨start, _, rfl, Machine.run_of_exec hs⟩⟩

/-- After the second event, with the number 1, the row and the endpoint still say 0. -/
theorem not_tracks_of_secondEvent :
    ∃ s, (machine Libs.sample).Reachable Machine.anyStep s ∧
      observe s = (some 1, some 0, true) ∧ ¬ Tracks s := by
  have hrun : ((machine Libs.sample).exec Machine.anyStep start
      (beginSteps ++ handleSteps (.started (.object [])) ++ handleSteps .cancelled)).map observe =
      some (some 1, some 0, true) := by decide +kernel
  obtain ⟨s, hs, hobs⟩ := Option.map_eq_some_iff.1 hrun
  refine ⟨s, ⟨start, _, rfl, Machine.run_of_exec hs⟩, hobs, ?_⟩
  simp only [observe, Prod.mk.injEq] at hobs
  obtain ⟨hlast, hcursor, hhandled⟩ := hobs
  obtain ⟨e, he, hseq⟩ := Option.map_eq_some_iff.1 hlast
  obtain ⟨row, hrow, hzero⟩ := Option.map_eq_some_iff.1 hcursor
  intro h
  have hrecorded := (h 1 e he (Option.isNone_iff_eq_none.1 hhandled) row hrow).1
  rw [hseq, hzero] at hrecorded
  exact absurd hrecorded (by decide)

end Progress

end AxonTask
