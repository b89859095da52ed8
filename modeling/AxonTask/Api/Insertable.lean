import AxonTask.Api.TenantIsolation

/-!
# What is accepted can be inserted (`routes/mcp/start_task.rs` of `axontask-api`)

The validator of `start_task` and the types and constraints of the table `tasks` are written in
two languages.  They agree about lengths and timeouts; about the character U+0000, which Postgres
stores in no text, the validator says nothing.
-/

namespace AxonTask.Api

open Lib

/-- The request is accepted: it is valid, its tenant and user are there, no quota is exceeded, and
the generated id is new. -/
structure AcceptedRequest (env : Surroundings) (auth : AuthContext) (r : StartTaskRequest)
    (db : Database) : Prop where
  valid : StartTask.validate r = []
  references : referencesOk db auth = true
  concurrentTasks :
    StartTask.checkQuota db.tenants db.tasks (env.clock 0) auth .concurrentTasks = .ok ()
  dailyTasks : StartTask.checkQuota db.tenants db.tasks (env.clock 1) auth .dailyTasks = .ok ()
  fresh : db.tasks.row env.id = none

/-- The row of the request is inserted, and the answer is no internal error. -/
structure Insertable (env : Surroundings) (auth : AuthContext) (r : StartTaskRequest)
    (db : Database) : Prop where
  created : ∃ task T', Task.create db.tasks (StartTask.createTask auth r) env.id (env.clock 2) =
    .ok (task, T')
  answered : ∀ e, respond (startTask env auth r db) = .error e → e.status ≠ 500

/-- No text of the request has the character U+0000. -/
structure HasNoNul (r : StartTaskRequest) : Prop where
  name : hasNul r.name = false
  adapter : hasNul r.adapter = false
  args : r.args.hasNul = false

section Accepted

variable {env : Surroundings} {auth : AuthContext} {r : StartTaskRequest} {db : Database}

/-- What the validator has checked. -/
lemma bounds_of_validate (h : StartTask.validate r = []) :
    r.name.length ≤ 255 ∧ r.adapter.length ≤ 50 ∧
      1 ≤ r.timeoutS.getD 3600 ∧ r.timeoutS.getD 3600 ≤ 86400 := by
  simp only [StartTask.validate, List.append_eq_nil_iff, ite_eq_left_iff, List.cons_ne_nil,
    imp_false, not_not, StartTask.lengthOk, Bool.and_eq_true, decide_eq_true_eq] at h
  obtain ⟨⟨hname, hadapter⟩, htimeout⟩ := h
  refine ⟨hname.2, hadapter.2, ?_⟩
  cases htimeoutS : r.timeoutS with
  | none => exact ⟨by decide, by decide⟩
  | some t => simpa [htimeoutS] using htimeout

/-- **The validator and the schema**: a valid request is stored when no text of it has the character
U+0000. -/
lemma check_new_iff (hvalid : StartTask.validate r = []) (id : Uuid) (now : DateTime) :
    Task.schema.check (Task.new (StartTask.createTask auth r) id now) = true ↔ HasNoNul r := by
  obtain ⟨hname, hadapter, hmin, hmax⟩ := bounds_of_validate hvalid
  have htexts : (Task.new (StartTask.createTask auth r) id now).textsOk = true ↔ HasNoNul r := by
    simp only [Task.textsOk, Task.new, StartTask.createTask, hname, hadapter, decide_true,
      Bool.and_eq_true, Bool.not_eq_true', Option.any_none, true_and, and_true]
    constructor
    · rintro ⟨⟨hn, ha⟩, hargs⟩
      exact ⟨hn, ha, hargs⟩
    · rintro ⟨hn, ha, hargs⟩
      exact ⟨⟨hn, ha⟩, hargs⟩
  rw [← htexts]
  simp [Task.schema, Task.new, StartTask.createTask, Task.endedAfterStarted, hmin, hmax]

/-- The insertion is what remains to be done for an accepted request. -/
lemma startTask_of_accepted (h : AcceptedRequest env auth r db) :
    startTask env auth r db =
      (StartTask.insert db.tasks auth r env.id (env.clock 2)).map fun (resp, tasks) =>
        (resp, { db with tasks }) := by
  simp only [startTask, h.valid, List.isEmpty_nil, h.concurrentTasks, h.dailyTasks, h.references,
    if_true]

/-- A row that leaves the types of its columns is not inserted. -/
lemma hasNoNul_of_create (h : AcceptedRequest env auth r db) {task : Task} {T' : TaskTable}
    (hcreate : Task.create db.tasks (StartTask.createTask auth r) env.id (env.clock 2) =
      .ok (task, T')) : HasNoNul r := by
  obtain ⟨T₁, hinsert, -⟩ := map_eq_ok hcreate
  exact (check_new_iff h.valid env.id (env.clock 2)).1 (Table.insert_eq_ok hinsert).1

/-- **When an accepted request is inserted**: when no text of it has the character U+0000. -/
theorem insertable_iff (h : AcceptedRequest env auth r db) :
    Insertable env auth r db ↔ HasNoNul r := by
  constructor
  · rintro ⟨⟨task, T', hcreate⟩, -⟩
    exact hasNoNul_of_create h hcreate
  · intro hnul
    have hcheck : Task.schema.check
        (Task.new (StartTask.createTask auth r) env.id (env.clock 2)) = true :=
      (check_new_iff h.valid env.id (env.clock 2)).2 hnul
    obtain ⟨T', hinsert⟩ := Table.exists_insert hcheck h.fresh
    have hcreate : Task.create db.tasks (StartTask.createTask auth r) env.id (env.clock 2) =
        .ok (Task.new (StartTask.createTask auth r) env.id (env.clock 2), T') := by
      rw [Task.create, hinsert]
      rfl
    refine ⟨⟨_, T', hcreate⟩, ?_⟩
    intro e he
    rw [startTask_of_accepted h, StartTask.insert, hcreate] at he
    cases he

/-- The answer to another accepted request is an internal error. -/
lemma respond_of_not_hasNoNul (h : AcceptedRequest env auth r db) (hnul : ¬ HasNoNul r) :
    respond (startTask env auth r db) =
      .error (ApiError.internalError "Failed to create task").intoResponse := by
  have hinsert : StartTask.insert db.tasks auth r env.id (env.clock 2) =
      .error (.internalError "Failed to create task") := by
    rw [StartTask.insert]
    cases hcreate : Task.create db.tasks (StartTask.createTask auth r) env.id (env.clock 2) with
    | error v => rfl
    | ok created => exact absurd (hasNoNul_of_create h hcreate) hnul
  rw [startTask_of_accepted h, hinsert]
  rfl

end Accepted

/-- An accepted request without the character. -/
theorem insertable_iff_sample : Insertable sampleSurroundings (.fromJwt 3 7)
    QuotaRace.sampleRequest (sampleDatabase sampleAlone) :=
  (insertable_iff ⟨by decide, by decide +kernel, rfl, rfl, rfl⟩).2
    ⟨by decide, by decide, by decide⟩

/-- A request whose name has the character. -/
def nulRequest : StartTaskRequest :=
  { QuotaRace.sampleRequest with name := String.ofList ['a', Char.ofNat 0] }

/-- It is accepted, and the answer has the status 500. -/
theorem not_insertable_nul :
    AcceptedRequest sampleSurroundings (.fromJwt 3 7) nulRequest (sampleDatabase sampleAlone) ∧
      ¬ Insertable sampleSurroundings (.fromJwt 3 7) nulRequest (sampleDatabase sampleAlone) := by
  have haccepted : AcceptedRequest sampleSurroundings (.fromJwt 3 7) nulRequest
      (sampleDatabase sampleAlone) := ⟨by decide +kernel, by decide +kernel, rfl, rfl, rfl⟩
  have hnul : ¬ HasNoNul nulRequest := fun h => absurd h.name (by decide +kernel)
  refine ⟨haccepted, ?_⟩
  intro h
  exact h.answered _ (respond_of_not_hasNoNul haccepted hnul) rfl

end AxonTask.Api
