import AxonTask.Api.Router
import AxonTask.Worker.Lifecycle

/-!
# The service

The API processes and the workers on one database: the requests that have passed the
authentication, the statements of the workers and the deletions of tasks, one at a time and in
any order.  To the table `tasks`, each of them is a statement or nothing.
-/

namespace AxonTask.Api

open Lib

/-- The database, and what has been answered to whom. -/
structure Service where
  db : Database
  answers : List (Uuid × Except ApiError ApiResponse)

/-- A request that has passed the authentication, or a statement on `tasks`. -/
inductive ServiceOp
  | request (env : Surroundings) (auth : AuthContext) (req : ApiRequest)
  /-- `TaskQueue::claim_tasks`, when its CTE has locked the pending rows `ids`. -/
  | claim (ids : List Uuid) (now : DateTime)
  | update (op : RowOp) (id : Uuid) (now : DateTime)
  /-- `Task::delete`. -/
  | delete (id : Uuid)

/-- The id that is generated for a task. -/
def ServiceOp.newTask : ServiceOp → Option Uuid
  | request env _ _ => some env.id
  | claim .. | update .. | delete _ => none

namespace Service

variable (L : Libs)

/-- The state after an operation. -/
def step (s : Service) : ServiceOp → Option Service
  | .request env auth req =>
    (serve L env auth req s.db).map fun (r, db) => ⟨db, s.answers ++ [(auth.tenantId, r)]⟩
  | .claim ids now =>
    (Lifecycle.step s.db.tasks (.claim ids, now)).map fun tasks =>
      { s with db := { s.db with tasks } }
  | .update op id now =>
    (Lifecycle.step s.db.tasks (.update op id, now)).map fun tasks =>
      { s with db := { s.db with tasks } }
  | .delete id => some { s with db := { s.db with tasks := (Task.delete s.db.tasks id).2 } }

/-- Requests and statements in any order, on any database. -/
def machine : Machine Service ServiceOp where
  Init _ := True
  step := step L

end Service

/-! ### What a request does to the tasks -/

section Requests

variable {L : Libs} {env : Surroundings} {auth : AuthContext} {db db' : Database}
  {r : Except ApiError ApiResponse}

/-- The tasks are the same, or a statement has changed them that creates none but with the
given id. -/
def OneStatement (newTask : Option Uuid) (T T' : TaskTable) : Prop :=
  T' = T ∨ ∃ st now, Lifecycle.step T (st, now) = some T' ∧
    ∀ data id, st = .create data id → newTask = some id

lemma oneStatement_startTask {req : StartTaskRequest} {resp : StartTaskResponse}
    (h : startTask env auth req db = .ok (resp, db')) :
    OneStatement (some env.id) db.tasks db'.tasks := by
  unfold startTask at h
  split at h
  · split at h
    · cases h
    · split at h
      · cases h
      · split at h
        · obtain ⟨⟨resp', tasks⟩, hinsert, heq⟩ := map_eq_ok h
          cases heq
          obtain ⟨htable, -⟩ := StartTask.insert_eq_ok hinsert
          refine Or.inr ⟨.create (StartTask.createTask auth req) env.id, env.clock 2, ?_, ?_⟩
          · rw [Lifecycle.step, Task.create, htable]
            rfl
          · rintro _ _ ⟨⟩
            rfl
        · cases h
  · cases h

lemma oneStatement_cancelTask {taskId : Uuid} {resp : CancelTaskResponse}
    (h : cancelTask env auth taskId db = .ok (resp, db')) :
    OneStatement (some env.id) db.tasks db'.tasks := by
  unfold cancelTask at h
  split at h
  · cases h
  · cases h
    exact Or.inl rfl
  · split at h
    · rename_i hexec
      cases h
      refine Or.inr ⟨.update .transitionToCanceled taskId, env.clock 0, ?_, by simp⟩
      rw [Lifecycle.step, RowOp.update, hexec]
    · cases h

lemma tasks_createApiKey {req : CreateApiKeyRequest} {resp : CreateApiKeyResponse}
    (h : createApiKey L env auth req db = .ok (resp, db')) : db'.tasks = db.tasks := by
  simp only [createApiKey] at h
  split at h
  · split at h
    · cases h
    · split at h
      · cases h
      · cases h
        rfl
  · cases h

lemma tasks_revokeApiKey {id : Uuid} {revoked : Bool}
    (h : revokeApiKey env auth id db = .ok (revoked, db')) : db'.tasks = db.tasks := by
  unfold revokeApiKey at h
  split at h
  · cases h
  · cases h
  · cases h
    rfl

/-- A request is refused by the rate limit, or its handler answers it. -/
lemma handle_of_serve {req : ApiRequest} (h : serve L env auth req db = some (r, db')) :
    (∃ e, r = .error e ∧ db' = db) ∨ handle L env auth db req = some (r, db') := by
  unfold serve at h
  split at h
  · split at h
    · cases h
      exact Or.inl ⟨_, rfl, rfl⟩
    · exact Or.inr h
  · exact Or.inr h

/-- **What a request does to the tasks.** -/
lemma oneStatement_serve {req : ApiRequest} (h : serve L env auth req db = some (r, db')) :
    OneStatement (some env.id) db.tasks db'.tasks := by
  have hsame : ∀ {d : Database}, d = db → OneStatement (some env.id) db.tasks d.tasks := by
    rintro d rfl
    exact Or.inl rfl
  rcases handle_of_serve h with ⟨-, -, heq⟩ | h
  · exact hsame heq
  by_cases hwrite : req.isWrite = true
  · cases req with
    | startTask req =>
      exact (outcome_cases h).elim hsame fun ⟨_, ho⟩ => oneStatement_startTask ho
    | cancelTask taskId =>
      exact (outcome_cases h).elim hsame fun ⟨_, ho⟩ => oneStatement_cancelTask ho
    | createApiKey req =>
      exact (outcome_cases h).elim hsame fun ⟨_, ho⟩ => Or.inl (tasks_createApiKey ho)
    | revokeApiKey id =>
      exact (outcome_cases h).elim hsame fun ⟨_, ho⟩ => Or.inl (tasks_revokeApiKey ho)
    | getTaskStatus | streamTask | resumeTask | listApiKeys => cases hwrite
  · exact (handle_cases h).elim hsame fun hchange => absurd hchange.1 hwrite

/-- The status that a request is answered with is that of a task of the tenant. -/
lemma status_of_serve {req : ApiRequest} {status : TaskStatusResponse}
    (h : serve L env auth req db = some (.ok (.taskStatus status), db')) :
    db' = db ∧ ∃ task ∈ db.tasks.rows, task.tenantId = auth.tenantId ∧
      status = statusOf task (env.clock 0) := by
  have hok : ∀ {α : Type} {response : α → ApiResponse} {o : Except ApiError (α × Database)},
      some (outcome response db o) = some (.ok (.taskStatus status), db') →
      ∃ a, o = .ok (a, db') ∧ response a = .taskStatus status := by
    intro α response o heq
    cases o with
    | error e => cases heq
    | ok result =>
      obtain ⟨hresponse, rfl⟩ := Prod.mk.inj (Option.some.inj heq)
      exact ⟨result.1, rfl, Except.ok.inj hresponse⟩
  rcases handle_of_serve h with ⟨e, he, -⟩ | h
  · cases he
  cases req with
  | getTaskStatus taskId =>
    obtain ⟨_, ho, hresponse⟩ := hok h
    cases hresponse
    obtain ⟨task, hfind, heq⟩ := map_eq_ok ho
    cases heq
    unfold findTask at hfind
    split at hfind
    · rename_i found hrow
      cases hfind
      obtain ⟨hrow, hown⟩ := Option.filter_eq_some_iff.1 hrow
      exact ⟨rfl, task, Table.mem_of_row hrow, of_decide_eq_true hown, rfl⟩
    · cases hfind
  | listApiKeys =>
    obtain ⟨o, -, heq⟩ := Option.map_eq_some_iff.1 h
    cases heq
  | startTask | cancelTask | streamTask | resumeTask | createApiKey | revokeApiKey =>
    obtain ⟨_, -, hresponse⟩ := hok h
    cases hresponse

end Requests

/-! ### What an operation does to the tasks -/

/-- **Inversion of an operation**, on the table `tasks`. -/
lemma Service.oneStatement_step {L : Libs} {s s' : Service} {a : ServiceOp}
    (h : Service.step L s a = some s') : OneStatement a.newTask s.db.tasks s'.db.tasks := by
  cases a with
  | request env auth req =>
    obtain ⟨⟨r, db⟩, hserve, rfl⟩ := Option.map_eq_some_iff.1 h
    exact oneStatement_serve hserve
  | claim ids now =>
    obtain ⟨T, hT, rfl⟩ := Option.map_eq_some_iff.1 h
    exact Or.inr ⟨_, _, hT, by simp⟩
  | update op id now =>
    obtain ⟨T, hT, rfl⟩ := Option.map_eq_some_iff.1 h
    exact Or.inr ⟨_, _, hT, by simp⟩
  | delete id =>
    cases h
    exact Or.inr ⟨.delete id, 0, rfl, by simp⟩

end AxonTask.Api
