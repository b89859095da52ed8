import AxonTask.Api.Error
import AxonTask.Shared.Quota
import AxonTask.Shared.Serialization

/-!
# The start endpoint (`axontask-api/src/routes/mcp/start_task.rs`)

`start_task` validates the request, checks two quotas and inserts the task: four steps, of
which the last three are statements of their own.
-/

namespace AxonTask.Api

open Lib

/-- `StartTaskRequest`, but for the tags, which the handler does not read. -/
structure StartTaskRequest where
  name : String
  adapter : String
  args : JsonValue
  timeoutS : Option Int32

/-- `StartTaskResponse`. -/
structure StartTaskResponse where
  taskId : Uuid
  streamUrl : String
  status : String
  createdAt : DateTime
  timeoutS : Option Int32
deriving DecidableEq, Repr

namespace StartTask

/-- The detail of a field whose check has failed. -/
def detail (field : String) : ValidationErrorDetail :=
  ⟨field, "Validation failed for " ++ field⟩

/-- The number of characters is in the range. -/
def lengthOk (s : String) (min max : ℕ) : Bool :=
  decide (min ≤ s.length) && decide (s.length ≤ max)

/-- `StartTaskRequest::validate`, with the details of the handler.  The order of the details
is the one of a `HashMap` and is not modelled. -/
def validate (r : StartTaskRequest) : List ValidationErrorDetail :=
  (if lengthOk r.name 1 255 then [] else [detail "name"]) ++
    (if lengthOk r.adapter 1 50 then [] else [detail "adapter"]) ++
    if r.timeoutS.all fun t => decide (1 ≤ t) && decide (t ≤ 86400) then []
      else [detail "timeout_s"]

/-- The error of a quota check, as the handler returns it. -/
def quotaError : QuotaError → ApiError
  | .limitExceeded quotaType limit current =>
    .forbidden <|
      quotaType.asStr ++ " limit exceeded (" ++ toString current ++ "/" ++ toString limit ++
        "). Upgrade your plan for higher limits."
  | .tenantNotFound _ => .unauthorized "Tenant not found"

/-- A quota check of the handler. -/
def checkQuota (tenants : TenantTable) (T : TaskTable) (now : DateTime) (auth : AuthContext)
    (quotaType : QuotaType) : Except ApiError Unit :=
  (QuotaEnforcer.enforce tenants T now auth.tenantId quotaType).mapError quotaError

/-- The input of `Task::create`. -/
def createTask (auth : AuthContext) (r : StartTaskRequest) : CreateTask where
  tenantId := auth.tenantId
  createdBy := auth.userId
  name := r.name
  adapter := r.adapter
  args := r.args
  timeoutSeconds := r.timeoutS.getD 3600

/-- The answer to a request whose task has been created. -/
def response (task : Task) : StartTaskResponse where
  taskId := task.id
  streamUrl := "/mcp/tasks/" ++ Uuid.display task.id ++ "/stream"
  status := task.state.asStr
  createdAt := task.createdAt
  timeoutS := some task.timeoutSeconds

/-- The insertion of the task. -/
def insert (T : TaskTable) (auth : AuthContext) (r : StartTaskRequest) (id : Uuid)
    (now : DateTime) : Except ApiError (StartTaskResponse × TaskTable) :=
  match Task.create T (createTask auth r) id now with
  | .ok (task, T') => .ok (response task, T')
  | .error _ => .error (.internalError "Failed to create task")

lemma insert_eq_ok {T T' : TaskTable} {auth : AuthContext} {r : StartTaskRequest} {id : Uuid}
    {now : DateTime} {resp : StartTaskResponse} (h : insert T auth r id now = .ok (resp, T')) :
    Table.insert T (Task.new (createTask auth r) id now) = .ok T' ∧
      resp = response (Task.new (createTask auth r) id now) := by
  unfold insert Task.create at h
  cases hins : Table.insert T (Task.new (createTask auth r) id now) with
  | error v => simp [hins, Except.map] at h
  | ok T₁ =>
    simp only [hins, Except.map, Except.ok.injEq, Prod.mk.injEq] at h
    obtain ⟨rfl, rfl⟩ := h
    exact ⟨rfl, rfl⟩

/-- A check that is passed has found the tenant within its quota. -/
lemma enforce_of_checkQuota {tenants : TenantTable} {T : TaskTable} {now : DateTime}
    {auth : AuthContext} {q : QuotaType} (h : checkQuota tenants T now auth q = .ok ()) :
    QuotaEnforcer.enforce tenants T now auth.tenantId q = .ok () := mapError_eq_ok.1 h

end StartTask

end AxonTask.Api
