import AxonTask.Api.StartTask
import AxonTask.Shared.ApiKey

/-!
# The endpoints (`axontask-api/src/routes/mcp` and `axontask-api/src/routes/api_keys.rs`)

The handlers as functions on the database, for a request that is authenticated.  What they
take from elsewhere is an argument: the clock, the generated ids and keys, and the order of
keys that were created at the same time.  A handler that fails has changed nothing.
-/

namespace AxonTask.Api

open Lib

/-- The tables that the handlers use. -/
structure Database where
  /-- The ids of the rows of `users`. -/
  users : List Uuid
  tenants : TenantTable
  tasks : TaskTable
  apiKeys : ApiKeyTable

/-- What a request takes from its surroundings. -/
structure Surroundings where
  /-- The readings of the clock, in their order. -/
  clock : ℕ → DateTime
  /-- `gen_random_uuid()`. -/
  id : Uuid
  /-- `ApiKey::generate_key`. -/
  key : String
  /-- The order in which the database returns the keys of the tenant. -/
  keys : List ApiKey

/-- `impl From<sqlx::Error> for ApiError`. -/
def ApiError.ofDbError : DbError → ApiError
  | .constraint name =>
    if "email".toList <:+: name.toList then .conflict "Email already exists"
    else .conflict ("Constraint violation: " ++ name)
  | .other message => .internalError ("Database error: " ++ message)

/-- The read with which the task endpoints begin. -/
def findTask (db : Database) (taskId : Uuid) (auth : AuthContext) : Except ApiError Task :=
  match Task.findByIdAndTenant db.tasks taskId auth.tenantId with
  | some task => .ok task
  | none => .error (.notFound "Task not found")

/-! ### Starting and canceling a task -/

/-- The foreign keys of a new task refer to rows. -/
def referencesOk (db : Database) (auth : AuthContext) : Bool :=
  (db.tenants.row auth.tenantId).isSome && auth.userId.all fun u => decide (u ∈ db.users)

/-- `start_task`. -/
def startTask (env : Surroundings) (auth : AuthContext) (r : StartTaskRequest) (db : Database) :
    Except ApiError (StartTaskResponse × Database) :=
  if (StartTask.validate r).isEmpty then
    match StartTask.checkQuota db.tenants db.tasks (env.clock 0) auth .concurrentTasks with
    | .error e => .error e
    | .ok () =>
      match StartTask.checkQuota db.tenants db.tasks (env.clock 1) auth .dailyTasks with
      | .error e => .error e
      | .ok () =>
        if referencesOk db auth then
          (StartTask.insert db.tasks auth r env.id (env.clock 2)).map fun (resp, tasks) =>
            (resp, { db with tasks })
        else .error (.internalError "Failed to create task")
  else .error (.validationError (StartTask.validate r))

/-- `cancel_task`. -/
def cancelTask (env : Surroundings) (auth : AuthContext) (taskId : Uuid) (db : Database) :
    Except ApiError (CancelTaskResponse × Database) :=
  match CancelTask.check taskId (Task.findByIdAndTenant db.tasks taskId auth.tenantId) with
  | .error e => .error (.ofCancelTask e)
  | .ok (some r) => .ok (r, db)
  | .ok none =>
    match Task.transitionToCanceled.exec db.tasks taskId (env.clock 0) with
    | .ok (updatedTask, tasks) => .ok (CancelTask.respond taskId updatedTask, { db with tasks })
    | .error _ => .error (.internalError "Failed to cancel task")

/-! ### The status of a task -/

/-- `TaskMetrics`. -/
structure TaskMetrics where
  durationMs : Option Int64
  bytesStreamed : Option Int64
  taskMinutes : Option Float

/-- `TaskStatusResponse`. -/
structure TaskStatusResponse where
  taskId : Uuid
  name : String
  state : String
  createdAt : DateTime
  startedAt : Option DateTime
  endedAt : Option DateTime
  lastSeq : Option Int64
  metrics : Option TaskMetrics
  error : Option String

/-- `Duration::num_milliseconds` of the time between two instants, rounded towards zero. -/
def numMilliseconds (started ended : DateTime) : Int64 :=
  Int64.ofInt ((ended - started).tdiv (10 ^ 6))

/-- The duration that `get_task_status` reports at the time `now`. -/
def durationMs (task : Task) (now : DateTime) : Option Int64 :=
  match task.startedAt, task.endedAt with
  | some started, some ended => some (numMilliseconds started ended)
  | some started, none => some (numMilliseconds started now)
  | none, _ => none

/-- The answer of `get_task_status` for a task at the time `now`. -/
def statusOf (task : Task) (now : DateTime) : TaskStatusResponse :=
  let durationMs := durationMs task now
  let metrics : TaskMetrics :=
    { durationMs
      bytesStreamed := some task.bytesStreamed
      taskMinutes := durationMs.map fun ms => Float.ofInt ms.toInt / 60000 }
  { taskId := task.id
    name := task.name
    state := task.state.asStr
    createdAt := task.createdAt
    startedAt := task.startedAt
    endedAt := task.endedAt
    lastSeq := some task.cursor
    metrics := if durationMs.isSome || decide (0 < task.bytesStreamed) then some metrics else none
    error := task.errorMessage }

/-- `get_task_status`. -/
def getTaskStatus (env : Surroundings) (auth : AuthContext) (taskId : Uuid) (db : Database) :
    Except ApiError (TaskStatusResponse × Database) :=
  (findTask db taskId auth).map fun task => (statusOf task (env.clock 0), db)

/-! ### Streaming a task -/

/-- `TaskEventData`. -/
structure TaskEventData where
  seq : Int64
  kind : String
  payload : JsonValue
  ts : String
  hashPrev : Option String
  hashCurr : Option String

/-- A server-sent event of the stream. -/
inductive SseEvent
  | taskEvent (id : String) (data : TaskEventData)
  | heartbeat (alive : Bool)

/-- `create_event_stream`, which does not read Redis yet. -/
def createEventStream (L : Libs) (env : Surroundings) (_taskId : Uuid) (_sinceSeq : Int64) :
    List SseEvent :=
  [.taskEvent "1234567890-0"
      { seq := 0
        kind := "started"
        payload := .object [("adapter", .string "shell")]
        ts := L.toRfc3339 (env.clock 0)
        hashPrev := none
        hashCurr := some "abcd1234" },
    .taskEvent "1234567891-0"
      { seq := 1
        kind := "progress"
        payload := .object [("percent", .number (.posInt 50))]
        ts := L.toRfc3339 (env.clock 1)
        hashPrev := some "abcd1234"
        hashCurr := some "efgh5678" },
    .heartbeat true]

/-- `stream_task`. -/
def streamTask (L : Libs) (env : Surroundings) (auth : AuthContext) (taskId : Uuid)
    (sinceSeq : Int64) (db : Database) : Except ApiError (List SseEvent × Database) :=
  (findTask db taskId auth).map fun _ => (createEventStream L env taskId sinceSeq, db)

/-- `resume_task`. -/
def resumeTask (L : Libs) (env : Surroundings) (auth : AuthContext) (taskId : Uuid)
    (lastSeq : Int64) (db : Database) : Except ApiError (List SseEvent × Database) :=
  streamTask L env auth taskId (lastSeq + 1) db

/-! ### API keys -/

/-- `CreateApiKeyRequest`. -/
structure CreateApiKeyRequest where
  name : String
  scopes : String
  expiresAt : Option DateTime

/-- `CreateApiKeyResponse`. -/
structure CreateApiKeyResponse where
  id : String
  key : String
  name : String
  scopes : List String
  createdAt : DateTime
  expiresAt : Option DateTime

/-- `ApiKeyListItem`. -/
structure ApiKeyListItem where
  id : String
  name : String
  keyPrefix : String
  scopes : List String
  revoked : Bool
  createdAt : DateTime
  lastUsedAt : Option DateTime
  expiresAt : Option DateTime

/-- The error of a request without scopes. -/
def noScopes : ValidationErrorDetail := ⟨"scopes", "At least one scope is required"⟩

/-- `CreateApiKeyRequest::validate`. -/
def CreateApiKeyRequest.validate (r : CreateApiKeyRequest) : List ValidationErrorDetail :=
  (if StartTask.lengthOk r.name 1 100 then [] else [⟨"name", "Name must be 1-100 characters"⟩]) ++
    if 1 ≤ r.scopes.length then [] else [noScopes]

/-- `create_api_key`. -/
def createApiKey (L : Libs) (env : Surroundings) (auth : AuthContext) (r : CreateApiKeyRequest)
    (db : Database) : Except ApiError (CreateApiKeyResponse × Database) :=
  let scopes := parseScopes r.scopes
  if r.validate.isEmpty then
    if scopes.isEmpty then .error (.validationError [noScopes])
    else
      let data : CreateApiKey :=
        { tenantId := auth.tenantId, name := r.name, scopes, expiresAt := r.expiresAt }
      let tenantExists := (db.tenants.row auth.tenantId).isSome
      match ApiKey.create L db.apiKeys tenantExists data env.key env.id (env.clock 0) with
      | .error e => .error (.ofDbError e)
      | .ok ((apiKey, plaintextKey), apiKeys) =>
        .ok
          ({ id := Uuid.display apiKey.id
             key := plaintextKey
             name := apiKey.name
             scopes := apiKey.scopes
             createdAt := apiKey.createdAt
             expiresAt := apiKey.expiresAt },
            { db with apiKeys })
  else .error (.validationError r.validate)

/-- An item of the list of keys. -/
def listItem (k : ApiKey) : ApiKeyListItem where
  id := Uuid.display k.id
  name := k.name
  keyPrefix := k.keyPrefix
  scopes := k.scopes
  revoked := k.revoked
  createdAt := k.createdAt
  lastUsedAt := k.lastUsedAt
  expiresAt := k.expiresAt

/-- `list_api_keys`; `none` when the database cannot return the keys in the given order. -/
def listApiKeys (env : Surroundings) (auth : AuthContext) (db : Database) :
    Option (List ApiKeyListItem × Database) :=
  if ApiKey.isList db.apiKeys auth.tenantId env.keys then some (env.keys.map listItem, db)
  else none

/-- `revoke_api_key`. -/
def revokeApiKey (env : Surroundings) (auth : AuthContext) (id : Uuid) (db : Database) :
    Except ApiError (Bool × Database) :=
  match ApiKey.revokeWithTenant db.apiKeys id auth.tenantId (env.clock 0) with
  | .error _ => .error (.ofDbError (.other "row violates a constraint"))
  | .ok (false, _) => .error (.notFound "API key not found")
  | .ok (true, apiKeys) => .ok (true, { db with apiKeys })

end AxonTask.Api
