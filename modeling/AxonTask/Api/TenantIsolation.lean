import AxonTask.Api.Endpoints
import AxonTask.Api.QuotaRace
import AxonTask.Lib.Ownership

/-!
# Isolation of tenants

A request is answered from the rows of its tenant alone: on two databases that agree on these
rows it has the same answer, it leaves them in agreement, and it changes no row of another
tenant.  Each handler is compared with itself on two databases; the rules for tables whose
rows have owners (`Lib.Table.AgreeOn`) say what its statements do there.
-/

namespace AxonTask.Api

open Lib

/-- A request to one of the endpoints. -/
inductive ApiRequest
  | startTask (r : StartTaskRequest)
  | getTaskStatus (taskId : Uuid)
  | cancelTask (taskId : Uuid)
  | streamTask (taskId : Uuid) (sinceSeq : Int64)
  | resumeTask (taskId : Uuid) (lastSeq : Int64)
  | createApiKey (r : CreateApiKeyRequest)
  | listApiKeys
  | revokeApiKey (id : Uuid)

/-- What an endpoint returns. -/
inductive ApiResponse
  | startTask (r : StartTaskResponse)
  | taskStatus (r : TaskStatusResponse)
  | cancelTask (r : CancelTaskResponse)
  | stream (events : List SseEvent)
  | createApiKey (r : CreateApiKeyResponse)
  | listApiKeys (keys : List ApiKeyListItem)
  | revokeApiKey (revoked : Bool)

/-- The outcome of a handler on a database, which stays as it was when the handler fails. -/
def outcome {α : Type} (response : α → ApiResponse) (db : Database) :
    Except ApiError (α × Database) → Except ApiError ApiResponse × Database
  | .ok (a, db') => (.ok (response a), db')
  | .error e => (.error e, db)

/-- An authenticated request; `none` when the surroundings are not those of the database. -/
def handle (L : Libs) (env : Surroundings) (auth : AuthContext) (db : Database) :
    ApiRequest → Option (Except ApiError ApiResponse × Database)
  | .startTask r => some (outcome .startTask db (startTask env auth r db))
  | .getTaskStatus taskId => some (outcome .taskStatus db (getTaskStatus env auth taskId db))
  | .cancelTask taskId => some (outcome .cancelTask db (cancelTask env auth taskId db))
  | .streamTask taskId sinceSeq =>
    some (outcome .stream db (streamTask L env auth taskId sinceSeq db))
  | .resumeTask taskId lastSeq =>
    some (outcome .stream db (resumeTask L env auth taskId lastSeq db))
  | .createApiKey r => some (outcome .createApiKey db (createApiKey L env auth r db))
  | .listApiKeys =>
    (listApiKeys env auth db).map fun o => outcome .listApiKeys db (.ok o)
  | .revokeApiKey id => some (outcome .revokeApiKey db (revokeApiKey env auth id db))

namespace Database

/-- The databases agree on a tenant: on the row of the tenant, on its tasks and keys, and on
the users. -/
structure Agree (t : Uuid) (d d' : Database) : Prop where
  users : ∀ u, u ∈ d.users ↔ u ∈ d'.users
  tenant : d.tenants.row t = d'.tenants.row t
  tasks : Table.AgreeOn (Task.isOf t) d.tasks d'.tasks
  apiKeys : Table.AgreeOn (ApiKey.isOf t) d.apiKeys d'.apiKeys

/-- Between the databases, nothing has happened but to the tasks and keys of a tenant. -/
structure OthersKept (t : Uuid) (d d' : Database) : Prop where
  users : d'.users = d.users
  tenants : d'.tenants = d.tenants
  tasks : Table.AgreeOn (fun task => !task.isOf t) d.tasks d'.tasks
  apiKeys : Table.AgreeOn (fun k => !k.isOf t) d.apiKeys d'.apiKeys

lemma OthersKept.refl (t : Uuid) (d : Database) : OthersKept t d d :=
  ⟨rfl, rfl, .refl d.tasks, .refl d.apiKeys⟩

/-- The generated id and key do not collide with those in the database. -/
structure Fresh (L : Libs) (env : Surroundings) (d : Database) : Prop where
  taskId : d.tasks.row env.id = none
  apiKeyId : d.apiKeys.row env.id = none
  keyHash : ∀ k ∈ d.apiKeys.rows, k.keyHash ≠ ApiKey.hashKey L env.key

end Database

open Database

/-! ### Outcomes on two databases -/

/-- A handler has one answer on the two databases, the tenant's rows agree afterwards, and
the others are kept. -/
def Isolated {α : Type} (t : Uuid) (d₁ d₂ : Database) (o₁ o₂ : Except ApiError (α × Database)) :
    Prop :=
  (∃ e, o₁ = .error e ∧ o₂ = .error e) ∨
    ∃ a d₁' d₂', o₁ = .ok (a, d₁') ∧ o₂ = .ok (a, d₂') ∧ Agree t d₁' d₂' ∧
      OthersKept t d₁ d₁' ∧ OthersKept t d₂ d₂'

section Handlers

variable {L : Libs} {env : Surroundings} {auth : AuthContext} {t : Uuid} {d₁ d₂ : Database}
  {α : Type}

lemma isolated_error (e : ApiError) :
    Isolated (α := α) t d₁ d₂ (.error e) (.error e) := Or.inl ⟨e, rfl, rfl⟩

/-- A handler that changes nothing. -/
lemma isolated_ok (h : Agree t d₁ d₂) (a : α) :
    Isolated t d₁ d₂ (.ok (a, d₁)) (.ok (a, d₂)) :=
  Or.inr ⟨a, d₁, d₂, rfl, rfl, h, .refl t d₁, .refl t d₂⟩

/-- The read with which a task endpoint begins finds the same task. -/
lemma findByIdAndTenant_eq (h : Agree t d₁ d₂) (taskId : Uuid) :
    Task.findByIdAndTenant d₁.tasks taskId t = Task.findByIdAndTenant d₂.tasks taskId t :=
  h.tasks.row_filter_eq taskId

lemma findTask_eq (h : Agree auth.tenantId d₁ d₂) (taskId : Uuid) :
    findTask d₁ taskId auth = findTask d₂ taskId auth := by
  unfold findTask
  rw [findByIdAndTenant_eq h]

/-- A handler that reads the task and changes nothing. -/
lemma isolated_findTask (h : Agree auth.tenantId d₁ d₂) (taskId : Uuid) (answer : Task → α) :
    Isolated auth.tenantId d₁ d₂ ((findTask d₁ taskId auth).map fun task => (answer task, d₁))
      ((findTask d₂ taskId auth).map fun task => (answer task, d₂)) := by
  rw [findTask_eq h]
  cases findTask d₂ taskId auth with
  | error e => exact isolated_error e
  | ok task => exact isolated_ok h (answer task)

lemma isolated_getTaskStatus (h : Agree auth.tenantId d₁ d₂) (taskId : Uuid) :
    Isolated auth.tenantId d₁ d₂ (getTaskStatus env auth taskId d₁)
      (getTaskStatus env auth taskId d₂) :=
  isolated_findTask h taskId _

lemma isolated_streamTask (h : Agree auth.tenantId d₁ d₂) (taskId : Uuid) (sinceSeq : Int64) :
    Isolated auth.tenantId d₁ d₂ (streamTask L env auth taskId sinceSeq d₁)
      (streamTask L env auth taskId sinceSeq d₂) :=
  isolated_findTask h taskId _

lemma isolated_resumeTask (h : Agree auth.tenantId d₁ d₂) (taskId : Uuid) (lastSeq : Int64) :
    Isolated auth.tenantId d₁ d₂ (resumeTask L env auth taskId lastSeq d₁)
      (resumeTask L env auth taskId lastSeq d₂) :=
  isolated_streamTask h taskId _

/-! ### Starting a task -/

lemma usage_eq (h : Agree t d₁ d₂) (now : DateTime) (q : QuotaType) :
    QuotaEnforcer.usage d₁.tasks now t q = QuotaEnforcer.usage d₂.tasks now t q := by
  cases q with
  | concurrentTasks =>
    refine congrArg UInt32.ofNat (h.tasks.count_eq ?_)
    intro task htask
    simp only [QuotaEnforcer.isRunning, Bool.and_eq_true] at htask
    exact htask.1
  | dailyTasks =>
    refine congrArg UInt32.ofNat (h.tasks.count_eq ?_)
    intro task htask
    simp only [QuotaEnforcer.isSince, Bool.and_eq_true] at htask
    exact htask.1
  | streamConnections => rfl

/-- A quota check passes on both databases or gives the same error. -/
lemma checkQuota_eq (h : Agree auth.tenantId d₁ d₂) (now : DateTime) (q : QuotaType) :
    StartTask.checkQuota d₁.tenants d₁.tasks now auth q =
      StartTask.checkQuota d₂.tenants d₂.tasks now auth q := by
  unfold StartTask.checkQuota QuotaEnforcer.enforce QuotaEnforcer.check
  rw [h.tenant, usage_eq h]

lemma referencesOk_eq (h : Agree auth.tenantId d₁ d₂) :
    referencesOk d₁ auth = referencesOk d₂ auth := by
  unfold referencesOk
  simp only [h.tenant, h.users]

/-- The insertion of the task. -/
lemma isolated_insert (h : Agree auth.tenantId d₁ d₂) (hf₁ : Fresh L env d₁)
    (hf₂ : Fresh L env d₂) (r : StartTaskRequest) (now : DateTime) :
    Isolated auth.tenantId d₁ d₂
      ((StartTask.insert d₁.tasks auth r env.id now).map fun (resp, tasks) =>
        (resp, { d₁ with tasks }))
      ((StartTask.insert d₂.tasks auth r env.id now).map fun (resp, tasks) =>
        (resp, { d₂ with tasks })) := by
  have hown : Task.isOf auth.tenantId (Task.new (StartTask.createTask auth r) env.id now) = true :=
    decide_eq_true rfl
  unfold StartTask.insert Task.create
  rcases h.tasks.insert (r := Task.new (StartTask.createTask auth r) env.id now) hf₁.taskId
      hf₂.taskId with ⟨v, h₁, h₂⟩ | ⟨T₁, T₂, h₁, h₂, hagree⟩
  · rw [h₁, h₂]
    exact isolated_error _
  · rw [h₁, h₂]
    refine Or.inr ⟨_, _, _, rfl, rfl, ⟨h.users, h.tenant, hagree, h.apiKeys⟩, ?_, ?_⟩
    · exact ⟨rfl, rfl, Table.agreeOn_insert h₁ (by simp [hown]), .refl _⟩
    · exact ⟨rfl, rfl, Table.agreeOn_insert h₂ (by simp [hown]), .refl _⟩

lemma isolated_startTask (h : Agree auth.tenantId d₁ d₂) (hf₁ : Fresh L env d₁)
    (hf₂ : Fresh L env d₂) (r : StartTaskRequest) :
    Isolated auth.tenantId d₁ d₂ (startTask env auth r d₁) (startTask env auth r d₂) := by
  unfold startTask
  rw [checkQuota_eq h, checkQuota_eq h, referencesOk_eq h]
  split
  · split
    · exact isolated_error _
    · split
      · exact isolated_error _
      · split
        · exact isolated_insert h hf₁ hf₂ r _
        · exact isolated_error _
  · exact isolated_error _

/-! ### Canceling a task -/

/-- The row that `cancel_task` goes on to update is one of the tenant, although the update
does not look at the tenant. -/
lemma isOf_of_check {T : TaskTable} {taskId : Uuid} (task : Task)
    (h : CancelTask.check taskId (Task.findByIdAndTenant T taskId t) = .ok none)
    (hrow : T.row taskId = some task) : task.isOf t = true := by
  by_contra hown
  have hnone : Task.findByIdAndTenant T taskId t = none := by
    rw [Task.findByIdAndTenant, hrow]
    exact Option.filter_eq_none_iff.2 fun r hr => by
      obtain rfl := Option.some.inj hr
      exact hown
  rw [hnone] at h
  cases h

/-- An update of a row of the tenant. -/
lemma exec_agreeOn {T₁ T₂ : TaskTable} (h : Table.AgreeOn (Task.isOf t) T₁ T₂)
    (u : Task.RowUpdate) (now : DateTime) {taskId : Uuid}
    (h₁ : ∀ task, T₁.row taskId = some task → task.isOf t = true)
    (h₂ : ∀ task, T₂.row taskId = some task → task.isOf t = true) :
    (∃ v, u.exec T₁ taskId now = .error v ∧ u.exec T₂ taskId now = .error v) ∨
      ∃ o T₁' T₂', u.exec T₁ taskId now = .ok (o, T₁') ∧ u.exec T₂ taskId now = .ok (o, T₂') ∧
        Table.AgreeOn (Task.isOf t) T₁' T₂' :=
  h.updateKey _ (fun task htask _ => h₁ task htask) (fun task htask _ => h₂ task htask)

/-- Canceling a task of the tenant keeps the tasks of the others. -/
lemma agreeOn_transitionToCanceled {T T' : TaskTable} {now : DateTime} {taskId : Uuid}
    {o : Option Task} (h : Task.transitionToCanceled.exec T taskId now = .ok (o, T'))
    (hown : ∀ task, T.row taskId = some task → task.isOf t = true) :
    Table.AgreeOn (fun task => !task.isOf t) T T' := by
  refine Table.agreeOn_updateKey h ?_
  intro task htask _
  have htenant : (Task.transitionToCanceled.set now task).isOf t = task.isOf t := rfl
  rw [htenant, hown task htask]
  exact ⟨rfl, rfl⟩

lemma isolated_cancelTask (h : Agree auth.tenantId d₁ d₂) (taskId : Uuid) :
    Isolated auth.tenantId d₁ d₂ (cancelTask env auth taskId d₁)
      (cancelTask env auth taskId d₂) := by
  unfold cancelTask
  have hfind := findByIdAndTenant_eq h taskId
  cases hcheck : CancelTask.check taskId (Task.findByIdAndTenant d₁.tasks taskId auth.tenantId) with
  | error e =>
    rw [← hfind, hcheck]
    exact isolated_error _
  | ok answer =>
    have hcheck' := hcheck
    rw [hfind] at hcheck'
    rw [hcheck']
    cases answer with
    | some resp => exact isolated_ok h resp
    | none =>
      have hown₁ := fun task => isOf_of_check task hcheck
      have hown₂ := fun task => isOf_of_check task hcheck'
      rcases exec_agreeOn h.tasks Task.transitionToCanceled (env.clock 0) hown₁ hown₂ with
        ⟨v, h₁, h₂⟩ | ⟨o, T₁, T₂, h₁, h₂, hagree⟩
      · simp only [h₁, h₂]
        exact isolated_error _
      · simp only [h₁, h₂]
        refine Or.inr ⟨_, _, _, rfl, rfl, ⟨h.users, h.tenant, hagree, h.apiKeys⟩, ?_, ?_⟩
        · exact ⟨rfl, rfl, agreeOn_transitionToCanceled h₁ hown₁, .refl _⟩
        · exact ⟨rfl, rfl, agreeOn_transitionToCanceled h₂ hown₂, .refl _⟩

/-! ### API keys -/

/-- Creating a key for the tenant. -/
lemma create_agreeOn (h : Agree t d₁ d₂) (hf₁ : Fresh L env d₁) (hf₂ : Fresh L env d₂)
    (data : CreateApiKey) (hdata : data.tenantId = t) (tenantExists : Bool) (now : DateTime) :
    (∃ e, ApiKey.create L d₁.apiKeys tenantExists data env.key env.id now = .error e ∧
        ApiKey.create L d₂.apiKeys tenantExists data env.key env.id now = .error e) ∨
      ∃ a K₁ K₂, ApiKey.create L d₁.apiKeys tenantExists data env.key env.id now = .ok (a, K₁) ∧
        ApiKey.create L d₂.apiKeys tenantExists data env.key env.id now = .ok (a, K₂) ∧
        Table.AgreeOn (ApiKey.isOf t) K₁ K₂ ∧
        Table.AgreeOn (fun k => !k.isOf t) d₁.apiKeys K₁ ∧
        Table.AgreeOn (fun k => !k.isOf t) d₂.apiKeys K₂ := by
  have hnoDup : ∀ {d : Database}, Fresh L env d →
      (d.apiKeys.rows.any fun k => decide (k.keyHash = ApiKey.hashKey L env.key)) = false := by
    intro d hf
    simpa [List.any_eq_false] using hf.keyHash
  have hother : (!(ApiKey.new L data env.key env.id now).isOf t) = false := by
    simp [ApiKey.isOf, ApiKey.new, hdata]
  have hhash : (ApiKey.new L data env.key env.id now).keyHash = ApiKey.hashKey L env.key := rfl
  simp only [ApiKey.create, hhash, hnoDup hf₁, hnoDup hf₂]
  rcases h.apiKeys.insert (r := ApiKey.new L data env.key env.id now) hf₁.apiKeyId
      hf₂.apiKeyId with ⟨v, h₁, h₂⟩ | ⟨K₁, K₂, h₁, h₂, hagree⟩
  · rw [h₁, h₂]
    cases v with
    | check => exact Or.inl ⟨_, rfl, rfl⟩
    | unique => exact Or.inl ⟨_, rfl, rfl⟩
  · rw [h₁, h₂]
    cases tenantExists with
    | false => exact Or.inl ⟨_, rfl, rfl⟩
    | true =>
      exact Or.inr ⟨_, K₁, K₂, rfl, rfl, hagree, Table.agreeOn_insert h₁ hother,
        Table.agreeOn_insert h₂ hother⟩

lemma isolated_createApiKey (h : Agree auth.tenantId d₁ d₂) (hf₁ : Fresh L env d₁)
    (hf₂ : Fresh L env d₂) (r : CreateApiKeyRequest) :
    Isolated auth.tenantId d₁ d₂ (createApiKey L env auth r d₁) (createApiKey L env auth r d₂) := by
  unfold createApiKey
  rw [h.tenant]
  split
  · by_cases hscopes : (parseScopes r.scopes).isEmpty = true
    · simp only [hscopes, if_true]
      exact isolated_error _
    · simp only [hscopes]
      rcases create_agreeOn h hf₁ hf₂ ⟨auth.tenantId, r.name, parseScopes r.scopes, r.expiresAt⟩ rfl
          (d₂.tenants.row auth.tenantId).isSome (env.clock 0) with
        ⟨e, h₁, h₂⟩ | ⟨a, K₁, K₂, h₁, h₂, hagree, hkept₁, hkept₂⟩
      · simp only [h₁, h₂]
        exact isolated_error _
      · simp only [h₁, h₂]
        exact Or.inr ⟨_, _, _, rfl, rfl, ⟨h.users, h.tenant, h.tasks, hagree⟩,
          ⟨rfl, rfl, .refl _, hkept₁⟩, ⟨rfl, rfl, .refl _, hkept₂⟩⟩
  · exact isolated_error _

/-- The keys of the tenant are the same, so the database can return them in the same
orders. -/
lemma isList_eq (h : Agree t d₁ d₂) (keys : List ApiKey) :
    ApiKey.isList d₁.apiKeys t keys = ApiKey.isList d₂.apiKeys t keys := by
  have hperm := h.apiKeys.filter_perm
  unfold ApiKey.isList
  congr 2
  exact propext ⟨fun hk => hk.trans hperm, fun hk => hk.trans hperm.symm⟩

lemma isolated_revokeApiKey (h : Agree auth.tenantId d₁ d₂) (id : Uuid) :
    Isolated auth.tenantId d₁ d₂ (revokeApiKey env auth id d₁) (revokeApiKey env auth id d₂) := by
  unfold revokeApiKey ApiKey.revokeWithTenant
  have hkept : ∀ r : ApiKey, r.isOf auth.tenantId = true →
      (!r.isOf auth.tenantId) = false ∧
        (!(r.revoke (env.clock 0)).isOf auth.tenantId) = false := by
    intro r hr
    have htenant : (r.revoke (env.clock 0)).isOf auth.tenantId = r.isOf auth.tenantId := rfl
    rw [htenant, hr]
    exact ⟨rfl, rfl⟩
  have hrevoke : ∀ r : ApiKey, ApiKey.schema.key (r.revoke (env.clock 0)) = ApiKey.schema.key r :=
    fun _ => rfl
  have hown : ∀ {d : Database} (r : ApiKey), d.apiKeys.row id = some r →
      r.isOf auth.tenantId = true → r.isOf auth.tenantId = true := fun _ _ hr => hr
  rcases h.apiKeys.updateKey hrevoke hown hown with ⟨v, h₁, h₂⟩ | ⟨o, T₁, T₂, h₁, h₂, hagree⟩
  · rw [h₁, h₂]
    exact isolated_error _
  · rw [h₁, h₂]
    cases o with
    | none => exact isolated_error _
    | some k =>
      refine Or.inr ⟨true, _, _, rfl, rfl, ⟨h.users, h.tenant, h.tasks, hagree⟩, ?_, ?_⟩
      · exact ⟨rfl, rfl, .refl _, Table.agreeOn_updateKey h₁ fun r _ hr => hkept r hr⟩
      · exact ⟨rfl, rfl, .refl _, Table.agreeOn_updateKey h₂ fun r _ hr => hkept r hr⟩

end Handlers

/-! ### Requests -/

section Requests

variable {L : Libs} {env : Surroundings} {auth : AuthContext} {t : Uuid} {d₁ d₂ d₁' : Database}
  {α : Type} {r : Except ApiError ApiResponse}

/-- The outcome of a handler that is isolated. -/
lemma Isolated.exists_outcome {o₁ o₂ : Except ApiError (α × Database)}
    (ho : Isolated t d₁ d₂ o₁ o₂) (h : Agree t d₁ d₂) {response : α → ApiResponse}
    (h₁ : some (outcome response d₁ o₁) = some (r, d₁')) :
    ∃ d₂', some (outcome response d₂ o₂) = some (r, d₂') ∧ Agree t d₁' d₂' ∧
      OthersKept t d₁ d₁' ∧ OthersKept t d₂ d₂' := by
  rcases ho with ⟨e, rfl, rfl⟩ | ⟨a, e₁, e₂, rfl, rfl, hagree, hkept₁, hkept₂⟩
  · cases h₁
    exact ⟨d₂, rfl, h, .refl t d₁, .refl t d₂⟩
  · cases h₁
    exact ⟨e₂, rfl, hagree, hkept₁, hkept₂⟩

/-- The request of a tenant on two databases that agree on it. -/
lemma exists_handle (h : Agree auth.tenantId d₁ d₂) (hf₁ : Fresh L env d₁) (hf₂ : Fresh L env d₂)
    {req : ApiRequest} (h₁ : handle L env auth d₁ req = some (r, d₁')) :
    ∃ d₂', handle L env auth d₂ req = some (r, d₂') ∧ Agree auth.tenantId d₁' d₂' ∧
      OthersKept auth.tenantId d₁ d₁' ∧ OthersKept auth.tenantId d₂ d₂' := by
  cases req with
  | startTask req => exact (isolated_startTask h hf₁ hf₂ req).exists_outcome h h₁
  | getTaskStatus taskId => exact (isolated_getTaskStatus h taskId).exists_outcome h h₁
  | cancelTask taskId => exact (isolated_cancelTask h taskId).exists_outcome h h₁
  | streamTask taskId sinceSeq =>
    exact (isolated_streamTask h taskId sinceSeq).exists_outcome h h₁
  | resumeTask taskId lastSeq =>
    exact (isolated_resumeTask h taskId lastSeq).exists_outcome h h₁
  | createApiKey req => exact (isolated_createApiKey h hf₁ hf₂ req).exists_outcome h h₁
  | listApiKeys =>
    simp only [handle, listApiKeys] at h₁ ⊢
    rw [← isList_eq h]
    split at h₁
    · rename_i hlist
      rw [if_pos hlist]
      exact (isolated_ok h (env.keys.map listItem)).exists_outcome h h₁
    · cases h₁
  | revokeApiKey id => exact (isolated_revokeApiKey h id).exists_outcome h h₁

/-- **Isolation of tenants.**  On two databases that agree on a tenant, a request of this
tenant has the same answer; they agree on the tenant afterwards, and the rows of the other
tenants are kept in both. -/
theorem handle_isolated (h : Agree auth.tenantId d₁ d₂) (hf₁ : Fresh L env d₁)
    (hf₂ : Fresh L env d₂) {req : ApiRequest} (h₁ : handle L env auth d₁ req = some (r, d₁')) :
    ∃ d₂', handle L env auth d₂ req = some (r, d₂') ∧ Agree auth.tenantId d₁' d₂' ∧
      OthersKept auth.tenantId d₁ d₁' ∧ OthersKept auth.tenantId d₂ d₂' :=
  exists_handle h hf₁ hf₂ h₁

end Requests

/-! ### A request on two databases -/

/-- The task of the tenant. -/
def sampleOwn : Task := Task.new Lifecycle.sampleTask 1 0

/-- A task of another tenant. -/
def sampleForeign : Task := Task.new { Lifecycle.sampleTask with tenantId := 8 } 2 0

/-- A database with these tasks. -/
def sampleDatabase (tasks : TaskTable) : Database where
  users := [3]
  tenants := QuotaRace.sampleTenants
  tasks := tasks
  apiKeys := Table.empty ApiKey.schema

/-- The task of the tenant alone. -/
def sampleAlone : TaskTable where
  rows := [sampleOwn]
  keys_nodup := by simp
  checked := by
    intro t ht
    obtain rfl := List.mem_singleton.1 ht
    decide +kernel

lemma nodup_map_key_samples : ([sampleForeign, sampleOwn].map Task.schema.key).Nodup := by
  decide

lemma check_samples : ∀ t ∈ [sampleForeign, sampleOwn], Task.schema.check t = true := by
  decide +kernel

/-- The tasks of both tenants. -/
def sampleShared : TaskTable where
  rows := [sampleForeign, sampleOwn]
  keys_nodup := nodup_map_key_samples
  checked := check_samples

/-- The surroundings of the request. -/
def sampleSurroundings : Surroundings := ⟨fun _ => 5, 9, "axon_example", []⟩

/-- The tenant cancels its task, with or without the other tenant's. -/
theorem handle_isolated_cancelTask :
    ∃ r d₁' d₂', handle .sample sampleSurroundings (.fromJwt 3 7) (sampleDatabase sampleAlone)
        (.cancelTask 1) = some (r, d₁') ∧
      handle .sample sampleSurroundings (.fromJwt 3 7) (sampleDatabase sampleShared)
        (.cancelTask 1) = some (r, d₂') ∧
      Agree 7 d₁' d₂' ∧ OthersKept 7 (sampleDatabase sampleShared) d₂' := by
  have hagree : Agree (AuthContext.fromJwt 3 7).tenantId (sampleDatabase sampleAlone)
      (sampleDatabase sampleShared) := by
    refine ⟨fun _ => Iff.rfl, rfl, ?_, .refl _⟩
    intro r hr
    have hne : r ≠ sampleForeign := by
      rintro rfl
      revert hr
      decide
    simp [sampleDatabase, sampleAlone, sampleShared, hne]
  have hfresh : ∀ tasks : TaskTable, tasks.row 9 = none →
      Fresh .sample sampleSurroundings (sampleDatabase tasks) := by
    intro tasks hrow
    exact ⟨hrow, rfl, by simp [sampleDatabase, Table.empty]⟩
  have hcancel : handle .sample sampleSurroundings (.fromJwt 3 7) (sampleDatabase sampleAlone)
      (.cancelTask 1) = some (_, _) := rfl
  obtain ⟨d₂', h₂, hafter, -, hkept⟩ :=
    handle_isolated hagree (hfresh sampleAlone (by rfl)) (hfresh sampleShared (by rfl)) hcancel
  exact ⟨_, _, d₂', rfl, h₂, hafter, hkept⟩

end AxonTask.Api
