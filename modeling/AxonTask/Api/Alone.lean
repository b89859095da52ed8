import AxonTask.Api.Service

/-!
# A tenant alone

Requests of all tenants reach the API in any order, while workers claim tasks of several
tenants in one statement and record their outcomes.  Take away the rows, the requests and the
tasks of all other tenants: the tenant that is left gets the same answers, and its rows are the
same.
-/

namespace AxonTask.Api

open Lib Database

/-- What is left of an operation when the other tenants are taken away: their requests go, a
claim takes some of its rows, and an update of a task that is not there may go. -/
inductive ServiceOp.Without (t : Uuid) : ServiceOp → List ServiceOp → Prop
  | own {env : Surroundings} {auth : AuthContext} {req : ApiRequest} :
      auth.tenantId = t → Without t (.request env auth req) [.request env auth req]
  | other {env : Surroundings} {auth : AuthContext} {req : ApiRequest} :
      auth.tenantId ≠ t → Without t (.request env auth req) []
  | claim {ids ids' : List Uuid} {now : DateTime} :
      ids'.Sublist ids → Without t (.claim ids now) [.claim ids' now]
  | update {op : RowOp} {id : Uuid} {now : DateTime} :
      Without t (.update op id now) [.update op id now]
  | absent {op : RowOp} {id : Uuid} {now : DateTime} : Without t (.update op id now) []
  | delete {id : Uuid} : Without t (.delete id) [.delete id]

namespace Service

variable (L : Libs)

/-- What a request generates is not in the database. -/
def Generates (s : Service) : ServiceOp → Prop
  | .request env _ _ => Fresh L env s.db
  | .claim .. | .update .. | .delete _ => True

end Service

/-- The database without the rows of the other tenants. -/
def Database.only (t : Uuid) (db : Database) : Database where
  users := db.users
  tenants := db.tenants.delete fun r => decide (r.id ≠ t)
  tasks := db.tasks.delete fun task => !task.isOf t
  apiKeys := db.apiKeys.delete fun k => !k.isOf t

/-- The tenant alone, with the answers that it has got. -/
def Service.only (t : Uuid) (s : Service) : Service :=
  ⟨s.db.only t, s.answers.filter fun a => decide (a.1 = t)⟩

namespace Service

variable {L : Libs} {s₁ s₁' s₂ s₂' : Service} {t : Uuid}

/-! ### One request -/

section Request

variable {env : Surroundings} {auth : AuthContext} {d₁ d₂ d₁' : Database}
  {r : Except ApiError ApiResponse}

/-- The request of a tenant through the layers, on two databases that agree on it. -/
lemma exists_serve (h : Agree auth.tenantId d₁ d₂) (hf₁ : Fresh L env d₁) (hf₂ : Fresh L env d₂)
    {req : ApiRequest} (h₁ : serve L env auth req d₁ = some (r, d₁')) :
    ∃ d₂', serve L env auth req d₂ = some (r, d₂') ∧ Agree auth.tenantId d₁' d₂' ∧
      OthersKept auth.tenantId d₁ d₁' ∧ OthersKept auth.tenantId d₂ d₂' := by
  have hlimit : rateLimitLayer d₂ auth = rateLimitLayer d₁ auth := by
    rw [rateLimitLayer, rateLimitLayer, h.tenant]
  unfold serve at h₁ ⊢
  rw [hlimit]
  by_cases hmcp : req.isMcp = true
  · rw [if_pos hmcp] at h₁ ⊢
    cases hlayer : rateLimitLayer d₁ auth with
    | error e =>
      rw [hlayer] at h₁
      cases h₁
      exact ⟨d₂, rfl, h, .refl _ d₁, .refl _ d₂⟩
    | ok limit =>
      rw [hlayer] at h₁
      exact exists_handle h hf₁ hf₂ h₁
  · rw [if_neg hmcp] at h₁ ⊢
    exact exists_handle h hf₁ hf₂ h₁

end Request

/-! ### The invariant -/

/-- The second service is the first one without the other tenants. -/
structure Alone (t : Uuid) (s₁ s₂ : Service) : Prop where
  agree : Agree t s₁.db s₂.db
  tasks : ∀ task ∈ s₂.db.tasks.rows, task.isOf t = true
  apiKeys : ∀ k ∈ s₂.db.apiKeys.rows, k.isOf t = true
  answers : s₂.answers = s₁.answers.filter fun a => decide (a.1 = t)

/-- A table without the rows of the others. -/
lemma agreeOn_delete {κ ρ : Type} {S : Schema κ ρ} (T : Table S) (own : ρ → Bool) :
    Table.AgreeOn own T (T.delete fun r => !own r) := by
  intro r hr
  simp [Table.delete, hr]

lemma alone_only (t : Uuid) (s : Service) : Alone t s (s.only t) := by
  refine ⟨⟨fun _ => Iff.rfl, ?_, agreeOn_delete _ _, agreeOn_delete _ _⟩, ?_, ?_, rfl⟩
  · show s.db.tenants.row t = (s.db.tenants.delete fun r => decide (r.id ≠ t)).row t
    rw [Table.row_delete]
    cases hrow : s.db.tenants.row t with
    | none => rfl
    | some tenant =>
      have hid : tenant.id = t := Table.key_of_row hrow
      simp [Option.filter_some, hid]
  · intro task htask
    simpa using (List.mem_filter.1 htask).2
  · intro k hk
    simpa using (List.mem_filter.1 hk).2

/-- What collides with nothing in the database collides with nothing in the part of it. -/
lemma Alone.fresh {env : Surroundings} (h : Alone t s₁ s₂) (hf : Fresh L env s₁.db) :
    Fresh L env s₂.db where
  taskId := by
    refine Table.row_eq_none_iff.2 ?_
    intro task htask
    exact Table.row_eq_none_iff.1 hf.taskId task ((h.agree.tasks task (h.tasks task htask)).2 htask)
  apiKeyId := by
    refine Table.row_eq_none_iff.2 ?_
    intro k hk
    exact Table.row_eq_none_iff.1 hf.apiKeyId k ((h.agree.apiKeys k (h.apiKeys k hk)).2 hk)
  keyHash := by
    intro k hk
    exact hf.keyHash k ((h.agree.apiKeys k (h.apiKeys k hk)).2 hk)

/-- The row of a task alone is its row, if the task is one of the tenant. -/
lemma Alone.row_eq (h : Alone t s₁ s₂) (id : Uuid) :
    s₂.db.tasks.row id = (s₁.db.tasks.row id).filter (Task.isOf t) := by
  rw [h.agree.tasks.row_filter_eq id]
  cases hrow : s₂.db.tasks.row id with
  | none => rfl
  | some task => rw [Option.filter_some, if_pos (h.tasks task (Table.mem_of_row hrow))]

/-! ### Requests -/

/-- The rows that a request of the tenant leaves in the tables of the tenant alone. -/
lemma isOf_of_othersKept {κ ρ : Type} {S : Schema κ ρ} {T T' : Table S} {own : ρ → Bool}
    (h : Table.AgreeOn (fun r => !own r) T T') (hT : ∀ r ∈ T.rows, own r = true) :
    ∀ r ∈ T'.rows, own r = true := by
  intro r hr
  by_contra hown
  exact hown (hT r ((h r (by simp [hown])).2 hr))

/-- A request of the tenant. -/
lemma Alone.own {env : Surroundings} {auth : AuthContext} {req : ApiRequest}
    (h : Alone auth.tenantId s₁ s₂) (hf : Fresh L env s₁.db)
    (h₁ : step L s₁ (.request env auth req) = some s₁') :
    ∃ s₂', step L s₂ (.request env auth req) = some s₂' ∧ Alone auth.tenantId s₁' s₂' := by
  obtain ⟨⟨r, d₁'⟩, hserve, rfl⟩ := Option.map_eq_some_iff.1 h₁
  obtain ⟨d₂', hserve₂, hagree, -, hkept⟩ := exists_serve h.agree hf (h.fresh hf) hserve
  refine ⟨⟨d₂', s₂.answers ++ [(auth.tenantId, r)]⟩, ?_, hagree,
    isOf_of_othersKept hkept.tasks h.tasks, isOf_of_othersKept hkept.apiKeys h.apiKeys, ?_⟩
  · rw [step, hserve₂]
    rfl
  · simp [h.answers]

/-- A request of another tenant. -/
lemma Alone.other {env : Surroundings} {auth : AuthContext} {req : ApiRequest}
    (h : Alone t s₁ s₂) (ht : auth.tenantId ≠ t) (hf : Fresh L env s₁.db)
    (h₁ : step L s₁ (.request env auth req) = some s₁') : Alone t s₁' s₂ := by
  obtain ⟨⟨r, d₁'⟩, hserve, rfl⟩ := Option.map_eq_some_iff.1 h₁
  obtain ⟨-, -, -, hkept, -⟩ :=
    exists_serve ⟨fun _ => Iff.rfl, rfl, .refl s₁.db.tasks, .refl s₁.db.apiKeys⟩ hf hf hserve
  have hother : ∀ {u : Uuid}, u = t → u ≠ auth.tenantId := by
    rintro u rfl
    exact ht.symm
  refine ⟨⟨?_, ?_, ?_, ?_⟩, h.tasks, h.apiKeys, ?_⟩
  · intro u
    rw [hkept.users]
    exact h.agree.users u
  · rw [hkept.tenants]
    exact h.agree.tenant
  · refine Table.AgreeOn.trans ?_ h.agree.tasks
    intro task htask
    refine (hkept.tasks task ?_).symm
    simpa [Task.isOf] using hother (of_decide_eq_true htask)
  · refine Table.AgreeOn.trans ?_ h.agree.apiKeys
    intro k hk
    refine (hkept.apiKeys k ?_).symm
    simpa [ApiKey.isOf] using hother (of_decide_eq_true hk)
  · simp [h.answers, ht]

/-! ### Statements of the workers -/

section Statements

variable {T₁ T₂ T₁' : TaskTable} {now : DateTime}

lemma isOf_set {u : Task.RowUpdate} (hu : Lifecycle.IsUpdate u) (now : DateTime) (task : Task) :
    (u.set now task).isOf t = task.isOf t := by
  rw [Task.isOf, Task.isOf, hu.tenantId now task]

/-- A statement that creates no task leaves all tasks to the tenant. -/
lemma isOf_of_step {st : Statement} (h : Lifecycle.step T₁ (st, now) = some T₁')
    (hst : ∀ data id, st ≠ .create data id) (hT : ∀ task ∈ T₁.rows, task.isOf t = true) :
    ∀ task ∈ T₁'.rows, task.isOf t = true := by
  intro task htask
  have hrow : T₁'.row task.id = some task := Table.row_key_of_mem htask
  rcases Lifecycle.row_cases_isUpdate h task.id with hsame | ⟨data, hcreate, -⟩ | ⟨-, hnone⟩ |
    ⟨u, old, hu, hold, -, -, hset⟩
  · exact hT task (Table.mem_of_row (hsame ▸ hrow))
  · exact absurd hcreate (hst data task.id)
  · simp [hnone] at hrow
  · obtain rfl := Option.some.inj (hrow.symm.trans hset)
    rw [isOf_set hu now old]
    exact hT old (Table.mem_of_row hold)

/-- A claim of pending rows that violates no constraint. -/
lemma exists_step_claim {T : TaskTable} (ids : List Uuid)
    (hpending : ids.all (Lifecycle.isPending T) = true)
    (hcheck : ∀ task ∈ T.rows, task.id ∈ ids →
      Task.schema.check (TaskQueue.claimUpdate.set now task) = true) :
    ∃ T', Lifecycle.step T (.claim ids, now) = some T' ∧
      ∀ id, T'.row id =
        if id ∈ ids then (T.row id).map (TaskQueue.claimUpdate.set now) else T.row id := by
  obtain ⟨T', hT'⟩ := Table.exists_update (TaskQueue.claimUpdate.set_id now)
    (p := fun task => ids.contains task.id) fun task htask hmem =>
      hcheck task htask (by simpa using hmem)
  have hclaim : TaskQueue.claimTasks T ids now = .ok (ids.filterMap T'.row, T') := by
    rw [TaskQueue.claimTasks, hT']
    rfl
  refine ⟨T', ?_, TaskQueue.row_claimTasks hclaim⟩
  simp only [Lifecycle.step, hpending, if_true, hclaim]

/-- A claim takes those of its rows that the tenant has. -/
lemma exists_claim (hagree : Table.AgreeOn (Task.isOf t) T₁ T₂)
    (hrow : ∀ id, T₂.row id = (T₁.row id).filter (Task.isOf t)) {ids : List Uuid}
    (h : Lifecycle.step T₁ (.claim ids, now) = some T₁') :
    ∃ ids' T₂', ids'.Sublist ids ∧ Lifecycle.step T₂ (.claim ids', now) = some T₂' ∧
      Table.AgreeOn (Task.isOf t) T₁' T₂' := by
  simp only [Lifecycle.step] at h
  split at h
  swap
  · cases h
  rename_i hpending
  cases hclaim : TaskQueue.claimTasks T₁ ids now with
  | error v =>
    rw [hclaim] at h
    cases h
    obtain ⟨T₂', hstep, hafter⟩ := exists_step_claim (T := T₂) [] rfl
      (fun _ _ hmem => absurd hmem List.not_mem_nil)
    refine ⟨[], T₂', List.nil_sublist ids, hstep, hagree.trans (Table.agreeOn_of_row ?_)⟩
    intro id
    rw [hafter id, if_neg List.not_mem_nil]
  | ok claimed =>
    obtain ⟨ts, T⟩ := claimed
    rw [hclaim] at h
    cases h
    have hafter := TaskQueue.row_claimTasks hclaim
    have hpart : ∀ id ∈ ids.filter (fun id => (T₂.row id).isSome), id ∈ ids ∧
        ∃ task, T₁.row id = some task ∧ T₂.row id = some task := by
      intro id hid
      obtain ⟨hmem, hsome⟩ := List.mem_filter.1 hid
      obtain ⟨task, htask⟩ := Option.isSome_iff_exists.1 hsome
      exact ⟨hmem, task, (Option.filter_eq_some_iff.1 (hrow id ▸ htask)).1, htask⟩
    have hpending₂ :
        (ids.filter fun id => (T₂.row id).isSome).all (Lifecycle.isPending T₂) = true := by
      rw [List.all_eq_true]
      intro id hid
      obtain ⟨hmem, task, h₁, h₂⟩ := hpart id hid
      rw [Lifecycle.isPending, h₂, ← h₁]
      exact List.all_eq_true.1 hpending id hmem
    -- the claimed rows of the tenant are among those that the other claim has checked
    have hcheck₂ : ∀ task ∈ T₂.rows, task.id ∈ ids.filter (fun id => (T₂.row id).isSome) →
        Task.schema.check (TaskQueue.claimUpdate.set now task) = true := by
      intro task htask hid
      obtain ⟨hmem, task', h₁, h₂⟩ := hpart task.id hid
      obtain rfl := Option.some.inj ((Table.row_key_of_mem htask).symm.trans h₂)
      have hclaimed := hafter task.id
      rw [if_pos hmem, h₁] at hclaimed
      exact T₁'.checked _ (Table.mem_of_row hclaimed)
    obtain ⟨T₂', hstep, hafter₂⟩ := exists_step_claim _ hpending₂ hcheck₂
    refine ⟨_, T₂', List.filter_sublist, hstep, Table.agreeOn_of_row ?_⟩
    intro id
    rw [hafter id, hafter₂ id]
    have hrow₂ := hrow id
    cases h₁ : T₁.row id with
    | none =>
      rw [h₁, Option.filter_none] at hrow₂
      simp [hrow₂]
    | some task =>
      rw [h₁, Option.filter_some] at hrow₂
      have hset : (TaskQueue.claimUpdate.set now task).isOf t = task.isOf t :=
        isOf_set (.inl rfl) now task
      by_cases hown : task.isOf t = true
      · rw [if_pos hown] at hrow₂
        have hiff : id ∈ ids.filter (fun id => (T₂.row id).isSome) ↔ id ∈ ids := by
          simp [hrow₂]
        simp only [hiff, hrow₂]
      · rw [if_neg hown] at hrow₂
        have hnot : id ∉ ids.filter (fun id => (T₂.row id).isSome) := by
          simp [hrow₂]
        rw [if_neg hnot, hrow₂]
        by_cases hmem : id ∈ ids
        · simp [hmem, Option.filter_some, hset, hown]
        · simp [hmem, Option.filter_some, hown]

/-- A statement on a row that the tenant does not have keeps the rows of the tenant. -/
lemma agreeOn_update_absent {op : RowOp} {id : Uuid}
    (hnone : (T₁.row id).filter (Task.isOf t) = none)
    (h : Lifecycle.step T₁ (.update op id, now) = some T₁') :
    Table.AgreeOn (Task.isOf t) T₁' T₁ := by
  refine Table.agreeOn_of_row ?_
  intro id'
  rcases Lifecycle.row_cases_isUpdate h id' with hsame | ⟨data, hcreate, -⟩ | ⟨hdelete, -⟩ |
    ⟨u, old, hu, hold, -, -, hset⟩
  · rw [hsame]
  · cases hcreate
  · cases hdelete
  · by_cases hid : id' = id
    · subst hid
      have hown : old.isOf t = false := by
        simpa [hold, Option.filter_some] using hnone
      rw [hset, hold, Option.filter_some, Option.filter_some, isOf_set hu now old, hown]
      rfl
    · rw [Lifecycle.row_of_step h (by simpa [Statement.targets] using hid)]

/-- A statement on a row that the tenant has. -/
lemma exists_update (hagree : Table.AgreeOn (Task.isOf t) T₁ T₂) {op : RowOp} {id : Uuid}
    (h₁ : ∀ task, T₁.row id = some task → task.isOf t = true)
    (h₂ : ∀ task, T₂.row id = some task → task.isOf t = true)
    (h : Lifecycle.step T₁ (.update op id, now) = some T₁') :
    ∃ T₂', Lifecycle.step T₂ (.update op id, now) = some T₂' ∧
      Table.AgreeOn (Task.isOf t) T₁' T₂' := by
  rcases exec_agreeOn hagree op.update now h₁ h₂ with ⟨v, hu, hu'⟩ | ⟨o, U, U', hu, hu', hafter⟩
  · rw [Lifecycle.step, hu] at h
    cases h
    exact ⟨T₂, by rw [Lifecycle.step, hu'], hagree⟩
  · rw [Lifecycle.step, hu] at h
    cases h
    exact ⟨U', by rw [Lifecycle.step, hu'], hafter⟩

/-- A deletion takes the same row from both tables. -/
lemma agreeOn_delete_row (hagree : Table.AgreeOn (Task.isOf t) T₁ T₂) (id : Uuid) :
    Table.AgreeOn (Task.isOf t) (Task.delete T₁ id).2 (Task.delete T₂ id).2 := by
  refine Table.agreeOn_of_row ?_
  intro id'
  rw [Task.row_delete, Task.row_delete]
  split
  · rfl
  · exact hagree.row_filter_eq id'

end Statements

/-- A service whose tasks have changed. -/
lemma Alone.withTasks (h : Alone t s₁ s₂) {T₁ T₂ : TaskTable}
    (hagree : Table.AgreeOn (Task.isOf t) T₁ T₂) (hT : ∀ task ∈ T₂.rows, task.isOf t = true) :
    Alone t { s₁ with db := { s₁.db with tasks := T₁ } }
      { s₂ with db := { s₂.db with tasks := T₂ } } :=
  ⟨⟨h.agree.users, h.agree.tenant, hagree, h.agree.apiKeys⟩, hT, h.apiKeys, h.answers⟩

/-- **A step of the service is one of the tenant alone, or none.** -/
lemma Alone.step {a : ServiceOp} (h : Alone t s₁ s₂) (hC : Generates L s₁ a)
    (h₁ : step L s₁ a = some s₁') :
    ∃ l s₂', a.Without t l ∧ (machine L).Run (Generates L) s₂ l s₂' ∧ Alone t s₁' s₂' := by
  cases a with
  | request env auth req =>
    by_cases ht : auth.tenantId = t
    · subst ht
      obtain ⟨s₂', h₂, halone⟩ := h.own hC h₁
      exact ⟨_, s₂', .own rfl, Machine.Run.single (h.fresh hC) h₂, halone⟩
    · exact ⟨[], s₂, .other ht, .nil s₂, h.other ht hC h₁⟩
  | claim ids now =>
    obtain ⟨T₁, hT₁, rfl⟩ := Option.map_eq_some_iff.1 h₁
    obtain ⟨ids', T₂, hids, hT₂, hagree⟩ := exists_claim h.agree.tasks h.row_eq hT₁
    have hown := isOf_of_step hT₂ (by simp) h.tasks
    refine ⟨_, _, .claim hids, Machine.Run.single trivial ?_, h.withTasks hagree hown⟩
    exact Option.map_eq_some_iff.2 ⟨T₂, hT₂, rfl⟩
  | update op id now =>
    obtain ⟨T₁, hT₁, rfl⟩ := Option.map_eq_some_iff.1 h₁
    cases hrow : s₂.db.tasks.row id with
    | none =>
      refine ⟨[], s₂, .absent, .nil s₂, h.withTasks ?_ h.tasks⟩
      refine (agreeOn_update_absent ?_ hT₁).trans h.agree.tasks
      rw [← h.row_eq id, hrow]
    | some task =>
      have hfound := h.row_eq id
      rw [hrow] at hfound
      obtain ⟨hrow₁, hown⟩ := Option.filter_eq_some_iff.1 hfound.symm
      obtain ⟨T₂, hT₂, hagree⟩ := exists_update h.agree.tasks
        (fun task' htask' => by rwa [← Option.some.inj (hrow₁.symm.trans htask')])
        (fun task' htask' => by rwa [← Option.some.inj (hrow.symm.trans htask')]) hT₁
      have hown₂ := isOf_of_step hT₂ (by simp) h.tasks
      refine ⟨_, _, .update, Machine.Run.single trivial ?_, h.withTasks hagree hown₂⟩
      exact Option.map_eq_some_iff.2 ⟨T₂, hT₂, rfl⟩
  | delete id =>
    cases h₁
    refine ⟨_, _, .delete, Machine.Run.single trivial rfl, h.withTasks ?_ ?_⟩
    · exact agreeOn_delete_row h.agree.tasks id
    · exact fun task htask => h.tasks task (List.mem_filter.1 htask).1

/-- Two tenants. -/
def sampleTenants : TenantTable where
  rows := [QuotaRace.sampleTenant, { QuotaRace.sampleTenant with id := 8 }]
  keys_nodup := by decide
  checked := by decide +kernel

/-- A task of each tenant. -/
def sampleService : Service :=
  ⟨{ sampleDatabase sampleShared with tenants := sampleTenants }, []⟩

/-- Both tasks are claimed at once, one tenant cancels its task, which is deleted then, and the
other one asks for its own. -/
def sampleOps : List ServiceOp :=
  [.claim [2, 1] 1, .request sampleSurroundings (.fromJwt 4 8) (.cancelTask 2), .delete 2,
    .request sampleSurroundings (.fromJwt 3 7) (.getTaskStatus 1)]

instance (env : Surroundings) (db : Database) : Decidable (Fresh L env db) :=
  decidable_of_iff ((db.tasks.row env.id).isNone = true ∧ (db.apiKeys.row env.id).isNone = true ∧
      ∀ k ∈ db.apiKeys.rows, k.keyHash ≠ ApiKey.hashKey L env.key)
    ⟨fun ⟨h₁, h₂, h₃⟩ => ⟨Option.isNone_iff_eq_none.1 h₁, Option.isNone_iff_eq_none.1 h₂, h₃⟩,
      fun ⟨h₁, h₂, h₃⟩ => ⟨Option.isNone_iff_eq_none.2 h₁, Option.isNone_iff_eq_none.2 h₂, h₃⟩⟩

instance (s : Service) : ∀ op, Decidable (Generates L s op)
  | .request env _ _ => inferInstanceAs (Decidable (Fresh L env s.db))
  | .claim .. | .update .. | .delete _ => isTrue trivial

end Service

end AxonTask.Api
