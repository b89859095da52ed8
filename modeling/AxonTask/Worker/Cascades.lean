import AxonTask.Shared.ApiKeyLifecycle
import AxonTask.Shared.LogErasure
import AxonTask.Shared.Tables
import AxonTask.Shared.UsageRetention
import AxonTask.Worker.Lifecycle
import Mathlib.Data.Fintype.Basic

/-!
# Statements on all tables, and what a deletion leaves

The statements of the models of `axontask-shared` and of the workers run on the tables of the
schema in any order, the erasure of logs included, among appends to the event log that read and
insert in separate statements.  The foreign keys decide what is left when a tenant, a user or a
task is deleted, also while such appends are under way.
-/

namespace AxonTask

open Lib

/-! ### Statements -/

/-- A statement on `users`, `tenants` or `memberships`. -/
inductive AccountStatement
  | createUser (data : CreateUser) (id : Uuid)
  | updateUser (id : Uuid) (data : UpdateUser)
  | updateLastLogin (id : Uuid)
  | deleteUser (id : Uuid)
  | createTenant (data : CreateTenant) (id : Uuid)
  | updateTenant (id : Uuid) (data : UpdateTenant)
  | updatePlan (id : Uuid) (plan : TenantPlan)
  | deleteTenant (id : Uuid)
  | createMembership (data : CreateMembership)
  | updateRole (tenantId userId : Uuid) (role : MembershipRole)
  | deleteMembership (tenantId userId : Uuid)

/-- `Tenant::update_plan`. -/
def Tenant.updatePlan (T : TenantTable) (id : Uuid) (plan : TenantPlan) (now : DateTime) :
    Except Violation (Option Tenant × TenantTable) :=
  T.updateKey id (fun _ => true) (fun t => { t with plan := plan.asStr, updatedAt := now })
    fun _ => rfl

/-- The tables after a statement. -/
def AccountStatement.exec (lower : String → String) (db : Accounts) (now : DateTime) :
    AccountStatement → Except DbError Accounts
  | createUser data id => (User.create db lower data id now).map Prod.snd
  | updateUser id data =>
    let (user, users) := User.update lower db.users id data now
    user.map fun _ => db.setUsers users
  | updateLastLogin id => (User.updateLastLogin db id now).map Prod.snd
  | deleteUser id => .ok (db.setUsers (db.users.delete fun u => decide (u.id = id)))
  | createTenant data id => (Tenant.create db data id now).map Prod.snd
  | updateTenant id data =>
    let (tenant, tenants) := Tenant.update db.tenants id data now
    tenant.map fun _ => db.setTenants tenants
  | updatePlan id plan =>
    match Tenant.updatePlan db.tenants id plan now with
    | .ok (_, tenants) => .ok (db.setTenants tenants)
    | .error _ => .error tooLong
  | deleteTenant id => .ok (db.setTenants (db.tenants.delete fun t => decide (t.id = id)))
  | createMembership data => (Membership.create db data now).map Prod.snd
  | updateRole tenantId userId role => (Membership.updateRole db tenantId userId role).map Prod.snd
  | deleteMembership tenantId userId => .ok (Membership.delete db tenantId userId).2

/-- A statement on one of the tables, but for those of the appends. -/
inductive SchemaStatement
  | account (st : AccountStatement)
  | apiKey (op : KeyLifecycle.KeyOp)
  | task (st : Statement)
  | webhook (op : WebhookOp)
  | usage (op : UsageCounter.UsageOp)
  | deleteForTask (taskId : Uuid)

namespace SchemaStatement

/-- The task that a statement creates. -/
def newTask : SchemaStatement → Option Uuid
  | task (.create _ id) => some id
  | _ => none

/-- The tenant that a statement creates. -/
def newTenant : SchemaStatement → Option Uuid
  | account (.createTenant _ id) => some id
  | _ => none

/-- The user that a statement creates. -/
def newUser : SchemaStatement → Option Uuid
  | account (.createUser _ id) => some id
  | _ => none

/-- The task whose log a statement erases. -/
def erasedLog : SchemaStatement → Option Uuid
  | deleteForTask taskId => some taskId
  | _ => none

end SchemaStatement

namespace Tables

/-- A rejected statement leaves the tables. -/
def keep (db : Tables) : Except DbError Tables → Tables
  | .ok db' => db'
  | .error _ => db

/-- A statement at the time `now`. -/
def step (L : Libs) (lower : String → String) (db : Tables) :
    SchemaStatement × DateTime → Option Tables
  | (.account st, now) => some (db.keep ((st.exec lower db.accounts now).map db.setAccounts))
  | (.apiKey op, now) =>
    (KeyLifecycle.step L { now, table := db.apiKeys, generated := [], log := [] } op).map fun s =>
      db.keep (db.setApiKeys s.table)
  | (.task st, now) =>
    (Lifecycle.step db.tasks (st, now)).map fun tasks => db.keep (db.setTasks tasks)
  | (.webhook op, now) => some (db.keep (db.setWebhooks (WebhookState.exec db.webhooks now op)))
  | (.usage op, _) =>
    (UsageCounter.RetentionState.step (fun t => (db.accounts.tenants.row t).isSome)
      ⟨db.usage, []⟩ op).map fun s => db.keep (db.setUsage s.table)
  | (.deleteForTask taskId, _) =>
    some (db.keep (db.setEvents (TaskEvent.deleteForTask db.events taskId).2))

end Tables

/-! ### What a statement does to the referenced tables -/

open TaskEvent

/-- The rows of a task, after the rows of missing tasks have been deleted. -/
lemma rowsOf_cascade (T : EventTable) (tasks : TaskTable) (t : Uuid) :
    rowsOf (T.cascade tasks fun e => some e.taskId) t =
      if (tasks.row t).isSome = true then rowsOf T t else [] := by
  unfold rowsOf
  rw [Table.cascade, Table.delete, List.filter_filter]
  cases ht : tasks.row t with
  | none =>
    refine List.filter_eq_nil_iff.2 ?_
    intro e _
    by_cases he : e.taskId = t
    · simp [Table.dangles, he, ht]
    · simp [he]
  | some task =>
    rw [Option.isSome_some, if_pos rfl]
    refine List.filter_congr ?_
    intro e _
    by_cases he : e.taskId = t
    · simp [Table.dangles, he, ht]
    · simp [he]

/-- A task that is not there has no events. -/
lemma Tables.rowsOf_events (db : Tables) (t : Uuid) :
    rowsOf db.events t = if (db.tasks.row t).isSome = true then rowsOf db.events t else [] := by
  rw [← rowsOf_cascade, db.events_task.cascade_eq_self]

namespace AccountStatement

variable {lower : String → String} {db db' : Accounts} {now : DateTime}

/-- A user or tenant that is there after a statement was there before, or the statement has
created it. -/
lemma exec_eq_ok {st : AccountStatement} (h : st.exec lower db now = .ok db') :
    (∀ id, (db'.users.row id).isSome = true →
      (db.users.row id).isSome = true ∨ ∃ data, st = .createUser data id) ∧
    ∀ id, (db'.tenants.row id).isSome = true →
      (db.tenants.row id).isSome = true ∨ ∃ data, st = .createTenant data id := by
  cases st with
  | createUser data id =>
    obtain ⟨⟨user, db₁⟩, hcreate, rfl⟩ := map_eq_ok h
    obtain ⟨rfl, -, hrows, htenants, -⟩ := User.create_eq_ok hcreate
    refine ⟨?_, fun id' hid' => Or.inl (htenants ▸ hid')⟩
    intro id' hid'
    rcases Table.isSome_row_of_append hrows hid' with hold | hnew
    · exact Or.inl hold
    · exact Or.inr ⟨data, congrArg _ hnew⟩
  | updateUser id data =>
    obtain ⟨user, hupdate, rfl⟩ := map_eq_ok h
    exact ⟨fun id' hid' => Or.inl ((User.updatesRow_update lower _ id data now).isSome_row hid'),
      fun id' hid' => Or.inl hid'⟩
  | updateLastLogin id =>
    obtain ⟨⟨updated, db₁⟩, hupdate, rfl⟩ := map_eq_ok h
    unfold User.updateLastLogin at hupdate
    split at hupdate
    · cases hupdate
    · rename_i user users hup
      cases hupdate
      refine ⟨fun id' hid' => Or.inl ?_, fun id' hid' => Or.inl hid'⟩
      rwa [Table.row_update (Table.update_of_updateKey hup), Option.isSome_map] at hid'
  | deleteUser id =>
    cases h
    exact ⟨fun id' hid' => Or.inl (Table.isSome_row_of_delete hid'), fun id' hid' => Or.inl hid'⟩
  | createTenant data id =>
    obtain ⟨⟨tenant, db₁⟩, hcreate, rfl⟩ := map_eq_ok h
    obtain ⟨rfl, -, hrows, husers, -⟩ := Tenant.create_eq_ok hcreate
    refine ⟨fun id' hid' => Or.inl (husers ▸ hid'), ?_⟩
    intro id' hid'
    rcases Table.isSome_row_of_append hrows hid' with hold | hnew
    · exact Or.inl hold
    · exact Or.inr ⟨data, congrArg _ hnew⟩
  | updateTenant id data =>
    obtain ⟨tenant, hupdate, rfl⟩ := map_eq_ok h
    exact ⟨fun id' hid' => Or.inl hid',
      fun id' hid' => Or.inl ((Tenant.updatesRow_update _ id data now).isSome_row hid')⟩
  | updatePlan id plan =>
    simp only [exec] at h
    split at h
    · rename_i tenant tenants hup
      cases h
      refine ⟨fun id' hid' => Or.inl hid', fun id' hid' => Or.inl ?_⟩
      have hrow := Table.row_update (Table.update_of_updateKey hup) id'
      have hid' : (tenants.row id').isSome = true := hid'
      rwa [hrow, Option.isSome_map] at hid'
    · cases h
  | deleteTenant id =>
    cases h
    exact ⟨fun id' hid' => Or.inl hid', fun id' hid' => Or.inl (Table.isSome_row_of_delete hid')⟩
  | createMembership data =>
    obtain ⟨⟨m, db₁⟩, hcreate, rfl⟩ := map_eq_ok h
    obtain ⟨-, -, husers, htenants⟩ := Membership.create_eq_ok hcreate
    exact ⟨fun id' hid' => Or.inl (husers ▸ hid'), fun id' hid' => Or.inl (htenants ▸ hid')⟩
  | updateRole tenantId userId role =>
    obtain ⟨⟨m, db₁⟩, hupdate, rfl⟩ := map_eq_ok h
    unfold Membership.updateRole at hupdate
    split at hupdate
    · cases hupdate
    · cases hupdate
      exact ⟨fun id' hid' => Or.inl hid', fun id' hid' => Or.inl hid'⟩
  | deleteMembership tenantId userId =>
    cases h
    exact ⟨fun id' hid' => Or.inl hid', fun id' hid' => Or.inl hid'⟩

end AccountStatement

/-- What a statement does to the rows that others refer to, and to the log. -/
structure SchemaStatement.Effect (st : SchemaStatement) (db db' : Tables) : Prop where
  users : ∀ id, (db'.accounts.users.row id).isSome = true →
    (db.accounts.users.row id).isSome = true ∨ st.newUser = some id
  tenants : ∀ id, (db'.accounts.tenants.row id).isSome = true →
    (db.accounts.tenants.row id).isSome = true ∨ st.newTenant = some id
  tasks : ∀ id, (db'.tasks.row id).isSome = true →
    (db.tasks.row id).isSome = true ∨ st.newTask = some id
  events : ∀ t, rowsOf db'.events t =
    if (db'.tasks.row t).isSome = true ∧ st.erasedLog ≠ some t then rowsOf db.events t else []

namespace Tables

variable {L : Libs} {lower : String → String} {db db' : Tables} {st : SchemaStatement}
  {now : DateTime}

/-- A statement that erases no log. -/
lemma events_of_erasedLog {t : Uuid} (hst : st.erasedLog = none)
    (h : rowsOf db'.events t = if (db'.tasks.row t).isSome = true then rowsOf db.events t else []) :
    rowsOf db'.events t = if (db'.tasks.row t).isSome = true ∧ st.erasedLog ≠ some t then
      rowsOf db.events t else [] := by
  simpa [hst] using h

/-- A statement on tables that nothing refers to. -/
lemma effect_of_eq (hst : st.erasedLog = none) (haccounts : db'.accounts = db.accounts)
    (htasks : db'.tasks = db.tasks) (hevents : db'.events = db.events) : st.Effect db db' where
  users id hid := Or.inl (haccounts ▸ hid)
  tenants id hid := Or.inl (haccounts ▸ hid)
  tasks id hid := Or.inl (htasks ▸ hid)
  events t := by
    refine events_of_erasedLog hst ?_
    rw [hevents, htasks]
    exact db.rowsOf_events t

/-- A table that nothing refers to has been written, or not. -/
lemma effect_keep {r : Except DbError Tables} (hst : st.erasedLog = none)
    (h : ∀ db₁, r = .ok db₁ → db₁.accounts = db.accounts ∧ db₁.tasks = db.tasks ∧
      db₁.events = db.events) : st.Effect db (db.keep r) := by
  cases r with
  | error e => exact effect_of_eq hst rfl rfl rfl
  | ok db₁ =>
    obtain ⟨haccounts, htasks, hevents⟩ := h db₁ rfl
    exact effect_of_eq hst haccounts htasks hevents

/-- The rows that are left refer to their tasks, so the erasure of a log is not rejected. -/
lemma step_deleteForTask (db : Tables) (taskId : Uuid) (now : DateTime) :
    ∃ db', db.step L lower (.deleteForTask taskId, now) = some db' ∧
      db'.accounts = db.accounts ∧ db'.tasks = db.tasks ∧
      db'.events = (TaskEvent.deleteForTask db.events taskId).2 := by
  have hrefers : (TaskEvent.deleteForTask db.events taskId).2.Refers db.tasks
      fun e => some e.taskId := db.events_task.delete _
  refine ⟨_, rfl, ?_⟩
  rw [setEvents, dif_pos hrefers]
  exact ⟨rfl, rfl, rfl⟩

lemma isSome_tasksFor {accounts : Accounts} {t : Uuid}
    (h : ((db.tasksFor accounts).row t).isSome = true) : (db.tasks.row t).isSome = true := by
  rw [tasksFor, Table.row_setNull, Option.isSome_map] at h
  exact Table.isSome_row_of_delete h

/-- **Effect of a statement.** -/
lemma effect_of_step (h : db.step L lower (st, now) = some db') : st.Effect db db' := by
  cases st with
  | account st =>
    cases h
    cases hexec : st.exec lower db.accounts now with
    | error e => exact effect_of_eq rfl rfl rfl rfl
    | ok accounts =>
      obtain ⟨husers, htenants⟩ := AccountStatement.exec_eq_ok hexec
      refine ⟨?_, ?_, fun id hid => Or.inl (isSome_tasksFor hid),
        fun t => events_of_erasedLog rfl (rowsOf_cascade db.events (db.tasksFor accounts) t)⟩
      · intro id hid
        rcases husers id hid with hold | ⟨data, rfl⟩
        · exact Or.inl hold
        · exact Or.inr rfl
      · intro id hid
        rcases htenants id hid with hold | ⟨data, rfl⟩
        · exact Or.inl hold
        · exact Or.inr rfl
  | apiKey op =>
    obtain ⟨s, -, rfl⟩ := Option.map_eq_some_iff.1 h
    refine effect_keep rfl ?_
    intro db₁ hset
    unfold setApiKeys at hset
    split at hset
    · cases hset
      exact ⟨rfl, rfl, rfl⟩
    · cases hset
  | task st =>
    obtain ⟨tasks, hstep, rfl⟩ := Option.map_eq_some_iff.1 h
    cases hset : db.setTasks tasks with
    | error e => exact effect_of_eq rfl rfl rfl rfl
    | ok db₁ =>
      unfold setTasks at hset
      split at hset
      · split at hset
        · cases hset
          refine ⟨fun id hid => Or.inl hid, fun id hid => Or.inl hid, ?_,
            fun t => events_of_erasedLog rfl (rowsOf_cascade db.events tasks t)⟩
          intro id hid
          have hid : (tasks.row id).isSome = true := hid
          rcases Lifecycle.row_cases_applies hstep id with hsame | ⟨data, rfl, -, -⟩ |
            ⟨-, hnone⟩ | ⟨u, t, -, ht, -⟩
          · exact Or.inl (hsame ▸ hid)
          · exact Or.inr rfl
          · rw [hnone] at hid
            cases hid
          · exact Or.inl (by rw [ht]; rfl)
        · cases hset
      · cases hset
  | webhook op =>
    cases h
    refine effect_keep rfl ?_
    intro db₁ hset
    unfold setWebhooks at hset
    split at hset
    · cases hset
      exact ⟨rfl, rfl, rfl⟩
    · cases hset
  | usage op =>
    obtain ⟨s, -, rfl⟩ := Option.map_eq_some_iff.1 h
    refine effect_keep rfl ?_
    intro db₁ hset
    unfold setUsage at hset
    split at hset
    · cases hset
      exact ⟨rfl, rfl, rfl⟩
    · cases hset
  | deleteForTask taskId =>
    obtain ⟨db₁, hstep, haccounts, htasks, hevents⟩ :=
      db.step_deleteForTask taskId now
    obtain rfl : db₁ = db' := Option.some_injective _ (hstep.symm.trans h)
    refine ⟨fun id hid => Or.inl (haccounts ▸ hid), fun id hid => Or.inl (haccounts ▸ hid),
      fun id hid => Or.inl (htasks ▸ hid), ?_⟩
    intro t
    rw [hevents, ErasureRace.rowsOf_deleteForTask, htasks]
    by_cases ht : taskId = t
    · simp [SchemaStatement.erasedLog, ht]
    · simpa [SchemaStatement.erasedLog, ht] using db.rowsOf_events t

end Tables

/-! ### Statements among appends -/

/-- The tables, the calls of `append`, and the ids that tasks have had. -/
structure SchemaRace (κ : Type*) where
  db : Tables
  calls : κ → AppendCall
  issued : List Uuid

/-- A statement, or a step of a call of `append`. -/
inductive SchemaStep (κ : Type*)
  | statement (st : SchemaStatement) (now : DateTime)
  | append (a : AppendStep κ)

namespace SchemaRace

variable {κ : Type*} [DecidableEq κ]

/-- A step of the race.  The foreign key of `task_events` is checked at the end of an
insertion. -/
def step (L : Libs) (lower : String → String) (s : SchemaRace κ) :
    SchemaStep κ → Option (SchemaRace κ)
  | .statement st now =>
    (s.db.step L lower (st, now)).map fun db =>
      { s with db, issued := s.issued ++ st.newTask.toList }
  | .append a =>
    match AppendRace.step L ⟨s.db.events, s.calls⟩ a with
    | none => none
    | some u =>
      match s.db.setEvents u.events with
      | .ok db => some { s with db, calls := u.calls }
      | .error _ =>
        some { s with calls := Function.update s.calls a.call (.returned (.error .other)) }

/-- Statements and appends in any order, from the empty schema. -/
def machine (κ : Type*) [DecidableEq κ] (L : Libs) (lower : String → String) :
    Machine (SchemaRace κ) (SchemaStep κ) where
  Init s := s = ⟨Tables.empty, fun _ => .idle, []⟩
  step := step L lower

/-- No append is between its two statements with a row that continues the log. -/
def Undisturbed (s : SchemaRace κ) (t : Uuid) : Prop :=
  ∀ k, ∀ n ∈ (s.calls k).pending, n.taskId = t → n.seq ≤ 0

/-- `gen_random_uuid()` returns no id twice for a task, and a log is erased only while no append
is about to continue it. -/
def Orderly (s : SchemaRace κ) : SchemaStep κ → Prop
  | .statement st _ =>
    (∀ id ∈ st.newTask.toList, id ∉ s.issued) ∧ ∀ t ∈ st.erasedLog.toList, s.Undisturbed t
  | .append _ => True

instance [Fintype κ] (s : SchemaRace κ) (t : Uuid) : Decidable (s.Undisturbed t) :=
  inferInstanceAs (Decidable (∀ k, ∀ n ∈ (s.calls k).pending, n.taskId = t → n.seq ≤ 0))

instance [Fintype κ] (s : SchemaRace κ) : ∀ a, Decidable (Orderly s a)
  | .statement st _ =>
    @instDecidableAnd _ _ (List.decidableBAll (fun id => id ∉ s.issued) st.newTask.toList)
      (List.decidableBAll s.Undisturbed st.erasedLog.toList)
  | .append _ => isTrue trivial

variable {L : Libs} {lower : String → String} {s s' : SchemaRace κ}

/-- **Inversion of a step.**  A statement has its effect; a read has computed the next row of
its task; an insertion has appended the row of a task that is there; and every other return
leaves the tables. -/
lemma step_cases {a : SchemaStep κ} (h : (machine κ L lower).step s a = some s') :
    (∃ st now, a = .statement st now ∧ s.db.step L lower (st, now) = some s'.db ∧
      s'.calls = s.calls ∧ s'.issued = s.issued ++ st.newTask.toList) ∨
    (∃ k data, s'.db = s.db ∧ s'.issued = s.issued ∧
      s'.calls = Function.update s.calls k (.read (appendRead L s.db.events data))) ∨
    (∃ k n ts, s.calls k = .read n ∧ s.db.events.insert (n.toEvent ts) = .ok s'.db.events ∧
      s'.db.tasks = s.db.tasks ∧ s'.db.accounts = s.db.accounts ∧ s'.issued = s.issued ∧
      s'.calls = Function.update s.calls k (.returned (.ok (n.toEvent ts)))) ∨
    ∃ k e, s'.db = s.db ∧ s'.issued = s.issued ∧
      s'.calls = Function.update s.calls k (.returned (.error e)) := by
  cases a with
  | statement st now =>
    obtain ⟨db, hstep, rfl⟩ := Option.map_eq_some_iff.1 h
    exact Or.inl ⟨st, now, rfl, hstep, rfl, rfl⟩
  | append a =>
    simp only [machine, step] at h
    split at h
    · cases h
    · rename_i u hu
      split at h
      · rename_i db hset
        cases h
        have hdb : db.events = u.events ∧ db.tasks = s.db.tasks ∧ db.accounts = s.db.accounts ∧
            (u.events = s.db.events → db = s.db) := by
          unfold Tables.setEvents at hset
          split at hset
          · cases hset
            refine ⟨rfl, rfl, rfl, ?_⟩
            intro hevents
            obtain ⟨events, calls⟩ := u
            obtain rfl : events = s.db.events := hevents
            rfl
          · cases hset
        rcases AppendRace.step_cases hu with ⟨data, -, hevents, hcalls⟩ |
          ⟨n, ts, hk, hins, hcalls⟩ | ⟨e, hevents, hcalls⟩
        · exact Or.inr (Or.inl ⟨a.call, data, hdb.2.2.2 hevents, rfl, hcalls⟩)
        · exact Or.inr (Or.inr (Or.inl
            ⟨a.call, n, ts, hk, hdb.1 ▸ hins, hdb.2.1, hdb.2.2.1, rfl, hcalls⟩))
        · exact Or.inr (Or.inr (Or.inr ⟨a.call, e, hdb.2.2.2 hevents, rfl, hcalls⟩))
      · cases h
        exact Or.inr (Or.inr (Or.inr ⟨a.call, .other, rfl, rfl, rfl⟩))

end SchemaRace

end AxonTask
