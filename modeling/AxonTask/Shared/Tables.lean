import AxonTask.Lib.References
import AxonTask.Shared.AppendRace
import AxonTask.Shared.Usage
import AxonTask.Shared.Task
import AxonTask.Shared.Webhooks

/-!
# All tables with their foreign keys (`migrations/20250103000000_init_schema.sql`)

The eight tables of the schema, and what a statement on one of them does to the others: a row
that refers to a missing one is rejected, and the rows that have lost the row they refer to
are deleted, or cleared in the column `created_by` of `tasks`.
-/

namespace AxonTask

open Lib

namespace Accounts

/-- The table `users` has become `users`: `ON DELETE CASCADE` of `memberships`. -/
def setUsers (db : Accounts) (users : UserTable) : Accounts where
  users := users
  tenants := db.tenants
  memberships := db.memberships.cascade users fun m => some m.userId
  refer m hm :=
    ⟨Table.refers_iff.1 (Table.refers_cascade _ users _) m hm _ rfl,
      (db.refer m (Table.mem_cascade.1 hm).1).2⟩

/-- The table `tenants` has become `tenants`: `ON DELETE CASCADE` of `memberships`. -/
def setTenants (db : Accounts) (tenants : TenantTable) : Accounts where
  users := db.users
  tenants := tenants
  memberships := db.memberships.cascade tenants fun m => some m.tenantId
  refer m hm :=
    ⟨(db.refer m (Table.mem_cascade.1 hm).1).1,
      Table.refers_iff.1 (Table.refers_cascade _ tenants _) m hm _ rfl⟩

end Accounts

/-- The tables of the schema. -/
structure Tables where
  accounts : Accounts
  apiKeys : ApiKeyTable
  tasks : TaskTable
  events : EventTable
  webhooks : WebhookTable
  usage : UsageTable
  apiKeys_tenant : apiKeys.Refers accounts.tenants fun k => some k.tenantId
  tasks_tenant : tasks.Refers accounts.tenants fun t => some t.tenantId
  tasks_createdBy : tasks.Refers accounts.users Task.createdBy
  events_task : events.Refers tasks fun e => some e.taskId
  webhooks_tenant : webhooks.Refers accounts.tenants fun w => some w.tenantId
  usage_tenant : usage.Refers accounts.tenants fun r => some r.tenantId

/-- `ON DELETE SET NULL` of `created_by`. -/
def Task.clearCreatedBy (t : Task) : Task := { t with createdBy := none }

lemma Task.key_clearCreatedBy (t : Task) : schema.key t.clearCreatedBy = schema.key t := rfl

lemma Task.check_clearCreatedBy (t : Task) : schema.check t.clearCreatedBy = schema.check t := rfl

namespace Tables

/-- The schema without rows. -/
def empty : Tables where
  accounts := ⟨Table.empty _, Table.empty _, Table.empty _, fun m hm => by cases hm⟩
  apiKeys := Table.empty _
  tasks := Table.empty _
  events := Table.empty _
  webhooks := Table.empty _
  usage := Table.empty _
  apiKeys_tenant := Table.refers_empty
  tasks_tenant := Table.refers_empty
  tasks_createdBy := Table.refers_empty
  events_task := Table.refers_empty
  webhooks_tenant := Table.refers_empty
  usage_tenant := Table.refers_empty

variable (db : Tables)

/-- The tasks that are left with the tenants and users of `accounts`. -/
def tasksFor (accounts : Accounts) : TaskTable :=
  (db.tasks.cascade accounts.tenants fun t => some t.tenantId).setNull accounts.users
    Task.createdBy Task.clearCreatedBy Task.key_clearCreatedBy Task.check_clearCreatedBy

/-- The tables of `Accounts` have become `accounts`; the others follow by `ON DELETE`. -/
def setAccounts (accounts : Accounts) : Tables where
  accounts := accounts
  apiKeys := db.apiKeys.cascade accounts.tenants fun k => some k.tenantId
  tasks := db.tasksFor accounts
  events := db.events.cascade (db.tasksFor accounts) fun e => some e.taskId
  webhooks := db.webhooks.cascade accounts.tenants fun w => some w.tenantId
  usage := db.usage.cascade accounts.tenants fun r => some r.tenantId
  apiKeys_tenant := Table.refers_cascade _ _ _
  tasks_tenant := (Table.refers_cascade _ _ _).setNull fun _ => rfl
  tasks_createdBy := Table.refers_setNull fun _ => rfl
  events_task := Table.refers_cascade _ _ _
  webhooks_tenant := Table.refers_cascade _ _ _
  usage_tenant := Table.refers_cascade _ _ _

/-- A statement on `api_keys` has led to the rows of `apiKeys`. -/
def setApiKeys (apiKeys : ApiKeyTable) : Except DbError Tables :=
  if h : apiKeys.Refers db.accounts.tenants fun k => some k.tenantId then
    .ok { db with apiKeys, apiKeys_tenant := h }
  else .error (.constraint "api_keys_tenant_id_fkey")

/-- A statement on `tasks` has led to the rows of `tasks`; `task_events` follows. -/
def setTasks (tasks : TaskTable) : Except DbError Tables :=
  if htenant : tasks.Refers db.accounts.tenants fun t => some t.tenantId then
    if huser : tasks.Refers db.accounts.users Task.createdBy then
      .ok
        { db with
          tasks
          events := db.events.cascade tasks fun e => some e.taskId
          tasks_tenant := htenant
          tasks_createdBy := huser
          events_task := Table.refers_cascade _ _ _ }
    else .error (.constraint "tasks_created_by_fkey")
  else .error (.constraint "tasks_tenant_id_fkey")

/-- A statement on `task_events` has led to the rows of `events`. -/
def setEvents (events : EventTable) : Except DbError Tables :=
  if h : events.Refers db.tasks fun e => some e.taskId then .ok { db with events, events_task := h }
  else .error (.constraint "task_events_task_id_fkey")

/-- A statement on `webhooks` has led to the rows of `webhooks`. -/
def setWebhooks (webhooks : WebhookTable) : Except DbError Tables :=
  if h : webhooks.Refers db.accounts.tenants fun w => some w.tenantId then
    .ok { db with webhooks, webhooks_tenant := h }
  else .error (.constraint "webhooks_tenant_id_fkey")

/-- A statement on `usage_counters` has led to the rows of `usage`. -/
def setUsage (usage : UsageTable) : Except DbError Tables :=
  if h : usage.Refers db.accounts.tenants fun r => some r.tenantId then
    .ok { db with usage, usage_tenant := h }
  else .error (.constraint "usage_counters_tenant_id_fkey")

/-! ### Deletions -/

/-- `Tenant::delete`. -/
def deleteTenant (id : Uuid) : Bool × Tables :=
  ((db.accounts.tenants.row id).isSome,
    db.setAccounts
      (db.accounts.setTenants (db.accounts.tenants.delete fun t => decide (t.id = id))))

/-- `User::delete`. -/
def deleteUser (id : Uuid) : Bool × Tables :=
  ((db.accounts.users.row id).isSome,
    db.setAccounts (db.accounts.setUsers (db.accounts.users.delete fun u => decide (u.id = id))))

end Tables

end AxonTask
