import AxonTask.Worker.Cascades

/-!
# Deleting tenants and users (`Tenant::delete`, `User::delete`)

One statement deletes a tenant with all that belongs to it, and no other tenant notices; one
statement deletes a user, whose tasks stay with their tenants.  What has been deleted does not
come back through any other statement, nor through an append that was under way.
-/

namespace AxonTask

open Lib

/-- What the tables hold about a tenant. -/
structure TenantData where
  tenant : Option Tenant
  memberships : List Membership
  apiKeys : List ApiKey
  tasks : List Task
  events : List TaskEvent
  webhooks : List Webhook
  usage : List UsageCounter

/-- Nothing is left. -/
def TenantData.nothing : TenantData := ⟨none, [], [], [], [], [], []⟩

namespace Tables

/-- The rows that belong to a tenant. -/
def dataOf (db : Tables) (id : Uuid) : TenantData where
  tenant := db.accounts.tenants.row id
  memberships := db.accounts.memberships.rows.filter fun m => decide (m.tenantId = id)
  apiKeys := db.apiKeys.rows.filter (ApiKey.isOf id)
  tasks := db.tasks.rows.filter (Task.isOf id)
  events := db.events.rows.filter fun e => (db.tasks.row e.taskId).any (Task.isOf id)
  webhooks := db.webhooks.rows.filter fun w => decide (w.tenantId = id)
  usage := db.usage.rows.filter fun r => decide (r.tenantId = id)

variable {db : Tables} {id j : Uuid}

/-- A tenant that is not there has nothing. -/
lemma dataOf_eq_nothing (h : db.accounts.tenants.row id = none) : db.dataOf id = .nothing := by
  have hmemberships : db.accounts.memberships.Refers db.accounts.tenants fun m => some m.tenantId :=
    Table.refers_iff.2 fun m hm k hk => by cases hk; exact (db.accounts.refer m hm).2
  have hevents :
      (db.events.rows.filter fun e => (db.tasks.row e.taskId).any (Task.isOf id)) = [] := by
    refine List.filter_eq_nil_iff.2 ?_
    intro e _ hsel
    obtain ⟨t, ht, hown⟩ := (Option.any_eq_true _ _).1 hsel
    have hsome := Table.refers_iff.1 db.tasks_tenant t (Table.mem_of_row ht) t.tenantId rfl
    rw [of_decide_eq_true hown, h] at hsome
    cases hsome
  simp only [dataOf, TenantData.nothing, h, hevents, TenantData.mk.injEq, true_and]
  refine ⟨?_, ?_, ?_, ?_, ?_⟩
  · exact hmemberships.filter_eq_nil h fun m hm => congrArg some (of_decide_eq_true hm)
  · exact db.apiKeys_tenant.filter_eq_nil h fun k hk => congrArg some (of_decide_eq_true hk)
  · exact db.tasks_tenant.filter_eq_nil h fun t ht => congrArg some (of_decide_eq_true ht)
  · exact db.webhooks_tenant.filter_eq_nil h fun w hw => congrArg some (of_decide_eq_true hw)
  · exact db.usage_tenant.filter_eq_nil h fun r hr => congrArg some (of_decide_eq_true hr)

/-! ### The deletion of a tenant -/

/-- The tenants that are left. -/
lemma row_tenants_deleteTenant (db : Tables) (id k : Uuid) :
    (db.deleteTenant id).2.accounts.tenants.row k =
      if k = id then none else db.accounts.tenants.row k :=
  Table.row_delete_key db.accounts.tenants id k

/-- The tasks that are left. -/
lemma tasks_deleteTenant (db : Tables) (id : Uuid) :
    (db.deleteTenant id).2.tasks =
      db.tasks.cascade (db.deleteTenant id).2.accounts.tenants fun t => some t.tenantId :=
  Table.Refers.setNull_eq_self Task.key_clearCreatedBy Task.check_clearCreatedBy
    (db.tasks_createdBy.cascade _ _)

/-- A row of another tenant has kept its tenant. -/
lemma dangles_deleteTenant {ρ : Type*} {tenantId : ρ → Uuid} {r : ρ} (hne : j ≠ id)
    (hr : tenantId r = j) (hsome : (db.accounts.tenants.row j).isSome = true) :
    Table.dangles (db.deleteTenant id).2.accounts.tenants (fun r => some (tenantId r)) r =
      false := by
  rw [Table.dangles_eq_false_iff]
  rintro k ⟨⟩
  rw [hr, row_tenants_deleteTenant, if_neg hne]
  exact hsome

/-- The tasks of another tenant are left. -/
lemma row_tasks_deleteTenant (hne : j ≠ id) (t : Uuid) :
    ((db.deleteTenant id).2.tasks.row t).any (Task.isOf j) =
      (db.tasks.row t).any (Task.isOf j) := by
  rw [tasks_deleteTenant, Table.cascade, Table.row_delete]
  cases ht : db.tasks.row t with
  | none => rfl
  | some task =>
    by_cases hown : task.tenantId = j
    · have hsome := Table.refers_iff.1 db.tasks_tenant task (Table.mem_of_row ht) _ rfl
      rw [Option.filter_some, dangles_deleteTenant hne hown (hown ▸ hsome)]
      rfl
    · rw [Option.filter_some]
      split <;> simp [Task.isOf, hown]

/-- **Another tenant does not notice.** -/
lemma dataOf_deleteTenant (hne : j ≠ id) : (db.deleteTenant id).2.dataOf j = db.dataOf j := by
  cases hj : db.accounts.tenants.row j with
  | none =>
    rw [dataOf_eq_nothing hj, dataOf_eq_nothing]
    rw [row_tenants_deleteTenant, if_neg hne, hj]
  | some tenant =>
    have hsome : (db.accounts.tenants.row j).isSome = true := by rw [hj]; rfl
    simp only [dataOf, TenantData.mk.injEq]
    refine ⟨?_, ?_, ?_, ?_, ?_, ?_, ?_⟩
    · rw [row_tenants_deleteTenant, if_neg hne]
    · exact Table.filter_cascade fun m _ hm => dangles_deleteTenant hne (of_decide_eq_true hm) hsome
    · exact Table.filter_cascade fun k _ hk => dangles_deleteTenant hne (of_decide_eq_true hk) hsome
    · rw [tasks_deleteTenant]
      exact Table.filter_cascade fun t _ ht => dangles_deleteTenant hne (of_decide_eq_true ht) hsome
    · simp only [row_tasks_deleteTenant hne]
      refine Table.filter_cascade ?_
      intro e _ hsel
      rw [Table.dangles_eq_false_iff]
      rintro k ⟨⟩
      rw [← row_tasks_deleteTenant hne] at hsel
      obtain ⟨t, ht, -⟩ := (Option.any_eq_true _ _).1 hsel
      exact Option.isSome_iff_exists.2 ⟨t, ht⟩
    · exact Table.filter_cascade fun w _ hw => dangles_deleteTenant hne (of_decide_eq_true hw) hsome
    · exact Table.filter_cascade fun r _ hr => dangles_deleteTenant hne (of_decide_eq_true hr) hsome

/-! ### The deletion of a user -/

/-- The users that are left. -/
lemma row_users_deleteUser (db : Tables) (id k : Uuid) :
    (db.deleteUser id).2.accounts.users.row k = if k = id then none else db.accounts.users.row k :=
  Table.row_delete_key db.accounts.users id k

/-- The tasks of the user have lost their creator. -/
lemma row_tasks_deleteUser (db : Tables) (id t : Uuid) :
    (db.deleteUser id).2.tasks.row t = (db.tasks.row t).map fun task =>
      if task.createdBy = some id then task.clearCreatedBy else task := by
  have hrow : (db.deleteUser id).2.tasks.row t = (db.tasks.row t).map fun task =>
      if Table.dangles (db.deleteUser id).2.accounts.users Task.createdBy task then
        task.clearCreatedBy
      else task := by
    have hcascade : (db.tasks.cascade db.accounts.tenants fun t => some t.tenantId) = db.tasks :=
      db.tasks_tenant.cascade_eq_self
    rw [← hcascade]
    exact Table.row_setNull Task.key_clearCreatedBy Task.check_clearCreatedBy t
  rw [hrow]
  refine Option.map_congr ?_
  intro task ht
  have hdangles : Table.dangles (db.deleteUser id).2.accounts.users Task.createdBy task =
      decide (task.createdBy = some id) := by
    cases hcreator : task.createdBy with
    | none => simp [Table.dangles, hcreator]
    | some k =>
      have hsome := Table.refers_iff.1 db.tasks_createdBy task (Table.mem_of_row ht) k hcreator
      rw [Table.dangles, hcreator, Option.any_some, row_users_deleteUser]
      by_cases hk : k = id
      · simp [hk]
      · rw [if_neg hk, Option.isNone_eq_false_iff.2 hsome]
        simp [hk]
  rw [hdangles]
  by_cases hcreator : task.createdBy = some id <;> simp [hcreator]

/-- Every task is left, and so is every event. -/
lemma events_deleteUser (db : Tables) (id : Uuid) : (db.deleteUser id).2.events = db.events := by
  refine Table.Refers.cascade_eq_self (db.events_task.mono ?_)
  intro t ht
  have hrow := row_tasks_deleteUser db id t
  rw [show (db.deleteUser id).2.tasks = db.tasksFor _ from rfl] at hrow
  rw [hrow, Option.isSome_map]
  exact ht

end Tables

namespace SchemaRace

variable {κ : Type*} [DecidableEq κ] {L : Libs} {lower : String → String}

/-- The step creates the tenant. -/
def CreatesTenant (id : Uuid) : SchemaStep κ → Prop
  | .statement st _ => st.newTenant = some id
  | .append _ => False

/-- The step creates the user. -/
def CreatesUser (id : Uuid) : SchemaStep κ → Prop
  | .statement st _ => st.newUser = some id
  | .append _ => False

/-- The tenants and users of a state are those of the state before, and the created ones. -/
lemma isSome_of_step {s s' : SchemaRace κ} {a : SchemaStep κ}
    (h : (machine κ L lower).step s a = some s') (id : Uuid) :
    ((s'.db.accounts.tenants.row id).isSome = true →
      (s.db.accounts.tenants.row id).isSome = true ∨ CreatesTenant id a) ∧
    ((s'.db.accounts.users.row id).isSome = true →
      (s.db.accounts.users.row id).isSome = true ∨ CreatesUser id a) := by
  rcases step_cases h with ⟨st, now, rfl, hstep, -⟩ | ⟨k, data, hdb, -⟩ |
    ⟨k, n, ts, -, -, -, haccounts, -⟩ | ⟨k, e, hdb, -⟩
  · have heffect := Tables.effect_of_step hstep
    exact ⟨heffect.tenants id, heffect.users id⟩
  · exact ⟨fun h => Or.inl (hdb ▸ h), fun h => Or.inl (hdb ▸ h)⟩
  · exact ⟨fun h => Or.inl (haccounts ▸ h), fun h => Or.inl (haccounts ▸ h)⟩
  · exact ⟨fun h => Or.inl (hdb ▸ h), fun h => Or.inl (hdb ▸ h)⟩

/-- **Deleting a tenant.**  In every state the statement succeeds; afterwards the tables hold
nothing about the tenant, in every state reached without creating a tenant of its id.  What
they hold about every other tenant is the same before and after, down to the events of its
tasks, and so are all users. -/
theorem tenant_erasure (s : SchemaRace κ) (id : Uuid) (now : DateTime) :
    ∃ s₁, (machine κ L lower).step s (.statement (.account (.deleteTenant id)) now) = some s₁ ∧
      (∀ j, j ≠ id → s₁.db.dataOf j = s.db.dataOf j) ∧
      s₁.db.accounts.users = s.db.accounts.users ∧
      ∀ l s₂, (machine κ L lower).Run (fun _ a => ¬ CreatesTenant id a) s₁ l s₂ →
        s₂.db.dataOf id = .nothing := by
  refine ⟨{ s with db := (s.db.deleteTenant id).2, issued := s.issued ++ [] }, rfl,
    fun j hne => Tables.dataOf_deleteTenant hne, rfl, ?_⟩
  intro l s₂ hrun
  refine Tables.dataOf_eq_nothing ?_
  refine hrun.preserves (P := fun u => u.db.accounts.tenants.row id = none) ?_ ?_
  · intro u a u' hnot hnone hstep
    rw [← Option.not_isSome_iff_eq_none]
    intro hsome
    rcases (isSome_of_step hstep id).1 hsome with hold | hcreates
    · rw [hnone] at hold
      cases hold
    · exact hnot hcreates
  · exact (Tables.row_tenants_deleteTenant s.db id id).trans (if_pos rfl)

/-- **Deleting a user.**  In every state the statement succeeds.  Tenants, keys, webhooks,
counters and the whole event log stay as they are; the memberships of the user go, and
every task stays, without its creator if that was the user.  No membership and no task
refers to the user in any state reached without creating a user of this id. -/
theorem user_deletion (s : SchemaRace κ) (id : Uuid) (now : DateTime) :
    ∃ s₁, (machine κ L lower).step s (.statement (.account (.deleteUser id)) now) = some s₁ ∧
      (s₁.db.accounts.tenants = s.db.accounts.tenants ∧ s₁.db.apiKeys = s.db.apiKeys ∧
        s₁.db.webhooks = s.db.webhooks ∧ s₁.db.usage = s.db.usage ∧ s₁.db.events = s.db.events) ∧
      (∀ m, m ∈ s₁.db.accounts.memberships.rows ↔
        m ∈ s.db.accounts.memberships.rows ∧ m.userId ≠ id) ∧
      (∀ t, s₁.db.tasks.row t = (s.db.tasks.row t).map fun task =>
        if task.createdBy = some id then task.clearCreatedBy else task) ∧
      ∀ l s₂, (machine κ L lower).Run (fun _ a => ¬ CreatesUser id a) s₁ l s₂ →
        (∀ m ∈ s₂.db.accounts.memberships.rows, m.userId ≠ id) ∧
        ∀ t ∈ s₂.db.tasks.rows, t.createdBy ≠ some id := by
  refine ⟨{ s with db := (s.db.deleteUser id).2, issued := s.issued ++ [] }, rfl,
    ⟨rfl, s.db.apiKeys_tenant.cascade_eq_self, s.db.webhooks_tenant.cascade_eq_self,
      s.db.usage_tenant.cascade_eq_self, s.db.events_deleteUser id⟩, ?_,
    s.db.row_tasks_deleteUser id, ?_⟩
  · intro m
    refine Table.mem_cascade.trans (and_congr_right fun hm => ?_)
    have huser := (s.db.accounts.refer m hm).1
    rw [Table.dangles_eq_false_iff]
    have hrow : (s.db.accounts.users.delete fun u => decide (u.id = id)).row m.userId =
        if m.userId = id then none else s.db.accounts.users.row m.userId :=
      Table.row_delete_key s.db.accounts.users id m.userId
    constructor
    · rintro hleft rfl
      have hsome := hleft _ rfl
      rw [hrow, if_pos rfl] at hsome
      cases hsome
    · rintro hne k ⟨⟩
      rw [hrow, if_neg hne]
      exact huser
  · intro l s₂ hrun
    have hnone : s₂.db.accounts.users.row id = none := by
      refine hrun.preserves (P := fun u => u.db.accounts.users.row id = none) ?_ ?_
      · intro u a u' hnot hnone hstep
        rw [← Option.not_isSome_iff_eq_none]
        intro hsome
        rcases (isSome_of_step hstep id).2 hsome with hold | hcreates
        · rw [hnone] at hold
          cases hold
        · exact hnot hcreates
      · exact (s.db.row_users_deleteUser id id).trans (if_pos rfl)
    refine ⟨?_, ?_⟩
    · rintro m hm rfl
      have hsome := (s₂.db.accounts.refer m hm).1
      rw [hnone] at hsome
      cases hsome
    · intro t ht hcreator
      have hsome := Table.refers_iff.1 s₂.db.tasks_createdBy t ht id hcreator
      rw [hnone] at hsome
      cases hsome

end SchemaRace

end AxonTask
