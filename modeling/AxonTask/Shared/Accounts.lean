import AxonTask.Shared.ApiKey
import Mathlib.Data.List.Sort

/-!
# Users, tenants and memberships (`user.rs`, `tenant.rs`, `membership.rs` of `shared/src/models`)

The rows of the three tables and the statements on them.  A membership refers to a user and a
tenant; `Accounts` carries the proof that all memberships do.
-/

namespace AxonTask

open Lib

/-! ### Rows -/

/-- `User`. -/
structure User where
  id : Uuid
  email : String
  emailVerified : Bool
  passwordHash : String
  name : Option String
  avatarUrl : Option String
  createdAt : DateTime
  updatedAt : DateTime
  lastLoginAt : Option DateTime
deriving DecidableEq, Repr

/-- `CreateUser`. -/
structure CreateUser where
  email : String
  passwordHash : String
  name : Option String
  avatarUrl : Option String

namespace User

/-- The table `users`: its primary key and its column types. -/
def schema : Schema Uuid User where
  key := id
  check u :=
    !hasNul u.email && Tenant.varchar 255 u.passwordHash && u.name.all (Tenant.varchar 255) &&
      u.avatarUrl.all (Tenant.varchar 512)

@[simp] lemma schema_key (u : User) : schema.key u = u.id := rfl

/-- The row that `User::create` inserts, with the defaults of the table. -/
def new (data : CreateUser) (id : Uuid) (now : DateTime) : User where
  id := id
  email := data.email
  emailVerified := false
  passwordHash := data.passwordHash
  name := data.name
  avatarUrl := data.avatarUrl
  createdAt := now
  updatedAt := now
  lastLoginAt := none

end User

/-- The rows of `users`. -/
abbrev UserTable := Table User.schema

/-- `CreateTenant`. -/
structure CreateTenant where
  name : String
  plan : TenantPlan

/-- The row that `Tenant::create` inserts, with the defaults of the table. -/
def Tenant.new (data : CreateTenant) (id : Uuid) (now : DateTime) : Tenant where
  id := id
  name := data.name
  plan := data.plan.asStr
  stripeCustomerId := none
  stripeSubscriptionId := none
  settings := .object []
  createdAt := now
  updatedAt := now

/-- `MembershipRole`. -/
inductive MembershipRole
  | owner | admin | member | viewer
deriving DecidableEq, Repr

namespace MembershipRole

/-- `MembershipRole::can_manage_api_keys`. -/
def canManageApiKeys : MembershipRole → Bool
  | owner | admin => true
  | _ => false

/-- `MembershipRole::can_create_tasks`. -/
def canCreateTasks : MembershipRole → Bool
  | viewer => false
  | _ => true

end MembershipRole

/-- `Membership`. -/
structure Membership where
  tenantId : Uuid
  userId : Uuid
  role : MembershipRole
  createdAt : DateTime
deriving DecidableEq, Repr

/-- `CreateMembership`. -/
structure CreateMembership where
  tenantId : Uuid
  userId : Uuid
  role : MembershipRole

namespace Membership

/-- The table `memberships`, whose primary key consists of two columns. -/
def schema : Schema (Uuid × Uuid) Membership where
  key m := (m.tenantId, m.userId)
  check _ := true

@[simp] lemma schema_key (m : Membership) : schema.key m = (m.tenantId, m.userId) := rfl

/-- The row that `Membership::create` inserts. -/
def new (data : CreateMembership) (now : DateTime) : Membership where
  tenantId := data.tenantId
  userId := data.userId
  role := data.role
  createdAt := now

end Membership

/-- The rows of `memberships`. -/
abbrev MembershipTable := Table Membership.schema

/-! ### The tables together -/

/-- The tables `users`, `tenants` and `memberships`, with the foreign keys of the last. -/
structure Accounts where
  users : UserTable
  tenants : TenantTable
  memberships : MembershipTable
  refer : ∀ m ∈ memberships.rows,
    (users.row m.userId).isSome = true ∧ (tenants.row m.tenantId).isSome = true

/-- The message of Postgres for a value that does not fit its column. -/
def rejectedValue (texts : List String) : String :=
  if texts.any hasNul then "invalid byte sequence for encoding \"UTF8\": 0x00"
  else "value too long for type character varying(255)"

section Statements

variable (db : Accounts)

/-- `User::create`; the emails are compared as CITEXT, in lower case. -/
def User.create (lower : String → String) (data : CreateUser) (id : Uuid) (now : DateTime) :
    Except DbError (User × Accounts) :=
  let user := User.new data id now
  match h : db.users.insert user with
  | .error .check =>
    .error (.other (rejectedValue ([data.email, data.passwordHash] ++ data.name.toList ++
      data.avatarUrl.toList)))
  | .error .unique => .error (.constraint "users_pkey")
  | .ok users =>
    if db.users.rows.any fun u => decide (lower u.email = lower data.email) then
      .error (.constraint "users_email_key")
    else
      .ok (user,
        { db with
          users
          refer := fun m hm => ⟨Table.isSome_row_insert h (db.refer m hm).1, (db.refer m hm).2⟩ })

/-- `User::find_by_email`. The parameter is sent as TEXT, so that the CITEXT column is compared as
text, with its case. -/
def User.findByEmail (email : String) : Except DbError (Option User) :=
  if hasNul email then .error (.other (rejectedValue [email]))
  else .ok (db.users.rows.find? fun u => decide (u.email = email))

/-- The SET list of `User::update_last_login`. -/
def User.touch (now : DateTime) (u : User) : User := { u with lastLoginAt := some now }

/-- `User::update_last_login`. -/
def User.updateLastLogin (id : Uuid) (now : DateTime) : Except DbError (Bool × Accounts) :=
  match h : db.users.updateKey id (fun _ => true) (User.touch now) fun _ => rfl with
  | .error _ => .error (.other (rejectedValue []))
  | .ok (user, users) =>
    .ok (user.isSome,
      { db with
        users
        refer := fun m hm => by
          refine ⟨?_, (db.refer m hm).2⟩
          rw [Table.row_update (Table.update_of_updateKey h), Option.isSome_map]
          exact (db.refer m hm).1 })

/-- `Tenant::create`. -/
def Tenant.create (data : CreateTenant) (id : Uuid) (now : DateTime) :
    Except DbError (Tenant × Accounts) :=
  let tenant := Tenant.new data id now
  match h : db.tenants.insert tenant with
  | .error .check => .error (.other (rejectedValue [data.name]))
  | .error .unique => .error (.constraint "tenants_pkey")
  | .ok tenants =>
    .ok (tenant,
      { db with
        tenants
        refer := fun m hm => ⟨(db.refer m hm).1, Table.isSome_row_insert h (db.refer m hm).2⟩ })

/-- `Membership::create`. -/
def Membership.create (data : CreateMembership) (now : DateTime) :
    Except DbError (Membership × Accounts) :=
  let membership := Membership.new data now
  match h : db.memberships.insert membership with
  | .error _ => .error (.constraint "memberships_pkey")
  | .ok memberships =>
    if htenant : (db.tenants.row data.tenantId).isSome = true then
      if huser : (db.users.row data.userId).isSome = true then
        .ok (membership,
          { db with
            memberships
            refer := by
              intro m hm
              rcases (Table.mem_rows_insert h).1 hm with hm | rfl
              · exact db.refer m hm
              · exact ⟨huser, htenant⟩ })
      else .error (.constraint "memberships_user_id_fkey")
    else .error (.constraint "memberships_tenant_id_fkey")

/-- `Membership::update_role`. -/
def Membership.updateRole (tenantId userId : Uuid) (role : MembershipRole) :
    Except DbError (Option Membership × Accounts) :=
  match h : db.memberships.updateKey (tenantId, userId) (fun _ => true)
      (fun m => { m with role }) fun _ => rfl with
  | .error _ => .error (.other (rejectedValue []))
  | .ok (membership, memberships) =>
    .ok (membership,
      { db with
        memberships
        refer := by
          intro m hm
          rw [(Table.update_eq_ok (Table.update_of_updateKey h)).2] at hm
          obtain ⟨m₀, hm₀, rfl⟩ := Table.mem_updateRows hm
          split <;> exact db.refer m₀ hm₀ })

/-- `Membership::delete`. -/
def Membership.delete (tenantId userId : Uuid) : Bool × Accounts :=
  ((db.memberships.row (tenantId, userId)).isSome,
    { db with
      memberships := db.memberships.delete fun m =>
        decide (m.tenantId = tenantId) && decide (m.userId = userId)
      refer := fun m hm => db.refer m (List.mem_of_mem_filter hm) })

/-- The memberships of a user. -/
def Membership.ofUser (userId : Uuid) : List Membership :=
  db.memberships.rows.filter fun m => decide (m.userId = userId)

/-- `Membership::list_by_user`, the oldest first.  Memberships of one instant come in the order
of `ties`, when that is an order the database can return. -/
def Membership.listByUser (userId : Uuid) (ties : List Membership) : List Membership :=
  if ties.Perm (ofUser db userId) ∧ ties.Pairwise (fun a b => a.createdAt ≤ b.createdAt) then ties
  else (ofUser db userId).insertionSort fun a b => a.createdAt ≤ b.createdAt

lemma Membership.mem_listByUser {userId : Uuid} {ties : List Membership} {m : Membership} :
    m ∈ listByUser db userId ties ↔ m ∈ db.memberships.rows ∧ m.userId = userId := by
  have hperm : (listByUser db userId ties).Perm (ofUser db userId) := by
    unfold listByUser
    split
    · rename_i h
      exact h.1
    · exact List.perm_insertionSort _ _
  rw [hperm.mem_iff, ofUser, List.mem_filter, decide_eq_true_eq]

end Statements

/-! ### What the insertions do -/

section Insertions

variable {db db' : Accounts} {lower : String → String} {id : Uuid} {now : DateTime}

/-- **Inversion of `User::create`.** -/
lemma User.create_eq_ok {data : CreateUser} {user : User}
    (h : User.create db lower data id now = .ok (user, db')) :
    user = User.new data id now ∧ db.users.row id = none ∧
      db'.users.rows = db.users.rows ++ [user] ∧ db'.tenants = db.tenants ∧
      db'.memberships = db.memberships := by
  unfold User.create at h
  simp only at h
  split at h
  · cases h
  · cases h
  · rename_i users hinsert
    split at h
    · cases h
    · cases h
      obtain ⟨-, hfresh, hrows⟩ := Table.insert_eq_ok hinsert
      exact ⟨rfl, hfresh, hrows, rfl, rfl⟩

/-- A user is accepted when the values fit their columns and the id and the email are free. -/
lemma User.exists_create_iff {data : CreateUser} :
    (∃ user db', User.create db lower data id now = .ok (user, db')) ↔
      User.schema.check (.new data id now) = true ∧ db.users.row id = none ∧
        ∀ u ∈ db.users.rows, lower u.email ≠ lower data.email := by
  have hany : (db.users.rows.any fun u => decide (lower u.email = lower data.email)) = false ↔
      ∀ u ∈ db.users.rows, lower u.email ≠ lower data.email := by simp
  unfold User.create
  simp only
  constructor
  · rintro ⟨user, db', h⟩
    split at h
    · cases h
    · cases h
    · rename_i users hinsert
      obtain ⟨hcheck, hfree, -⟩ := Table.insert_eq_ok hinsert
      split at h
      · cases h
      · rename_i hemail
        exact ⟨hcheck, hfree, hany.1 (Bool.eq_false_iff.2 hemail)⟩
  · rintro ⟨hcheck, hfree, hemail⟩
    obtain ⟨users, hinsert⟩ := Table.exists_insert (T := db.users) hcheck hfree
    split
    · rename_i h
      rw [hinsert] at h
      cases h
    · rename_i h
      rw [hinsert] at h
      cases h
    · rw [if_neg (Bool.eq_false_iff.1 (hany.2 hemail))]
      exact ⟨_, _, rfl⟩

lemma User.memberships_updateLastLogin {updated : Bool}
    (h : User.updateLastLogin db id now = .ok (updated, db')) :
    db'.memberships = db.memberships := by
  unfold User.updateLastLogin at h
  split at h
  · cases h
  · cases h
    rfl

/-- **Inversion of `Tenant::create`.** -/
lemma Tenant.create_eq_ok {data : CreateTenant} {tenant : Tenant}
    (h : Tenant.create db data id now = .ok (tenant, db')) :
    tenant = Tenant.new data id now ∧ db.tenants.row id = none ∧
      db'.tenants.rows = db.tenants.rows ++ [tenant] ∧ db'.users = db.users ∧
      db'.memberships = db.memberships := by
  unfold Tenant.create at h
  simp only at h
  split at h
  · cases h
  · cases h
  · rename_i tenants hinsert
    cases h
    obtain ⟨-, hfresh, hrows⟩ := Table.insert_eq_ok hinsert
    exact ⟨rfl, hfresh, hrows, rfl, rfl⟩

/-- A tenant is accepted when its values fit their columns and its id is free. -/
lemma Tenant.exists_create_iff {data : CreateTenant} :
    (∃ tenant db', Tenant.create db data id now = .ok (tenant, db')) ↔
      Tenant.schema.check (.new data id now) = true ∧ db.tenants.row id = none := by
  unfold Tenant.create
  simp only
  constructor
  · rintro ⟨tenant, db', h⟩
    split at h
    · cases h
    · cases h
    · rename_i tenants hinsert
      obtain ⟨hcheck, hfree, -⟩ := Table.insert_eq_ok hinsert
      exact ⟨hcheck, hfree⟩
  · rintro ⟨hcheck, hfree⟩
    obtain ⟨tenants, hinsert⟩ := Table.exists_insert (T := db.tenants) hcheck hfree
    split
    · rename_i h
      rw [hinsert] at h
      cases h
    · rename_i h
      rw [hinsert] at h
      cases h
    · exact ⟨_, _, rfl⟩

/-- **Inversion of `Membership::create`.** -/
lemma Membership.create_eq_ok {data : CreateMembership} {m : Membership}
    (h : Membership.create db data now = .ok (m, db')) :
    m = Membership.new data now ∧ db'.memberships.rows = db.memberships.rows ++ [m] ∧
      db'.users = db.users ∧ db'.tenants = db.tenants := by
  unfold Membership.create at h
  simp only at h
  split at h
  · cases h
  · rename_i memberships hinsert
    split at h
    · split at h
      · cases h
        exact ⟨rfl, (Table.insert_eq_ok hinsert).2.2, rfl, rfl⟩
      · cases h
    · cases h

/-- A user can be made a member of a tenant that is not yet referred to. -/
lemma Membership.exists_create {data : CreateMembership}
    (huser : (db.users.row data.userId).isSome = true)
    (htenant : (db.tenants.row data.tenantId).isSome = true)
    (hfree : ∀ m ∈ db.memberships.rows, m.tenantId ≠ data.tenantId) :
    ∃ m db', Membership.create db data now = .ok (m, db') := by
  have hrow : db.memberships.row (Membership.schema.key (Membership.new data now)) = none :=
    Table.row_eq_none_iff.2 fun m hm hkey => hfree m hm (congrArg Prod.fst hkey)
  obtain ⟨memberships, hinsert⟩ := Table.exists_insert (T := db.memberships) rfl hrow
  unfold Membership.create
  simp only
  split
  · rename_i v hrejected
    rw [hinsert] at hrejected
    cases hrejected
  · rw [dif_pos htenant, dif_pos huser]
    exact ⟨_, _, rfl⟩

end Insertions

end AxonTask
