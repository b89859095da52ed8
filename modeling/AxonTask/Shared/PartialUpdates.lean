import AxonTask.Lib.UpdateQuery
import AxonTask.Shared.Accounts

/-!
# Partial updates (`tenant.rs`, `user.rs` and `webhook.rs` of `shared/src/models`)

`Tenant::update`, `User::update` and `Webhook::update` assign the columns of the fields that
are present.  Each of them numbers the placeholders of its statement in one pass over the
fields and binds their values in another.
-/

namespace AxonTask

open Lib

/-! ### Values of columns -/

/-- The values that are bound to parameters. -/
inductive SqlParam
  | null
  | uuid (id : Uuid)
  | text (s : String)
  | bool (b : Bool)
  | jsonb (v : JsonValue)
  | bytea (b : Bytes)
  | textArray (l : List String)

namespace SqlParam

/-- A text that may be NULL. -/
def ofOption : Option String → SqlParam
  | some s => text s
  | none => null

/-- A text, or NULL. -/
def toOption : SqlParam → Option (Option String)
  | text s => some (some s)
  | null => some none
  | _ => none

/-- The character U+0000 is stored in no text. -/
def rejects : SqlParam → Bool
  | text s => hasNul s
  | jsonb v => v.hasNul
  | textArray l => l.any hasNul
  | _ => false

/-- The key of a row. -/
def keyOf : SqlParam → Option Uuid
  | uuid id => some id
  | _ => none

end SqlParam

/-- The fields that the first object has and the second has not, and those of the second. -/
def mergeFields (a b : List (String × JsonValue)) : List (String × JsonValue) :=
  a.filter (fun kv => !(b.map Prod.fst).contains kv.1) ++ b

/-- The operator `||` on JSONB: two objects are merged by their keys; otherwise values that
are not arrays stand for arrays of one element.  The order of fields is not modelled. -/
def JsonValue.concat : JsonValue → JsonValue → JsonValue
  | .object a, .object b => .object (mergeFields a b)
  | .array a, .array b => .array (a ++ b)
  | .array a, v => .array (a ++ [v])
  | v, .array b => .array (v :: b)
  | v, w => .array [v, w]

lemma lookup_filter_key {β : Type*} (p : String → Bool) (a : List (String × β)) (k : String) :
    (a.filter fun kv => p kv.1).lookup k = if p k then a.lookup k else none := by
  induction a with
  | nil => simp
  | cons kv a ih =>
    obtain ⟨name, v⟩ := kv
    by_cases hkey : k = name
    · subst hkey
      cases hp : p k with
      | true => simp [hp]
      | false => simp [hp, ih]
    · have hne : (k == name) = false := by simp [hkey]
      cases hp : p name with
      | true => simp [hp, ih, List.lookup_cons, hne]
      | false => simp [hp, ih, List.lookup_cons, hne]

/-- The second object decides about the keys that it has. -/
lemma lookup_mergeFields (a b : List (String × JsonValue)) (k : String) :
    (mergeFields a b).lookup k = (b.lookup k).or (a.lookup k) := by
  rw [mergeFields, List.lookup_append, lookup_filter_key fun key => !(b.map Prod.fst).contains key]
  cases hlookup : b.lookup k with
  | none =>
    have hfree : k ∉ b.map Prod.fst := by
      intro hmem
      obtain ⟨kv, hkv, rfl⟩ := List.mem_map.1 hmem
      exact absurd (List.lookup_eq_none_iff.1 hlookup kv hkv) (by simp)
    simp [hfree]
  | some v =>
    have hmem : k ∈ b.map Prod.fst := by
      have hsome : (b.lookup k).isSome = true := by rw [hlookup]; rfl
      obtain ⟨kv, hkv, hk⟩ := List.lookup_isSome_iff.1 hsome
      rw [beq_iff_eq.1 hk]
      exact List.mem_map_of_mem hkv
    simp [hmem]

/-- The error for a text that does not fit its column. -/
def tooLong : DbError := .other "value too long for the type of its column"

/-- The error of Postgres for a rejected update; `violated` is the one for a value that its
column does not take. -/
def updateErrorOf (unique : String) (violated : DbError) : UpdateError → DbError
  | .badParameter => .other "invalid byte sequence for encoding \"UTF8\": 0x00"
  | .badType => .other "the column is of another type"
  | .violation _ => violated
  | .conflict => .constraint unique

lemma mapError_eq_ok_iff {ε ε' α : Type*} {f : ε → ε'} {r : Except ε α} {a : α} :
    r.mapError f = .ok a ↔ r = .ok a := by
  cases r <;> simp [Except.mapError]

/-! ### `Tenant::update` -/

/-- `UpdateTenant`. -/
structure UpdateTenant where
  name : Option String := none
  plan : Option TenantPlan := none
  stripeCustomerId : Option String := none
  stripeSubscriptionId : Option String := none
  settings : Option JsonValue := none

namespace Tenant

/-- The columns that `Tenant::update` assigns. -/
inductive Column
  | name | plan | stripeCustomerId | stripeSubscriptionId | settings

/-- The table `tenants` for updates. -/
def target : UpdateTarget Column SqlParam Tenant Uuid where
  get
    | .name, t => .text t.name
    | .plan, t => .text t.plan
    | .stripeCustomerId, t => .ofOption t.stripeCustomerId
    | .stripeSubscriptionId, t => .ofOption t.stripeSubscriptionId
    | .settings, t => .jsonb t.settings
  set
    | .name, .text s, t => some { t with name := s }
    | .plan, .text s, t => some { t with plan := s }
    | .stripeCustomerId, v, t => v.toOption.map fun s => { t with stripeCustomerId := s }
    | .stripeSubscriptionId, v, t => v.toOption.map fun s => { t with stripeSubscriptionId := s }
    | .settings, .jsonb v, t => some { t with settings := v }
    | _, _, _ => none
  concat
    | .jsonb v, .jsonb w => some (.jsonb (v.concat w))
    | _, _ => none
  rejects := SqlParam.rejects
  keyOf := SqlParam.keyOf
  conflicts _ _ := false

/-- The SET list of `Tenant::update`. -/
def updateQuery (data : UpdateTenant) : SetList Column :=
  let query : SetList Column := {}
  let query := query.push data.name.isSome .name
  let query := query.push data.plan.isSome .plan
  let query := query.push data.stripeCustomerId.isSome .stripeCustomerId
  let query := query.push data.stripeSubscriptionId.isSome .stripeSubscriptionId
  query.pushConcat data.settings.isSome .settings

/-- The parameters of `Tenant::update`. -/
def updateParams (id : Uuid) (data : UpdateTenant) : List SqlParam :=
  let q : List SqlParam := [.uuid id]
  let q := bindValue q (data.name.map .text)
  let q := bindValue q (data.plan.map fun plan => .text plan.asStr)
  let q := bindValue q (data.stripeCustomerId.map .text)
  let q := bindValue q (data.stripeSubscriptionId.map .text)
  bindValue q (data.settings.map .jsonb)

/-- `Tenant::update`. -/
def update (T : TenantTable) (id : Uuid) (data : UpdateTenant) (now : DateTime) :
    Except DbError (Option Tenant) × TenantTable :=
  let (tenant, T') := execUpdate target (fun t => { t with updatedAt := now }) T
    (updateQuery data).items (updateParams id data)
  (tenant.mapError (updateErrorOf "tenants_pkey" tooLong), T')

/-- The columns of the fields that are present have their values, the settings are merged, and
all other columns but `updated_at` are as they were. -/
structure Assigned (data : UpdateTenant) (old new : Tenant) : Prop where
  eq : new =
    { old with
      name := data.name.getD old.name
      plan := (data.plan.map TenantPlan.asStr).getD old.plan
      stripeCustomerId := data.stripeCustomerId.or old.stripeCustomerId
      stripeSubscriptionId := data.stripeSubscriptionId.or old.stripeSubscriptionId
      settings := new.settings
      updatedAt := new.updatedAt }
  settings_absent : data.settings = none → new.settings = old.settings
  settings_merged : ∀ a b, old.settings = .object a → data.settings = some (.object b) →
    ∃ c, new.settings = .object c ∧ ∀ k, c.lookup k = (b.lookup k).or (a.lookup k)

/-- The fields of the two passes. -/
def updateFields (data : UpdateTenant) : List (UpdateField Column SqlParam) :=
  [⟨.name, false, data.name.map .text⟩,
    ⟨.plan, false, data.plan.map fun plan => .text plan.asStr⟩,
    ⟨.stripeCustomerId, false, data.stripeCustomerId.map .text⟩,
    ⟨.stripeSubscriptionId, false, data.stripeSubscriptionId.map .text⟩,
    ⟨.settings, true, data.settings.map .jsonb⟩]

lemma updateQuery_eq (data : UpdateTenant) : updateQuery data = .ofFields (updateFields data) := by
  simp [updateQuery, SetList.ofFields, updateFields, SetList.push, SetList.pushConcat]

lemma updateParams_eq (id : Uuid) (data : UpdateTenant) :
    updateParams id data = bindFields (.uuid id) (updateFields data) := rfl

/-- What the fields assign. -/
lemma assignFields_updateFields (data : UpdateTenant) (old t : Tenant) :
    assignFields target.toColumns old (updateFields data) t = some
      { t with
        name := data.name.getD t.name
        plan := (data.plan.map TenantPlan.asStr).getD t.plan
        stripeCustomerId := data.stripeCustomerId.or t.stripeCustomerId
        stripeSubscriptionId := data.stripeSubscriptionId.or t.stripeSubscriptionId
        settings := data.settings.elim t.settings old.settings.concat } := by
  obtain ⟨name, plan, stripeCustomerId, stripeSubscriptionId, settings⟩ := data
  cases name <;> cases plan <;> cases stripeCustomerId <;> cases stripeSubscriptionId <;>
    cases settings <;> rfl

/-- The row that `Tenant::update` writes. -/
def updated (data : UpdateTenant) (now : DateTime) (old : Tenant) : Tenant :=
  { old with
    name := data.name.getD old.name
    plan := (data.plan.map TenantPlan.asStr).getD old.plan
    stripeCustomerId := data.stripeCustomerId.or old.stripeCustomerId
    stripeSubscriptionId := data.stripeSubscriptionId.or old.stripeSubscriptionId
    settings := data.settings.elim old.settings old.settings.concat
    updatedAt := now }

/-- **When `Tenant::update` returns a row**: no text has a U+0000, the tenant is there, and the
row satisfies the constraints. -/
lemma update_eq_ok_some_iff {T : TenantTable} {id : Uuid} {data : UpdateTenant} {now : DateTime}
    {row : Tenant} : (update T id data now).1 = .ok (some row) ↔
      (updateParams id data).any SqlParam.rejects = false ∧
        ∃ old, T.row id = some old ∧ row = updated data now old ∧ schema.check row = true := by
  rw [update, mapError_eq_ok_iff, updateQuery_eq, updateParams_eq]
  refine (execUpdate_ofFields_eq_ok_some_iff (k := id) rfl
    (fun old => assignFields_updateFields data old _) fun old hold => ?_).trans ?_
  · have hid : old.id = id := Table.key_of_row hold
    exact hid
  · exact and_congr_right fun _ => exists_congr fun old => and_congr_right fun _ =>
      and_congr_right fun _ => and_iff_right rfl

/-- **`Tenant::update` assigns what it is given.** -/
lemma updatesRow_update (T : TenantTable) (id : Uuid) (data : UpdateTenant) (now : DateTime) :
    UpdatesRow T id (Assigned data) (update T id data now) := by
  rw [update, updateQuery_eq, updateParams_eq]
  refine (updatesRow_execUpdate_ofFields rfl
    (fun old => assignFields_updateFields data old _) ?_).mapError _
  intro old hold
  have hid : old.id = id := Table.key_of_row hold
  refine ⟨hid, rfl, ?_, ?_⟩
  · intro hnone
    simp only [hnone, Option.elim_none]
  · intro a b ha hb
    refine ⟨mergeFields a b, ?_, lookup_mergeFields a b⟩
    simp only [hb, ha, Option.elim_some, JsonValue.concat]

end Tenant

/-! ### `User::update` -/

/-- `UpdateUser`. -/
structure UpdateUser where
  email : Option String := none
  passwordHash : Option String := none
  name : Option (Option String) := none
  avatarUrl : Option (Option String) := none
  emailVerified : Option Bool := none

namespace User

/-- The columns that `User::update` assigns. -/
inductive Column
  | email | passwordHash | name | avatarUrl | emailVerified

/-- The table `users` for updates; the emails are compared as CITEXT, in lower case. -/
def target (lower : String → String) : UpdateTarget Column SqlParam User Uuid where
  get
    | .email, u => .text u.email
    | .passwordHash, u => .text u.passwordHash
    | .name, u => .ofOption u.name
    | .avatarUrl, u => .ofOption u.avatarUrl
    | .emailVerified, u => .bool u.emailVerified
  set
    | .email, .text s, u => some { u with email := s }
    | .passwordHash, .text s, u => some { u with passwordHash := s }
    | .name, v, u => v.toOption.map fun s => { u with name := s }
    | .avatarUrl, v, u => v.toOption.map fun s => { u with avatarUrl := s }
    | .emailVerified, .bool b, u => some { u with emailVerified := b }
    | _, _, _ => none
  concat _ _ := none
  rejects := SqlParam.rejects
  keyOf := SqlParam.keyOf
  conflicts others u := others.any fun other => decide (lower other.email = lower u.email)

/-- The SET list of `User::update`. -/
def updateQuery (data : UpdateUser) : SetList Column :=
  let query : SetList Column := {}
  let query := query.push data.email.isSome .email
  let query := query.push data.passwordHash.isSome .passwordHash
  let query := query.push data.name.isSome .name
  let query := query.push data.avatarUrl.isSome .avatarUrl
  query.push data.emailVerified.isSome .emailVerified

/-- The parameters of `User::update`. -/
def updateParams (id : Uuid) (data : UpdateUser) : List SqlParam :=
  let q : List SqlParam := [.uuid id]
  let q := bindValue q (data.email.map .text)
  let q := bindValue q (data.passwordHash.map .text)
  let q := bindValue q (data.name.map .ofOption)
  let q := bindValue q (data.avatarUrl.map .ofOption)
  bindValue q (data.emailVerified.map .bool)

/-- `User::update`. -/
def update (lower : String → String) (T : UserTable) (id : Uuid) (data : UpdateUser)
    (now : DateTime) : Except DbError (Option User) × UserTable :=
  let (user, T') := execUpdate (target lower) (fun u => { u with updatedAt := now }) T
    (updateQuery data).items (updateParams id data)
  (user.mapError (updateErrorOf "users_email_key" tooLong), T')

/-- The columns of the fields that are present have their values, and all other columns but
`updated_at` are as they were. -/
def Assigned (data : UpdateUser) (old new : User) : Prop :=
  new =
    { old with
      email := data.email.getD old.email
      passwordHash := data.passwordHash.getD old.passwordHash
      name := data.name.getD old.name
      avatarUrl := data.avatarUrl.getD old.avatarUrl
      emailVerified := data.emailVerified.getD old.emailVerified
      updatedAt := new.updatedAt }

/-- The fields of the two passes. -/
def updateFields (data : UpdateUser) : List (UpdateField Column SqlParam) :=
  [⟨.email, false, data.email.map .text⟩, ⟨.passwordHash, false, data.passwordHash.map .text⟩,
    ⟨.name, false, data.name.map .ofOption⟩, ⟨.avatarUrl, false, data.avatarUrl.map .ofOption⟩,
    ⟨.emailVerified, false, data.emailVerified.map .bool⟩]

lemma updateQuery_eq (data : UpdateUser) : updateQuery data = .ofFields (updateFields data) := by
  simp [updateQuery, SetList.ofFields, updateFields, SetList.push]

lemma updateParams_eq (id : Uuid) (data : UpdateUser) :
    updateParams id data = bindFields (.uuid id) (updateFields data) := rfl

/-- A column that may be NULL takes a text and NULL. -/
lemma toOption_ofOption (s : Option String) : (SqlParam.ofOption s).toOption = some s := by
  cases s <;> rfl

/-- What the fields assign. -/
lemma assignFields_updateFields (lower : String → String) (data : UpdateUser) (old u : User) :
    assignFields (target lower).toColumns old (updateFields data) u = some
      { u with
        email := data.email.getD u.email
        passwordHash := data.passwordHash.getD u.passwordHash
        name := data.name.getD u.name
        avatarUrl := data.avatarUrl.getD u.avatarUrl
        emailVerified := data.emailVerified.getD u.emailVerified } := by
  obtain ⟨email, passwordHash, name, avatarUrl, emailVerified⟩ := data
  cases email <;> cases passwordHash <;> cases name <;> cases avatarUrl <;>
    cases emailVerified <;>
      simp [updateFields, assignFields, UpdateField.assign, Columns.value, target,
        toOption_ofOption]

/-- The row that `User::update` writes. -/
def updated (data : UpdateUser) (now : DateTime) (old : User) : User :=
  { old with
    email := data.email.getD old.email
    passwordHash := data.passwordHash.getD old.passwordHash
    name := data.name.getD old.name
    avatarUrl := data.avatarUrl.getD old.avatarUrl
    emailVerified := data.emailVerified.getD old.emailVerified
    updatedAt := now }

/-- **When `User::update` returns a row**: no text has a U+0000, the user is there, no other user
has the email of the row, and the row satisfies the constraints. -/
lemma update_eq_ok_some_iff {lower : String → String} {T : UserTable} {id : Uuid}
    {data : UpdateUser} {now : DateTime} {row : User} :
    (update lower T id data now).1 = .ok (some row) ↔
      (updateParams id data).any SqlParam.rejects = false ∧
        ∃ old, T.row id = some old ∧ row = updated data now old ∧
          (∀ other ∈ T.rows, other.id ≠ id → lower other.email ≠ lower row.email) ∧
          schema.check row = true := by
  rw [update, mapError_eq_ok_iff, updateQuery_eq, updateParams_eq]
  refine (execUpdate_ofFields_eq_ok_some_iff (k := id) rfl
    (fun old => assignFields_updateFields lower data old _) fun old hold => ?_).trans ?_
  · have hid : old.id = id := Table.key_of_row hold
    exact hid
  · refine and_congr_right fun _ => exists_congr fun old => and_congr_right fun _ =>
      and_congr_right fun _ => and_congr_left fun _ => ?_
    simp only [target, List.any_eq_false, List.mem_filter, and_imp, Bool.not_eq_true',
      decide_eq_true_eq, decide_eq_false_iff_not, ne_eq]
    rfl

/-- **`User::update` assigns what it is given.** -/
lemma updatesRow_update (lower : String → String) (T : UserTable) (id : Uuid) (data : UpdateUser)
    (now : DateTime) : UpdatesRow T id (Assigned data) (update lower T id data now) := by
  rw [update, updateQuery_eq, updateParams_eq]
  refine (updatesRow_execUpdate_ofFields rfl
    (fun old => assignFields_updateFields lower data old _) ?_).mapError _
  intro old hold
  have hid : old.id = id := Table.key_of_row hold
  exact ⟨hid, rfl⟩

end User

/-! ### `Webhook::update` -/

/-- `Webhook`. -/
structure Webhook where
  id : Uuid
  tenantId : Uuid
  url : String
  secret : Bytes
  active : Bool
  events : List String
  createdAt : DateTime
  updatedAt : DateTime

/-- `UpdateWebhook`. -/
structure UpdateWebhook where
  url : Option String := none
  events : Option (List String) := none
  regenerateSecret : Bool := false
  active : Option Bool := none

namespace Webhook

/-- The constraint `webhooks_url_check`: `url ~* '^https?://.*'`. -/
def urlCheck (url : String) : Bool :=
  let chars := url.toList.map Char.toLower
  "http://".toList.isPrefixOf chars || "https://".toList.isPrefixOf chars

/-- The table `webhooks`: its primary key, its CHECK constraint, and the column types. -/
def schema : Schema Uuid Webhook where
  key := id
  check w := urlCheck w.url && Tenant.varchar 2048 w.url && !w.events.any hasNul

/-- The columns that `Webhook::update` assigns. -/
inductive Column
  | url | events | secret | active

/-- The table `webhooks` for updates. -/
def target : UpdateTarget Column SqlParam Webhook Uuid where
  get
    | .url, w => .text w.url
    | .events, w => .textArray w.events
    | .secret, w => .bytea w.secret
    | .active, w => .bool w.active
  set
    | .url, .text s, w => some { w with url := s }
    | .events, .textArray l, w => some { w with events := l }
    | .secret, .bytea b, w => some { w with secret := b }
    | .active, .bool b, w => some { w with active := b }
    | _, _, _ => none
  concat _ _ := none
  rejects := SqlParam.rejects
  keyOf := SqlParam.keyOf
  conflicts _ _ := false

/-- The SET list of `Webhook::update`. -/
def updateQuery (data : UpdateWebhook) : SetList Column :=
  let query : SetList Column := {}
  let query := query.push data.url.isSome .url
  let query := query.push data.events.isSome .events
  let query := query.push data.regenerateSecret .secret
  query.push data.active.isSome .active

/-- The parameters of `Webhook::update`, with what `generate_secret` returns. -/
def updateParams (id : Uuid) (data : UpdateWebhook) (secret : Bytes) : List SqlParam :=
  let q : List SqlParam := [.uuid id]
  let q := bindValue q (data.url.map .text)
  let q := bindValue q (data.events.map .textArray)
  let q := bindValue q (if data.regenerateSecret then some (.bytea secret) else none)
  bindValue q (data.active.map .bool)

end Webhook

/-- The rows of `webhooks`. -/
abbrev WebhookTable := Table Webhook.schema

/-- `Webhook::update`. -/
def Webhook.update (T : WebhookTable) (id : Uuid) (data : UpdateWebhook) (secret : Bytes)
    (now : DateTime) : Except DbError (Option Webhook) × WebhookTable :=
  let (webhook, T') := execUpdate target (fun w => { w with updatedAt := now }) T
    (updateQuery data).items (updateParams id data secret)
  let violated : DbError :=
    if data.url.all (Tenant.varchar 2048) then .constraint "webhooks_url_check" else tooLong
  (webhook.mapError (updateErrorOf "webhooks_pkey" violated), T')

namespace Webhook

/-- The columns of the fields that are present have their values, the secret is the fresh one
when it is asked for, and all other columns but `updated_at` are as they were. -/
def Assigned (data : UpdateWebhook) (secret : Bytes) (old new : Webhook) : Prop :=
  new =
    { old with
      url := data.url.getD old.url
      events := data.events.getD old.events
      secret := if data.regenerateSecret then secret else old.secret
      active := data.active.getD old.active
      updatedAt := new.updatedAt }

/-- The fields of the two passes. -/
def updateFields (data : UpdateWebhook) (secret : Bytes) : List (UpdateField Column SqlParam) :=
  [⟨.url, false, data.url.map .text⟩, ⟨.events, false, data.events.map .textArray⟩,
    ⟨.secret, false, if data.regenerateSecret then some (.bytea secret) else none⟩,
    ⟨.active, false, data.active.map .bool⟩]

lemma updateQuery_eq (data : UpdateWebhook) (secret : Bytes) :
    updateQuery data = .ofFields (updateFields data secret) := by
  cases hsecret : data.regenerateSecret <;>
    simp [updateQuery, SetList.ofFields, updateFields, SetList.push, hsecret]

lemma updateParams_eq (id : Uuid) (data : UpdateWebhook) (secret : Bytes) :
    updateParams id data secret = bindFields (.uuid id) (updateFields data secret) := rfl

/-- What the fields assign. -/
lemma assignFields_updateFields (data : UpdateWebhook) (secret : Bytes) (old w : Webhook) :
    assignFields target.toColumns old (updateFields data secret) w = some
      { w with
        url := data.url.getD w.url
        events := data.events.getD w.events
        secret := if data.regenerateSecret then secret else w.secret
        active := data.active.getD w.active } := by
  obtain ⟨url, events, regenerateSecret, active⟩ := data
  cases url <;> cases events <;> cases regenerateSecret <;> cases active <;> rfl

/-- The row that `Webhook::update` writes. -/
def updated (data : UpdateWebhook) (secret : Bytes) (now : DateTime) (old : Webhook) : Webhook :=
  { old with
    url := data.url.getD old.url
    events := data.events.getD old.events
    secret := if data.regenerateSecret then secret else old.secret
    active := data.active.getD old.active
    updatedAt := now }

/-- **When `Webhook::update` returns a row**: no text has a U+0000, the webhook is there, and the
row satisfies the constraints. -/
lemma update_eq_ok_some_iff {T : WebhookTable} {id : Uuid} {data : UpdateWebhook} {secret : Bytes}
    {now : DateTime} {row : Webhook} : (update T id data secret now).1 = .ok (some row) ↔
      (updateParams id data secret).any SqlParam.rejects = false ∧
        ∃ old, T.row id = some old ∧ row = updated data secret now old ∧
          schema.check row = true := by
  rw [update, mapError_eq_ok_iff, updateQuery_eq data secret, updateParams_eq]
  refine (execUpdate_ofFields_eq_ok_some_iff (k := id) rfl
    (fun old => assignFields_updateFields data secret old _) fun old hold => ?_).trans ?_
  · have hid : old.id = id := Table.key_of_row hold
    exact hid
  · exact and_congr_right fun _ => exists_congr fun old => and_congr_right fun _ =>
      and_congr_right fun _ => and_iff_right rfl

/-- **`Webhook::update` assigns what it is given.** -/
lemma updatesRow_update (T : WebhookTable) (id : Uuid) (data : UpdateWebhook) (secret : Bytes)
    (now : DateTime) : UpdatesRow T id (Assigned data secret) (update T id data secret now) := by
  rw [update, updateQuery_eq data secret, updateParams_eq]
  refine (updatesRow_execUpdate_ofFields rfl
    (fun old => assignFields_updateFields data secret old _) ?_).mapError _
  intro old hold
  have hid : old.id = id := Table.key_of_row hold
  exact ⟨hid, rfl⟩

end Webhook

/-- **Partial updates**: for every table, key and data, each of the three functions assigns
exactly the columns whose fields are present, each its own value, returns the row that it
stores, and changes nothing else. -/
theorem partial_updates :
    (∀ T id data now, UpdatesRow T id (Tenant.Assigned data) (Tenant.update T id data now)) ∧
    (∀ lower T id data now,
      UpdatesRow T id (User.Assigned data) (User.update lower T id data now)) ∧
    ∀ T id data secret now,
      UpdatesRow T id (Webhook.Assigned data secret) (Webhook.update T id data secret now) :=
  ⟨Tenant.updatesRow_update, User.updatesRow_update, Webhook.updatesRow_update⟩

/-- A tenant on the trial plan. -/
def Tenant.sample : Tenant where
  id := 1
  name := "acme"
  plan := TenantPlan.trial.asStr
  stripeCustomerId := none
  stripeSubscriptionId := none
  settings := .object [("theme", .string "dark")]
  createdAt := 0
  updatedAt := 0

/-- A user with a name. -/
def User.sample : User where
  id := 2
  email := "ada@example.com"
  emailVerified := false
  passwordHash := "$argon2id$"
  name := some "Ada"
  avatarUrl := none
  createdAt := 0
  updatedAt := 0
  lastLoginAt := none

/-- A setting is added. -/
def UpdateTenant.sample : UpdateTenant := { settings := some (.object [("lang", .string "de")]) }

/-- The name is cleared, and the email has been verified. -/
def UpdateUser.sample : UpdateUser := { name := some none, emailVerified := some true }

/-- Both calls return a row: the settings of the tenant are merged, and the user keeps the columns
that it is not given. -/
theorem partial_updates_sample :
    ∃ (T : TenantTable) (U : UserTable) (tenant : Tenant) (user : User),
      (Tenant.update T 1 .sample 5).1 = .ok (some tenant) ∧ tenant.name = "acme" ∧
      (∃ c, tenant.settings = .object c ∧ c.lookup "theme" = some (.string "dark")) ∧
      (User.update id U 2 .sample 5).1 = .ok (some user) ∧ user.name = none ∧
      user.email = "ada@example.com" := by
  let T : TenantTable := ⟨[Tenant.sample], by simp, by decide +kernel⟩
  let U : UserTable := ⟨[User.sample], by simp, by decide +kernel⟩
  have htenant : (Tenant.update T 1 .sample 5).1 = .ok (some (Tenant.updated .sample 5 .sample)) :=
    Tenant.update_eq_ok_some_iff.2 ⟨by decide, Tenant.sample, rfl, rfl, by decide +kernel⟩
  have huser : (User.update id U 2 .sample 5).1 = .ok (some (User.updated .sample 5 .sample)) :=
    User.update_eq_ok_some_iff.2 ⟨by decide, User.sample, rfl, rfl, by decide, by decide +kernel⟩
  obtain ⟨old, hold, htenant'⟩ := ((partial_updates.1 T 1 .sample 5).ok_some _ htenant).1
  obtain rfl : Tenant.sample = old := Option.some.inj hold
  obtain ⟨old, hold, huser'⟩ := ((partial_updates.2.1 id U 2 .sample 5).ok_some _ huser).1
  obtain rfl : User.sample = old := Option.some.inj hold
  obtain ⟨c, hc, hlookup⟩ := htenant'.settings_merged _ _ rfl rfl
  refine ⟨T, U, _, _, htenant, ?_, ⟨c, hc, hlookup "theme"⟩, huser, ?_, ?_⟩
  · rw [htenant'.eq]
    rfl
  · rw [huser']
    rfl
  · rw [huser']
    rfl

/-- A webhook for the next example. -/
def Webhook.sample : Webhook where
  id := 1
  tenantId := 2
  url := "https://example.com/webhook"
  secret := [1, 2, 3, 4]
  active := true
  events := ["task.succeeded"]
  createdAt := 0
  updatedAt := 0

/-- With a field left out in the middle. -/
example : (Webhook.update ⟨[.sample], by simp, by decide +kernel⟩ 1
    { url := some "http://example.com", regenerateSecret := true, active := some false } [9] 5).1 =
      .ok (some { Webhook.sample with
        url := "http://example.com", secret := [9], active := false, updatedAt := 5 }) :=
  rfl

end AxonTask
