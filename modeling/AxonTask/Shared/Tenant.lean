import AxonTask.Lib.Table
import AxonTask.Shared.Basic

/-!
# Tenants (`axontask-shared/src/models/tenant.rs`)

`Tenant` rows and their plans, and who is authenticated for a request
(`axontask-shared/src/auth/middleware.rs`).
-/

namespace AxonTask

open Lib

/-- `TenantPlan`. -/
inductive TenantPlan
  | trial | entry | pro | enterprise
deriving DecidableEq, Repr

namespace TenantPlan

/-- `TenantPlan::as_str`. -/
def asStr : TenantPlan → String
  | trial => "trial"
  | entry => "entry"
  | pro => "pro"
  | enterprise => "enterprise"

/-- `TenantPlan::from_str`. -/
def fromStr (s : String) : Option TenantPlan :=
  if s = "trial" then some trial
  else if s = "entry" then some entry
  else if s = "pro" then some pro
  else if s = "enterprise" then some enterprise
  else none

@[simp] lemma fromStr_asStr (p : TenantPlan) : fromStr p.asStr = some p := by
  cases p <;> decide

end TenantPlan

/-- `Tenant`. -/
structure Tenant where
  id : Uuid
  name : String
  plan : String
  stripeCustomerId : Option String
  stripeSubscriptionId : Option String
  settings : JsonValue
  createdAt : DateTime
  updatedAt : DateTime

namespace Tenant

/-- The strings of the constraint `tenants_plan_check`. -/
def plans : List String := ["trial", "entry", "pro", "enterprise"]

/-- A text of at most `n` characters without U+0000. -/
def varchar (n : ℕ) (s : String) : Bool := decide (s.length ≤ n) && !hasNul s

/-- The table `tenants`: its primary key, its CHECK constraint, and the column types. -/
def schema : Schema Uuid Tenant where
  key := id
  check t :=
    plans.contains t.plan && varchar 255 t.name && t.stripeCustomerId.all (varchar 255) &&
      t.stripeSubscriptionId.all (varchar 255) && !t.settings.hasNul

/-- `Tenant::get_plan`. -/
def getPlan (t : Tenant) : Option TenantPlan := TenantPlan.fromStr t.plan

end Tenant

/-- The rows of `tenants`. -/
abbrev TenantTable := Table Tenant.schema

/-- `AuthMethod`. -/
inductive AuthMethod
  | jwt | apiKey
deriving DecidableEq, Repr

/-- `AuthContext`. -/
structure AuthContext where
  userId : Option Uuid
  tenantId : Uuid
  method : AuthMethod
  scopes : Option (List String)
  apiKeyId : Option Uuid
deriving DecidableEq, Repr

/-- `AuthContext::from_jwt`. -/
def AuthContext.fromJwt (userId tenantId : Uuid) : AuthContext where
  userId := some userId
  tenantId := tenantId
  method := .jwt
  scopes := none
  apiKeyId := none

end AxonTask
