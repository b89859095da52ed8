import AxonTask.Shared.Accounts
import AxonTask.Shared.Scopes

/-!
# Authorization (`auth/authorization.rs` of `axontask-shared`)

The checks of a request's context against the roles of the members of its tenant and against
the scopes of its API key.  A lookup of a role fails with the message `dbError`, or it answers
from the table.
-/

namespace AxonTask

open Lib

/-! ### Roles -/

namespace MembershipRole

/-- `MembershipRole::permission_level`. -/
def permissionLevel : MembershipRole → ℕ
  | owner => 4
  | admin => 3
  | member => 2
  | viewer => 1

/-- `MembershipRole::has_permission`. -/
def hasPermission (role required : MembershipRole) : Bool :=
  decide (required.permissionLevel ≤ role.permissionLevel)

/-- The roles from the least to the most privileged one. -/
def hierarchy : List MembershipRole := [viewer, member, admin, owner]

/-- The role stands where the other one does in the hierarchy, or above it. -/
def AtLeast (role required : MembershipRole) : Prop :=
  hierarchy.idxOf required ≤ hierarchy.idxOf role

lemma permissionLevel_eq (role : MembershipRole) :
    role.permissionLevel = hierarchy.idxOf role + 1 := by
  cases role <;> rfl

lemma hasPermission_iff {role required : MembershipRole} :
    role.hasPermission required = true ↔ role.AtLeast required := by
  rw [hasPermission, decide_eq_true_eq, permissionLevel_eq, permissionLevel_eq, AtLeast]
  omega

end MembershipRole

/-- `Membership::get_role`. -/
def Membership.getRole (T : MembershipTable) (tenantId userId : Uuid) : Option MembershipRole :=
  (T.row (tenantId, userId)).map Membership.role

/-! ### The checks -/

/-- `AuthzError`. -/
inductive AuthzError
  | notMember (tenantId : Uuid)
  | insufficientRole (required actual : MembershipRole)
  | missingScope (scope : String)
  | notAuthorized
  | databaseError (msg : String)
deriving DecidableEq, Repr

/-- `ResourcePermission`. -/
inductive ResourcePermission
  | read | write | manage | own
deriving DecidableEq, Repr

/-- `ResourcePermission::min_role`. -/
def ResourcePermission.minRole : ResourcePermission → MembershipRole
  | read => .viewer
  | write => .member
  | manage => .admin
  | own => .owner

/-- `require_role`. -/
def requireRole (T : MembershipTable) (dbError : Option String) (tenantId : Uuid)
    (userId : Option Uuid) (requiredRole : MembershipRole) : Except AuthzError Unit :=
  match userId with
  | none => .error (.insufficientRole requiredRole .viewer)
  | some userId =>
    match dbError, Membership.getRole T tenantId userId with
    | some e, _ => .error (.databaseError e)
    | none, none => .error (.notMember tenantId)
    | none, some userRole =>
      if !userRole.hasPermission requiredRole then
        .error (.insufficientRole requiredRole userRole)
      else .ok ()

/-- `require_scope`. -/
def requireScope (auth : AuthContext) (requiredScope : String) : Except AuthzError Unit :=
  if !auth.hasScope requiredScope then .error (.missingScope requiredScope) else .ok ()

/-- `require_permission`. -/
def requirePermission (T : MembershipTable) (dbError : Option String) (auth : AuthContext)
    (permission : ResourcePermission) (scope : String) : Except AuthzError Unit := do
  requireRole T dbError auth.tenantId auth.userId permission.minRole
  requireScope auth scope

/-- `require_access`. -/
def requireAccess (T : MembershipTable) (dbError : Option String) (auth : AuthContext)
    (resourceOwnerId : Uuid) (permission : ResourcePermission) (scope : String) :
    Except AuthzError Unit :=
  if auth.userId = some resourceOwnerId then requireScope auth scope
  else requirePermission T dbError auth permission scope

/-! ### What the checks let through -/

section Specs

variable {T : MembershipTable} {dbError : Option String} {auth : AuthContext} {owner : Uuid}
  {permission : ResourcePermission} {scope : String}

lemma bind_eq_ok_unit {ε : Type*} {x y : Except ε Unit} :
    (x >>= fun _ => y) = .ok () ↔ x = .ok () ∧ y = .ok () := by
  cases x <;> simp [bind, Except.bind]

/-- The user is a member of the tenant whose role is at least the required one. -/
def HasRole (T : MembershipTable) (tenantId userId : Uuid) (required : MembershipRole) : Prop :=
  ∃ m, T.row (tenantId, userId) = some m ∧ m.role.AtLeast required

lemma requireRole_eq_ok_iff {tenantId : Uuid} {userId : Option Uuid}
    {required : MembershipRole} :
    requireRole T dbError tenantId userId required = .ok () ↔
      dbError = none ∧ ∃ u, userId = some u ∧ HasRole T tenantId u required := by
  cases userId with
  | none => simp [requireRole]
  | some u =>
    cases dbError with
    | some e => simp [requireRole]
    | none =>
      cases hrow : T.row (tenantId, u) with
      | none => simp [requireRole, Membership.getRole, HasRole, hrow]
      | some m => simp [requireRole, Membership.getRole, HasRole, hrow,
          MembershipRole.hasPermission_iff]

lemma requireScope_eq_ok_iff :
    requireScope auth scope = .ok () ↔ auth.hasScope scope = true := by
  cases hscope : auth.hasScope scope <;> simp [requireScope, hscope]

lemma requirePermission_eq_ok_iff :
    requirePermission T dbError auth permission scope = .ok () ↔
      (dbError = none ∧ ∃ u, auth.userId = some u ∧ HasRole T auth.tenantId u permission.minRole) ∧
        auth.hasScope scope = true := by
  rw [requirePermission, bind_eq_ok_unit, requireRole_eq_ok_iff, requireScope_eq_ok_iff]

/-- The owner of the resource does not need a role. -/
lemma requireAccess_eq_ok_iff :
    requireAccess T dbError auth owner permission scope = .ok () ↔
      auth.userId = some owner ∧ auth.hasScope scope = true ∨
        requirePermission T dbError auth permission scope = .ok () := by
  rw [requireAccess]
  by_cases howner : auth.userId = some owner
  · rw [if_pos howner, requireScope_eq_ok_iff, requirePermission_eq_ok_iff]
    tauto
  · rw [if_neg howner]
    simp [howner]

end Specs

/-! ### Both kinds of callers -/

/-- Who makes a request. -/
inductive Caller
  | jwt (userId tenantId : Uuid)
  | apiKey (key : ApiKey)

namespace Caller

/-- The context that the middleware builds. -/
def context : Caller → AuthContext
  | jwt userId tenantId => .fromJwt userId tenantId
  | apiKey key => .fromApiKey key

/-- The caller is an API key whose scopes cover the required one. -/
def HasCoveringKey (scope : String) : Caller → Prop
  | jwt .. => False
  | apiKey key => ∃ s ∈ key.scopes, s = scope ∨ IsWildcardFor scope s

/-- What the permission is meant to be: the role of a user, the scopes of an API key. -/
def Permitted (T : MembershipTable) (permission : ResourcePermission) (scope : String)
    (caller : Caller) : Prop :=
  (∃ userId tenantId, caller = jwt userId tenantId ∧
    HasRole T tenantId userId permission.minRole) ∨ caller.HasCoveringKey scope

/-- The caller is the user who owns the resource. -/
def Owns (owner : Uuid) (caller : Caller) : Prop := ∃ tenantId, caller = jwt owner tenantId

end Caller

/-- The checks let the callers through that they are meant to. -/
structure AuthorizationExact (T : MembershipTable) (caller : Caller) (owner : Uuid)
    (permission : ResourcePermission) (scope : String) : Prop where
  permission_iff : requirePermission T none caller.context permission scope = .ok () ↔
    caller.Permitted T permission scope
  access_iff : requireAccess T none caller.context owner permission scope = .ok () ↔
    caller.Owns owner ∨ requirePermission T none caller.context permission scope = .ok ()

section Exact

variable (T : MembershipTable) (owner : Uuid) (permission : ResourcePermission) (scope : String)

/-- Users are let through as they are meant to. -/
lemma authorizationExact_jwt (userId tenantId : Uuid) :
    AuthorizationExact T (.jwt userId tenantId) owner permission scope := by
  have hpermission : requirePermission T none (Caller.jwt userId tenantId).context permission
      scope = .ok () ↔ HasRole T tenantId userId permission.minRole := by
    rw [requirePermission_eq_ok_iff]
    simp [Caller.context, AuthContext.fromJwt, AuthContext.hasScope]
  refine ⟨?_, ?_⟩
  · rw [hpermission]
    simp [Caller.Permitted, Caller.HasCoveringKey]
  · rw [requireAccess_eq_ok_iff]
    simp [Caller.context, AuthContext.fromJwt, AuthContext.hasScope, Caller.Owns]

/-- An API key belongs to no user, and hence has no role. -/
lemma requirePermission_apiKey_ne_ok (dbError : Option String) (key : ApiKey) :
    requirePermission T dbError (Caller.apiKey key).context permission scope ≠ .ok () := by
  simp [requirePermission_eq_ok_iff, Caller.context, AuthContext.fromApiKey]

/-- **Whom authorization is exact for**: for all users, and for the API keys that are to be
refused. -/
theorem authorizationExact_iff (caller : Caller) :
    AuthorizationExact T caller owner permission scope ↔ ¬ caller.HasCoveringKey scope := by
  cases caller with
  | jwt userId tenantId =>
    exact iff_of_true (authorizationExact_jwt T owner permission scope userId tenantId) id
  | apiKey key =>
    have hrefused := requirePermission_apiKey_ne_ok T permission scope none key
    constructor
    · intro h hcovers
      exact hrefused (h.permission_iff.2 (Or.inr hcovers))
    · intro hcovers
      refine ⟨?_, ?_⟩
      · refine iff_of_false hrefused ?_
        rintro (⟨userId, tenantId, hjwt, -⟩ | hkey)
        · cases hjwt
        · exact hcovers hkey
      · rw [requireAccess_eq_ok_iff]
        simp [Caller.context, AuthContext.fromApiKey, Caller.Owns]

end Exact

/-- A key with the required scope is refused. -/
theorem not_authorizationExact_apiKey :
    ¬ AuthorizationExact (.empty _) (.apiKey (.sampleScopes ["tasks:write"])) 7 .write
      "tasks:write" := by
  intro h
  have hcovers : (Caller.apiKey (.sampleScopes ["tasks:write"])).HasCoveringKey "tasks:write" :=
    ⟨"tasks:write", List.mem_singleton.2 rfl, Or.inl rfl⟩
  exact requirePermission_apiKey_ne_ok _ _ _ _ _ (h.permission_iff.2 (Or.inr hcovers))

end AxonTask
