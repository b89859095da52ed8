import AxonTask.Shared.Task
import AxonTask.Shared.Tenant

/-!
# Quotas (`axontask-shared/src/quota.rs`)

The limits of the plans, and the check of a tenant's usage against them.  A check counts rows
of the table `tasks` and changes nothing.
-/

namespace AxonTask

open Lib

/-- `QuotaType`. -/
inductive QuotaType
  | concurrentTasks | dailyTasks | streamConnections
deriving DecidableEq, Repr

/-- `QuotaType::as_str`. -/
def QuotaType.asStr : QuotaType → String
  | concurrentTasks => "Concurrent tasks"
  | dailyTasks => "Daily tasks"
  | streamConnections => "Stream connections"

/-- `QuotaError`; a database error is an event of its own in the model. -/
inductive QuotaError
  | limitExceeded (quotaType : QuotaType) (limit current : UInt32)
  | tenantNotFound (id : Uuid)
deriving DecidableEq, Repr

/-- `QuotaLimits`. -/
structure QuotaLimits where
  concurrentTasks : UInt32
  dailyTasks : UInt32
  streamConnections : UInt32
deriving DecidableEq, Repr

namespace QuotaLimits

/-- `QuotaLimits::for_plan`. -/
def forPlan : TenantPlan → QuotaLimits
  | .trial => ⟨5, 100, 2⟩
  | .entry => ⟨25, 1000, 5⟩
  | .pro => ⟨100, 10000, 20⟩
  | .enterprise => ⟨500, 100000, 100⟩

/-- `QuotaLimits::get`. -/
def get (l : QuotaLimits) : QuotaType → UInt32
  | .concurrentTasks => l.concurrentTasks
  | .dailyTasks => l.dailyTasks
  | .streamConnections => l.streamConnections

end QuotaLimits

/-- `QuotaCheckResult`. -/
structure QuotaCheckResult where
  allowed : Bool
  current : UInt32
  limit : UInt32
  remaining : UInt32
deriving DecidableEq, Repr

namespace QuotaCheckResult

/-- `QuotaCheckResult::allowed`. -/
def ofAllowed (current limit : UInt32) : QuotaCheckResult :=
  ⟨true, current, limit, if current ≤ limit then limit - current else 0⟩

/-- `QuotaCheckResult::exceeded`. -/
def ofExceeded (current limit : UInt32) : QuotaCheckResult := ⟨false, current, limit, 0⟩

end QuotaCheckResult

namespace QuotaEnforcer

/-- The task belongs to the tenant and runs. -/
def isRunning (tenantId : Uuid) (t : Task) : Bool :=
  decide (t.tenantId = tenantId) && decide (t.state = .running)

/-- The task belongs to the tenant and is pending or running. -/
def isActive (tenantId : Uuid) (t : Task) : Bool :=
  decide (t.tenantId = tenantId) && t.state.isActive

/-- The task belongs to the tenant and was created at or after `since`. -/
def isSince (tenantId : Uuid) (since : DateTime) (t : Task) : Bool :=
  decide (t.tenantId = tenantId) && decide (since ≤ t.createdAt)

/-- `Utc::now() - Duration::hours(24)`. -/
def dayBefore (now : DateTime) : DateTime := now - 24 * 3600 * 10 ^ 9

/-- `QuotaEnforcer::count_concurrent_tasks`, with the cast `as u32`. -/
def countConcurrentTasks (T : TaskTable) (tenantId : Uuid) : UInt32 :=
  UInt32.ofNat (T.count (isRunning tenantId))

/-- `QuotaEnforcer::count_daily_tasks`, with the cast `as u32`. -/
def countDailyTasks (T : TaskTable) (tenantId : Uuid) (now : DateTime) : UInt32 :=
  UInt32.ofNat (T.count (isSince tenantId (dayBefore now)))

section Check

variable (tenants : TenantTable) (T : TaskTable) (now : DateTime) (tenantId : Uuid)
  (quotaType : QuotaType)

/-- The current usage; the stream connections are not counted yet. -/
def usage : UInt32 :=
  match quotaType with
  | .concurrentTasks => countConcurrentTasks T tenantId
  | .dailyTasks => countDailyTasks T tenantId now
  | .streamConnections => 0

/-- `QuotaEnforcer::check`. -/
def check : Except QuotaError QuotaCheckResult :=
  match tenants.row tenantId with
  | none => .error (.tenantNotFound tenantId)
  | some tenant =>
    let plan := tenant.getPlan.getD .trial
    let limit := (QuotaLimits.forPlan plan).get quotaType
    let current := usage T now tenantId quotaType
    if limit ≤ current then .ok (.ofExceeded current limit) else .ok (.ofAllowed current limit)

/-- `QuotaEnforcer::enforce`. -/
def enforce : Except QuotaError Unit :=
  match check tenants T now tenantId quotaType with
  | .error e => .error e
  | .ok result =>
    if result.allowed then .ok ()
    else .error (.limitExceeded quotaType result.limit result.current)

end Check

/-- The limit of a tenant's plan. -/
def limitOf (tenants : TenantTable) (tenantId : Uuid) (q : QuotaType) : ℕ :=
  ((QuotaLimits.forPlan (((tenants.row tenantId).bind Tenant.getPlan).getD .trial)).get q).toNat

/-- A tenant that is within its quota uses less than the limit of its plan. -/
lemma usage_lt_of_enforce {tenants : TenantTable} {T : TaskTable} {now : DateTime}
    {tenantId : Uuid} {q : QuotaType} (h : enforce tenants T now tenantId q = .ok ()) :
    (usage T now tenantId q).toNat < limitOf tenants tenantId q := by
  cases ht : tenants.row tenantId with
  | none => simp [enforce, check, ht] at h
  | some tenant =>
    simp only [enforce, check, ht] at h
    by_contra hlt
    have hle : (QuotaLimits.forPlan (tenant.getPlan.getD .trial)).get q ≤
        usage T now tenantId q := by
      simpa [UInt32.le_iff_toNat_le, limitOf, ht] using hlt
    rw [if_pos hle] at h
    simp [QuotaCheckResult.ofExceeded] at h

end QuotaEnforcer

end AxonTask
