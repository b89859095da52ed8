import AxonTask.Shared.Usage

/-!
# The aggregate of the usage counters (`UsageCounter::get_aggregate` of `usage.rs`)

The statement sums the four counters of a tenant over the days of a range.  The sum of a BIGINT
is a NUMERIC, of which sqlx does not decode an `i64`, so no call of `get_aggregate` returns the
sums.
-/

namespace AxonTask

open Lib

/-! ### Types of columns -/

/-- The types of the columns of a reply. -/
inductive CounterType
  | integer | bigint | numeric
deriving DecidableEq, Repr

/-- The type of `SUM` over a column. -/
def CounterType.sum : CounterType → CounterType
  | integer => bigint
  | bigint | numeric => numeric

/-- A column of a row of a reply; `none` is NULL. -/
structure SqlColumn where
  name : String
  type : CounterType
  value : Option ℤ

namespace SqlColumn

/-- `COALESCE(SUM(…), 0)` over a column, under a name: the sum of no row is NULL, and the
literal 0 takes the type of the sum. -/
def coalesceSum (name : String) (type : CounterType) (values : List ℤ) : SqlColumn where
  name := name
  type := type.sum
  value := some ((if values = [] then none else some values.sum).getD 0)

/-- `Row::try_get` for an `i64`. -/
def decodeI64 (column : SqlColumn) : Except DbError Int64 :=
  match column.type, column.value with
  | .bigint, some n => .ok (.ofInt n)
  | .bigint, none => .error (.other ("unexpected null in column " ++ column.name))
  | _, _ => .error (.other ("mismatched types in column " ++ column.name))

end SqlColumn

/-! ### The statement -/

/-- `UsageAggregate`. -/
structure UsageAggregate where
  totalTaskMinutes : Int64
  totalStreams : Int64
  totalBytes : Int64
  totalTasksCreated : Int64
deriving DecidableEq

namespace UsageAggregate

/-- The total of a counter. -/
def get (a : UsageAggregate) : UsageCounter.Counter → ℤ
  | .taskMinutes => a.totalTaskMinutes.toInt
  | .streams => a.totalStreams.toInt
  | .bytes => a.totalBytes.toInt
  | .tasksCreated => a.totalTasksCreated.toInt

/-- `UsageAggregate::from_row`, which goes by the names of the columns. -/
def fromRow (taskMinutes streams bytes tasksCreated : SqlColumn) :
    Except DbError UsageAggregate := do
  let totalTaskMinutes ← taskMinutes.decodeI64
  let totalStreams ← streams.decodeI64
  let totalBytes ← bytes.decodeI64
  let totalTasksCreated ← tasksCreated.decodeI64
  return { totalTaskMinutes, totalStreams, totalBytes, totalTasksCreated }

end UsageAggregate

namespace UsageCounter

/-- The type of the column of a counter. -/
def Counter.type : Counter → CounterType
  | .taskMinutes | .streams | .tasksCreated => .integer
  | .bytes => .bigint

/-- The values of a counter in the rows `WHERE tenant_id = $1 AND period >= $2 AND
period <= $3`. -/
def valuesIn (T : UsageTable) (tenantId : Uuid) (startDate endDate : NaiveDate) (c : Counter) :
    List ℤ :=
  (T.rows.filter fun r =>
    decide (r.tenantId = tenantId) && decide (startDate ≤ r.period) &&
      decide (r.period ≤ endDate)).map fun r => r.get c

/-- `UsageCounter::get_aggregate`. -/
def getAggregate (T : UsageTable) (tenantId : Uuid) (startDate endDate : NaiveDate) :
    Except DbError UsageAggregate :=
  let column (name : String) (c : Counter) : SqlColumn :=
    .coalesceSum name c.type (valuesIn T tenantId startDate endDate c)
  UsageAggregate.fromRow (column "total_task_minutes" .taskMinutes)
    (column "total_streams" .streams) (column "total_bytes" .bytes)
    (column "total_tasks_created" .tasksCreated)

/-- The call returns the sums of the counters. -/
def ReturnsSums (T : UsageTable) (tenantId : Uuid) (startDate endDate : NaiveDate) : Prop :=
  ∃ a, getAggregate T tenantId startDate endDate = .ok a ∧
    ∀ c, a.get c = (valuesIn T tenantId startDate endDate c).sum

/-- The call for a range returns the sums of what the calls for its parts return. -/
def AddsUp (T : UsageTable) (tenantId : Uuid) (startDate middle endDate : NaiveDate) : Prop :=
  ∃ a a₁ a₂, getAggregate T tenantId startDate endDate = .ok a ∧
    getAggregate T tenantId startDate middle = .ok a₁ ∧
    getAggregate T tenantId (middle + 1) endDate = .ok a₂ ∧ ∀ c, a.get c = a₁.get c + a₂.get c

section Aggregate

variable {T : UsageTable} {tenantId : Uuid} {startDate endDate : NaiveDate}

/-! ### What the call returns -/

/-- **The sum of the bytes is not decoded.** -/
lemma getAggregate_eq (T : UsageTable) (tenantId : Uuid) (startDate endDate : NaiveDate) :
    getAggregate T tenantId startDate endDate =
      .error (.other "mismatched types in column total_bytes") := by
  have hbytes : (SqlColumn.coalesceSum "total_bytes" Counter.bytes.type
      (valuesIn T tenantId startDate endDate .bytes)).decodeI64 =
        .error (.other "mismatched types in column total_bytes") := rfl
  simp only [getAggregate, UsageAggregate.fromRow, hbytes]
  rfl

lemma getAggregate_ne_ok (a : UsageAggregate) :
    getAggregate T tenantId startDate endDate ≠ .ok a := by
  rw [getAggregate_eq]
  exact nofun

/-- **No call returns an aggregate**: neither the sums, nor what adds up. -/
theorem not_returnsSums (T : UsageTable) (tenantId : Uuid) (startDate endDate : NaiveDate) :
    ¬ ReturnsSums T tenantId startDate endDate ∧
      ∀ middle, ¬ AddsUp T tenantId startDate middle endDate := by
  constructor
  · rintro ⟨a, ha, -⟩
    exact getAggregate_ne_ok a ha
  · rintro middle ⟨a, -, -, ha, -⟩
    exact getAggregate_ne_ok a ha

/-- Not even when there is nothing to sum. -/
theorem not_returnsSums_empty :
    getAggregate (Table.empty schema) 1 20089 20119 =
        .error (.other "mismatched types in column total_bytes") ∧
      ¬ ReturnsSums (Table.empty schema) 1 20089 20119 := by
  refine ⟨getAggregate_eq _ _ _ _, ?_⟩
  rintro ⟨a, ha, -⟩
  exact getAggregate_ne_ok a ha

end Aggregate

end UsageCounter

end AxonTask
