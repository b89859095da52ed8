import AxonTask.Lib.Machine
import AxonTask.Shared.ApiKey
import Mathlib.Algebra.Ring.Int.Defs

/-!
# Usage counters (`axontask-shared/src/models/usage.rs`)

The table `usage_counters`, the four statements that increment one of its columns, and the
machine of their interleavings.  Every statement is atomic; it is rejected as a whole when
the proposed row breaks the CHECK constraint, when the tenant of a new row does not exist,
or when the sum does not fit the column.
-/

namespace AxonTask

open Lib

/-- `chrono::NaiveDate`: a day, counted from the Unix epoch. -/
abbrev NaiveDate := ℤ

/-- `UsageCounter`. -/
structure UsageCounter where
  tenantId : Uuid
  period : NaiveDate
  taskMinutes : Int32
  streams : Int32
  bytes : Int64
  tasksCreated : Int32
deriving DecidableEq

namespace UsageCounter

/-- The table `usage_counters`: its primary key and its CHECK constraint. -/
def schema : Schema (Uuid × NaiveDate) UsageCounter where
  key r := (r.tenantId, r.period)
  check r :=
    decide (0 ≤ r.taskMinutes.toInt) && decide (0 ≤ r.streams.toInt) &&
      decide (0 ≤ r.bytes.toInt) && decide (0 ≤ r.tasksCreated.toInt)

end UsageCounter

/-- The rows of `usage_counters`. -/
abbrev UsageTable := Table UsageCounter.schema

namespace UsageCounter

/-- `UsageCounter::today`: the date of the instant. -/
def today (now : DateTime) : NaiveDate := now / (24 * 60 * 60 * 1000000000)

/-- A row with the DEFAULT of every counter. -/
def zero (tenantId : Uuid) (period : NaiveDate) : UsageCounter where
  tenantId := tenantId
  period := period
  taskMinutes := 0
  streams := 0
  bytes := 0
  tasksCreated := 0

/-- `UsageCounter::get_current`. -/
def getCurrent (T : UsageTable) (now : DateTime) (tenantId : Uuid) : UsageCounter :=
  (T.row (tenantId, today now)).getD (zero tenantId (today now))

/-- The addition of two INTEGERs. -/
def int4pl (a b : Int32) : Except DbError Int32 :=
  let sum := a.toInt + b.toInt
  if -2 ^ 31 ≤ sum ∧ sum < 2 ^ 31 then .ok (Int32.ofInt sum)
  else .error (.other "integer out of range")

/-- The addition of two BIGINTs. -/
def int8pl (a b : Int64) : Except DbError Int64 :=
  let sum := a.toInt + b.toInt
  if -2 ^ 63 ≤ sum ∧ sum < 2 ^ 63 then .ok (Int64.ofInt sum)
  else .error (.other "bigint out of range")

/-- The constraint of the table that is violated. -/
def constraintOf : Violation → DbError
  | .check => .constraint "usage_counters_non_negative"
  | .unique => .constraint "usage_counters_pkey"

/-- `INSERT … ON CONFLICT (tenant_id, period) DO UPDATE … RETURNING`, with the table it
leaves.  The proposed row has to meet the CHECK constraint even when its key is taken. -/
def upsert (tenants : Uuid → Bool) (proposed : UsageCounter)
    (conflict : UsageCounter → Except DbError UsageCounter) (T : UsageTable) :
    Except DbError UsageCounter × UsageTable :=
  if schema.check proposed = false then (.error (constraintOf .check), T)
  else
    match T.row (schema.key proposed) with
    | none =>
      match T.insert proposed with
      | .error v => (.error (constraintOf v), T)
      | .ok T' =>
        if tenants proposed.tenantId then (.ok proposed, T')
        else (.error (.constraint "usage_counters_tenant_id_fkey"), T)
    | some r =>
      match conflict r with
      | .error e => (.error e, T)
      | .ok r' =>
        match T.replace r' with
        | .error v => (.error (constraintOf v), T)
        | .ok T' => (.ok r', T')

/-- `UsageCounter::increment_task_minutes`. -/
def incrementTaskMinutes (tenants : Uuid → Bool) (now : DateTime) (tenantId : Uuid)
    (minutes : Int32) : UsageTable → Except DbError UsageCounter × UsageTable :=
  upsert tenants { zero tenantId (today now) with taskMinutes := minutes } fun r =>
    (int4pl r.taskMinutes minutes).map fun sum => { r with taskMinutes := sum }

/-- `UsageCounter::increment_streams`. -/
def incrementStreams (tenants : Uuid → Bool) (now : DateTime) (tenantId : Uuid) :
    UsageTable → Except DbError UsageCounter × UsageTable :=
  upsert tenants { zero tenantId (today now) with streams := 1 } fun r =>
    (int4pl r.streams 1).map fun sum => { r with streams := sum }

/-- `UsageCounter::increment_bytes`. -/
def incrementBytes (tenants : Uuid → Bool) (now : DateTime) (tenantId : Uuid) (bytes : Int64) :
    UsageTable → Except DbError UsageCounter × UsageTable :=
  upsert tenants { zero tenantId (today now) with bytes := bytes } fun r =>
    (int8pl r.bytes bytes).map fun sum => { r with bytes := sum }

/-- `UsageCounter::increment_tasks_created`. -/
def incrementTasksCreated (tenants : Uuid → Bool) (now : DateTime) (tenantId : Uuid) :
    UsageTable → Except DbError UsageCounter × UsageTable :=
  upsert tenants { zero tenantId (today now) with tasksCreated := 1 } fun r =>
    (int4pl r.tasksCreated 1).map fun sum => { r with tasksCreated := sum }

/-! ### Calls -/

/-- The counters of a row. -/
inductive Counter
  | taskMinutes | streams | bytes | tasksCreated
deriving DecidableEq, Repr

/-- The value of a counter. -/
def get (r : UsageCounter) : Counter → ℤ
  | .taskMinutes => r.taskMinutes.toInt
  | .streams => r.streams.toInt
  | .bytes => r.bytes.toInt
  | .tasksCreated => r.tasksCreated.toInt

/-- A call of one of the four increments, with the clock of the caller. -/
inductive Call
  | incrementTaskMinutes (now : DateTime) (tenantId : Uuid) (minutes : Int32)
  | incrementStreams (now : DateTime) (tenantId : Uuid)
  | incrementBytes (now : DateTime) (tenantId : Uuid) (bytes : Int64)
  | incrementTasksCreated (now : DateTime) (tenantId : Uuid)
deriving DecidableEq

namespace Call

/-- The statement of a call. -/
def exec (tenants : Uuid → Bool) : Call → UsageTable → Except DbError UsageCounter × UsageTable
  | incrementTaskMinutes now tenantId minutes =>
    UsageCounter.incrementTaskMinutes tenants now tenantId minutes
  | incrementStreams now tenantId => UsageCounter.incrementStreams tenants now tenantId
  | incrementBytes now tenantId bytes => UsageCounter.incrementBytes tenants now tenantId bytes
  | incrementTasksCreated now tenantId => UsageCounter.incrementTasksCreated tenants now tenantId

/-- The counter that a call increments. -/
def counter : Call → Counter
  | incrementTaskMinutes .. => .taskMinutes
  | incrementStreams .. => .streams
  | incrementBytes .. => .bytes
  | incrementTasksCreated .. => .tasksCreated

/-- The amount by which it is incremented. -/
def amount : Call → ℤ
  | incrementTaskMinutes _ _ minutes => minutes.toInt
  | incrementStreams .. => 1
  | incrementBytes _ _ bytes => bytes.toInt
  | incrementTasksCreated .. => 1

/-- The tenant and the day of a call. -/
def key : Call → Uuid × NaiveDate
  | incrementTaskMinutes now tenantId _ | incrementStreams now tenantId
  | incrementBytes now tenantId _ | incrementTasksCreated now tenantId => (tenantId, today now)

/-- What a call adds to a counter of a row. -/
def adds (call : Call) (k : Uuid × NaiveDate) (c : Counter) : ℤ :=
  if call.key = k ∧ call.counter = c then call.amount else 0

end Call

/-! ### What a statement does -/

lemma int4pl_eq_ok {a b c : Int32} (h : int4pl a b = .ok c) : c.toInt = a.toInt + b.toInt := by
  simp only [int4pl] at h
  split at h
  · rename_i hfits
    cases h
    exact Int32.toInt_ofInt_of_le hfits.1 hfits.2
  · cases h

lemma int8pl_eq_ok {a b c : Int64} (h : int8pl a b = .ok c) : c.toInt = a.toInt + b.toInt := by
  simp only [int8pl] at h
  split at h
  · rename_i hfits
    cases h
    exact Int64.toInt_ofInt_of_le hfits.1 hfits.2
  · cases h

lemma get_zero (tenantId : Uuid) (period : NaiveDate) (c : Counter) :
    (zero tenantId period).get c = 0 := by
  cases c <;> rfl

/-- The CHECK constraint, for all counters. -/
lemma check_iff {r : UsageCounter} : schema.check r = true ↔ ∀ c, 0 ≤ r.get c := by
  simp only [schema, Bool.and_eq_true, decide_eq_true_eq]
  constructor
  · rintro ⟨⟨⟨hminutes, hstreams⟩, hbytes⟩, htasks⟩ c
    cases c with
    | taskMinutes => exact hminutes
    | streams => exact hstreams
    | bytes => exact hbytes
    | tasksCreated => exact htasks
  · intro h
    exact ⟨⟨⟨h .taskMinutes, h .streams⟩, h .bytes⟩, h .tasksCreated⟩

/-- **A rejected statement changes no row.** -/
lemma upsert_error {tenants : Uuid → Bool} {proposed : UsageCounter}
    {conflict : UsageCounter → Except DbError UsageCounter} {T : UsageTable} {e : DbError}
    (h : (upsert tenants proposed conflict T).1 = .error e) :
    (upsert tenants proposed conflict T).2 = T := by
  unfold upsert at h ⊢
  split
  · rfl
  · rename_i hcheck
    rw [if_neg hcheck] at h
    split
    · rename_i hnone
      simp only [hnone] at h
      split
      · rfl
      · rename_i hinsert
        simp only [hinsert] at h
        split
        · rename_i htenant
          rw [if_pos htenant] at h
          cases h
        · rfl
    · rename_i r hsome
      simp only [hsome] at h
      split
      · rfl
      · rename_i hconflict
        simp only [hconflict] at h
        split
        · rfl
        · rename_i hreplace
          simp only [hreplace] at h
          cases h

/-- **Inversion of a statement that returned a row.**  Either the row is the proposed one,
for a key without a row; or it is the merged one, in the place of the old row. -/
lemma upsert_ok {tenants : Uuid → Bool} {proposed r : UsageCounter}
    {conflict : UsageCounter → Except DbError UsageCounter} {T T' : UsageTable}
    (hkey : ∀ old new, conflict old = .ok new → schema.key new = schema.key old)
    (h : upsert tenants proposed conflict T = (.ok r, T')) :
    schema.check proposed = true ∧
      (∀ k, T'.row k = if schema.key proposed = k then some r else T.row k) ∧
      ((T.row (schema.key proposed) = none ∧ r = proposed) ∨
        ∃ old, T.row (schema.key proposed) = some old ∧ conflict old = .ok r) := by
  unfold upsert at h
  split at h
  · cases h
  · rename_i hcheck
    refine ⟨by simpa using hcheck, ?_⟩
    split at h
    · rename_i hnone
      split at h
      · cases h
      · rename_i T₁ hinsert
        split at h
        · cases h
          exact ⟨Table.row_insert hinsert, Or.inl ⟨hnone, rfl⟩⟩
        · cases h
    · rename_i old hold
      split at h
      · cases h
      · rename_i r' hconflict
        split at h
        · cases h
        · rename_i T₁ hreplace
          cases h
          refine ⟨?_, Or.inr ⟨old, hold, hconflict⟩⟩
          intro k
          rw [Table.row_replace hreplace, hkey old r hconflict, Table.key_of_row hold]
          by_cases hk : schema.key proposed = k
          · rw [if_pos hk, if_pos hk, ← hk, hold, Option.map_some]
          · rw [if_neg hk, if_neg hk]

/-! ### What a call does -/

/-- The row that a call proposes and its ON CONFLICT clause add the amount to the counter. -/
structure Adds (call : Call) (proposed : UsageCounter)
    (conflict : UsageCounter → Except DbError UsageCounter) : Prop where
  key_proposed : schema.key proposed = call.key
  get_proposed : ∀ c, proposed.get c = if call.counter = c then call.amount else 0
  key_conflict : ∀ old new, conflict old = .ok new → schema.key new = schema.key old
  get_conflict : ∀ old new, conflict old = .ok new →
    ∀ c, new.get c = old.get c + if call.counter = c then call.amount else 0

lemma Adds.of_map {α : Type} {call : Call} {proposed : UsageCounter}
    {sum : UsageCounter → Except DbError α} {set : UsageCounter → α → UsageCounter}
    (hkey : schema.key proposed = call.key)
    (hproposed : ∀ c, proposed.get c = if call.counter = c then call.amount else 0)
    (hset : ∀ old n, schema.key (set old n) = schema.key old)
    (hget : ∀ old n, sum old = .ok n →
      ∀ c, (set old n).get c = old.get c + if call.counter = c then call.amount else 0) :
    Adds call proposed fun r => (sum r).map (set r) := by
  refine ⟨hkey, hproposed, ?_, ?_⟩
  · intro old new h
    cases hsum : sum old with
    | error e => rw [hsum] at h; cases h
    | ok n => rw [hsum] at h; cases h; exact hset old n
  · intro old new h
    cases hsum : sum old with
    | error e => rw [hsum] at h; cases h
    | ok n => rw [hsum] at h; cases h; exact hget old n hsum

lemma Call.exists_adds (tenants : Uuid → Bool) (call : Call) : ∃ proposed conflict,
    call.exec tenants = upsert tenants proposed conflict ∧ Adds call proposed conflict := by
  cases call with
  | incrementTaskMinutes now tenantId minutes =>
    refine ⟨{ zero tenantId (today now) with taskMinutes := minutes }, _, rfl,
      Adds.of_map rfl (fun c => by cases c <;> rfl) (fun _ _ => rfl) ?_⟩
    intro old n hn c
    have hsum := int4pl_eq_ok hn
    cases c <;> simp [get, Call.counter, Call.amount, hsum]
  | incrementStreams now tenantId =>
    refine ⟨{ zero tenantId (today now) with streams := 1 }, _, rfl,
      Adds.of_map rfl (fun c => by cases c <;> rfl) (fun _ _ => rfl) ?_⟩
    intro old n hn c
    have hsum := int4pl_eq_ok hn
    cases c <;> simp [get, Call.counter, Call.amount, hsum]
  | incrementBytes now tenantId bytes =>
    refine ⟨{ zero tenantId (today now) with bytes := bytes }, _, rfl,
      Adds.of_map rfl (fun c => by cases c <;> rfl) (fun _ _ => rfl) ?_⟩
    intro old n hn c
    have hsum := int8pl_eq_ok hn
    cases c <;> simp [get, Call.counter, Call.amount, hsum]
  | incrementTasksCreated now tenantId =>
    refine ⟨{ zero tenantId (today now) with tasksCreated := 1 }, _, rfl,
      Adds.of_map rfl (fun c => by cases c <;> rfl) (fun _ _ => rfl) ?_⟩
    intro old n hn c
    have hsum := int4pl_eq_ok hn
    cases c <;> simp [get, Call.counter, Call.amount, hsum]

/-- The value of a counter in the row of a key; 0 when there is no row. -/
def value (T : UsageTable) (k : Uuid × NaiveDate) (c : Counter) : ℤ :=
  (T.row k).elim 0 fun r => r.get c

namespace Call

variable {tenants : Uuid → Bool} {call : Call} {T T' : UsageTable} {r : UsageCounter}

/-- **A rejected call changes no row.** -/
lemma exec_error {e : DbError} (h : (call.exec tenants T).1 = .error e) :
    (call.exec tenants T).2 = T := by
  obtain ⟨proposed, conflict, hexec, -⟩ := call.exists_adds tenants
  rw [hexec] at h ⊢
  exact upsert_error h

/-- **Effect of an accepted call**: it adds its amount, which is not negative, to its
counter, and changes nothing else. -/
lemma exec_ok (h : call.exec tenants T = (.ok r, T')) :
    0 ≤ call.amount ∧ (∀ k, T'.row k = if call.key = k then some r else T.row k) ∧
      ∀ c, r.get c = value T call.key c + if call.counter = c then call.amount else 0 := by
  obtain ⟨proposed, conflict, hexec, hadds⟩ := call.exists_adds tenants
  rw [hexec] at h
  obtain ⟨hcheck, hrows, hrow⟩ := upsert_ok hadds.key_conflict h
  rw [hadds.key_proposed] at hrows hrow
  refine ⟨?_, hrows, ?_⟩
  · have hnonneg := check_iff.1 hcheck call.counter
    rwa [hadds.get_proposed, if_pos rfl] at hnonneg
  · intro c
    rcases hrow with ⟨hnone, rfl⟩ | ⟨old, hold, hconflict⟩
    · rw [value, hnone, Option.elim_none, zero_add, hadds.get_proposed]
    · rw [value, hold, Option.elim_some, hadds.get_conflict old r hconflict]

/-- What an accepted call adds to the value of any counter of any row. -/
lemma value_exec (h : call.exec tenants T = (.ok r, T')) (k : Uuid × NaiveDate) (c : Counter) :
    value T' k c = value T k c + call.adds k c := by
  obtain ⟨-, hrows, hget⟩ := exec_ok h
  unfold value adds
  rw [hrows]
  by_cases hk : call.key = k
  · subst hk
    simp only [if_true, Option.elim_some, true_and]
    exact hget c
  · simp [hk]

end Call

/-! ### Interleavings of calls -/

/-- The table and the calls that returned a row so far. -/
structure UsageState where
  table : UsageTable
  done : List Call

/-- One call of any client. -/
def step (tenants : Uuid → Bool) (s : UsageState) (call : Call) : Option UsageState :=
  let (result, table) := call.exec tenants s.table
  match result with
  | .ok _ => some { table, done := s.done ++ [call] }
  | .error _ => some { s with table }

/-- The calls of any number of clients, one statement after another, from an empty table. -/
def machine (tenants : Uuid → Bool) : Machine UsageState Call where
  Init s := s = { table := Table.empty schema, done := [] }
  step := step tenants

/-- The sum of the amounts of the calls for a counter of a row. -/
def total (calls : List Call) (k : Uuid × NaiveDate) (c : Counter) : ℤ :=
  ((calls.filter fun call => decide (call.key = k ∧ call.counter = c)).map Call.amount).sum

lemma total_snoc (calls : List Call) (call : Call) (k : Uuid × NaiveDate) (c : Counter) :
    total (calls ++ [call]) k c = total calls k c + call.adds k c := by
  unfold total Call.adds
  by_cases h : call.key = k ∧ call.counter = c
  · simp [h]
  · simp [h, List.filter_append]

/-- Inversion of a step. -/
lemma effect_of_step {tenants : Uuid → Bool} {s s' : UsageState} {call : Call}
    (h : step tenants s call = some s') :
    (∃ r, call.exec tenants s.table = (.ok r, s'.table) ∧ s'.done = s.done ++ [call]) ∨
      ((∃ e, (call.exec tenants s.table).1 = .error e) ∧ s' = s) := by
  simp only [step] at h
  cases hexec : call.exec tenants s.table with
  | mk result table =>
    rw [hexec] at h
    cases result with
    | ok r =>
      cases h
      exact Or.inl ⟨r, rfl, rfl⟩
    | error e =>
      have herror : (call.exec tenants s.table).1 = .error e := by rw [hexec]
      have hsame := Call.exec_error herror
      rw [hexec] at hsame
      cases h
      obtain rfl : table = s.table := hsame
      exact Or.inr ⟨⟨e, rfl⟩, rfl⟩

variable {tenants : Uuid → Bool} {s : UsageState}

/-- Every counter is the sum of the accepted amounts. -/
lemma value_eq_total (h : (machine tenants).Reachable Machine.anyStep s) (k : Uuid × NaiveDate)
    (c : Counter) : value s.table k c = total s.done k c := by
  refine h.invariant (P := fun s => value s.table k c = total s.done k c) ?_ ?_
  · rintro s rfl
    rfl
  · intro s call s' _ hvalue hstep
    rcases effect_of_step hstep with ⟨r, hexec, hdone⟩ | ⟨-, rfl⟩
    · rw [hdone, total_snoc, Call.value_exec hexec, hvalue]
    · exact hvalue

/-- No step takes a row away or lowers one of its counters. -/
lemma row_mono_of_step {s' : UsageState} {call : Call} (h : step tenants s call = some s')
    {k : Uuid × NaiveDate} {r : UsageCounter} (hr : s.table.row k = some r) :
    ∃ r', s'.table.row k = some r' ∧ ∀ c, r.get c ≤ r'.get c := by
  rcases effect_of_step h with ⟨new, hexec, -⟩ | ⟨-, rfl⟩
  · obtain ⟨hamount, hrows, hget⟩ := Call.exec_ok hexec
    rw [hrows]
    by_cases hk : call.key = k
    · subst hk
      refine ⟨new, if_pos rfl, ?_⟩
      intro c
      rw [hget c, value, hr, Option.elim_some]
      split <;> omega
    · exact ⟨r, by rw [if_neg hk, hr], fun c => le_rfl⟩
  · exact ⟨r, hr, fun c => le_rfl⟩

/-- **Usage accounting.**  In every interleaving every counter of every row is the sum of
the amounts of the calls for its tenant and day that returned a row, it never decreases,
and a call that fails changes no row. -/
theorem usage_accounting (h : (machine tenants).Reachable Machine.anyStep s) :
    (∀ k r, s.table.row k = some r → ∀ c, r.get c = total s.done k c) ∧
      (∀ l s', (machine tenants).Run Machine.anyStep s l s' → ∀ k r, s.table.row k = some r →
        ∃ r', s'.table.row k = some r' ∧ ∀ c, r.get c ≤ r'.get c) ∧
      ∀ call e s', (call.exec tenants s.table).1 = .error e →
        (machine tenants).step s call = some s' → s'.table = s.table := by
  refine ⟨?_, ?_, ?_⟩
  · intro k r hr c
    rw [← value_eq_total h, value, hr, Option.elim_some]
  · intro l s' hrun k r hr
    refine hrun.preserves (P := fun s' => ∃ r', s'.table.row k = some r' ∧
      ∀ c, r.get c ≤ r'.get c) ?_ ⟨r, hr, fun c => le_rfl⟩
    rintro t call t' - ⟨r', hr', hle⟩ hstep
    obtain ⟨r'', hr'', hle'⟩ := row_mono_of_step hstep hr'
    exact ⟨r'', hr'', fun c => (hle c).trans (hle' c)⟩
  · intro call e s' herror hstep
    rcases effect_of_step hstep with ⟨r, hexec, -⟩ | ⟨-, rfl⟩
    · rw [hexec] at herror
      cases herror
    · rfl

/-- Two tenants; a negative amount and an overflow are rejected. -/
theorem usage_accounting_two_tenants : ∃ s : UsageState,
    (machine fun _ => true).exec Machine.anyStep ⟨Table.empty schema, []⟩
      [.incrementTaskMinutes 0 1 2147483647, .incrementTaskMinutes 0 1 1,
        .incrementTaskMinutes 0 1 (-5), .incrementStreams 7 1, .incrementStreams 0 2] = some s ∧
      s.done.length = 3 ∧ ∃ r, s.table.row (1, 0) = some r ∧ r.streams = 1 ∧
        r.get .taskMinutes = total s.done (1, 0) .taskMinutes := by
  have hrun : ((machine fun _ => true).exec Machine.anyStep ⟨Table.empty schema, []⟩
      [.incrementTaskMinutes 0 1 2147483647, .incrementTaskMinutes 0 1 1,
        .incrementTaskMinutes 0 1 (-5), .incrementStreams 7 1, .incrementStreams 0 2]).map
      (fun s => (s.done.length, (s.table.row (1, 0)).map UsageCounter.streams)) =
      some (3, some 1) := by decide +kernel
  obtain ⟨s, hs, hobs⟩ := Option.map_eq_some_iff.1 hrun
  simp only [Prod.mk.injEq] at hobs
  obtain ⟨r, hr, hstreams⟩ := Option.map_eq_some_iff.1 hobs.2
  have hreach : (machine fun _ => true).Reachable Machine.anyStep s :=
    ⟨_, _, rfl, Machine.run_of_exec hs⟩
  exact ⟨s, hs, hobs.1, r, hr, hstreams, (usage_accounting hreach).1 _ r hr .taskMinutes⟩

/-- What `get_current` reads is the sum of the accepted amounts of the day. -/
lemma get_getCurrent (h : (machine tenants).Reachable Machine.anyStep s) (now : DateTime)
    (tenantId : Uuid) (c : Counter) :
    (getCurrent s.table now tenantId).get c = total s.done (tenantId, today now) c := by
  rw [← value_eq_total h, value, getCurrent]
  cases s.table.row (tenantId, today now) with
  | none => exact get_zero tenantId (today now) c
  | some r => rfl

end UsageCounter

end AxonTask
