import AxonTask.Lib.Locks
import AxonTask.Worker.Lifecycle

/-!
# Racing claims

`TaskQueue::claim_tasks` and the updates by `id` are statements of Postgres at the isolation
level READ COMMITTED, each in a transaction of its own, and they overlap.  A statement reads
its rows in a snapshot, locks each row that it is going to write, checks the current version
of a locked row once more, and its writes become visible when it commits and releases its
locks.  An update by `id` waits for a locked row; the claim (`FOR UPDATE SKIP LOCKED`) goes
on to the next one.

The machine below runs any number of such calls.  It refines the machine of
`AxonTask.Lifecycle`, in which a statement is one step, and a task is handed to one caller
only, because a row cannot be claimed unless it is pending when it is locked.
-/

namespace AxonTask

open Lib

/-- A statement on the row with a given `id`. -/
inductive RowStatement
  | update (op : RowOp)
  | delete

/-- The update is `transition_to_running`, whose caller executes the task. -/
def RowOp.claims : RowOp → Bool
  | .transitionToRunning => true
  | _ => false

namespace RowStatement

/-- The WHERE clause of a statement, but for the `id`. -/
def admits : RowStatement → Task → Bool
  | .update op, t => op.update.admits t
  | .delete, _ => true

/-- The statement of the life cycle. -/
def statement (id : Uuid) : RowStatement → Statement
  | .update op => .update op id
  | .delete => .delete id

/-- The tasks that the caller of a statement is to execute, and the table. -/
def exec (T : TaskTable) (id : Uuid) (now : DateTime) :
    RowStatement → Except Violation (List Task × TaskTable)
  | .update op =>
    (op.update.exec T id now).map fun (r, T') => (if op.claims then r.toList else [], T')
  | .delete => .ok ([], (Task.delete T id).2)

end RowStatement

/-- The CTE of `claim_tasks` under way: its LIMIT, the rows that it has locked, and the rows
of its snapshot that it has still to visit. -/
structure Scan where
  limit : ℕ
  locked : List Uuid
  todo : List Task

/-- How far a call has come. -/
inductive Call
  | idle
  /-- `claim_tasks` is scanning the pending rows. -/
  | scanning (c : Scan)
  /-- A statement has found its row, and waits for the lock. -/
  | waiting (st : RowStatement) (id : Uuid)
  /-- A statement has locked its row. -/
  | holding (st : RowStatement) (id : Uuid)
  /-- The call has returned, and its caller is to execute these tasks. -/
  | returned (tasks : List Task)
  | failed

namespace Call

/-- The rows that a call has locked. -/
def held : Call → List Uuid
  | .scanning c => c.locked
  | .holding _ id => [id]
  | _ => []

/-- The tasks that a call has handed to its caller. -/
def handed : Call → List Task
  | .returned tasks => tasks
  | _ => []

/-- The call has begun and has not returned. -/
def inFlight : Call → Bool
  | .scanning _ | .waiting .. | .holding .. => true
  | _ => false

end Call

/-- The committed table, the row locks and the calls.  The field `ids` records all ids that
tasks have been given. -/
structure ClaimRace (κ : Type*) where
  tasks : TaskTable
  ids : List Uuid
  locks : Locks Uuid κ
  calls : κ → Call

/-- A step of a call. -/
inductive ClaimStep (κ : Type*)
  /-- `Task::create`, which commits at once. -/
  | create (data : CreateTask) (id : Uuid) (now : DateTime)
  /-- `claim_tasks(limit)` takes its snapshot; `order` are the pending rows by age. -/
  | claim (k : κ) (q : TaskQueue) (limit : Option UInt64) (order : List Uuid)
  /-- The scan of `claim_tasks` visits the next row. -/
  | scan (k : κ)
  /-- A statement on one row takes its snapshot. -/
  | start (k : κ) (st : RowStatement) (id : Uuid)
  /-- A statement gets the lock on its row. -/
  | lock (k : κ)
  | commit (k : κ) (now : DateTime)
  /-- The call fails, and its transaction is rolled back. -/
  | abort (k : κ)

/-- The call that makes a step. -/
def ClaimStep.call {κ : Type*} : ClaimStep κ → Option κ
  | .create .. => none
  | .claim k .. | .scan k | .start k .. | .lock k | .commit k _ | .abort k => some k

namespace ClaimRace

/-- `order` are the pending rows `ORDER BY created_at ASC`; rows of equal age come in any
order. -/
def PendingOrder (T : TaskTable) (order : List Uuid) : Prop :=
  order.Perm ((T.rows.filter fun t => decide (t.state = .pending)).map Task.id) ∧
    (order.filterMap T.row).Pairwise fun t t' => t.createdAt ≤ t'.createdAt

instance (T : TaskTable) (order : List Uuid) : Decidable (PendingOrder T order) :=
  inferInstanceAs (Decidable (_ ∧ _))

variable {κ : Type*} [DecidableEq κ]

/-- The call `k` goes on. -/
def setCall (s : ClaimRace κ) (k : κ) (c : Call) : ClaimRace κ :=
  { s with calls := Function.update s.calls k c }

/-- The call `k` locks a row. -/
def lockRow (s : ClaimRace κ) (k : κ) (id : Uuid) (c : Call) : ClaimRace κ :=
  { s.setCall k c with locks := s.locks.acquire id k }

/-- The transaction of the call `k` ends, with the table `T`. -/
def ret (s : ClaimRace κ) (k : κ) (T : TaskTable) (c : Call) : ClaimRace κ :=
  { s.setCall k c with tasks := T, locks := s.locks.release k }

@[simp] lemma calls_setCall (s : ClaimRace κ) (k : κ) (c : Call) : (s.setCall k c).calls k = c :=
  Function.update_self ..

@[simp] lemma calls_lockRow (s : ClaimRace κ) (k : κ) (id : Uuid) (c : Call) :
    (s.lockRow k id c).calls k = c :=
  Function.update_self ..

@[simp] lemma calls_ret (s : ClaimRace κ) (k : κ) (T : TaskTable) (c : Call) :
    (s.ret k T c).calls k = c :=
  Function.update_self ..

/-- The transaction of the call `k` ends, with the answer of its last statement. -/
def finish (s : ClaimRace κ) (k : κ) : Except Violation (List Task × TaskTable) → ClaimRace κ
  | .ok (tasks, T) => s.ret k T (.returned tasks)
  | .error _ => s.ret k s.tasks .failed

/-- A step of a call.  A call runs once. -/
def step (s : ClaimRace κ) : ClaimStep κ → Option (ClaimRace κ)
  | .create data id now =>
    -- `gen_random_uuid` does not repeat an id
    if id ∈ s.ids then none
    else
      (Lifecycle.step s.tasks (.create data id, now)).map fun T =>
        { s with tasks := T, ids := s.ids ++ [id] }
  | .claim k q limit order =>
    match s.calls k with
    | .idle =>
      if PendingOrder s.tasks order then
        -- "LIMIT must not be negative"
        if q.limit limit < 0 then some (s.setCall k .failed)
        else
          some (s.setCall k (.scanning
            { limit := (q.limit limit).toInt.toNat
              locked := []
              todo := order.filterMap s.tasks.row }))
      else none
    | _ => none
  | .scan k =>
    match s.calls k with
    | .scanning ⟨limit, locked, t :: todo⟩ =>
      if limit ≤ locked.length then none
      else if s.locks t.id = none ∧ Lifecycle.isPending s.tasks t.id = true then
        some (s.lockRow k t.id (.scanning ⟨limit, locked ++ [t.id], todo⟩))
      else some (s.setCall k (.scanning ⟨limit, locked, todo⟩))
    | _ => none
  | .start k st id =>
    match s.calls k with
    | .idle =>
      if (s.tasks.row id).any st.admits then some (s.setCall k (.waiting st id))
      else some (s.setCall k (.returned []))
    | _ => none
  | .lock k =>
    match s.calls k with
    | .waiting st id =>
      if s.locks id = none then
        if (s.tasks.row id).any st.admits then some (s.lockRow k id (.holding st id))
        else some (s.setCall k (.returned []))
      else none
    | _ => none
  | .commit k now =>
    match s.calls k with
    | .scanning c =>
      if c.todo = [] ∨ c.limit ≤ c.locked.length then
        some (s.finish k (TaskQueue.claimTasks s.tasks c.locked now))
      else none
    | .holding st id => some (s.finish k (st.exec s.tasks id now))
    | _ => none
  | .abort k =>
    if (s.calls k).inFlight then some (s.ret k s.tasks .failed) else none

variable (κ)

/-- The empty table, and no call made. -/
def start : ClaimRace κ where
  tasks := Table.empty Task.schema
  ids := []
  locks := Locks.free
  calls _ := .idle

/-- Calls racing on one table. -/
def machine : Machine (ClaimRace κ) (ClaimStep κ) where
  Init s := s = start κ
  step := step

variable {κ} {s s' : ClaimRace κ}

/-! ### What a commit does -/

/-- What a commit does that writes the rows `locked` and hands out `tasks`. -/
structure Commits (T : TaskTable) (locked : List Uuid) (tasks : List Task) (T' : TaskTable) :
    Prop where
  step : ∃ st now, Lifecycle.step T (st, now) = some T' ∧ st.targets = locked ∧
    ∀ data id, st ≠ .create data id
  nodup : (tasks.map Task.id).Nodup
  handed : ∀ t ∈ tasks, t.id ∈ locked ∧ Lifecycle.isPending T t.id = true ∧
    T'.row t.id = some t ∧ t.state = .running

lemma commits_claimTasks {T T' : TaskTable} {ids : List Uuid} {now : DateTime} {tasks : List Task}
    (hi : Lifecycle.RowsInv T) (hnodup : ids.Nodup)
    (hids : ∀ id ∈ ids, Lifecycle.isPending T id = true)
    (h : TaskQueue.claimTasks T ids now = .ok (tasks, T')) :
    Commits T ids tasks T' ∧ tasks.map Task.id = ids := by
  have hall : ids.all (Lifecycle.isPending T) = true := List.all_eq_true.2 hids
  obtain ⟨ts, T₁, hclaim, hts⟩ := Lifecycle.exists_claimTasks hi hall now
  obtain ⟨rfl, rfl⟩ : ts = tasks ∧ T₁ = T' := by simpa using hclaim.symm.trans h
  have hstep : Lifecycle.step T (.claim ids, now) = some T₁ := by simp [Lifecycle.step, hall, h]
  refine ⟨⟨⟨_, now, hstep, rfl, by simp⟩, hts ▸ hnodup, ?_⟩, hts⟩
  intro t ht
  have hid : t.id ∈ ids := hts ▸ List.mem_map_of_mem ht
  obtain ⟨id, -, hrow⟩ := List.mem_filterMap.1 ((TaskQueue.claimTasks_eq_ok h).2 ▸ ht)
  obtain rfl : t.id = id := Table.key_of_row hrow
  refine ⟨hid, hids _ hid, hrow, ?_⟩
  rw [TaskQueue.row_claimTasks h, if_pos hid] at hrow
  obtain ⟨t₀, -, rfl⟩ := Option.map_eq_some_iff.1 hrow
  rfl

lemma commits_exec {T T' : TaskTable} {st : RowStatement} {id : Uuid} {now : DateTime}
    {tasks : List Task} (h : st.exec T id now = .ok (tasks, T')) : Commits T [id] tasks T' := by
  cases st with
  | delete =>
    simp only [RowStatement.exec, Except.ok.injEq, Prod.mk.injEq] at h
    obtain ⟨rfl, rfl⟩ := h
    exact ⟨⟨.delete id, now, rfl, rfl, by simp⟩, by simp, by simp⟩
  | update op =>
    simp only [RowStatement.exec] at h
    cases hexec : op.update.exec T id now with
    | error v => simp [hexec, Except.map] at h
    | ok r =>
      obtain ⟨o, T₁⟩ := r
      simp only [hexec, Except.map, Except.ok.injEq, Prod.mk.injEq] at h
      obtain ⟨rfl, rfl⟩ := h
      have hstep : Lifecycle.step T (.update op id, now) = some T₁ := by
        simp [Lifecycle.step, hexec]
      refine ⟨⟨_, now, hstep, rfl, by simp⟩, ?_, ?_⟩
      · cases o <;> split <;> simp
      · intro t ht
        split at ht
        · rename_i hclaims
          obtain rfl : op = .transitionToRunning := by cases op <;> first | rfl | cases hclaims
          obtain rfl : o = some t := by simpa using ht
          rcases Table.updateKey_eq_ok hexec with ⟨-, hnone, -⟩ | ⟨t₀, ht₀, hadm, -, hsome, hrow, -⟩
          · cases hnone
          · obtain rfl := Option.some.inj hsome
            have hid : t₀.id = id := Table.key_of_row ht₀
            subst hid
            have hpending := Task.admits_singleton (s := .pending) rfl hadm
            exact ⟨by simp [RowOp.update, Task.transitionToRunning],
              Lifecycle.isPending_iff.2 ⟨t₀, ht₀, hpending⟩, hrow, rfl⟩
        · simp at ht

/-! ### The snapshot of a claim -/

lemma PendingOrder.mem_iff {T : TaskTable} {order : List Uuid} (h : PendingOrder T order)
    {id : Uuid} : id ∈ order ↔ ∃ t, T.row id = some t ∧ t.state = .pending := by
  rw [h.1.mem_iff, List.mem_map]
  constructor
  · rintro ⟨t, ht, rfl⟩
    obtain ⟨hmem, hstate⟩ := List.mem_filter.1 ht
    exact ⟨t, Table.row_key_of_mem hmem, by simpa using hstate⟩
  · rintro ⟨t, ht, hstate⟩
    exact ⟨t, List.mem_filter.2 ⟨Table.mem_of_row ht, by simpa using hstate⟩, Table.key_of_row ht⟩

lemma PendingOrder.map_id {T : TaskTable} {order : List Uuid} (h : PendingOrder T order) :
    (order.filterMap T.row).map Task.id = order :=
  Table.map_key_filterMap_row (S := Task.schema) fun id hid => by
    obtain ⟨t, ht, -⟩ := h.mem_iff.1 hid
    exact ⟨t, ht⟩

lemma PendingOrder.nodup {T : TaskTable} {order : List Uuid} (h : PendingOrder T order) :
    order.Nodup :=
  h.1.nodup_iff.2 (T.keys_nodup.sublist (List.filter_sublist.map _))

/-- The snapshot has all pending rows. -/
lemma PendingOrder.mem_snapshot {T : TaskTable} {order : List Uuid} (h : PendingOrder T order)
    {t : Task} (ht : t ∈ T.rows) (hstate : t.state = .pending) : t ∈ order.filterMap T.row := by
  have hrow : T.row t.id = some t := Table.row_key_of_mem ht
  exact List.mem_filterMap.2 ⟨t.id, h.mem_iff.2 ⟨t, hrow, hstate⟩, hrow⟩

/-! ### The invariant -/

/-- What a call relies on: the rows that it has locked still satisfy its WHERE clause, and a
scan visits no row twice. -/
def Valid (T : TaskTable) : Call → Prop
  | .scanning c =>
    (∀ id ∈ c.locked, Lifecycle.isPending T id = true) ∧
      (c.locked ++ c.todo.map Task.id).Nodup ∧ c.locked.length ≤ c.limit
  | .holding st id => (T.row id).any st.admits = true
  | _ => True

lemma Valid.congr {T T' : TaskTable} {c : Call} (h : Valid T c)
    (hrow : ∀ id ∈ c.held, T'.row id = T.row id) : Valid T' c := by
  cases c with
  | scanning c =>
    refine ⟨?_, h.2⟩
    intro id hid
    rw [Lifecycle.isPending, hrow id hid]
    exact h.1 id hid
  | holding st id =>
    change (T'.row id).any st.admits = true
    rw [hrow id (by simp [Call.held])]
    exact h
  | idle | waiting | returned | failed => trivial

/-- A scan begins with its snapshot, which has no row twice. -/
lemma Valid.claim {T : TaskTable} {order : List Uuid} (h : PendingOrder T order) (limit : ℕ) :
    Valid T (.scanning ⟨limit, [], order.filterMap T.row⟩) := by
  have hnodup : ((order.filterMap T.row).map Task.id).Nodup := by
    rw [h.map_id]
    exact h.nodup
  exact ⟨by simp, hnodup, Nat.zero_le _⟩

/-- The scan locks the next row, which is still pending. -/
lemma Valid.scan_lock {T : TaskTable} {limit : ℕ} {locked : List Uuid} {t : Task}
    {todo : List Task} (h : Valid T (.scanning ⟨limit, locked, t :: todo⟩))
    (hlt : locked.length < limit) (hpending : Lifecycle.isPending T t.id = true) :
    Valid T (.scanning ⟨limit, locked ++ [t.id], todo⟩) := by
  obtain ⟨hlocked, hnodup, -⟩ := h
  refine ⟨?_, by simpa using hnodup, ?_⟩
  · intro id hid
    rcases List.mem_append.1 hid with hid | hid
    · exact hlocked id hid
    · rwa [List.mem_singleton.1 hid]
  · simp only [List.length_append, List.length_singleton]
    omega

/-- The scan passes the next row over. -/
lemma Valid.scan_pass {T : TaskTable} {limit : ℕ} {locked : List Uuid} {t : Task}
    {todo : List Task} (h : Valid T (.scanning ⟨limit, locked, t :: todo⟩)) :
    Valid T (.scanning ⟨limit, locked, todo⟩) :=
  ⟨h.1, h.2.1.sublist (by simp), h.2.2⟩

/-- The rows that a call has locked are there. -/
lemma Valid.exists_row {T : TaskTable} {c : Call} (h : Valid T c) {id : Uuid} (hid : id ∈ c.held) :
    ∃ t, T.row id = some t := by
  cases c with
  | scanning c =>
    obtain ⟨t, ht, -⟩ := Lifecycle.isPending_iff.1 (h.1 id hid)
    exact ⟨t, ht⟩
  | holding st id' =>
    obtain rfl : id = id' := by simpa [Call.held] using hid
    obtain ⟨t, ht, -⟩ := (Option.any_eq_true ..).1 h
    exact ⟨t, ht⟩
  | idle | waiting | returned | failed => simp [Call.held] at hid

/-- The locks are those that the calls record. -/
def Held (s : ClaimRace κ) : Prop := s.locks.HeldBy fun k => (s.calls k).held

lemma Held.setCall (h : Held s) {k : κ} {c : Call} (hc : c.held = (s.calls k).held) :
    Held (s.setCall k c) := by
  refine h.congr ?_
  intro k'
  by_cases hk : k' = k
  · subst hk
    simp [ClaimRace.setCall, hc]
  · simp [ClaimRace.setCall, hk]

lemma Held.lockRow (h : Held s) {k : κ} {id : Uuid} {c : Call} (hfree : s.locks id = none)
    (hc : c.held = (s.calls k).held ++ [id]) : Held (s.lockRow k id c) := by
  refine Locks.HeldBy.acquire h hfree ?_ ?_
  · intro j
    simp [ClaimRace.lockRow, ClaimRace.setCall, hc]
  · intro k' hk
    simp [ClaimRace.lockRow, ClaimRace.setCall, hk]

lemma Held.ret (h : Held s) {k : κ} {T : TaskTable} {c : Call} (hc : c.held = []) :
    Held (s.ret k T c) := by
  refine Locks.HeldBy.release h ?_ ?_
  · simp [ClaimRace.ret, ClaimRace.setCall, hc]
  · intro k' hk
    simp [ClaimRace.ret, ClaimRace.setCall, hk]

/-- The invariant of the race. -/
structure Inv (s : ClaimRace κ) : Prop where
  rows : Lifecycle.RowsInv s.tasks
  ids : ∀ id t, s.tasks.row id = some t → id ∈ s.ids
  held : Held s
  valid : ∀ k, Valid s.tasks (s.calls k)
  nodup : ∀ k, ((s.calls k).handed.map Task.id).Nodup
  handed : ∀ k, ∀ t ∈ (s.calls k).handed,
    t.id ∈ s.ids ∧ Task.rowState s.tasks t.id ≠ some .pending
  exclusive : ∀ k k' t t', t ∈ (s.calls k).handed → t' ∈ (s.calls k').handed → t.id = t'.id → k = k'

/-- The call `k`, which has handed out nothing so far, goes on as `c`. -/
structure Moves (s s' : ClaimRace κ) (k : κ) (c : Call) : Prop where
  ids : s'.ids = s.ids
  calls : s'.calls = Function.update s.calls k c
  handed : (s.calls k).handed = []
  held : Held s'

section Moves

variable {k : κ} {c₀ c : Call} (hk : s.calls k = c₀) (hnone : c₀.handed = [])

include hk hnone

lemma Held.moves_setCall (h : Held s) (hc : c.held = c₀.held) : Moves s (s.setCall k c) k c :=
  ⟨rfl, rfl, hk ▸ hnone, h.setCall (hk ▸ hc)⟩

lemma Held.moves_lockRow (h : Held s) {id : Uuid} (hfree : s.locks id = none)
    (hc : c.held = c₀.held ++ [id]) : Moves s (s.lockRow k id c) k c :=
  ⟨rfl, rfl, hk ▸ hnone, h.lockRow hfree (hk ▸ hc)⟩

lemma Held.moves_ret (h : Held s) (T : TaskTable) (hc : c.held = []) :
    Moves s (s.ret k T c) k c :=
  ⟨rfl, rfl, hk ▸ hnone, h.ret hc⟩

omit hk hnone

lemma Moves.self (h : Moves s s' k c) : s'.calls k = c := by
  rw [h.calls, Function.update_self]

lemma Moves.other (h : Moves s s' k c) {k' : κ} (hk : k' ≠ k) : s'.calls k' = s.calls k' := by
  rw [h.calls, Function.update_of_ne hk]

end Moves

/-- What a step does: a task is created under a new id; or a call goes on without a write, or
commits the rows that it has locked. -/
inductive Effect (s : ClaimRace κ) (a : ClaimStep κ) (s' : ClaimRace κ) : Prop
  | create {data : CreateTask} {id : Uuid} {now : DateTime} (call : a.call = none)
      (new : id ∉ s.ids) (step : Lifecycle.step s.tasks (.create data id, now) = some s'.tasks)
      (ids : s'.ids = s.ids ++ [id]) (locks : s'.locks = s.locks) (calls : s'.calls = s.calls)
  | proceed {k : κ} {c : Call} (call : a.call = some k) (moves : Moves s s' k c)
      (tasks : s'.tasks = s.tasks) (handed : c.handed = []) (valid : Valid s.tasks c)
  | commit {k : κ} {tasks : List Task} (call : a.call = some k)
      (moves : Moves s s' k (.returned tasks))
      (commits : Commits s.tasks (s.calls k).held tasks s'.tasks)

/-- **Inversion of a step.** -/
lemma effect_of_step {a : ClaimStep κ} (hi : Inv s) (h : step s a = some s') :
    Effect s a s' := by
  cases a with
  | create data id now =>
    simp only [step] at h
    split at h
    · cases h
    · rename_i hid
      obtain ⟨T, hT, rfl⟩ := Option.map_eq_some_iff.1 h
      exact .create rfl hid hT rfl rfl rfl
  | claim k q limit order =>
    simp only [step] at h
    split at h
    · rename_i hk
      split at h
      · rename_i horder
        split at h
        · cases h
          exact .proceed rfl (hi.held.moves_setCall hk rfl rfl) rfl rfl trivial
        · cases h
          exact .proceed rfl (hi.held.moves_setCall hk rfl rfl) rfl rfl
            (.claim horder _)
      · cases h
    · cases h
  | scan k =>
    simp only [step] at h
    split at h
    · rename_i limit locked t todo hk
      have hvalid : Valid s.tasks (.scanning ⟨limit, locked, t :: todo⟩) := hk ▸ hi.valid k
      split at h
      · cases h
      · rename_i hlt
        split at h
        · rename_i hfree
          cases h
          exact .proceed rfl (hi.held.moves_lockRow hk rfl hfree.1 rfl) rfl rfl
            (hvalid.scan_lock (not_le.1 hlt) hfree.2)
        · cases h
          exact .proceed rfl (hi.held.moves_setCall hk rfl rfl) rfl rfl
            hvalid.scan_pass
    · cases h
  | start k st id =>
    simp only [step] at h
    split at h
    · rename_i hk
      split at h
      · cases h
        exact .proceed rfl (hi.held.moves_setCall hk rfl rfl) rfl rfl trivial
      · cases h
        exact .proceed rfl (hi.held.moves_setCall hk rfl rfl) rfl rfl trivial
    · cases h
  | lock k =>
    simp only [step] at h
    split at h
    · rename_i st id hk
      split at h
      · rename_i hfree
        split at h
        · rename_i hadm
          cases h
          exact .proceed rfl (hi.held.moves_lockRow hk rfl hfree rfl) rfl rfl hadm
        · cases h
          exact .proceed rfl (hi.held.moves_setCall hk rfl rfl) rfl rfl trivial
      · cases h
    · cases h
  | commit k now =>
    simp only [step] at h
    split at h
    · rename_i c hk
      have hvalid : Valid s.tasks (.scanning c) := hk ▸ hi.valid k
      have hheld : (s.calls k).held = c.locked := by
        rw [hk]
        rfl
      split at h <;> cases h
      cases hclaim : TaskQueue.claimTasks s.tasks c.locked now with
      | error v => exact .proceed rfl (hi.held.moves_ret hk rfl _ rfl) rfl rfl trivial
      | ok r =>
        obtain ⟨tasks, T⟩ := r
        have hcommits := (commits_claimTasks hi.rows hvalid.2.1.of_append_left hvalid.1 hclaim).1
        exact .commit rfl (hi.held.moves_ret hk rfl T rfl) (hheld ▸ hcommits)
    · rename_i st id hk
      have hheld : (s.calls k).held = [id] := by
        rw [hk]
        rfl
      cases h
      cases hexec : st.exec s.tasks id now with
      | error v => exact .proceed rfl (hi.held.moves_ret hk rfl _ rfl) rfl rfl trivial
      | ok r =>
        obtain ⟨tasks, T⟩ := r
        exact .commit rfl (hi.held.moves_ret hk rfl T rfl) (hheld ▸ commits_exec hexec)
    · cases h
  | abort k =>
    simp only [step] at h
    split at h
    · rename_i hflight
      cases h
      have hnone : (s.calls k).handed = [] := by
        cases hk : s.calls k <;> simp_all [Call.inFlight, Call.handed]
      exact .proceed rfl (hi.held.moves_ret rfl hnone _ rfl) rfl rfl trivial
    · cases h

omit [DecidableEq κ] in
/-- A task is created under a new id. -/
lemma Inv.create (hi : Inv s) {data : CreateTask} {id : Uuid} {now : DateTime} (hnew : id ∉ s.ids)
    (hstep : Lifecycle.step s.tasks (.create data id, now) = some s'.tasks)
    (hids : s'.ids = s.ids ++ [id]) (hlocks : s'.locks = s.locks) (hcalls : s'.calls = s.calls) :
    Inv s' := by
  -- the row has not been there, so nobody has locked it
  have hold : ∀ k, ∀ id' ∈ (s.calls k).held, s'.tasks.row id' = s.tasks.row id' := by
    intro k id' hid'
    obtain ⟨t, ht⟩ := (hi.valid k).exists_row hid'
    refine Lifecycle.row_of_step hstep ?_
    rw [Statement.targets, List.mem_singleton]
    rintro rfl
    exact hnew (hi.ids _ t ht)
  exact
    { rows := hi.rows.step hstep
      ids := by
        intro id' t ht
        rw [hids, List.mem_append, List.mem_singleton]
        by_cases hid : id' = id
        · exact Or.inr hid
        · rw [Lifecycle.row_of_step hstep (by simpa [Statement.targets] using hid)] at ht
          exact Or.inl (hi.ids _ t ht)
      held := by
        rw [Held, hlocks, hcalls]
        exact hi.held
      valid := by
        intro k
        rw [hcalls]
        exact (hi.valid k).congr (hold k)
      nodup := by
        rw [hcalls]
        exact hi.nodup
      handed := by
        intro k t ht
        rw [hcalls] at ht
        obtain ⟨hid, hstate⟩ := hi.handed k t ht
        refine ⟨hids ▸ List.mem_append_left _ hid,
          Lifecycle.rowState_ne_pending_of_step hi.rows hstep ?_ hstate⟩
        intro data' heq
        cases heq
        exact hnew hid
      exclusive := by
        rw [hcalls]
        exact hi.exclusive }

/-- A call goes on without a write. -/
lemma Inv.proceed (hi : Inv s) {k : κ} {c : Call} (h : Moves s s' k c)
    (htasks : s'.tasks = s.tasks) (hempty : c.handed = []) (hvalid : Valid s.tasks c) :
    Inv s' := by
  have hself : (s'.calls k).handed = [] := by rw [h.self, hempty]
  -- nothing is handed out that has not been before
  have hsub : ∀ k', ∀ t ∈ (s'.calls k').handed, t ∈ (s.calls k').handed := by
    intro k' t ht
    by_cases hk : k' = k
    · rw [hk, hself] at ht
      cases ht
    · rwa [← h.other hk]
  exact
    { rows := htasks ▸ hi.rows
      ids := by
        rw [htasks, h.ids]
        exact hi.ids
      held := h.held
      valid := by
        intro k'
        rw [htasks]
        by_cases hk : k' = k
        · rwa [hk, h.self]
        · rw [h.other hk]
          exact hi.valid k'
      nodup := by
        intro k'
        by_cases hk : k' = k
        · simp [hk, hself]
        · rw [h.other hk]
          exact hi.nodup k'
      handed := by
        intro k' t ht
        rw [htasks, h.ids]
        exact hi.handed k' t (hsub k' t ht)
      exclusive := by
        intro k₁ k₂ t t' ht ht' heq
        exact hi.exclusive k₁ k₂ t t' (hsub k₁ t ht) (hsub k₂ t' ht') heq }

/-- A call commits.  The tasks that it hands out were pending, so nobody else has got them. -/
lemma Inv.commit (hi : Inv s) {k : κ} {tasks : List Task} (hmoves : Moves s s' k (.returned tasks))
    (h : Commits s.tasks (s.calls k).held tasks s'.tasks) : Inv s' := by
  obtain ⟨⟨st, now, hstep, htargets, hst⟩, hnodup, hhanded⟩ := h
  have hself : (s'.calls k).handed = tasks := by
    rw [hmoves.self]
    rfl
  -- a task that has been handed out is not pending, and one that is handed out now is
  have hfresh : ∀ k', ∀ t ∈ (s.calls k').handed, ∀ t' ∈ tasks, t.id ≠ t'.id := by
    intro k' t ht t' ht' heq
    obtain ⟨r, hr, hpending⟩ := Lifecycle.isPending_iff.1 (hhanded t' ht').2.1
    refine (hi.handed k' t ht).2 ?_
    rw [heq]
    exact Task.rowState_eq_some_iff.2 ⟨r, hr, hpending⟩
  exact
    { rows := hi.rows.step hstep
      ids := by
        intro id t ht
        rw [hmoves.ids]
        rcases Lifecycle.row_cases hstep id with hsame | ⟨data, hcreate, -⟩ | ⟨-, hnone⟩ |
          ⟨u, t₀, -, ht₀, -⟩
        · exact hi.ids id t (hsame ▸ ht)
        · exact absurd hcreate (hst data id)
        · simp [hnone] at ht
        · exact hi.ids id t₀ ht₀
      held := hmoves.held
      valid := by
        intro k'
        by_cases hk : k' = k
        · rw [hk, hmoves.self]
          trivial
        · rw [hmoves.other hk]
          -- the rows that another call has locked are not written
          refine (hi.valid k').congr fun id hid => Lifecycle.row_of_step hstep ?_
          rw [htargets]
          exact fun hid' => hk (hi.held.exclusive hid hid')
      nodup := by
        intro k'
        by_cases hk : k' = k
        · rw [hk, hself]
          exact hnodup
        · rw [hmoves.other hk]
          exact hi.nodup k'
      handed := by
        intro k' t ht
        rw [hmoves.ids]
        by_cases hk : k' = k
        · rw [hk, hself] at ht
          obtain ⟨-, hpending, hrow, hstate⟩ := hhanded t ht
          obtain ⟨r, hr, -⟩ := Lifecycle.isPending_iff.1 hpending
          exact ⟨hi.ids _ r hr, by simp [Task.rowState, hrow, hstate]⟩
        · rw [hmoves.other hk] at ht
          obtain ⟨hid, hne⟩ := hi.handed k' t ht
          exact ⟨hid, Lifecycle.rowState_ne_pending_of_step hi.rows hstep
            (fun data => hst data _) hne⟩
      exclusive := by
        intro k₁ k₂ t t' ht ht' heq
        by_cases hk₁ : k₁ = k <;> by_cases hk₂ : k₂ = k
        · rw [hk₁, hk₂]
        · rw [hk₁, hself] at ht
          rw [hmoves.other hk₂] at ht'
          exact absurd heq.symm (hfresh k₂ t' ht' t ht)
        · rw [hmoves.other hk₁] at ht
          rw [hk₂, hself] at ht'
          exact absurd heq (hfresh k₁ t ht t' ht')
        · rw [hmoves.other hk₁] at ht
          rw [hmoves.other hk₂] at ht'
          exact hi.exclusive k₁ k₂ t t' ht ht' heq }

/-- A step keeps the invariant. -/
lemma Inv.step {a : ClaimStep κ} (hi : Inv s) (h : step s a = some s') : Inv s' := by
  cases effect_of_step hi h with
  | create _ hnew hstep hids hlocks hcalls => exact hi.create hnew hstep hids hlocks hcalls
  | proceed _ hmoves htasks hempty hvalid => exact hi.proceed hmoves htasks hempty hvalid
  | commit _ hmoves hcommits => exact hi.commit hmoves hcommits

lemma Inv.init (h : (machine κ).Init s) : Inv s := by
  obtain rfl : s = start κ := h
  have hnone : ∀ id, (start κ).tasks.row id = none := fun id => rfl
  exact
    { rows := fun id t ht => by simp [hnone] at ht
      ids := fun id t ht => by simp [hnone] at ht
      held := Locks.heldBy_free fun _ => rfl
      valid := fun _ => trivial
      nodup := by simp [start, Call.handed]
      handed := by simp [start, Call.handed]
      exclusive := by simp [start, Call.handed] }

lemma reachable_inv (h : (machine κ).Reachable Machine.anyStep s) : Inv s :=
  h.invariant (fun _ => Inv.init) fun _ _ _ _ hi => hi.step

/-- On the table, a step is a statement or nothing, and creates no row that there has been
before. -/
lemma tasks_step {a : ClaimStep κ} (hi : Inv s) (h : step s a = some s') :
    (∀ id ∈ s.ids, id ∈ s'.ids) ∧
      (s'.tasks = s.tasks ∨ ∃ st now, Lifecycle.step s.tasks (st, now) = some s'.tasks ∧
        ∀ id ∈ s.ids, ∀ data, st ≠ .create data id) := by
  cases effect_of_step hi h with
  | @create data id now _ hnew hstep hids _ _ =>
    refine ⟨fun id' hid' => hids ▸ List.mem_append_left _ hid', Or.inr ⟨_, now, hstep, ?_⟩⟩
    rintro id' hid' data' heq
    cases heq
    exact hnew hid'
  | proceed _ hmoves htasks _ _ => exact ⟨fun id hid => hmoves.ids ▸ hid, Or.inl htasks⟩
  | commit _ hmoves hcommits =>
    obtain ⟨st, now, hstep, -, hst⟩ := hcommits.step
    have hnew : ∀ id ∈ s.ids, ∀ data, st ≠ .create data id := fun id _ data => hst data id
    exact ⟨fun id hid => hmoves.ids ▸ hid, Or.inr ⟨st, now, hstep, hnew⟩⟩

/-- **Refinement.**  The race runs the statements of the life cycle. -/
theorem simulation : Machine.Simulation (machine κ) Lifecycle.machine Machine.anyStep
    Machine.anyStep fun s T => s.tasks = T ∧ Inv s where
  init := by
    rintro s hs
    exact ⟨_, congrArg ClaimRace.tasks hs, rfl, Inv.init hs⟩
  step := by
    rintro s a s' _ - ⟨rfl, hi⟩ hstep
    -- only a commit or a creation is visible in the table
    rcases (tasks_step hi hstep).2 with hsame | ⟨st, now, hst, -⟩
    · exact ⟨[], _, Machine.Run.nil _, hsame, hi.step hstep⟩
    · exact ⟨_, _, Machine.Run.single trivial hst, rfl, hi.step hstep⟩

/-- What holds of the tables of the life cycle holds of the table of the race. -/
theorem tasks_reachable (h : (machine κ).Reachable Machine.anyStep s) :
    Lifecycle.machine.Reachable Machine.anyStep s.tasks := by
  obtain ⟨T, hT, rfl, -⟩ := simulation.reachable h
  exact hT

/-- A row keeps its age. -/
lemma createdAt_of_run {l : List (ClaimStep κ)} (hi : Inv s)
    (h : (machine κ).Run Machine.anyStep s l s') {id : Uuid} {t t' : Task}
    (ht : s.tasks.row id = some t) (ht' : s'.tasks.row id = some t') :
    t'.createdAt = t.createdAt := by
  have hinv : Inv s' ∧ id ∈ s'.ids ∧
      ∀ t', s'.tasks.row id = some t' → t'.createdAt = t.createdAt := by
    refine h.preserves (P := fun s' => Inv s' ∧ id ∈ s'.ids ∧
      ∀ t', s'.tasks.row id = some t' → t'.createdAt = t.createdAt) ?_ ⟨hi, hi.ids id t ht, ?_⟩
    · rintro s₁ a s₂ - ⟨hi₁, hid, hage⟩ hstep
      obtain ⟨hsub, htasks⟩ := tasks_step hi₁ hstep
      refine ⟨hi₁.step hstep, hsub id hid, ?_⟩
      intro t₂ ht₂
      rcases htasks with hsame | ⟨st, now, hst, hnew⟩
      · exact hage t₂ (hsame ▸ ht₂)
      · cases ht₁ : s₁.tasks.row id with
        | none =>
          rcases Lifecycle.row_cases hst id with hsame | ⟨data, hcreate, -⟩ | ⟨-, hnone⟩ |
            ⟨u, t₀, -, ht₀, -⟩
          · simp [hsame, ht₁] at ht₂
          · exact absurd hcreate (hnew id hid data)
          · simp [hnone] at ht₂
          · simp [ht₁] at ht₀
        | some t₁ =>
          exact (Lifecycle.change_of_step hi₁.rows hst ht₁ ht₂).createdAt.trans (hage t₁ ht₁)
    · intro t₁ ht₁
      rw [Option.some.inj (ht.symm.trans ht₁)]
  exact hinv.2.2 t' ht'

/-! ### The order of a claim -/

/-- The row that the scan of the call `k` visits next. -/
def next (s : ClaimRace κ) (k : κ) : Option Uuid :=
  match s.calls k with
  | .scanning ⟨_, _, t :: _⟩ => some t.id
  | _ => none

/-- For the call `k`, the row is not pending or another call has locked it. -/
def Blocked (s : ClaimRace κ) (k : κ) (id : Uuid) : Prop :=
  Lifecycle.isPending s.tasks id = false ∨ ∃ k', k' ≠ k ∧ s.locks id = some k'

/-- In the run `l` from `s`, the scan of the call `k` visits the row while it is blocked. -/
def PassedOver (s : ClaimRace κ) (l : List (ClaimStep κ)) (k : κ) (id : Uuid) : Prop :=
  ∃ l₁ l₂ s₁, l = l₁ ++ .scan k :: l₂ ∧ (machine κ).Run Machine.anyStep s l₁ s₁ ∧
    s₁.next k = some id ∧ s₁.Blocked k id

lemma PassedOver.append {l : List (ClaimStep κ)} {k : κ} {id : Uuid} (h : PassedOver s l k id)
    (l' : List (ClaimStep κ)) : PassedOver s (l ++ l') k id := by
  obtain ⟨l₁, l₂, s₁, rfl, hrun, hnext, hblocked⟩ := h
  exact ⟨l₁, l₂ ++ l', s₁, by simp, hrun, hnext, hblocked⟩

/-- Of the snapshot all rows but `todo` have been visited; the rows `ids` among them, at most
`limit`, have been locked, and the others satisfy `passed`. -/
def Visited (snapshot : List Task) (limit : ℕ) (passed : Uuid → Prop) (ids : List Uuid)
    (todo : List Task) : Prop :=
  ids.length ≤ limit ∧ ∃ seen, snapshot = seen ++ todo ∧ (∀ id ∈ ids, id ∈ seen.map Task.id) ∧
    ∀ t ∈ seen, t.id ∈ ids ∨ passed t.id

/-- How far a call of `claim_tasks` has come with its snapshot. -/
def Progress (snapshot : List Task) (limit : ℕ) (passed : Uuid → Prop) : Call → Prop
  | .scanning c => c.limit = limit ∧ Visited snapshot limit passed c.locked c.todo
  | .returned tasks =>
    (∃ todo, Visited snapshot limit passed (tasks.map Task.id) todo) ∧
      ∀ u ∈ tasks, ∀ t ∈ snapshot, t.id = u.id → t.createdAt = u.createdAt
  | .failed => True
  | _ => False

section Visited

variable {snapshot todo : List Task} {limit : ℕ} {passed passed' : Uuid → Prop} {ids : List Uuid}
  {t : Task}

lemma Visited.mono (hpassed : ∀ id, passed id → passed' id)
    (h : Visited snapshot limit passed ids todo) :
    Visited snapshot limit passed' ids todo := by
  obtain ⟨hlen, seen, hsplit, hsub, hseen⟩ := h
  exact ⟨hlen, seen, hsplit, hsub, fun t ht => (hseen t ht).imp_right (hpassed _)⟩

/-- The next row is locked. -/
lemma Visited.lock (h : Visited snapshot limit passed ids (t :: todo)) (hlt : ids.length < limit) :
    Visited snapshot limit passed (ids ++ [t.id]) todo := by
  obtain ⟨-, seen, hsplit, hsub, hseen⟩ := h
  have hlen : (ids ++ [t.id]).length ≤ limit := by
    rw [List.length_append]
    exact hlt
  refine ⟨hlen, seen ++ [t], by simp [hsplit], ?_, ?_⟩
  · intro id hid
    rw [List.map_append, List.mem_append]
    exact (List.mem_append.1 hid).imp (hsub id) fun h => by simpa using h
  · intro t' ht'
    rw [List.mem_append, List.mem_singleton]
    rcases List.mem_append.1 ht' with ht' | ht'
    · exact (hseen t' ht').imp_left Or.inl
    · exact Or.inl (Or.inr (by rw [List.mem_singleton.1 ht']))

/-- The next row is passed over. -/
lemma Visited.pass (h : Visited snapshot limit passed ids (t :: todo)) (hpassed : passed t.id) :
    Visited snapshot limit passed ids todo := by
  obtain ⟨hlen, seen, hsplit, hsub, hseen⟩ := h
  refine ⟨hlen, seen ++ [t], by simp [hsplit], ?_, ?_⟩
  · intro id hid
    rw [List.map_append, List.mem_append]
    exact Or.inl (hsub id hid)
  · intro t' ht'
    rcases List.mem_append.1 ht' with ht' | ht'
    · exact hseen t' ht'
    · exact Or.inr (List.mem_singleton.1 ht' ▸ hpassed)

/-- The rows returned are the locked ones, and the table has them with their old ages. -/
lemma Visited.returned {T T' : TaskTable} {now : DateTime} {tasks : List Task}
    (hrows : Lifecycle.RowsInv T) (hnodup : ids.Nodup)
    (hpending : ∀ id ∈ ids, Lifecycle.isPending T id = true)
    (hclaim : TaskQueue.claimTasks T ids now = .ok (tasks, T'))
    (hage : ∀ t ∈ snapshot, ∀ t', T'.row t.id = some t' → t'.createdAt = t.createdAt)
    (h : Visited snapshot limit passed ids todo) :
    Progress snapshot limit passed (.returned tasks) := by
  obtain ⟨hcommits, hids⟩ := commits_claimTasks hrows hnodup hpending hclaim
  refine ⟨⟨todo, hids ▸ h⟩, ?_⟩
  intro u hu t ht heq
  exact (hage t ht u (heq ▸ (hcommits.handed u hu).2.2.1)).symm

lemma Progress.mono {c : Call} (hpassed : ∀ id, passed id → passed' id)
    (h : Progress snapshot limit passed c) : Progress snapshot limit passed' c := by
  cases c with
  | scanning c => exact ⟨h.1, h.2.mono hpassed⟩
  | returned tasks =>
    obtain ⟨⟨todo, hvisited⟩, hage⟩ := h
    exact ⟨⟨todo, hvisited.mono hpassed⟩, hage⟩
  | idle | waiting | holding | failed => exact h

end Visited

/-- A step leaves the other calls. -/
lemma calls_of_step {a : ClaimStep κ} (hi : Inv s) (h : step s a = some s') {k : κ}
    (hk : a.call ≠ some k) : s'.calls k = s.calls k := by
  cases effect_of_step hi h with
  | create _ _ _ _ _ hcalls => rw [hcalls]
  | proceed hcall hmoves =>
    refine hmoves.other ?_
    rintro rfl
    exact hk hcall
  | commit hcall hmoves =>
    refine hmoves.other ?_
    rintro rfl
    exact hk hcall

omit [DecidableEq κ] in
/-- A row that the scan does not lock is blocked. -/
lemma blocked_of_not (hi : Inv s) {k : κ} {c : Scan} {t : Task} {todo : List Task}
    (hk : s.calls k = .scanning c) (htodo : c.todo = t :: todo)
    (h : ¬(s.locks t.id = none ∧ Lifecycle.isPending s.tasks t.id = true)) :
    s.Blocked k t.id := by
  cases hlock : s.locks t.id with
  | none => exact Or.inl (by simpa [hlock] using h)
  | some k' =>
    refine Or.inr ⟨k', ?_, hlock⟩
    rintro rfl
    have hvalid := hi.valid k'
    have hmem : t.id ∈ (s.calls k').held := (hi.held t.id k').1 hlock
    rw [hk] at hvalid hmem
    refine List.disjoint_of_nodup_append hvalid.2.1 (show t.id ∈ c.locked from hmem) ?_
    simp [htodo]

/-- A visit of the scan locks the next row, or it is blocked and passes over it. -/
lemma Progress.scan {s₁ : ClaimRace κ} {l : List (ClaimStep κ)} {k : κ} {snapshot : List Task}
    {limit : ℕ} (hi : Inv s) (hrun : (machine κ).Run Machine.anyStep s₁ l s)
    (hp : Progress snapshot limit (PassedOver s₁ (l ++ [.scan k]) k) (s.calls k))
    (h : step s (.scan k) = some s') :
    Progress snapshot limit (PassedOver s₁ (l ++ [.scan k]) k) (s'.calls k) := by
  simp only [ClaimRace.step] at h
  split at h
  · rename_i lim locked t todo hk
    rw [hk] at hp
    obtain ⟨rfl, hvisited⟩ := hp
    split at h
    · cases h
    · rename_i hlt
      split at h
      · cases h
        rw [calls_lockRow]
        exact ⟨rfl, hvisited.lock (Nat.lt_of_not_le hlt)⟩
      · rename_i hblocked
        cases h
        rw [calls_setCall]
        refine ⟨rfl, hvisited.pass ⟨l, [], s, rfl, hrun, ?_, blocked_of_not hi hk rfl hblocked⟩⟩
        rw [next, hk]
  · cases h

/-- The commit returns the rows that have been locked. -/
lemma Progress.commit {k : κ} {snapshot : List Task} {limit : ℕ} {passed : Uuid → Prop}
    {now : DateTime} (hi : Inv s)
    (hage : ∀ t ∈ snapshot, ∀ t', s'.tasks.row t.id = some t' → t'.createdAt = t.createdAt)
    (hp : Progress snapshot limit passed (s.calls k)) (h : step s (.commit k now) = some s') :
    Progress snapshot limit passed (s'.calls k) := by
  have hvalid := hi.valid k
  simp only [ClaimRace.step] at h
  split at h
  · rename_i c hk
    rw [hk] at hp hvalid
    obtain ⟨rfl, hvisited⟩ := hp
    split at h <;> cases h
    cases hclaim : TaskQueue.claimTasks s.tasks c.locked now with
    | error v =>
      rw [ClaimRace.finish, calls_ret]
      trivial
    | ok r =>
      rw [hclaim] at hage
      rw [ClaimRace.finish, calls_ret]
      exact hvisited.returned hi.rows hvalid.2.1.of_append_left hvalid.1 hclaim hage
  · rename_i st id hk
    rw [hk] at hp
    exact hp.elim
  · cases h

/-- A step of the race keeps the progress of a claim. -/
lemma Progress.step {s₁ : ClaimRace κ} {l : List (ClaimStep κ)} {k : κ} {snapshot : List Task}
    {limit : ℕ} {a : ClaimStep κ} (hi : Inv s) (hrun : (machine κ).Run Machine.anyStep s₁ l s)
    (hage : ∀ t ∈ snapshot, ∀ t', s'.tasks.row t.id = some t' → t'.createdAt = t.createdAt)
    (hp : Progress snapshot limit (PassedOver s₁ l k) (s.calls k)) (h : step s a = some s') :
    Progress snapshot limit (PassedOver s₁ (l ++ [a]) k) (s'.calls k) := by
  replace hp : Progress snapshot limit (PassedOver s₁ (l ++ [a]) k) (s.calls k) :=
    hp.mono fun id hid => hid.append [a]
  by_cases hcall : a.call = some k
  swap
  · rwa [calls_of_step hi h hcall]
  -- the call is scanning: its next step is a visit, the commit, or a failure
  cases a with
  | create => cases hcall
  | claim k' q lim order =>
    obtain rfl : k' = k := by simpa [ClaimStep.call] using hcall
    simp only [ClaimRace.step] at h
    split at h
    · rename_i hk
      rw [hk] at hp
      exact hp.elim
    · cases h
  | scan k' =>
    obtain rfl : k' = k := by simpa [ClaimStep.call] using hcall
    exact hp.scan hi hrun h
  | start k' st id =>
    obtain rfl : k' = k := by simpa [ClaimStep.call] using hcall
    simp only [ClaimRace.step] at h
    split at h
    · rename_i hk
      rw [hk] at hp
      exact hp.elim
    · cases h
  | lock k' =>
    obtain rfl : k' = k := by simpa [ClaimStep.call] using hcall
    simp only [ClaimRace.step] at h
    split at h
    · rename_i hk
      rw [hk] at hp
      exact hp.elim
    · cases h
  | commit k' now =>
    obtain rfl : k' = k := by simpa [ClaimStep.call] using hcall
    exact hp.commit hi hage h
  | abort k' =>
    obtain rfl : k' = k := by simpa [ClaimStep.call] using hcall
    simp only [ClaimRace.step] at h
    split at h
    · cases h
      rw [calls_ret]
      trivial
    · cases h

lemma pendingOrder_of_claim {s₁ : ClaimRace κ} {k : κ} {q : TaskQueue} {limit : Option UInt64}
    {order : List Uuid} (h : step s (.claim k q limit order) = some s₁) :
    PendingOrder s.tasks order := by
  simp only [step] at h
  split at h
  · split at h
    · assumption
    · cases h
  · cases h

/-- The progress of a claim in a run that starts with its snapshot. -/
lemma progress_of_run {s₁ : ClaimRace κ} {l : List (ClaimStep κ)} {k : κ} {q : TaskQueue}
    {limit : Option UInt64} {order : List Uuid} (hi : Inv s)
    (hclaim : step s (.claim k q limit order) = some s₁)
    (h : (machine κ).Run Machine.anyStep s₁ l s') :
    Progress (order.filterMap s.tasks.row) (q.limit limit).toInt.toNat (PassedOver s₁ l k)
      (s'.calls k) := by
  induction h with
  | nil =>
    simp only [step] at hclaim
    split at hclaim
    · split at hclaim
      · split at hclaim <;> cases hclaim
        · rw [calls_setCall]
          trivial
        · rw [calls_setCall]
          exact ⟨rfl, Nat.zero_le _, [], rfl, by simp, by simp⟩
      · cases hclaim
    · cases hclaim
  | @snoc s₂ s₃ l a hrun _ hstep ih =>
    have hrun' : (machine κ).Run Machine.anyStep s (.claim k q limit order :: l) s₂ :=
      Machine.Run.cons trivial hclaim hrun
    have hi₂ : Inv s₂ := hrun'.preserves (fun _ _ _ _ hi => hi.step) hi
    refine Progress.step hi₂ hrun ?_ ih hstep
    intro t ht t' ht'
    obtain ⟨id, -, hrow⟩ := List.mem_filterMap.1 ht
    obtain rfl : t.id = id := Table.key_of_row hrow
    exact createdAt_of_run hi (hrun'.snoc trivial hstep) hrow ht'

/-- What a step hands out has been pending and is running. -/
lemma handed_of_step {a : ClaimStep κ} (hi : Inv s) (h : step s a = some s') (k : κ) :
    (s'.calls k).handed = (s.calls k).handed ∨
      (s.calls k).handed = [] ∧ ∀ t ∈ (s'.calls k).handed, Lifecycle.isPending s.tasks t.id = true ∧
        s'.tasks.row t.id = some t ∧ t.state = .running := by
  cases effect_of_step hi h with
  | create _ _ _ _ _ hcalls => exact Or.inl (by rw [hcalls])
  | @proceed k' c _ hmoves _ hempty _ =>
    refine Or.inl ?_
    by_cases hk : k = k'
    · rw [hk, hmoves.self, hempty, hmoves.handed]
    · rw [hmoves.other hk]
  | @commit k' tasks _ hmoves hcommits =>
    by_cases hk : k = k'
    · rw [hk, hmoves.self]
      exact Or.inr ⟨hmoves.handed, fun t ht => (hcommits.handed t ht).2⟩
    · exact Or.inl (by rw [hmoves.other hk])

/-- **Exclusive claims.**  In every reachable state each task has been handed to one caller
at most, and only once.  The tasks that a step hands out were pending before it and are
running after it.  A call of `claim_tasks` that takes its snapshot in this state returns at
most as many tasks as it was asked for; and a row that is pending in the snapshot and older
than a row it returns is among those it returns, unless it was locked by another call, or not
pending any more, when the scan visited it. -/
theorem exclusive_claim (h : (machine κ).Reachable Machine.anyStep s) :
    (∀ k k' t t', t ∈ (s.calls k).handed → t' ∈ (s.calls k').handed → t.id = t'.id → k = k') ∧
    (∀ k, ((s.calls k).handed.map Task.id).Nodup) ∧
    (∀ a s' k, (machine κ).step s a = some s' → (s'.calls k).handed = (s.calls k).handed ∨
      (s.calls k).handed = [] ∧ ∀ t ∈ (s'.calls k).handed, Lifecycle.isPending s.tasks t.id = true ∧
        s'.tasks.row t.id = some t ∧ t.state = .running) ∧
    ∀ k q limit order s₁ l s', (machine κ).step s (.claim k q limit order) = some s₁ →
      (machine κ).Run Machine.anyStep s₁ l s' →
        (s'.calls k).handed.length ≤ (limit.getD q.batchSize).toNat ∧
        ∀ t ∈ s.tasks.rows, t.state = .pending → ∀ u ∈ (s'.calls k).handed,
          t.createdAt < u.createdAt →
            t.id ∈ (s'.calls k).handed.map Task.id ∨ s₁.PassedOver l k t.id := by
  have hi := reachable_inv h
  refine ⟨hi.exclusive, hi.nodup, fun a s' k hstep => handed_of_step hi hstep k, ?_⟩
  intro k q limit order s₁ l s' hclaim hrun
  have hp := progress_of_run hi hclaim hrun
  cases hk : s'.calls k with
  | idle | scanning | waiting | holding | failed => simp [Call.handed]
  | returned tasks =>
    rw [hk] at hp
    obtain ⟨⟨todo, hlen, seen, hsplit, hsub, hseen⟩, hage⟩ := hp
    constructor
    · rw [List.length_map] at hlen
      exact hlen.trans (q.toNat_limit_le limit)
    · intro t ht hpending u hu hlt
      have horder := pendingOrder_of_claim hclaim
      have hmem := horder.mem_snapshot ht hpending
      rw [hsplit] at hmem
      rcases List.mem_append.1 hmem with hmem | hmem
      · exact hseen t hmem
      · -- what the scan has not visited is not older than what it has locked
        obtain ⟨t₁, ht₁, hid⟩ := List.mem_map.1 (hsub u.id (List.mem_map_of_mem hu))
        have hage₁ : t₁.createdAt = u.createdAt :=
          hage u hu t₁ (hsplit ▸ List.mem_append_left _ ht₁) hid
        have hsorted := horder.2
        rw [hsplit] at hsorted
        have hle : t₁.createdAt ≤ t.createdAt := (List.pairwise_append.1 hsorted).2.2 t₁ ht₁ t hmem
        rw [hage₁] at hle
        exact absurd hlt (Int.not_lt.2 hle)

/-- Two tasks are created, and the call 0 claims one task and locks the older one. -/
def claimedSteps : List (ClaimStep ℕ) :=
  [.create Lifecycle.sampleTask 1 0, .create Lifecycle.sampleTask 2 1, .claim 0 {} (some 1) [1, 2],
    .scan 0]

/-- The call 1 visits both rows and commits after the call 0. -/
def overtakenSteps : List (ClaimStep ℕ) := [.scan 1, .scan 1, .commit 0 2, .commit 1 3]

/-- Two claims race: each gets a task, and the second one has passed over the row that the
first one had locked. -/
theorem exclusive_claim_race :
    ∃ s s₁ s', (machine ℕ).exec Machine.anyStep (start ℕ) claimedSteps = some s ∧
      (machine ℕ).step s (.claim 1 {} (some 1) [1, 2]) = some s₁ ∧
      (machine ℕ).exec Machine.anyStep s₁ overtakenSteps = some s' ∧
      (s'.calls 0).handed.map Task.id = [1] ∧ (s'.calls 1).handed.map Task.id = [2] ∧
      s₁.PassedOver overtakenSteps 1 1 := by
  have hrun : (((machine ℕ).exec Machine.anyStep (start ℕ) claimedSteps).bind fun s =>
      ((machine ℕ).step s (.claim 1 {} (some 1) [1, 2])).bind fun s₁ =>
        ((machine ℕ).exec Machine.anyStep s₁ overtakenSteps).map fun s' =>
          ((s.tasks.row 1).map fun t => (t.state, t.createdAt), (s'.calls 0).handed.map Task.id,
            (s'.calls 1).handed.map fun t => (t.id, t.createdAt))) =
      some (some (.pending, 0), [1], [(2, 1)]) := by decide +kernel
  obtain ⟨s, hs, hrun⟩ := Option.bind_eq_some_iff.1 hrun
  obtain ⟨s₁, hclaim, hrun⟩ := Option.bind_eq_some_iff.1 hrun
  obtain ⟨s', hs', hobs⟩ := Option.map_eq_some_iff.1 hrun
  simp only [Prod.mk.injEq] at hobs
  obtain ⟨hrow, h0, h1⟩ := hobs
  obtain ⟨t, ht, hage⟩ := Option.map_eq_some_iff.1 hrow
  simp only [Prod.mk.injEq] at hage
  obtain ⟨u, hhanded, hu⟩ := List.map_eq_singleton_iff.1 h1
  simp only [Prod.mk.injEq] at hu
  have hreach : (machine ℕ).Reachable Machine.anyStep s :=
    ⟨start ℕ, _, rfl, Machine.run_of_exec hs⟩
  have hpassed := ((exclusive_claim hreach).2.2.2 _ _ _ _ _ _ _ hclaim
    (Machine.run_of_exec hs')).2 t (Table.mem_of_row ht) hage.1 u (by simp [hhanded])
    (by rw [hage.2, hu.2]; decide)
  have hid : t.id = 1 := Table.key_of_row ht
  refine ⟨s, s₁, s', hs, hclaim, hs', h0, by simp [hhanded, hu.1], ?_⟩
  simpa [hhanded, hu.1, hid] using hpassed

/-- The call has locked a row in order to cancel the task. -/
def cancels : Call → Bool
  | .holding (.update .transitionToCanceled) _ => true
  | _ => false

/-- The row is pending, and a cancellation has locked it. -/
def isCanceling (s : ClaimRace κ) (id : Uuid) : Bool :=
  Lifecycle.isPending s.tasks id && (s.locks id).any fun k => cancels (s.calls k)

/-- The older row is pending and locked by a cancellation, all the while that a claim takes
the younger one and leaves the older one alone. -/
theorem not_fifo_of_cancel :
    ∃ s s', (machine ℕ).Reachable Machine.anyStep s ∧
      (machine ℕ).Run (fun s _ => s.isCanceling 1 = true) s
        [.claim 1 {} (some 1) [1, 2], .scan 1, .scan 1, .commit 1 2] s' ∧
      s'.isCanceling 1 = true ∧ (s.tasks.row 1).map Task.createdAt = some 0 ∧
      (s'.calls 1).handed.map (fun t => (t.id, t.createdAt)) = [(2, 1)] := by
  have hrun : (((machine ℕ).exec Machine.anyStep (start ℕ)
      [.create Lifecycle.sampleTask 1 0, .create Lifecycle.sampleTask 2 1,
        .start 0 (.update .transitionToCanceled) 1, .lock 0]).bind fun s =>
      ((machine ℕ).exec (fun s _ => s.isCanceling 1 = true) s
        [.claim 1 {} (some 1) [1, 2], .scan 1, .scan 1, .commit 1 2]).map fun s' =>
          (s'.isCanceling 1, (s.tasks.row 1).map Task.createdAt,
            (s'.calls 1).handed.map fun t => (t.id, t.createdAt))) =
      some (true, some 0, [(2, 1)]) := by decide +kernel
  obtain ⟨s, hs, hrun⟩ := Option.bind_eq_some_iff.1 hrun
  obtain ⟨s', hs', hobs⟩ := Option.map_eq_some_iff.1 hrun
  simp only [Prod.mk.injEq] at hobs
  exact ⟨s, s', ⟨start ℕ, _, rfl, Machine.run_of_exec hs⟩, Machine.run_of_exec hs', hobs⟩

end ClaimRace

end AxonTask
