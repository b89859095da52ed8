import AxonTask.Api.StartTask

/-!
# Requests that race for a quota

Any number of `start_task` requests are in progress at once, over all API processes; each
checks the concurrent quota, then the daily quota, and then inserts its task, and workers
claim and finish tasks meanwhile.  The checks hold nothing: what they have found may not be
true any more when the task is inserted, and the concurrent quota counts the running tasks
when a pending one is made.
-/

namespace AxonTask.Api

open Lib

/-- How far a call of `start_task` has come. -/
inductive StartPc
  /-- The request is valid. -/
  | received
  | concurrentOk
  | dailyOk
  | returned (r : Except ApiError StartTaskResponse)

/-- The daily check is passed, and the task is not inserted yet. -/
def StartPc.isPast : StartPc → Bool
  | .dailyOk => true
  | _ => false

/-- A call of `start_task`. -/
structure StartCall where
  auth : AuthContext
  request : StartTaskRequest
  pc : StartPc

/-- The calls, in the order in which they came, and the table. -/
structure QuotaRace where
  tasks : TaskTable
  clock : DateTime
  calls : List StartCall

/-- A step of a call, named by its position, or a statement of another process. -/
inductive QuotaStep
  | request (auth : AuthContext) (r : StartTaskRequest)
  | checkConcurrent (i : ℕ)
  | checkDaily (i : ℕ)
  /-- The insertion under a new id. -/
  | insert (i : ℕ) (id : Uuid)
  /-- A statement of the call fails in the database. -/
  | fail (i : ℕ)
  | other (st : Statement)

/-- The statement inserts a task. -/
def isCreate : Statement → Bool
  | .create .. => true
  | _ => false

namespace QuotaRace

variable (tenants : TenantTable)

/-- A call moves on. -/
def goto (s : QuotaRace) (i : ℕ) (c : StartCall) (pc : StartPc) : QuotaRace :=
  { s with calls := s.calls.set i { c with pc } }

/-- Where a quota check leads. -/
def afterCheck (r : Except ApiError Unit) (pc : StartPc) : StartPc :=
  match r with
  | .ok () => pc
  | .error e => .returned (.error e)

/-- A step at the time `now`, which the clock already shows. -/
def move (now : DateTime) (s : QuotaRace) : QuotaStep → Option QuotaRace
  | .request auth r =>
    let errors := StartTask.validate r
    let pc : StartPc :=
      if errors.isEmpty then .received else .returned (.error (.validationError errors))
    some { s with calls := s.calls ++ [⟨auth, r, pc⟩] }
  | .checkConcurrent i =>
    match s.calls[i]? with
    | some ⟨auth, r, .received⟩ =>
      let check := StartTask.checkQuota tenants s.tasks now auth .concurrentTasks
      some (goto s i ⟨auth, r, .received⟩ (afterCheck check .concurrentOk))
    | _ => none
  | .checkDaily i =>
    match s.calls[i]? with
    | some ⟨auth, r, .concurrentOk⟩ =>
      let check := StartTask.checkQuota tenants s.tasks now auth .dailyTasks
      some (goto s i ⟨auth, r, .concurrentOk⟩ (afterCheck check .dailyOk))
    | _ => none
  | .insert i id =>
    match s.calls[i]? with
    | some ⟨auth, r, .dailyOk⟩ =>
      match StartTask.insert s.tasks auth r id now with
      | .ok (resp, T) =>
        some { goto s i ⟨auth, r, .dailyOk⟩ (.returned (.ok resp)) with tasks := T }
      | .error e => some (goto s i ⟨auth, r, .dailyOk⟩ (.returned (.error e)))
    | _ => none
  | .fail i =>
    match s.calls[i]? with
    | some ⟨_, _, .returned _⟩ => none
    | some ⟨auth, r, .dailyOk⟩ =>
      let e := ApiError.internalError "Failed to create task"
      some (goto s i ⟨auth, r, .dailyOk⟩ (.returned (.error e)))
    | some c =>
      let e := ApiError.internalError "Failed to check quotas"
      some (goto s i c (.returned (.error e)))
    | none => none
  | .other st =>
    if isCreate st then none
    else (Lifecycle.step s.tasks (st, now)).map fun T => { s with tasks := T }

/-- A step at a time that is not before the last one. -/
def step (s : QuotaRace) (a : QuotaStep × DateTime) : Option QuotaRace :=
  if s.clock ≤ a.2 then move tenants a.2 { s with clock := a.2 } a.1 else none

/-- The clock does not go back. -/
lemma move_of_step {tenants : TenantTable} {s s' : QuotaRace} {a : QuotaStep × DateTime}
    (h : step tenants s a = some s') :
    s.clock ≤ a.2 ∧ move tenants a.2 { s with clock := a.2 } a.1 = some s' := by
  simpa [step, Option.ite_none_right_eq_some] using h

/-- The requests and the workers, from the empty table on.  The tenants keep their plans. -/
def machine : Machine QuotaRace (QuotaStep × DateTime) where
  Init s := s.tasks = Table.empty Task.schema ∧ s.calls = []
  step := step tenants

/-! ### What a step does -/

/-- The steps, case by case, with what each of them finds. -/
inductive Effect (now : DateTime) (s : QuotaRace) : QuotaStep → QuotaRace → Prop
  | request {auth : AuthContext} {r : StartTaskRequest} {c : StartCall}
      (new : c.pc.isPast = false) :
      Effect now s (.request auth r) { s with calls := s.calls ++ [c] }
  | passes {i : ℕ} {c : StartCall} (call : s.calls[i]? = some c) (old : c.pc.isPast = false)
      (check : StartTask.checkQuota tenants s.tasks now c.auth .dailyTasks = .ok ()) :
      Effect now s (.checkDaily i) (goto s i c .dailyOk)
  | moves {a : QuotaStep} {i : ℕ} {c : StartCall} {pc : StartPc} (call : s.calls[i]? = some c)
      (new : pc.isPast = false) : Effect now s a (goto s i c pc)
  | insert {i : ℕ} {id : Uuid} {c : StartCall} {resp : StartTaskResponse} {T : TaskTable}
      (call : s.calls[i]? = some c) (old : c.pc.isPast = true)
      (insert : StartTask.insert s.tasks c.auth c.request id now = .ok (resp, T)) :
      Effect now s (.insert i id) { goto s i c (.returned (.ok resp)) with tasks := T }
  | other {st : Statement} {T : TaskTable} (step : Lifecycle.step s.tasks (st, now) = some T)
      (new : ∀ data id, st ≠ .create data id) : Effect now s (.other st) { s with tasks := T }

variable {tenants} {s s' : QuotaRace} {now : DateTime}

/-- **Inversion of a step.** -/
lemma effect_of_move {a : QuotaStep} (h : move tenants now s a = some s') :
    Effect tenants now s a s' := by
  cases a with
  | request auth r =>
    simp only [move] at h
    cases h
    refine .request ?_
    split <;> rfl
  | checkConcurrent i =>
    simp only [move] at h
    split at h
    · rename_i auth r hcall
      cases h
      refine .moves hcall ?_
      unfold afterCheck
      split <;> rfl
    · cases h
  | checkDaily i =>
    simp only [move] at h
    split at h
    · rename_i auth r hcall
      cases h
      cases hcheck : StartTask.checkQuota tenants s.tasks now auth .dailyTasks with
      | ok => exact .passes hcall rfl hcheck
      | error e => exact .moves hcall rfl
    · cases h
  | insert i id =>
    simp only [move] at h
    split at h
    · rename_i auth r hcall
      split at h
      · rename_i resp T hins
        cases h
        exact .insert hcall rfl hins
      · cases h
        exact .moves hcall rfl
    · cases h
  | fail i =>
    simp only [move] at h
    split at h
    · cases h
    · rename_i hcall
      cases h
      exact .moves hcall rfl
    · rename_i hcall
      cases h
      exact .moves hcall rfl
    · cases h
  | other st =>
    simp only [move] at h
    split at h
    · cases h
    · rename_i hnew
      obtain ⟨T, hT, rfl⟩ := Option.map_eq_some_iff.1 h
      refine .other hT ?_
      rintro data id rfl
      exact hnew rfl

lemma clock_step {a : QuotaStep} (h : step tenants s (a, now) = some s') : s'.clock = now := by
  cases effect_of_move (move_of_step h).2 <;> rfl

/-- An insertion creates a task. -/
lemma step_of_insert {T T' : TaskTable} {auth : AuthContext} {r : StartTaskRequest} {id : Uuid}
    {resp : StartTaskResponse} (h : StartTask.insert T auth r id now = .ok (resp, T')) :
    Lifecycle.step T (.create (StartTask.createTask auth r) id, now) = some T' := by
  simp [Lifecycle.step, Task.create, (StartTask.insert_eq_ok h).1, Except.map]

/-- **Refinement.**  The requests and the workers run the statements of the life cycle. -/
theorem tasks_reachable {C : QuotaRace → QuotaStep × DateTime → Prop}
    (h : (machine tenants).Reachable C s) :
    Lifecycle.machine.Reachable Machine.anyStep s.tasks := by
  refine Machine.Reachable.project QuotaRace.tasks ?_ ?_ h
  · rintro s ⟨hs, -⟩
    exact Machine.Reachable.init hs
  · rintro s ⟨a, now⟩ s' - - hstep
    cases effect_of_move (move_of_step hstep).2 with
    | request | passes | moves => exact Or.inl rfl
    | insert _ _ hins => exact Or.inr ⟨(.create _ _, now), step_of_insert hins⟩
    | @other st T hst _ => exact Or.inr ⟨(st, now), hst⟩

/-! ### The concurrent quota -/

/-- The tenant does not run more tasks than its plan allows. -/
def WithinConcurrent (tenants : TenantTable) (t : Uuid) (s : QuotaRace) : Prop :=
  s.tasks.count (QuotaEnforcer.isRunning t) ≤ QuotaEnforcer.limitOf tenants t .concurrentTasks

/-- The call is one of the tenant. -/
def isCallOf (t : Uuid) (s : QuotaRace) (i : ℕ) : Bool :=
  s.calls[i]?.any fun c => decide (c.auth.tenantId = t)

/-- The pending and the running tasks of the tenant are fewer than its plan allows to run when
a task of the tenant is inserted. -/
def Room (tenants : TenantTable) (t : Uuid) (s : QuotaRace) : QuotaStep × DateTime → Prop
  | (.insert i _, _) => isCallOf t s i = true →
    s.tasks.count (QuotaEnforcer.isActive t) < QuotaEnforcer.limitOf tenants t .concurrentTasks
  | _ => True

instance (t : Uuid) (s : QuotaRace) : ∀ a, Decidable (Room tenants t s a)
  | (.insert .., _) => inferInstanceAs (Decidable (_ = true → _ < _))
  | (.request .., _) | (.checkConcurrent _, _) | (.checkDaily _, _) | (.fail _, _)
  | (.other _, _) => isTrue trivial

lemma count_isActive_of_step {T T' : TaskTable} {st : Statement} (hi : Lifecycle.RowsInv T)
    (h : Lifecycle.step T (st, now) = some T') (hst : ∀ data id, st ≠ .create data id)
    (t : Uuid) :
    T'.count (QuotaEnforcer.isActive t) ≤ T.count (QuotaEnforcer.isActive t) := by
  refine Table.count_le_of_row ?_
  intro id r' hr' hactive
  obtain ⟨r, hr, htenant, -, hstate⟩ :=
    Lifecycle.row_before_of_step hi h (fun data => hst data id) hr'
  simp only [QuotaEnforcer.isActive, Bool.and_eq_true, decide_eq_true_eq] at hactive ⊢
  exact ⟨r, hr, htenant ▸ hactive.1, hstate hactive.2⟩

/-- The table after an insertion has one more row of the tenant that asked for it. -/
lemma count_of_insert {T T' : TaskTable} {auth : AuthContext} {r : StartTaskRequest} {id : Uuid}
    {resp : StartTaskResponse} (h : StartTask.insert T auth r id now = .ok (resp, T'))
    (p : Task → Bool) :
    T'.count p = T.count p + if p (Task.new (StartTask.createTask auth r) id now) then 1 else 0 :=
  Table.count_insert (StartTask.insert_eq_ok h).1 p

lemma isActive_new {auth : AuthContext} {r : StartTaskRequest} {id t : Uuid} :
    QuotaEnforcer.isActive t (Task.new (StartTask.createTask auth r) id now) = true ↔
      auth.tenantId = t := by
  show (decide (auth.tenantId = t) && true) = true ↔ _
  simp

/-- Running tasks are active. -/
lemma count_isRunning_le (T : TaskTable) (t : Uuid) :
    T.count (QuotaEnforcer.isRunning t) ≤ T.count (QuotaEnforcer.isActive t) := by
  refine Table.count_le_of_imp ?_
  intro r _ hr
  simp only [QuotaEnforcer.isRunning, Bool.and_eq_true, decide_eq_true_eq] at hr
  simp [QuotaEnforcer.isActive, hr.1, hr.2, TaskState.isActive]

/-- A step under the condition keeps the active tasks below the limit. -/
lemma active_le_step {a : QuotaStep × DateTime} {t : Uuid} (hrows : Lifecycle.RowsInv s.tasks)
    (hC : Room tenants t s a)
    (hi : s.tasks.count (QuotaEnforcer.isActive t) ≤
      QuotaEnforcer.limitOf tenants t .concurrentTasks)
    (h : step tenants s a = some s') :
    s'.tasks.count (QuotaEnforcer.isActive t) ≤
      QuotaEnforcer.limitOf tenants t .concurrentTasks := by
  obtain ⟨a, now⟩ := a
  simp only [step] at h
  split at h
  · cases effect_of_move h with
    | request | passes | moves => exact hi
    | @insert i id c resp T hcall _ hins =>
      simp only [count_of_insert hins, isActive_new]
      by_cases ht : c.auth.tenantId = t
      · have hroom := hC (by simp [isCallOf, show s.calls[i]? = some c from hcall, ht])
        rw [if_pos ht]
        exact hroom
      · simpa [ht] using hi
    | other hst hnew => exact Nat.le_trans (count_isActive_of_step hrows hst hnew t) hi
  · cases h

/-- The pending tasks of the tenant. -/
def pendingIds (T : TaskTable) (t : Uuid) : List Uuid :=
  (T.rows.filter fun r => decide (r.tenantId = t) && decide (r.state = .pending)).map Task.id

/-- When the pending tasks of a tenant are claimed, all its active tasks run. -/
lemma exists_claim_pending {T : TaskTable} (hi : Lifecycle.RowsInv T) (t : Uuid)
    (now : DateTime) :
    ∃ T', Lifecycle.step T (.claim (pendingIds T t), now) = some T' ∧
      T.count (QuotaEnforcer.isActive t) ≤ T'.count (QuotaEnforcer.isRunning t) := by
  have hpending : (pendingIds T t).all (Lifecycle.isPending T) = true := by
    rw [List.all_eq_true]
    intro id hid
    obtain ⟨r, hr, rfl⟩ := List.mem_map.1 hid
    obtain ⟨hmem, hp⟩ := List.mem_filter.1 hr
    simp only [Bool.and_eq_true, decide_eq_true_eq] at hp
    exact Lifecycle.isPending_iff.2 ⟨r, Table.row_key_of_mem hmem, hp.2⟩
  obtain ⟨tasks, T', hclaim, -⟩ := Lifecycle.exists_claimTasks hi hpending now
  refine ⟨T', by simp [Lifecycle.step, hpending, hclaim], ?_⟩
  refine Table.count_le_of_row ?_
  intro id r hr hactive
  simp only [QuotaEnforcer.isActive, Bool.and_eq_true, decide_eq_true_eq] at hactive
  have hrow := TaskQueue.row_claimTasks hclaim id
  rw [hr, Option.map_some] at hrow
  by_cases hid : id ∈ pendingIds T t
  · rw [if_pos hid] at hrow
    exact ⟨_, hrow, by simp [QuotaEnforcer.isRunning, TaskQueue.claimUpdate, hactive.1]⟩
  · -- an active row that is not claimed runs already
    rw [if_neg hid] at hrow
    refine ⟨r, hrow, ?_⟩
    have hne : r.state ≠ .pending := by
      intro hp
      refine hid (List.mem_map.2 ⟨r, List.mem_filter.2 ⟨Table.mem_of_row hr, ?_⟩,
        Table.key_of_row hr⟩)
      simp [hactive.1, hp]
    have hrun : r.state = .running := by
      cases hstate : r.state <;> simp_all [TaskState.isActive]
    simp [QuotaEnforcer.isRunning, hactive.1, hrun]

variable (tenants)

/-- **When the concurrent quota holds.**  In every run in which a task of the tenant is
inserted only while its pending and running tasks are fewer than the limit, it never runs more
tasks than its plan allows; and whenever a task is inserted otherwise, a single claim
breaks the quota. -/
theorem withinConcurrent_of_room (t : Uuid) :
    (∀ s, (machine tenants).Reachable (Room tenants t) s → WithinConcurrent tenants t s) ∧
    ∀ s s' i id now, (machine tenants).Reachable Machine.anyStep s →
      ¬ Room tenants t s (.insert i id, now) →
      (machine tenants).step s (.insert i id, now) = some s' → s'.tasks ≠ s.tasks →
      ∃ st s'', (machine tenants).step s' (.other st, now) = some s'' ∧
        ¬ WithinConcurrent tenants t s'' := by
  constructor
  · intro s h
    refine Nat.le_trans (count_isRunning_le s.tasks t) ?_
    refine h.invariant_of_reachable (P := fun s => s.tasks.count (QuotaEnforcer.isActive t) ≤
      QuotaEnforcer.limitOf tenants t .concurrentTasks) ?_ ?_
    · rintro s ⟨hs, -⟩
      simp [hs, Table.count, Table.empty]
    · intro s a s' hr hC hi hstep
      exact active_le_step (Lifecycle.reachable_rowsInv (tasks_reachable hr)) hC hi hstep
  · intro s s' i id now hreach hfull hstep hne
    have hreach' := hreach.run (Machine.Run.single trivial hstep)
    simp only [Room, not_forall, not_lt] at hfull
    obtain ⟨hcall, hfull⟩ := hfull
    -- the insertion has made one more active task
    have hmore : QuotaEnforcer.limitOf tenants t .concurrentTasks <
        s'.tasks.count (QuotaEnforcer.isActive t) := by
      cases effect_of_move (move_of_step hstep).2 with
      | moves => exact absurd rfl hne
      | @insert _ _ c resp T hc _ hins =>
        have ht : c.auth.tenantId = t := by
          simpa [isCallOf, show s.calls[i]? = some c from hc] using hcall
        simp only [count_of_insert hins, isActive_new, if_pos ht]
        omega
    obtain ⟨T, hT, hle⟩ := exists_claim_pending
      (Lifecycle.reachable_rowsInv (tasks_reachable hreach')) t now
    refine ⟨.claim (pendingIds s'.tasks t), { s' with tasks := T, clock := now }, ?_,
      Nat.not_le.2 (Nat.lt_of_lt_of_le hmore hle)⟩
    simp [machine, step, clock_step hstep, move, isCreate, hT]

/-! ### The daily quota -/

variable {tenants}

/-- The tasks of the tenant that were created within the 24 hours before `now`. -/
def daily (t : Uuid) (now : DateTime) (s : QuotaRace) : ℕ :=
  s.tasks.count (QuotaEnforcer.isSince t (QuotaEnforcer.dayBefore now))

/-- The tenant has not created more tasks within 24 hours than its plan allows. -/
def WithinDaily (tenants : TenantTable) (t : Uuid) (s : QuotaRace) : Prop :=
  daily t s.clock s ≤ QuotaEnforcer.limitOf tenants t .dailyTasks

/-- The call is one of the tenant, is past the daily check, and has not inserted its task. -/
def isPending (t : Uuid) (c : StartCall) : Bool := decide (c.auth.tenantId = t) && c.pc.isPast

/-- The calls of the tenant between the daily check and the insertion. -/
def inFlight (t : Uuid) (s : QuotaRace) : ℕ := s.calls.countP (isPending t)

/-- A request of the tenant passes the daily check only while the tasks of the last 24 hours
and the requests that have passed it before and have not inserted their tasks yet are
together fewer than the limit. -/
def Reserved (tenants : TenantTable) (t : Uuid) (s : QuotaRace) : QuotaStep × DateTime → Prop
  | (.checkDaily i, now) => isCallOf t s i = true →
    daily t now s < QuotaEnforcer.limitOf tenants t .dailyTasks →
      daily t now s + inFlight t s < QuotaEnforcer.limitOf tenants t .dailyTasks
  | _ => True

instance (t : Uuid) (s : QuotaRace) : ∀ a, Decidable (Reserved tenants t s a)
  | (.checkDaily _, _) => inferInstanceAs (Decidable (_ = true → _ < _ → _ < _))
  | (.request .., _) | (.checkConcurrent _, _) | (.insert .., _) | (.fail _, _)
  | (.other _, _) => isTrue trivial

/-- A call that moves on is counted where it goes and not where it came from. -/
lemma inFlight_goto {i : ℕ} {c : StartCall} (hc : s.calls[i]? = some c) (t : Uuid)
    (pc : StartPc) :
    inFlight t (goto s i c pc) + (if isPending t c then 1 else 0) =
      inFlight t s + if isPending t { c with pc } then 1 else 0 := by
  obtain ⟨hi, rfl⟩ := List.getElem?_eq_some_iff.1 hc
  have hpos : (if isPending t s.calls[i] then 1 else 0) ≤ inFlight t s := by
    split
    · rename_i hp
      exact List.countP_pos_iff.2 ⟨_, List.getElem_mem hi, hp⟩
    · exact Nat.zero_le _
  simp only [inFlight, goto, List.countP_set hi] at hpos ⊢
  omega

/-- A limit fits into 32 bits. -/
lemma limitOf_lt (t : Uuid) (q : QuotaType) : QuotaEnforcer.limitOf tenants t q < 2 ^ 32 :=
  UInt32.toNat_lt _

/-- Time passes. -/
lemma daily_mono {t : Uuid} {clock : DateTime} (h : clock ≤ now) :
    daily t now s ≤ daily t clock s := by
  refine Table.count_le_of_imp ?_
  intro r _ hr
  simp only [QuotaEnforcer.isSince, Bool.and_eq_true, decide_eq_true_eq] at hr ⊢
  exact ⟨hr.1, Int.le_trans (Int.sub_le_sub_right h _) hr.2⟩

lemma daily_of_step {T : TaskTable} {st : Statement} (hi : Lifecycle.RowsInv s.tasks)
    (h : Lifecycle.step s.tasks (st, now) = some T) (hst : ∀ data id, st ≠ .create data id)
    (t : Uuid) : daily t now { s with tasks := T } ≤ daily t now s := by
  refine Table.count_le_of_row ?_
  intro id r' hr' hsince
  obtain ⟨r, hr, htenant, hcreated, -⟩ :=
    Lifecycle.row_before_of_step hi h (fun data => hst data id) hr'
  simp only [QuotaEnforcer.isSince, htenant, hcreated] at hsince
  exact ⟨r, hr, hsince⟩

lemma isSince_new {auth : AuthContext} {r : StartTaskRequest} {id t : Uuid} :
    QuotaEnforcer.isSince t (QuotaEnforcer.dayBefore now)
        (Task.new (StartTask.createTask auth r) id now) = true ↔ auth.tenantId = t := by
  show (decide (auth.tenantId = t) && decide (now - _ ≤ now)) = true ↔ _
  simp only [Bool.and_eq_true, decide_eq_true_eq, and_iff_left_iff_imp]
  exact fun _ => Int.sub_le_self now (by decide)

/-- The tasks of the last 24 hours and the requests on their way. -/
def load (t : Uuid) (s : QuotaRace) : ℕ := daily t s.clock s + inFlight t s

/-- A request of the tenant passes the daily check. -/
def Passes (tenants : TenantTable) (t : Uuid) (s : QuotaRace) (a : QuotaStep) : Prop :=
  ∃ i c, a = .checkDaily i ∧ s.calls[i]? = some c ∧ c.auth.tenantId = t ∧
    StartTask.checkQuota tenants s.tasks s.clock c.auth .dailyTasks = .ok ()

/-- **Step lemma.**  Only a passed check adds to the load. -/
lemma load_of_move {a : QuotaStep} {t : Uuid} (hrows : Lifecycle.RowsInv s.tasks)
    (h : move tenants s.clock s a = some s') :
    load t s' ≤ load t s ∨ (Passes tenants t s a ∧ load t s' = load t s + 1) := by
  unfold load
  cases effect_of_move h with
  | @request auth r c hnew =>
    have hsame : inFlight t { s with calls := s.calls ++ [c] } = inFlight t s := by
      simp [inFlight, isPending, hnew]
    exact Or.inl (hsame ▸ le_rfl)
  | @moves _ i c pc hcall hnew =>
    have hcount := inFlight_goto hcall t pc
    have hsame : daily t (goto s i c pc).clock (goto s i c pc) = daily t s.clock s := rfl
    have hnew' : isPending t { c with pc } = false := by simp [isPending, hnew]
    rw [hnew'] at hcount
    simp only [Bool.false_eq_true, if_false] at hcount
    left
    omega
  | @passes i c hcall hold hcheck =>
    have hcount := inFlight_goto hcall t .dailyOk
    have hsame : daily t (goto s i c .dailyOk).clock (goto s i c .dailyOk) =
      daily t s.clock s := rfl
    have hold' : isPending t c = false := by simp [isPending, hold]
    rw [hold'] at hcount
    simp only [Bool.false_eq_true, if_false] at hcount
    by_cases ht : c.auth.tenantId = t
    · right
      refine ⟨⟨i, c, rfl, hcall, ht, hcheck⟩, ?_⟩
      rw [if_pos (by simp [isPending, ht, StartPc.isPast])] at hcount
      omega
    · left
      rw [if_neg (by simp [isPending, ht])] at hcount
      omega
  | @insert i id c resp T hcall hold hins =>
    -- the task takes the place of the request
    have hcount := inFlight_goto hcall t (.returned (.ok resp))
    have hmore : T.count (QuotaEnforcer.isSince t (QuotaEnforcer.dayBefore s.clock)) =
        daily t s.clock s + if c.auth.tenantId = t then 1 else 0 := by
      rw [count_of_insert hins]
      simp only [isSince_new]
      rfl
    left
    show T.count (QuotaEnforcer.isSince t (QuotaEnforcer.dayBefore s.clock)) +
      inFlight t (goto s i c (.returned (.ok resp))) ≤ _
    have hnew' : isPending t { c with pc := .returned (.ok resp) } = false := by
      simp [isPending, StartPc.isPast]
    rw [hnew'] at hcount
    simp only [Bool.false_eq_true, if_false] at hcount
    rw [hmore]
    by_cases ht : c.auth.tenantId = t
    · rw [if_pos (by simp [isPending, ht, hold])] at hcount
      rw [if_pos ht]
      omega
    · rw [if_neg (by simp [isPending, ht])] at hcount
      rw [if_neg ht]
      omega
  | @other st T hst hnew =>
    left
    exact Nat.add_le_add_right (daily_of_step hrows hst hnew t) _

/-- A check that is passed has counted all tasks of the last 24 hours. -/
lemma daily_lt_of_passes {a : QuotaStep} {t : Uuid} (hsmall : daily t s.clock s < 2 ^ 32)
    (h : Passes tenants t s a) :
    daily t s.clock s < QuotaEnforcer.limitOf tenants t .dailyTasks := by
  obtain ⟨i, c, -, -, rfl, hcheck⟩ := h
  have hlt := QuotaEnforcer.usage_lt_of_enforce (StartTask.enforce_of_checkQuota hcheck)
  -- the count has not been truncated
  have hcount : s.tasks.count (QuotaEnforcer.isSince c.auth.tenantId
      (QuotaEnforcer.dayBefore s.clock)) < 2 ^ 32 := hsmall
  rwa [QuotaEnforcer.usage, QuotaEnforcer.countDailyTasks, UInt32.toNat_ofNat_of_lt' hcount] at hlt

/-- The tasks of the last 24 hours and the requests on their way stay within the limit. -/
def Booked (tenants : TenantTable) (t : Uuid) (s : QuotaRace) : Prop :=
  daily t s.clock s + inFlight t s ≤ QuotaEnforcer.limitOf tenants t .dailyTasks

lemma Booked.tick {t : Uuid} (hi : Booked tenants t s) (h : s.clock ≤ now) :
    Booked tenants t { s with clock := now } :=
  Nat.le_trans (Nat.add_le_add_right (daily_mono h) _) hi

/-- **Step lemma.** -/
lemma Booked.move {a : QuotaStep} {t : Uuid} (hrows : Lifecycle.RowsInv s.tasks)
    (hnow : s.clock = now) (hC : Reserved tenants t s (a, now)) (hi : Booked tenants t s)
    (h : move tenants now s a = some s') : Booked tenants t s' := by
  subst hnow
  have hle : load t s ≤ QuotaEnforcer.limitOf tenants t .dailyTasks := hi
  rcases load_of_move (t := t) hrows h with hload | ⟨hpasses, hload⟩
  · exact Nat.le_trans hload hle
  · have hsmall : daily t s.clock s < 2 ^ 32 :=
      Nat.lt_of_le_of_lt (Nat.le_trans (Nat.le_add_right _ _) hle) (limitOf_lt _ _)
    have hdaily := daily_lt_of_passes hsmall hpasses
    obtain ⟨i, c, rfl, hcall, ht, -⟩ := hpasses
    have hroom : load t s < QuotaEnforcer.limitOf tenants t .dailyTasks :=
      hC (by simp [isCallOf, hcall, ht]) hdaily
    show load t s' ≤ _
    rwa [hload]

variable (tenants)

/-- **When the daily quota holds.**  In every run in which a request of the tenant passes its
daily check only while the tasks of the last 24 hours and the requests on their way are fewer
than the limit, the tenant has at no time created more tasks within 24 hours than its plan
allows. -/
theorem withinDaily_of_reserved (t : Uuid) {s : QuotaRace}
    (h : (machine tenants).Reachable (Reserved tenants t) s) : WithinDaily tenants t s := by
  have hi : Booked tenants t s := by
    refine h.invariant_of_reachable ?_ ?_
    · rintro s ⟨hs, hcalls⟩
      simp [Booked, daily, inFlight, hs, hcalls, Table.count, Table.empty]
    · rintro s ⟨a, now⟩ s' hr hC hi hstep
      have hrows := Lifecycle.reachable_rowsInv (tasks_reachable hr)
      obtain ⟨hle, hmove⟩ := move_of_step hstep
      exact (hi.tick hle).move (s := { s with clock := now }) hrows rfl hC hmove
  exact Nat.le_trans (Nat.le_add_right _ _) hi

/-! ### Runs on the trial plan -/

/-- A tenant on the trial plan. -/
def sampleTenant : Tenant where
  id := 7
  name := "Example"
  plan := TenantPlan.trial.asStr
  stripeCustomerId := none
  stripeSubscriptionId := none
  settings := .object []
  createdAt := 0
  updatedAt := 0

/-- The table with this tenant. -/
def sampleTenants : TenantTable where
  rows := [sampleTenant]
  keys_nodup := by simp
  checked := by
    intro t ht
    obtain rfl := List.mem_singleton.1 ht
    decide +kernel

/-- A request for a task of the mock adapter. -/
def sampleRequest : StartTaskRequest := ⟨"deploy", "mock", .object [], none⟩

/-- The request number `i` comes and is checked. -/
def checkSteps (i : ℕ) : List (QuotaStep × DateTime) :=
  [(.request (.fromJwt 3 7) sampleRequest, 0), (.checkConcurrent i, 0), (.checkDaily i, 0)]

/-- The request number `i` inserts its task. -/
def insertStep (i : ℕ) : QuotaStep × DateTime := (.insert i (BitVec.ofNat 128 (i + 1)), 0)

/-- Nothing has happened. -/
def start : QuotaRace := ⟨Table.empty Task.schema, 0, []⟩

/-- Six requests come one after the other, and then a worker claims the six tasks. -/
def backlogSteps : List (QuotaStep × DateTime) :=
  ((List.range 6).flatMap fun i => checkSteps i ++ [insertStep i]) ++
    [(.other (.claim ((List.range 6).map fun i => BitVec.ofNat 128 (i + 1))), 1)]

/-- Six tasks of a tenant on the trial plan run. -/
theorem not_withinConcurrent_backlogSteps :
    ∃ s, (machine sampleTenants).Reachable Machine.anyStep s ∧
      ¬ WithinConcurrent sampleTenants 7 s := by
  have hrun : ((machine sampleTenants).exec Machine.anyStep start backlogSteps).map
      (fun s => s.tasks.count (QuotaEnforcer.isRunning 7)) = some 6 := by decide +kernel
  obtain ⟨s, hs, hcount⟩ := Option.map_eq_some_iff.1 hrun
  refine ⟨s, ⟨start, _, ⟨rfl, rfl⟩, Machine.run_of_exec hs⟩, ?_⟩
  rw [WithinConcurrent, hcount]
  decide +kernel

/-- Two requests overlap, and a third one comes when their tasks run. -/
def roomSteps : List (QuotaStep × DateTime) :=
  checkSteps 0 ++ checkSteps 1 ++ [insertStep 1, insertStep 0, (.other (.claim [1, 2]), 0)] ++
    checkSteps 2 ++ [insertStep 2, (.other (.claim [3]), 1)]

/-- Three tasks of this tenant run. -/
theorem withinConcurrent_of_room_roomSteps :
    ∃ s, (machine sampleTenants).exec (Room sampleTenants 7) start roomSteps = some s ∧
      s.tasks.count (QuotaEnforcer.isRunning 7) = 3 ∧ WithinConcurrent sampleTenants 7 s := by
  have hrun : ((machine sampleTenants).exec (Room sampleTenants 7) start roomSteps).map
      (fun s => s.tasks.count (QuotaEnforcer.isRunning 7)) = some 3 := by decide +kernel
  obtain ⟨s, hs, hcount⟩ := Option.map_eq_some_iff.1 hrun
  exact ⟨s, hs, hcount, (withinConcurrent_of_room sampleTenants 7).1 s
    ⟨start, _, ⟨rfl, rfl⟩, Machine.run_of_exec hs⟩⟩

/-- A hundred and one requests are checked before the first of them inserts its task. -/
def overlapSteps : List (QuotaStep × DateTime) :=
  (List.range 101).flatMap checkSteps ++ (List.range 101).map insertStep

/-- A tenant on the trial plan has created a hundred and one tasks at once. -/
theorem not_withinDaily_overlapSteps :
    ∃ s, (machine sampleTenants).Reachable Machine.anyStep s ∧ ¬ WithinDaily sampleTenants 7 s := by
  have hrun : ((machine sampleTenants).exec Machine.anyStep start overlapSteps).map
      (fun s => daily 7 s.clock s) = some 101 := by decide +kernel
  obtain ⟨s, hs, hcount⟩ := Option.map_eq_some_iff.1 hrun
  refine ⟨s, ⟨start, _, ⟨rfl, rfl⟩, Machine.run_of_exec hs⟩, ?_⟩
  rw [WithinDaily, hcount]
  decide +kernel

/-- Two requests that overlap, far from the limit. -/
theorem withinDaily_of_reserved_twoTasks :
    ∃ s, (machine sampleTenants).exec (Reserved sampleTenants 7) start
        (checkSteps 0 ++ checkSteps 1 ++ [insertStep 0, insertStep 1]) = some s ∧
      WithinDaily sampleTenants 7 s := by
  have hrun : ((machine sampleTenants).exec (Reserved sampleTenants 7) start
      (checkSteps 0 ++ checkSteps 1 ++ [insertStep 0, insertStep 1])).isSome = true := by
    decide +kernel
  obtain ⟨s, hs⟩ := Option.isSome_iff_exists.1 hrun
  exact ⟨s, hs, withinDaily_of_reserved sampleTenants 7
    ⟨start, _, ⟨rfl, rfl⟩, Machine.run_of_exec hs⟩⟩

end QuotaRace

end AxonTask.Api
