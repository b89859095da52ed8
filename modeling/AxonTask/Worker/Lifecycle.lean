import AxonTask.Lib.Machine
import AxonTask.Worker.Queue

/-!
# The life cycle of a task

Workers and API processes run their statements on one table; since each of them is atomic
and checks the state of the row it updates, a run of the system is a sequence of statements.
The invariant ties the timestamps and the error message of a row to its state.  It is kept
by every update of the code, because every update is *lawful*: on a row that its WHERE
clause admits it makes an allowed transition, or none, and leaves the invariant.
-/

namespace AxonTask

open Lib

/-- The updates of one row by its `id`. -/
inductive RowOp
  | transitionToRunning
  | transitionToSucceeded (exitCode : Option Int32)
  | transitionToFailed (errorMessage : String) (exitCode : Option Int32)
  | transitionToCanceled
  | transitionToTimeout
  | updateStats (data : UpdateTask)
  | markSucceeded (exitCode : Option Int32)
  | markFailed (error : String)
  | markTimeout

/-- The SET list and the WHERE clause of an update. -/
def RowOp.update : RowOp → Task.RowUpdate
  | transitionToRunning => Task.transitionToRunning
  | transitionToSucceeded exitCode => Task.transitionToSucceeded exitCode
  | transitionToFailed errorMessage exitCode => Task.transitionToFailed errorMessage exitCode
  | transitionToCanceled => Task.transitionToCanceled
  | transitionToTimeout => Task.transitionToTimeout
  | updateStats data => Task.updateStats data
  | markSucceeded exitCode => TaskQueue.markSucceeded exitCode
  | markFailed error => TaskQueue.markFailed error
  | markTimeout => TaskQueue.markTimeout

/-- A statement on the table `tasks`. -/
inductive Statement
  | create (data : CreateTask) (id : Uuid)
  | update (op : RowOp) (id : Uuid)
  /-- `TaskQueue::claim_tasks`, when its CTE has locked the pending rows `ids`. -/
  | claim (ids : List Uuid)
  | delete (id : Uuid)

/-- The rows that a statement may touch. -/
def Statement.targets : Statement → List Uuid
  | .create _ id | .update _ id | .delete id => [id]
  | .claim ids => ids

namespace Lifecycle

/-- The row with this key is in a terminal state. -/
def isEnded (T : TaskTable) (id : Uuid) : Bool := (Task.rowState T id).any TaskState.isTerminal

/-- The row with this key is in the state `pending`. -/
def isPending (T : TaskTable) (id : Uuid) : Bool :=
  (T.row id).any fun t => decide (t.state = .pending)

/-- A statement at the time `now`.  A rejected statement leaves the table. -/
def step (T : TaskTable) : Statement × DateTime → Option TaskTable
  | (.create data id, now) =>
    match Task.create T data id now with
    | .ok (_, T') => some T'
    | .error _ => some T
  | (.update op id, now) =>
    match op.update.exec T id now with
    | .ok (_, T') => some T'
    | .error _ => some T
  | (.claim ids, now) =>
    if ids.all (isPending T) then
      match TaskQueue.claimTasks T ids now with
      | .ok (_, T') => some T'
      | .error _ => some T
    else none
  | (.delete id, _) => some (Task.delete T id).2

/-- All runs of statements from the empty table. -/
def machine : Machine TaskTable (Statement × DateTime) where
  Init T := T = Table.empty Task.schema
  step := step

end Lifecycle

/-! ### The invariant of a row -/

namespace Task

/-- What the state of a row says about its timestamps and its error message. -/
structure RowInv (t : Task) : Prop where
  pending : t.state = .pending → t.startedAt = none ∧ t.endedAt = none
  running : t.state = .running → t.startedAt.isSome = true ∧ t.endedAt = none
  finished : t.state = .succeeded ∨ t.state = .failed ∨ t.state = .timeout →
    ∃ started ended, t.startedAt = some started ∧ t.endedAt = some ended ∧ started ≤ ended
  canceled : t.state = .canceled → t.endedAt.isSome = true
  error : t.errorMessage.isSome = true ↔ t.state = .failed ∨ t.state = .timeout

lemma rowInv_new (data : CreateTask) (id : Uuid) (now : DateTime) : (new data id now).RowInv := by
  constructor <;> simp [new]

/-- A pending row that is started. -/
lemma RowInv.start {t t' : Task} {now : DateTime} (hi : t.RowInv) (ht : t.state = .pending)
    (hstate : t'.state = .running) (hstarted : t'.startedAt = some now)
    (hended : t'.endedAt = t.endedAt) (herror : t'.errorMessage = t.errorMessage) : t'.RowInv := by
  have hnone := (hi.pending ht).2
  have herr := hi.error
  rw [ht] at herr
  constructor <;> simp_all

/-- A running row that is finished. -/
lemma RowInv.finish {t t' : Task} {now : DateTime} (hi : t.RowInv) (ht : t.state = .running)
    (hcheck : schema.check t' = true)
    (hstate : t'.state = .succeeded ∨ t'.state = .failed ∨ t'.state = .timeout)
    (hstarted : t'.startedAt = t.startedAt) (hended : t'.endedAt = some now)
    (herror : t'.errorMessage.isSome = true ↔ t'.state = .failed ∨ t'.state = .timeout) :
    t'.RowInv := by
  obtain ⟨started, hs⟩ := Option.isSome_iff_exists.1 (hi.running ht).1
  rw [hs] at hstarted
  -- the constraint `tasks_ended_after_started` orders the two timestamps
  have hle : started ≤ now := by
    simp only [schema, endedAfterStarted, hstarted, hended, Bool.and_eq_true,
      decide_eq_true_eq] at hcheck
    exact hcheck.1.2
  refine ⟨?_, ?_, fun _ => ⟨started, now, hstarted, hended, hle⟩, ?_,
    herror⟩
  · intro h
    simp [h] at hstate
  · intro h
    simp [h] at hstate
  · intro h
    simp [hended]

/-! ### Lawful updates -/

/-- A row before and after a lawful update. -/
structure Change (t t' : Task) : Prop where
  rowInv : t'.RowInv
  state : t'.state = t.state ∨ t.state.canTransitionTo t'.state = true
  startedAt : t.state ≠ .pending → t'.startedAt = t.startedAt
  timeoutSeconds : t'.timeoutSeconds = t.timeoutSeconds
  createdAt : t'.createdAt = t.createdAt

/-- On a row that it admits, the update makes an allowed transition, or none, and keeps the
invariant. -/
def RowUpdate.Lawful (u : RowUpdate) : Prop :=
  ∀ now t, t.RowInv → u.admits t = true → schema.check (u.set now t) = true →
    Change t (u.set now t)

lemma admits_singleton {u : RowUpdate} {s : TaskState} (hs : u.sources = [s]) {t : Task}
    (h : u.admits t = true) : t.state = s := by
  simpa [RowUpdate.admits, hs] using h

/-- An update of pending rows that starts them. -/
lemma RowUpdate.lawful_start {u : RowUpdate} (hs : u.sources = [.pending])
    (hset : ∀ now t, (u.set now t).state = .running ∧ (u.set now t).startedAt = some now ∧
      (u.set now t).endedAt = t.endedAt ∧ (u.set now t).errorMessage = t.errorMessage ∧
      (u.set now t).timeoutSeconds = t.timeoutSeconds ∧
      (u.set now t).createdAt = t.createdAt) :
    u.Lawful := by
  intro now t hi hadm _
  have ht := admits_singleton hs hadm
  obtain ⟨hstate, hstarted, hended, herror, htimeout, hcreated⟩ := hset now t
  exact
    { rowInv := hi.start ht hstate hstarted hended herror
      state := Or.inr (by rw [ht, hstate]; rfl)
      startedAt := fun hne => absurd ht hne
      timeoutSeconds := htimeout
      createdAt := hcreated }

/-- An update of running rows that finishes them. -/
lemma RowUpdate.lawful_finish {u : RowUpdate} (target : TaskState) (hs : u.sources = [.running])
    (htarget : target = .succeeded ∨ target = .failed ∨ target = .timeout)
    (hset : ∀ now t, (u.set now t).state = target ∧ (u.set now t).startedAt = t.startedAt ∧
      (u.set now t).endedAt = some now ∧
      (u.set now t).errorMessage.isSome =
        (if target = .succeeded then t.errorMessage.isSome else true) ∧
      (u.set now t).timeoutSeconds = t.timeoutSeconds ∧
      (u.set now t).createdAt = t.createdAt) :
    u.Lawful := by
  intro now t hi hadm hcheck
  have ht := admits_singleton hs hadm
  obtain ⟨hstate, hstarted, hended, herror, htimeout, hcreated⟩ := hset now t
  have hnone : t.errorMessage.isSome = false := by
    have herr := hi.error
    rw [ht] at herr
    simpa using herr
  refine ⟨hi.finish ht hcheck (hstate ▸ htarget) hstarted hended ?_, Or.inr ?_, fun _ => hstarted,
    htimeout, hcreated⟩
  · rw [herror, hstate, hnone]
    rcases htarget with rfl | rfl | rfl <;> simp
  · rw [ht, hstate]
    rcases htarget with rfl | rfl | rfl <;> rfl

lemma lawful_transitionToCanceled : transitionToCanceled.Lawful := by
  intro now t hi hadm _
  have ht : t.state = .pending ∨ t.state = .running := by
    simpa [RowUpdate.admits, transitionToCanceled] using hadm
  have herr := hi.error
  refine ⟨?_, Or.inr ?_, fun _ => rfl, rfl, rfl⟩
  · rcases ht with ht | ht <;> rw [ht] at herr <;> constructor <;> simp_all [transitionToCanceled]
  · rcases ht with ht | ht <;> rw [ht] <;> rfl

lemma lawful_updateStats (data : UpdateTask) : (updateStats data).Lawful := fun _ _ hi _ _ =>
  ⟨⟨hi.pending, hi.running, hi.finished, hi.canceled, hi.error⟩, Or.inl rfl, fun _ => rfl, rfl, rfl⟩

end Task

lemma TaskQueue.lawful_claimUpdate : TaskQueue.claimUpdate.Lawful :=
  Task.RowUpdate.lawful_start rfl fun _ _ => ⟨rfl, rfl, rfl, rfl, rfl, rfl⟩

/-- Every update of a row is lawful. -/
lemma RowOp.lawful (op : RowOp) : op.update.Lawful := by
  cases op with
  | transitionToRunning =>
    exact Task.RowUpdate.lawful_start rfl fun _ _ => ⟨rfl, rfl, rfl, rfl, rfl, rfl⟩
  | transitionToCanceled => exact Task.lawful_transitionToCanceled
  | updateStats data => exact Task.lawful_updateStats data
  | transitionToSucceeded | markSucceeded =>
    exact Task.RowUpdate.lawful_finish .succeeded rfl (by simp)
      fun _ _ => ⟨rfl, rfl, rfl, rfl, rfl, rfl⟩
  | transitionToFailed | markFailed =>
    exact Task.RowUpdate.lawful_finish .failed rfl (by simp)
      fun _ _ => ⟨rfl, rfl, rfl, rfl, rfl, rfl⟩
  | transitionToTimeout | markTimeout =>
    exact Task.RowUpdate.lawful_finish .timeout rfl (by simp)
      fun _ _ => ⟨rfl, rfl, rfl, rfl, rfl, rfl⟩

namespace Lifecycle

variable {T T' : TaskTable}

lemma isPending_iff {id : Uuid} :
    isPending T id = true ↔ ∃ t, T.row id = some t ∧ t.state = .pending := by
  simp [isPending, Option.any_eq_true]

/-! ### What a statement does to a row -/

/-- A statement leaves the rows that it does not touch. -/
lemma row_of_step {st : Statement} {now : DateTime} (h : step T (st, now) = some T') {id : Uuid}
    (hid : id ∉ st.targets) : T'.row id = T.row id := by
  cases st with
  | create data id' =>
    have hne : id' ≠ id := by simpa [Statement.targets, eq_comm] using hid
    simp only [step, Task.create] at h
    cases hins : T.insert (Task.new data id' now) with
    | error v => simp_all [Except.map]
    | ok T₁ =>
      obtain rfl : T₁ = T' := by simpa [hins, Except.map] using h
      simpa [Task.new, hne] using Table.row_insert hins id
  | update op id' =>
    have hne : id ≠ id' := by simpa [Statement.targets] using hid
    simp only [step, Task.RowUpdate.exec] at h
    split at h
    · rename_i hup
      cases h
      rcases Table.updateKey_eq_ok hup with ⟨-, -, rfl⟩ | ⟨t, -, -, -, -, -, hother⟩
      · rfl
      · exact hother id hne
    · cases h
      rfl
  | claim ids =>
    simp only [step] at h
    split at h
    · split at h
      · rename_i hclaim
        cases h
        rw [TaskQueue.row_claimTasks hclaim id, if_neg (show id ∉ ids from hid)]
      · cases h
        rfl
    · cases h
  | delete id' =>
    have hne : id ≠ id' := by simpa [Statement.targets] using hid
    obtain rfl : (Task.delete T id').2 = T' := by simpa [step] using h
    rw [Task.row_delete, if_neg hne]

/-- The updates that the statements apply to rows. -/
def IsUpdate (u : Task.RowUpdate) : Prop :=
  u = TaskQueue.claimUpdate ∨ ∃ op : RowOp, u = op.update

lemma IsUpdate.lawful {u : Task.RowUpdate} (h : IsUpdate u) : u.Lawful := by
  rcases h with rfl | ⟨op, rfl⟩
  · exact TaskQueue.lawful_claimUpdate
  · exact op.lawful

/-- No update gives a task to another tenant. -/
lemma IsUpdate.tenantId {u : Task.RowUpdate} (h : IsUpdate u) (now : DateTime) (t : Task) :
    (u.set now t).tenantId = t.tenantId := by
  rcases h with rfl | ⟨op, rfl⟩
  · rfl
  · cases op <;> rfl

/-- The update that a statement applies to the row of a task. -/
def Applies (st : Statement) (id : Uuid) (u : Task.RowUpdate) : Prop :=
  (∃ ids, st = .claim ids ∧ u = TaskQueue.claimUpdate) ∨ ∃ op, st = .update op id ∧ u = op.update

lemma Applies.isUpdate {st : Statement} {id : Uuid} {u : Task.RowUpdate} (h : Applies st id u) :
    IsUpdate u := by
  rcases h with ⟨-, -, hu⟩ | ⟨op, -, hu⟩
  · exact Or.inl hu
  · exact Or.inr ⟨op, hu⟩

/-- **Inversion of a step.**  A statement leaves a row, creates it, deletes it, or applies its
update to it. -/
lemma row_cases_applies {st : Statement} {now : DateTime} (h : step T (st, now) = some T')
    (id : Uuid) :
    T'.row id = T.row id ∨
    (∃ data, st = .create data id ∧ T.row id = none ∧ T'.row id = some (Task.new data id now)) ∨
    (st = .delete id ∧ T'.row id = none) ∨
    ∃ u t, Applies st id u ∧ T.row id = some t ∧ u.admits t = true ∧
      Task.schema.check (u.set now t) = true ∧ T'.row id = some (u.set now t) := by
  by_cases hid : id ∈ st.targets
  swap
  · exact Or.inl (row_of_step h hid)
  cases st with
  | create data id' =>
    obtain rfl : id = id' := by simpa [Statement.targets] using hid
    simp only [step, Task.create] at h
    cases hins : T.insert (Task.new data id now) with
    | error v => simp_all [Except.map]
    | ok T₁ =>
      obtain rfl : T₁ = T' := by simpa [hins, Except.map] using h
      have hnone := (Table.insert_eq_ok hins).2.1
      exact Or.inr (Or.inl ⟨data, rfl, hnone, by simpa [Task.new] using Table.row_insert hins id⟩)
  | update op id' =>
    obtain rfl : id = id' := by simpa [Statement.targets] using hid
    simp only [step, Task.RowUpdate.exec] at h
    split at h
    · rename_i hup
      cases h
      rcases Table.updateKey_eq_ok hup with ⟨-, -, rfl⟩ | ⟨t, ht, hadm, hcheck, -, ht', -⟩
      · exact Or.inl rfl
      · exact Or.inr (Or.inr (Or.inr ⟨_, t, Or.inr ⟨op, rfl, rfl⟩, ht, hadm, hcheck, ht'⟩))
    · cases h
      exact Or.inl rfl
  | claim ids =>
    simp only [step] at h
    split at h
    · rename_i hpending
      split at h
      · rename_i hclaim
        cases h
        have hrow := TaskQueue.row_claimTasks hclaim id
        obtain ⟨t, ht, hstate⟩ := isPending_iff.1 (List.all_eq_true.1 hpending id hid)
        rw [if_pos (show id ∈ ids from hid), ht, Option.map_some] at hrow
        refine Or.inr (Or.inr (Or.inr ⟨_, t, Or.inl ⟨ids, rfl, rfl⟩, ht, ?_, ?_, hrow⟩))
        · simp [Task.RowUpdate.admits, TaskQueue.claimUpdate, hstate]
        · exact T'.checked _ (Table.mem_of_row hrow)
      · cases h
        exact Or.inl rfl
    · cases h
  | delete id' =>
    obtain rfl : id = id' := by simpa [Statement.targets] using hid
    obtain rfl : (Task.delete T id).2 = T' := by simpa [step] using h
    exact Or.inr (Or.inr (Or.inl ⟨rfl, by rw [Task.row_delete, if_pos rfl]⟩))

/-- The inversion with what is to be known of the update. -/
lemma row_cases_of {P : Task.RowUpdate → Prop} {st : Statement} {now : DateTime} {id : Uuid}
    (hP : ∀ u, Applies st id u → P u) (h : step T (st, now) = some T') :
    T'.row id = T.row id ∨
    (∃ data, st = .create data id ∧ T.row id = none ∧ T'.row id = some (Task.new data id now)) ∨
    (st = .delete id ∧ T'.row id = none) ∨
    ∃ u t, P u ∧ T.row id = some t ∧ u.admits t = true ∧
      Task.schema.check (u.set now t) = true ∧ T'.row id = some (u.set now t) := by
  rcases row_cases_applies h id with hsame | hcreate | hdelete | ⟨u, t, hu, hrest⟩
  · exact Or.inl hsame
  · exact Or.inr (Or.inl hcreate)
  · exact Or.inr (Or.inr (Or.inl hdelete))
  · exact Or.inr (Or.inr (Or.inr ⟨u, t, hP u hu, hrest⟩))

/-- A statement leaves a row, creates it, deletes it, or applies an update to it. -/
lemma row_cases_isUpdate {st : Statement} {now : DateTime} (h : step T (st, now) = some T')
    (id : Uuid) :
    T'.row id = T.row id ∨
    (∃ data, st = .create data id ∧ T.row id = none ∧ T'.row id = some (Task.new data id now)) ∨
    (st = .delete id ∧ T'.row id = none) ∨
    ∃ u t, IsUpdate u ∧ T.row id = some t ∧ u.admits t = true ∧
      Task.schema.check (u.set now t) = true ∧ T'.row id = some (u.set now t) :=
  row_cases_of (fun _ => Applies.isUpdate) h

/-- A statement leaves a row, creates it, deletes it, or applies a lawful update to it. -/
lemma row_cases {st : Statement} {now : DateTime} (h : step T (st, now) = some T') (id : Uuid) :
    T'.row id = T.row id ∨
    (∃ data, st = .create data id ∧ T.row id = none ∧ T'.row id = some (Task.new data id now)) ∨
    (st = .delete id ∧ T'.row id = none) ∨
    ∃ u t, Task.RowUpdate.Lawful u ∧ T.row id = some t ∧ u.admits t = true ∧
      Task.schema.check (u.set now t) = true ∧ T'.row id = some (u.set now t) :=
  row_cases_of (fun _ hu => hu.isUpdate.lawful) h

/-- A mark that succeeds is a statement. -/
lemma step_of_mark {op : RowOp} {id : Uuid} {now : DateTime}
    (h : TaskQueue.mark op.update T id now = .ok T') :
    step T (.update op id, now) = some T' := by
  unfold TaskQueue.mark at h
  split at h
  · cases h
  · cases h
  · rename_i hup
    cases h
    simp [step, hup]

/-! ### Runs of statements -/

/-- Every row satisfies the invariant of its state. -/
def RowsInv (T : TaskTable) : Prop := ∀ id t, T.row id = some t → t.RowInv

lemma RowsInv.step {a : Statement × DateTime} (hi : RowsInv T) (h : step T a = some T') :
    RowsInv T' := by
  intro id t' ht'
  rcases row_cases h id with hsame | ⟨data, -, -, hnew⟩ | ⟨-, hnone⟩ |
    ⟨u, t, hu, ht, hadm, hcheck, hset⟩
  · exact hi id t' (hsame ▸ ht')
  · obtain rfl := Option.some.inj (ht'.symm.trans hnew)
    exact Task.rowInv_new _ _ _
  · simp [hnone] at ht'
  · obtain rfl := Option.some.inj (ht'.symm.trans hset)
    exact (hu _ _ (hi id t ht) hadm hcheck).rowInv

lemma reachable_rowsInv (h : machine.Reachable Machine.anyStep T) : RowsInv T := by
  refine h.invariant ?_ fun _ _ _ _ hi => hi.step
  rintro T rfl id t ht
  simp at ht

/-- A row that is there before and after a statement has been changed lawfully. -/
lemma change_of_step {a : Statement × DateTime} (hi : RowsInv T) (h : step T a = some T')
    {id : Uuid} {t t' : Task} (ht : T.row id = some t) (ht' : T'.row id = some t') :
    Task.Change t t' := by
  rcases row_cases h id with hsame | ⟨data, -, hnone, -⟩ | ⟨-, hnone⟩ |
    ⟨u, t₀, hu, ht₀, hadm, hcheck, hset⟩
  · obtain rfl := Option.some.inj (ht'.symm.trans (hsame.trans ht))
    exact ⟨hi id _ ht, Or.inl rfl, fun _ => rfl, rfl, rfl⟩
  · simp [hnone] at ht
  · simp [hnone] at ht'
  · obtain rfl := Option.some.inj (ht'.symm.trans hset)
    obtain rfl := Option.some.inj (ht.symm.trans ht₀)
    exact hu _ _ (hi id t ht) hadm hcheck

/-- A row after a statement that does not create it was there before, under the same tenant
and with the same time of creation, and was active if it is active now. -/
lemma row_before_of_step {st : Statement} {now : DateTime} (hi : RowsInv T)
    (h : step T (st, now) = some T') {id : Uuid} (hst : ∀ data, st ≠ .create data id) {t' : Task}
    (ht' : T'.row id = some t') :
    ∃ t, T.row id = some t ∧ t'.tenantId = t.tenantId ∧ t'.createdAt = t.createdAt ∧
      (t'.state.isActive = true → t.state.isActive = true) := by
  rcases row_cases_isUpdate h id with hsame | ⟨data, hcreate, -⟩ | ⟨-, hnone⟩ |
    ⟨u, t, hu, ht, hadm, hcheck, hset⟩
  · exact ⟨t', hsame ▸ ht', rfl, rfl, fun hactive => hactive⟩
  · exact absurd hcreate (hst data)
  · simp [hnone] at ht'
  · obtain rfl := Option.some.inj (ht'.symm.trans hset)
    have hchange := hu.lawful now t (hi id t ht) hadm hcheck
    refine ⟨t, ht, hu.tenantId now t, hchange.createdAt, ?_⟩
    intro hactive
    -- no transition leaves a terminal state
    rcases hchange.state with hsame | hcan
    · rwa [hsame] at hactive
    · cases hstate : t.state <;> simp_all [TaskState.canTransitionTo, TaskState.isActive]

/-- A row that is not pending does not become so, unless it is created anew. -/
lemma rowState_ne_pending_of_step {st : Statement} {now : DateTime} (hi : RowsInv T)
    (h : step T (st, now) = some T') {id : Uuid} (hst : ∀ data, st ≠ .create data id)
    (hne : Task.rowState T id ≠ some .pending) : Task.rowState T' id ≠ some .pending := by
  intro hp
  obtain ⟨t', ht', hpending⟩ := Task.rowState_eq_some_iff.1 hp
  cases ht : T.row id with
  | none =>
    rcases row_cases h id with hsame | ⟨data, hcreate, -, -⟩ | ⟨-, hnone⟩ | ⟨u, t₀, -, ht₀, -⟩
    · simp [hsame, ht] at ht'
    · exact hst data hcreate
    · simp [hnone] at ht'
    · simp [ht] at ht₀
  | some t =>
    rcases (change_of_step hi h ht ht').state with hsame | hcan
    · exact hne (Task.rowState_eq_some_iff.2 ⟨t, ht, hsame ▸ hpending⟩)
    · rw [hpending, TaskState.canTransitionTo_pending] at hcan
      cases hcan

/-- A row is there after every statement but its deletion. -/
lemma exists_row_of_step {st : Statement} {now : DateTime} (h : step T (st, now) = some T')
    {id : Uuid} {t : Task} (ht : T.row id = some t) (hst : st ≠ .delete id) :
    ∃ t', T'.row id = some t' := by
  rcases row_cases h id with hsame | ⟨data, -, hnone, -⟩ | ⟨hdel, -⟩ | ⟨u, t₀, -, -, -, -, hset⟩
  · exact ⟨t, hsame.trans ht⟩
  · simp [hnone] at ht
  · exact absurd hdel hst
  · exact ⟨_, hset⟩

/-- The state of a row stays as it is or changes as it may, unless the row is deleted. -/
lemma rowState_of_step {st : Statement} {now : DateTime} (hi : RowsInv T)
    (h : step T (st, now) = some T') {id : Uuid} (hst : st ≠ .delete id) {state : TaskState}
    (hrow : Task.rowState T id = some state) :
    ∃ state', Task.rowState T' id = some state' ∧
      (state' = state ∨ state.canTransitionTo state' = true) := by
  obtain ⟨t, ht, rfl⟩ := Task.rowState_eq_some_iff.1 hrow
  obtain ⟨t', ht'⟩ := exists_row_of_step h ht hst
  exact ⟨t'.state, Task.rowState_eq_some_iff.2 ⟨t', ht', rfl⟩, (change_of_step hi h ht ht').state⟩

/-- A row that is there and not pending stays so, unless it is deleted. -/
lemma taken_of_step {st : Statement} {now : DateTime} (hi : RowsInv T)
    (h : step T (st, now) = some T') {id : Uuid} (hst : st ≠ .delete id)
    (htaken : ∃ state, Task.rowState T id = some state ∧ state ≠ .pending) :
    ∃ state, Task.rowState T' id = some state ∧ state ≠ .pending := by
  obtain ⟨state, hrow, hne⟩ := htaken
  obtain ⟨state', hrow', hsame | hcan⟩ := rowState_of_step hi h hst hrow
  · exact ⟨state', hrow', hsame ▸ hne⟩
  · refine ⟨state', hrow', ?_⟩
    rintro rfl
    rw [TaskState.canTransitionTo_pending] at hcan
    cases hcan

/-- A row that is in a terminal state stays so, unless it is deleted. -/
lemma isEnded_of_step {st : Statement} {now : DateTime} (hi : RowsInv T)
    (h : step T (st, now) = some T') {id : Uuid} (hst : st ≠ .delete id)
    (hended : isEnded T id = true) : isEnded T' id = true := by
  obtain ⟨state, hrow, hterm⟩ := (Option.any_eq_true _ _).1 hended
  obtain ⟨state', hrow', hsame | hcan⟩ := rowState_of_step hi h hst hrow
  · exact (Option.any_eq_true _ _).2 ⟨state', hrow', hsame ▸ hterm⟩
  · rw [TaskState.canTransitionTo_of_isTerminal hterm] at hcan
    cases hcan

/-- A terminal state is final, as long as the row is not deleted. -/
lemma terminal_of_run (hi : RowsInv T) {l : List (Statement × DateTime)}
    (h : machine.Run Machine.anyStep T l T') {id : Uuid} {t : Task} (ht : T.row id = some t)
    (hterm : t.state.isTerminal = true) (hl : ∀ a ∈ l, a.1 ≠ .delete id) :
    ∃ t', T'.row id = some t' ∧ t'.state = t.state := by
  have hrun := h.of_forall_label hl
  have hinv : RowsInv T' ∧ ∃ t', T'.row id = some t' ∧ t'.state = t.state := by
    refine hrun.preserves
      (P := fun T' => RowsInv T' ∧ ∃ t', T'.row id = some t' ∧ t'.state = t.state) ?_
      ⟨hi, t, ht, rfl⟩
    rintro T₁ ⟨st, now⟩ T₂ ⟨-, hst⟩ ⟨hi₁, t₁, ht₁, hstate⟩ hstep
    obtain ⟨t₂, ht₂⟩ := exists_row_of_step hstep ht₁ hst
    refine ⟨hi₁.step hstep, t₂, ht₂, ?_⟩
    -- no transition leaves a terminal state
    by_contra hne
    rw [← hstate] at hne hterm
    have hcan := (change_of_step hi₁ hstep ht₁ ht₂).state.resolve_left hne
    rw [TaskState.canTransitionTo_of_isTerminal hterm] at hcan
    cases hcan
  exact hinv.2

/-! ### Claims -/

/-- A claim of pending rows succeeds and returns them. -/
lemma exists_claimTasks (hi : RowsInv T) {ids : List Uuid} (hids : ids.all (isPending T) = true)
    (now : DateTime) :
    ∃ ts T', TaskQueue.claimTasks T ids now = .ok (ts, T') ∧ ts.map Task.id = ids := by
  have hpending : ∀ id ∈ ids, ∃ t, T.row id = some t ∧ t.state = .pending := fun id hid =>
    isPending_iff.1 (List.all_eq_true.1 hids id hid)
  -- a pending row has no `ended_at`, so starting it violates no constraint
  have hcheck : ∀ t ∈ T.rows, ids.contains t.id = true →
      Task.schema.check (TaskQueue.claimUpdate.set now t) = true := by
    intro t ht hmem
    have hrow : T.row t.id = some t := Table.row_key_of_mem ht
    obtain ⟨t', ht', hstate⟩ := hpending t.id (by simpa using hmem)
    obtain rfl := Option.some.inj (hrow.symm.trans ht')
    have hold := T.checked t ht
    have hended := ((hi _ _ hrow).pending hstate).2
    simp only [Task.schema, TaskQueue.claimUpdate, Task.endedAfterStarted, Task.textsOk, hended,
      Bool.and_eq_true] at hold ⊢
    exact ⟨⟨hold.1.1, trivial⟩, hold.2⟩
  obtain ⟨T', hT'⟩ := Table.exists_update (TaskQueue.claimUpdate.set_id now) hcheck
  have hclaim : TaskQueue.claimTasks T ids now = .ok (ids.filterMap T'.row, T') := by
    rw [TaskQueue.claimTasks, hT']
    rfl
  refine ⟨ids.filterMap T'.row, T', hclaim,
    Table.map_key_filterMap_row (S := Task.schema) ?_⟩
  intro id hid
  obtain ⟨t, ht, -⟩ := hpending id hid
  rw [TaskQueue.row_claimTasks hclaim, if_pos hid, ht]
  exact ⟨_, rfl⟩

/-- **The life cycle of a task.**  In every reachable state the rows satisfy the invariant of
their states, the next statement changes the state of a row only by an allowed transition,
and a row in a terminal state keeps this state until it is deleted. -/
theorem lifecycle (h : machine.Reachable Machine.anyStep T) :
    (∀ id t, T.row id = some t → t.RowInv) ∧
    (∀ a T', machine.step T a = some T' → ∀ id t t', T.row id = some t → T'.row id = some t' →
      t'.state ≠ t.state → t.state.canTransitionTo t'.state = true) ∧
    ∀ id t, T.row id = some t → t.state.isTerminal = true → ∀ l T',
      machine.Run Machine.anyStep T l T' → (∀ a ∈ l, a.1 ≠ .delete id) →
        ∃ t', T'.row id = some t' ∧ t'.state = t.state := by
  have hi := reachable_rowsInv h
  refine ⟨hi, ?_, ?_⟩
  · intro a T' hstep id t t' ht ht' hne
    exact (change_of_step hi hstep ht ht').state.resolve_left hne
  · intro id t ht hterm l T' hrun hl
    exact terminal_of_run hi hrun ht hterm hl

/-- A task for the mock adapter. -/
def sampleTask : CreateTask where
  tenantId := 7
  createdBy := none
  name := "deploy"
  adapter := "mock"
  args := .object []

/-- A task is created, claimed, recorded as succeeded, and then canceled in vain. -/
def sampleStatements : List (Statement × DateTime) :=
  [(.create sampleTask 1, 0), (.claim [1], 1), (.update (.markSucceeded (some 0)) 1, 2),
    (.update .transitionToCanceled 1, 3)]

/-- The life cycle in the state that these statements reach. -/
theorem lifecycle_sampleStatements :
    ∃ T, machine.exec Machine.anyStep (Table.empty Task.schema) sampleStatements = some T ∧
      (T.row 1).map Task.state = some .succeeded ∧ ∀ id t, T.row id = some t → t.RowInv := by
  have hstate : (machine.exec Machine.anyStep (Table.empty Task.schema) sampleStatements).map
      (fun T => (T.row 1).map Task.state) = some (some .succeeded) := by decide +kernel
  obtain ⟨T, hT, hstate⟩ := Option.map_eq_some_iff.1 hstate
  exact ⟨T, hT, hstate, (lifecycle ⟨_, _, rfl, Machine.run_of_exec hT⟩).1⟩

end Lifecycle

end AxonTask
