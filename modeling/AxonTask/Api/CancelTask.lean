import AxonTask.Worker.Lifecycle

/-!
# The cancel endpoint (`axontask-api/src/routes/mcp/cancel_task.rs`)

`cancel_task` reads the row of the task and, unless the state it read is terminal, updates
the row in a second statement.  When that update finds no row in a state it admits, the
endpoint answers all the same that the task was canceled, and names the state `pending`.
The machine below runs the endpoint among arbitrary statements of other processes.
-/

namespace AxonTask

open Lib

/-- `CancelTaskResponse`. -/
structure CancelTaskResponse where
  taskId : Uuid
  /-- Whether cancellation was successful. -/
  canceled : Bool
  /-- Current task state. -/
  state : String
  message : String
deriving DecidableEq, Repr

/-- The errors of `ApiError` that the endpoint returns. -/
inductive ApiError
  | notFound (msg : String)
  | internalError (msg : String)
deriving DecidableEq, Repr

namespace CancelTask

/-- What `cancel_task` makes of the row it reads: an error, an answer, or (`none`) the
decision to update the row. -/
def check (taskId : Uuid) (task : Option Task) :
    Except ApiError (Option CancelTaskResponse) :=
  match task with
  | none => .error (.notFound "Task not found")
  | some task =>
    if ["succeeded", "failed", "canceled", "timeout"].contains task.state.asStr then
      .ok <| some
        { taskId
          canceled := false
          state := task.state.asStr
          message := "Task already in terminal state: " ++ task.state.asStr }
    else .ok none

/-- The answer that `cancel_task` gives after its update. -/
def respond (taskId : Uuid) (updatedTask : Option Task) : CancelTaskResponse where
  taskId := taskId
  canceled := true
  state := (updatedTask.map fun t => t.state.asStr).getD TaskState.pending.asStr
  message := "Task cancellation requested"

/-- How far the call has come. -/
inductive Call
  | called
  /-- The row has been read, in a state that is not terminal. -/
  | checked
  | returned (r : Except ApiError CancelTaskResponse)

/-- One call of the endpoint and the table.  The last two fields record the history: the
states that the row had at and after the first read, and the states of the row before and
after the update of this call. -/
structure Race where
  tasks : TaskTable
  call : Call
  seen : List TaskState
  updated : Option (Option TaskState × Option TaskState)

/-- The answer that the call has given. -/
def Race.answer (s : Race) : Option CancelTaskResponse :=
  match s.call with
  | .returned (.ok r) => some r
  | _ => none

/-- A step of the call or a statement of another process. -/
inductive Step
  | other (st : Statement × DateTime)
  | read
  | update (now : DateTime)
  /-- A statement of the call fails in the database. -/
  | fail

variable (taskId tenantId : Uuid)

/-- The history after a step to the table `T`. -/
def see (T : TaskTable) (s : Race) : List TaskState := s.seen ++ (Task.rowState T taskId).toList

/-- A step of the race. -/
def step (s : Race) : Step → Option Race
  | .other st =>
    (Lifecycle.step s.tasks st).map fun T =>
      match s.call with
      | .called => { s with tasks := T }
      | _ => { s with tasks := T, seen := see taskId T s }
  | .read =>
    match s.call with
    | .called =>
      let s := { s with seen := see taskId s.tasks s }
      match check taskId (Task.findByIdAndTenant s.tasks taskId tenantId) with
      | .error e => some { s with call := .returned (.error e) }
      | .ok (some r) => some { s with call := .returned (.ok r) }
      | .ok none => some { s with call := .checked }
    | _ => none
  | .update now =>
    match s.call with
    | .checked =>
      match Task.transitionToCanceled.exec s.tasks taskId now with
      | .ok (updatedTask, T) =>
        some
          { tasks := T
            call := .returned (.ok (respond taskId updatedTask))
            seen := see taskId T s
            updated := some (Task.rowState s.tasks taskId, Task.rowState T taskId) }
      | .error _ =>
        some { s with call := .returned (.error (.internalError "Failed to cancel task")) }
    | _ => none
  | .fail =>
    match s.call with
    | .called => some { s with call := .returned (.error (.internalError "Failed to query task")) }
    | .checked =>
      some { s with call := .returned (.error (.internalError "Failed to cancel task")) }
    | .returned _ => none

/-- No task, and the endpoint just called. -/
def start : Race := ⟨Table.empty Task.schema, .called, [], none⟩

/-- One call of the endpoint among the statements of other processes. -/
def machine : Machine Race Step where
  Init s := s = start
  step := step taskId tenantId

/-- An answer that the task was canceled is true: the update of this call moved the row to
`canceled`, and the state it names is one that the row had at or after the first read. -/
def Truthful (s : Race) : Prop :=
  ∀ r, s.answer = some r → r.canceled = true →
    (∃ source, s.updated = some (some source, some .canceled) ∧ source ≠ .canceled) ∧
      ∃ st ∈ s.seen, r.state = st.asStr

/-- When the call updates the row, the row is there and pending or running. -/
def RowActive (s : Race) : Step → Prop
  | .update _ => (Task.rowState s.tasks taskId).any TaskState.isActive = true
  | _ => True

instance (s : Race) : ∀ a, Decidable (RowActive taskId s a)
  | .update _ => inferInstanceAs (Decidable (_ = true))
  | .other _ | .read | .fail => isTrue trivial

variable {taskId tenantId} {s s' : Race}

lemma rowState_any_isActive {T : TaskTable} :
    (Task.rowState T taskId).any TaskState.isActive = true ↔
      ∃ t, T.row taskId = some t ∧ t.state.isActive = true := by
  cases hrow : T.row taskId <;> simp [Task.rowState, hrow]

/-! ### What a step does -/

/-- An answer after the first statement never says that the task was canceled. -/
lemma canceled_of_check {task : Option Task} {r : CancelTaskResponse}
    (h : check taskId task = .ok (some r)) : r.canceled = false := by
  unfold check at h
  split at h
  · cases h
  · split at h
    · cases h
      rfl
    · cases h

lemma admits_transitionToCanceled (t : Task) :
    Task.transitionToCanceled.admits t = t.state.isActive := by
  simp only [Task.RowUpdate.admits, Task.transitionToCanceled]
  cases t.state <;> rfl

/-- The update answers with what it has done, or with an error. -/
lemma update_cases {now : DateTime} (h : step taskId tenantId s (.update now) = some s') :
    (∃ updatedTask T, Task.transitionToCanceled.exec s.tasks taskId now = .ok (updatedTask, T) ∧
      s' =
        { tasks := T
          call := .returned (.ok (respond taskId updatedTask))
          seen := see taskId T s
          updated := some (Task.rowState s.tasks taskId, Task.rowState T taskId) }) ∨
    ∃ v, Task.transitionToCanceled.exec s.tasks taskId now = .error v ∧
      s' = { s with call := .returned (.error (.internalError "Failed to cancel task")) } := by
  simp only [step] at h
  split at h
  · split at h
    · rename_i updatedTask T hup
      cases h
      exact Or.inl ⟨updatedTask, T, hup, rfl⟩
    · rename_i v hup
      cases h
      exact Or.inr ⟨v, hup, rfl⟩
  · cases h

/-- On the table, a step is a statement or nothing. -/
lemma tasks_step {a : Step} (h : step taskId tenantId s a = some s') :
    s'.tasks = s.tasks ∨ ∃ st, Lifecycle.step s.tasks st = some s'.tasks := by
  cases a with
  | other st =>
    simp only [step, Option.map_eq_some_iff] at h
    obtain ⟨T, hT, rfl⟩ := h
    refine Or.inr ⟨st, ?_⟩
    cases hcall : s.call <;> exact hT
  | read =>
    simp only [step] at h
    split at h
    · split at h <;> cases h <;> exact Or.inl rfl
    · cases h
  | update now =>
    rcases update_cases h with ⟨updatedTask, T, hup, rfl⟩ | ⟨v, -, rfl⟩
    · refine Or.inr ⟨(.update .transitionToCanceled taskId, now), ?_⟩
      simp [Lifecycle.step, RowOp.update, hup]
    · exact Or.inl rfl
  | fail =>
    simp only [step] at h
    split at h <;> cases h <;> exact Or.inl rfl

/-- **Refinement.**  The endpoint runs the statements of the life cycle. -/
theorem tasks_reachable (h : (machine taskId tenantId).Reachable Machine.anyStep s) :
    Lifecycle.machine.Reachable Machine.anyStep s.tasks := by
  refine Machine.Reachable.project Race.tasks ?_ (fun s a s' _ _ hstep => tasks_step hstep) h
  rintro s rfl
  exact Machine.Reachable.init rfl

/-- The update of an active row. -/
lemma truthful_of_update {now : DateTime} {t : Task} (ht : s.tasks.row taskId = some t)
    (hactive : t.state.isActive = true) (h : step taskId tenantId s (.update now) = some s') :
    Truthful s' := by
  rcases update_cases h with ⟨updatedTask, T, hup, rfl⟩ | ⟨v, -, rfl⟩
  · rcases Table.updateKey_eq_ok hup with ⟨hnone, -, -⟩ | ⟨t₀, ht₀, -, -, rfl, hrow, -⟩
    · simp [ht, admits_transitionToCanceled, hactive] at hnone
    · obtain rfl := Option.some.inj (ht.symm.trans ht₀)
      have hstate : Task.rowState T taskId = some .canceled := by
        simp [Task.rowState, hrow]
        rfl
      intro r hr _
      cases hr
      have hbefore : Task.rowState s.tasks taskId = some t.state := by simp [Task.rowState, ht]
      refine ⟨⟨t.state, by rw [hbefore, hstate], ?_⟩, .canceled, ?_, rfl⟩
      · intro hc
        simp [hc, TaskState.isActive] at hactive
      · simp [see, hstate]
  · rintro r ⟨⟩

/-- The update that finds no active row. -/
lemma not_truthful_of_update {now : DateTime}
    (hinactive : ∀ t, s.tasks.row taskId = some t → t.state.isActive = false)
    (h : step taskId tenantId s (.update now) = some s') : ¬ Truthful s' := by
  rcases update_cases h with ⟨updatedTask, T, hup, rfl⟩ | ⟨v, hup, rfl⟩
  · rcases Table.updateKey_eq_ok hup with ⟨-, rfl, rfl⟩ | ⟨t, ht, hadm, -, -, -, -⟩
    · -- no row is updated, and the answer is that of a success
      intro htrue
      obtain ⟨⟨source, hsource, hne⟩, -⟩ := htrue _ rfl rfl
      simp only [Option.some.injEq, Prod.mk.injEq] at hsource
      exact hne (Option.some.inj (hsource.1.symm.trans hsource.2))
    · rw [admits_transitionToCanceled, hinactive t ht] at hadm
      cases hadm
  · obtain ⟨t, ht, hadm, -⟩ := Table.updateKey_eq_error hup
    rw [admits_transitionToCanceled, hinactive t ht] at hadm
    cases hadm

/-- A step under the condition keeps the answer true. -/
lemma Truthful.step {a : Step} (hC : RowActive taskId s a) (hi : Truthful s)
    (h : step taskId tenantId s a = some s') : Truthful s' := by
  cases a with
  | other st =>
    simp only [CancelTask.step, Option.map_eq_some_iff] at h
    obtain ⟨T, -, rfl⟩ := h
    cases hcall : s.call with
    | called => simp [Truthful, Race.answer]
    | checked => simp [Truthful, Race.answer]
    | returned r₀ =>
      intro r hr hc
      obtain ⟨hmoved, st, hst, hstate⟩ := hi r (by simpa [Race.answer, hcall] using hr) hc
      exact ⟨hmoved, st, List.mem_append_left _ hst, hstate⟩
  | read =>
    simp only [CancelTask.step] at h
    split at h
    · split at h
      · cases h
        rintro r ⟨⟩
      · rename_i r₀ hcheck
        cases h
        rintro r ⟨⟩ hc
        rw [canceled_of_check hcheck] at hc
        cases hc
      · cases h
        rintro r ⟨⟩
    · cases h
  | update now =>
    obtain ⟨t, ht, hactive⟩ := rowState_any_isActive.1 hC
    exact truthful_of_update ht hactive h
  | fail =>
    simp only [CancelTask.step] at h
    split at h <;> cases h <;> rintro r ⟨⟩

variable (taskId tenantId)

/-- **When the answer is true.**  In every run in which the row is still pending or running
whenever the call updates it, every answer is true; and in any run the answer that follows
an update is true only if the row was. -/
theorem truthful_of_rowActive :
    (∀ s, (machine taskId tenantId).Reachable (RowActive taskId) s → Truthful s) ∧
    ∀ s s' now, (machine taskId tenantId).Reachable Machine.anyStep s →
      (machine taskId tenantId).step s (.update now) = some s' →
      (Truthful s' ↔ ∃ t, s.tasks.row taskId = some t ∧ t.state.isActive = true) := by
  refine ⟨?_, fun s s' now _ hstep => ⟨?_, ?_⟩⟩
  · intro s h
    refine h.invariant ?_ fun _ _ _ hC hi hstep => hi.step hC hstep
    rintro s rfl r ⟨⟩
  · intro htrue
    by_contra hno
    have hup : step taskId tenantId s (.update now) = some s' := hstep
    refine not_truthful_of_update ?_ hup htrue
    intro t ht
    by_contra hactive
    exact hno ⟨t, ht, by simpa using hactive⟩
  · rintro ⟨t, ht, hactive⟩
    have hup : step taskId tenantId s (.update now) = some s' := hstep
    exact truthful_of_update ht hactive hup

/-! ### Two runs -/

/-- The task is created and claimed, the endpoint reads the row, and then `last` happens
before the update. -/
def sampleSteps (last : List Step) : List Step :=
  [.other (.create Lifecycle.sampleTask 1, 0), .other (.claim [1], 1), .read] ++ last ++ [.update 3]

/-- The task succeeds between the two statements: the endpoint answers that it was canceled
and is pending. -/
theorem not_truthful_markSucceeded :
    ∃ s, (machine 1 7).Reachable Machine.anyStep s ∧ ¬ Truthful s := by
  have hrun : ((machine 1 7).exec Machine.anyStep start
      (sampleSteps [.other (.update (.markSucceeded (some 0)) 1, 2)])).map
        (fun s => (s.answer, s.updated)) =
      some (some ⟨1, true, "pending", "Task cancellation requested"⟩,
        some (some .succeeded, some .succeeded)) := by decide +kernel
  obtain ⟨s, hs, hobs⟩ := Option.map_eq_some_iff.1 hrun
  obtain ⟨hanswer, hupdated⟩ := Prod.mk.inj hobs
  refine ⟨s, ⟨start, _, rfl, Machine.run_of_exec hs⟩, ?_⟩
  intro htrue
  obtain ⟨⟨source, hsource, -⟩, -⟩ := htrue _ hanswer rfl
  rw [hupdated] at hsource
  cases hsource

/-- Nothing happens between the two statements: the endpoint answers that the task was
canceled, and it was. -/
theorem truthful_of_rowActive_undisturbed :
    ∃ s, (machine 1 7).Run (RowActive 1) start (sampleSteps []) s ∧
      s.answer = some ⟨1, true, "canceled", "Task cancellation requested"⟩ ∧ Truthful s := by
  have hrun : ((machine 1 7).exec (RowActive 1) start (sampleSteps [])).map Race.answer =
      some (some ⟨1, true, "canceled", "Task cancellation requested"⟩) := by decide +kernel
  obtain ⟨s, hs, hanswer⟩ := Option.map_eq_some_iff.1 hrun
  have hr := Machine.run_of_exec hs
  exact ⟨s, hr, hanswer, (truthful_of_rowActive 1 7).1 s ⟨start, _, rfl, hr⟩⟩

end CancelTask

end AxonTask
