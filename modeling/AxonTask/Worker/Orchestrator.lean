import AxonTask.Worker.Lifecycle
import Mathlib.Data.List.Perm.Subperm

/-!
# The worker loop (`WorkerOrchestrator::run` in `axontask-worker/src/orchestrator.rs`)

The loop counts the entries of the map `active_tasks` to decide how many tasks to claim, and
removes an entry when its token is cancelled.  Nobody cancels the token of an execution that
has simply returned, and an execution whose token is cancelled need not have returned.  So
the map and the executions in progress may drift apart in both directions: slots are lost
for good, and the cap on concurrent executions is exceeded.  The machine below runs the loop
with its executions among the statements of other processes; what one execution does is the
subject of `AxonTask.Execution`, here it is cancelled and returns.
-/

namespace AxonTask

open Lib

/-- What the loop reads of `WorkerOrchestrator`: the cap of its configuration and the names
of the registered adapters. -/
structure Worker where
  maxConcurrentTasks : ℕ := 10
  adapters : List String := ["mock"]

/-- Where the loop stands. -/
inductive LoopPc
  /-- The check for shutdown. -/
  | top
  /-- The computation of `available_slots`. -/
  | slots
  /-- The call of `claim_tasks`. -/
  | claiming (availableSlots : ℕ)
  /-- The dispatch of the claimed tasks, one by one. -/
  | dispatching (tasks : List Task)
  /-- The clean-up of `active_tasks`. -/
  | cleanup
  /-- The wait for `active_tasks` to become empty after a shutdown. -/
  | draining (remaining : ℕ)
  | stopped

/-- The slots are about to be computed. -/
def LoopPc.isSlots : LoopPc → Bool
  | .slots => true
  | _ => false

/-- The clean-up is about to happen. -/
def LoopPc.isCleanup : LoopPc → Bool
  | .cleanup => true
  | _ => false

/-- The clean-up is behind, and the slots are still to be computed. -/
def LoopPc.beforeSlots : LoopPc → Bool
  | .top | .slots => true
  | _ => false

/-- Claimed tasks are being dispatched, or the clean-up after that is about to happen. -/
def LoopPc.inBatch : LoopPc → Bool
  | .dispatching _ | .cleanup => true
  | _ => false

/-- The shutdown has been seen. -/
def LoopPc.shutsDown : LoopPc → Bool
  | .draining _ | .stopped => true
  | _ => false

/-- The loop is at its top. -/
def LoopPc.isTop : LoopPc → Bool
  | .top => true
  | _ => false

/-- The loop has been left. -/
def LoopPc.isStopped : LoopPc → Bool
  | .stopped => true
  | _ => false

lemma LoopPc.isTop_iff {pc : LoopPc} : pc.isTop = true ↔ pc = .top := by cases pc <;> simp [isTop]

lemma LoopPc.isStopped_iff {pc : LoopPc} : pc.isStopped = true ↔ pc = .stopped := by
  cases pc <;> simp [isStopped]

/-- The loop, its map of tokens and its executions, and the table.  The last two fields
record all tasks that the worker has claimed and all that it has spawned. -/
structure Orchestrator where
  tasks : TaskTable
  shutdown : Bool
  loop : LoopPc
  /-- The keys of `active_tasks`. -/
  active : List Uuid
  /-- The tasks whose tokens are cancelled. -/
  cancelled : List Uuid
  /-- The executions in progress. -/
  running : List Uuid
  spawned : List Uuid
  claimed : List Uuid

/-- A step of the loop, of its executions, or of another process. -/
inductive LoopStep
  | other (st : Statement) (now : DateTime)
  | shutdown
  /-- The next step of the loop, but for the claim. -/
  | next (now : DateTime)
  /-- The answer of `claim_tasks`, with the rows that it has locked. -/
  | claim (ids : List Uuid) (now : DateTime)
  | claimFails
  /-- The enforcer or the listener of an execution cancels its token. -/
  | cancel (id : Uuid)
  /-- An execution returns. -/
  | finish (id : Uuid)

/-- The step requests a shutdown. -/
def LoopStep.isShutdown : LoopStep → Bool
  | .shutdown => true
  | _ => false

namespace Orchestrator

variable (w : Worker)

/-- `available_slots`. -/
def availableSlots (s : Orchestrator) : ℕ := w.maxConcurrentTasks - s.active.length

/-- `active_tasks.retain(|_, token| !token.is_cancelled())`. -/
def retain (s : Orchestrator) : List Uuid := s.active.filter fun id => !s.cancelled.contains id

/-- `active_tasks.insert` of a new token. -/
def insertToken (s : Orchestrator) (id : Uuid) : Orchestrator :=
  { s with
    active := s.active.filter (fun id' => id' ≠ id) ++ [id]
    cancelled := s.cancelled.filter fun id' => id' ≠ id }

/-- The table after the mark of a task without an adapter. -/
def markNotFound (T : TaskTable) (task : Task) (now : DateTime) : TaskTable :=
  match TaskQueue.mark (RowOp.markFailed ("Adapter not found: " ++ task.adapter)).update T task.id
      now with
  | .ok T' => T'
  | .error _ => T

/-- `dispatch_task`. -/
def dispatchTask (s : Orchestrator) (task : Task) (now : DateTime) : Orchestrator :=
  if w.adapters.contains task.adapter then
    { s with running := s.running ++ [task.id], spawned := s.spawned ++ [task.id] }
  else { s with tasks := markNotFound s.tasks task now }

/-- A statement creates a row under a given key. -/
def creates (id : Uuid) : Statement → Bool
  | .create _ id' => id' == id
  | _ => false

/-- A step of the loop, of its executions, or of another process. -/
def step (s : Orchestrator) : LoopStep → Option Orchestrator
  | .other st now =>
    -- `gen_random_uuid` does not repeat an id
    if s.claimed.any fun id => creates id st then none
    else (Lifecycle.step s.tasks (st, now)).map fun T => { s with tasks := T }
  | .shutdown => some { s with shutdown := true }
  | .next now =>
    match s.loop with
    | .top =>
      if s.shutdown then some { s with cancelled := s.cancelled ++ s.active, loop := .draining 30 }
      else some { s with loop := .slots }
    | .slots =>
      if availableSlots w s = 0 then some { s with loop := .top }
      else some { s with loop := .claiming (availableSlots w s) }
    | .claiming _ => none
    | .dispatching [] => some { s with loop := .cleanup }
    | .dispatching (task :: tasks) =>
      some { dispatchTask w (insertToken s task.id) task now with loop := .dispatching tasks }
    | .cleanup => some { s with active := retain s, loop := .top }
    | .draining remaining =>
      if s.active.isEmpty || remaining == 0 then some { s with loop := .stopped }
      else some { s with active := retain s, loop := .draining (remaining - 1) }
    | .stopped => none
  | .claim ids now =>
    match s.loop with
    | .claiming availableSlots =>
      if ids.Nodup ∧ ids.length ≤ availableSlots ∧
          ids.all (Lifecycle.isPending s.tasks) = true then
        match TaskQueue.claimTasks s.tasks ids now with
        | .ok (tasks, T) =>
          some
            { s with
              tasks := T
              claimed := s.claimed ++ ids
              loop := if tasks.isEmpty then .top else .dispatching tasks }
        | .error _ => some { s with loop := .top }
      else none
    | _ => none
  | .claimFails =>
    match s.loop with
    | .claiming _ => some { s with loop := .top }
    | _ => none
  | .cancel id =>
    if id ∈ s.spawned then some { s with cancelled := s.cancelled ++ [id] } else none
  | .finish id =>
    if id ∈ s.running then some { s with running := s.running.erase id } else none

/-- A worker starts on some table. -/
structure Starts (s : Orchestrator) : Prop where
  rows : Lifecycle.machine.Reachable Machine.anyStep s.tasks
  loop : s.loop = .top
  active : s.active = []
  cancelled : s.cancelled = []
  running : s.running = []
  spawned : s.spawned = []
  claimed : s.claimed = []

/-- The worker loop. -/
def machine : Machine Orchestrator LoopStep where
  Init := Starts
  step := step w

variable {w} {s s' : Orchestrator}

lemma retain_sublist : (retain s).Sublist s.active := List.filter_sublist

lemma mem_retain {id : Uuid} : id ∈ retain s ↔ id ∈ s.active ∧ id ∉ s.cancelled := by
  simp [retain]

lemma markNotFound_cases (T : TaskTable) (task : Task) (now : DateTime) :
    markNotFound T task now = T ∨
      ∃ op, Lifecycle.step T (.update op task.id, now) = some (markNotFound T task now) := by
  unfold markNotFound
  split
  · rename_i T' hmark
    exact Or.inr ⟨_, Lifecycle.step_of_mark hmark⟩
  · exact Or.inl rfl

/-! ### What a step does -/

variable (w) in
/-- The steps, case by case, with what each of them finds. -/
inductive Effect (s : Orchestrator) : LoopStep → Orchestrator → Prop
  | other {st : Statement} {now : DateTime} {T : TaskTable}
      (step : Lifecycle.step s.tasks (st, now) = some T)
      (new : ∀ id ∈ s.claimed, ∀ data, st ≠ .create data id) :
      Effect s (.other st now) { s with tasks := T }
  | shutdown : Effect s .shutdown { s with shutdown := true }
  | goOn {now : DateTime} (loop : s.loop = .top) (down : s.shutdown = false) :
      Effect s (.next now) { s with loop := .slots }
  | stop {now : DateTime} (loop : s.loop = .top) (down : s.shutdown = true) :
      Effect s (.next now) { s with cancelled := s.cancelled ++ s.active, loop := .draining 30 }
  | full {now : DateTime} (loop : s.loop = .slots) (none : availableSlots w s = 0) :
      Effect s (.next now) { s with loop := .top }
  | free {now : DateTime} (loop : s.loop = .slots) (some : availableSlots w s ≠ 0) :
      Effect s (.next now) { s with loop := .claiming (availableSlots w s) }
  | claim {ids : List Uuid} {now : DateTime} {n : ℕ} {tasks : List Task} {T : TaskTable}
      (loop : s.loop = .claiming n) (nodup : ids.Nodup) (le : ids.length ≤ n)
      (pending : ids.all (Lifecycle.isPending s.tasks) = true)
      (claim : TaskQueue.claimTasks s.tasks ids now = .ok (tasks, T))
      (ids_eq : tasks.map Task.id = ids) :
      Effect s (.claim ids now)
        { s with
          tasks := T
          claimed := s.claimed ++ ids
          loop := if tasks.isEmpty then .top else .dispatching tasks }
  | claimFails {n : ℕ} (loop : s.loop = .claiming n) :
      Effect s .claimFails { s with loop := .top }
  | dispatch {now : DateTime} {task : Task} {tasks : List Task}
      (loop : s.loop = .dispatching (task :: tasks)) :
      Effect s (.next now)
        { dispatchTask w (insertToken s task.id) task now with loop := .dispatching tasks }
  | dispatched {now : DateTime} (loop : s.loop = .dispatching []) :
      Effect s (.next now) { s with loop := .cleanup }
  | cleanup {now : DateTime} (loop : s.loop = .cleanup) :
      Effect s (.next now) { s with active := retain s, loop := .top }
  | drain {now : DateTime} {n : ℕ} (loop : s.loop = .draining n) :
      Effect s (.next now) { s with active := retain s, loop := .draining (n - 1) }
  | drained {now : DateTime} {n : ℕ} (loop : s.loop = .draining n) :
      Effect s (.next now) { s with loop := .stopped }
  | cancel {id : Uuid} : Effect s (.cancel id) { s with cancelled := s.cancelled ++ [id] }
  | finish {id : Uuid} : Effect s (.finish id) { s with running := s.running.erase id }

/-- **Inversion of a step.** -/
lemma effect_of_step {a : LoopStep} (hi : Lifecycle.RowsInv s.tasks)
    (h : step w s a = some s') : Effect w s a s' := by
  cases a with
  | other st now =>
    simp only [step] at h
    split at h
    · cases h
    · rename_i hno
      obtain ⟨T, hT, rfl⟩ := Option.map_eq_some_iff.1 h
      refine .other hT ?_
      rintro id hid data rfl
      exact hno (List.any_eq_true.2 ⟨id, hid, by simp [creates]⟩)
  | shutdown =>
    cases h
    exact .shutdown
  | next now =>
    cases hloop : s.loop with
    | top =>
      simp only [step, hloop] at h
      split at h <;> rename_i hdown <;> cases h
      · exact .stop hloop hdown
      · exact .goOn hloop (by simpa using hdown)
    | slots =>
      simp only [step, hloop] at h
      split at h <;> rename_i hslots <;> cases h
      · exact .full hloop hslots
      · exact .free hloop hslots
    | claiming n => simp [step, hloop] at h
    | dispatching tasks =>
      cases tasks <;> simp only [step, hloop] at h <;> cases h
      · exact .dispatched hloop
      · exact .dispatch hloop
    | cleanup =>
      simp only [step, hloop] at h
      cases h
      exact .cleanup hloop
    | draining n =>
      simp only [step, hloop] at h
      split at h <;> cases h
      · exact .drained hloop
      · exact .drain hloop
    | stopped => simp [step, hloop] at h
  | claim ids now =>
    simp only [step] at h
    split at h
    · rename_i n hloop
      split at h
      · rename_i hguard
        obtain ⟨hnodup, hle, hpending⟩ := hguard
        -- a claim of pending rows is not rejected
        obtain ⟨tasks, T, hclaim, hids⟩ := Lifecycle.exists_claimTasks hi hpending now
        rw [hclaim] at h
        cases h
        exact .claim hloop hnodup hle hpending hclaim hids
      · cases h
    · cases h
  | claimFails =>
    simp only [step] at h
    split at h <;> cases h
    exact .claimFails ‹_›
  | cancel id =>
    simp only [step] at h
    split at h <;> cases h
    exact .cancel
  | finish id =>
    simp only [step] at h
    split at h <;> cases h
    exact .finish

/-- What becomes of the table: a step is a statement or nothing, and creates no task that the
worker has claimed. -/
lemma tasks_step {a : LoopStep} (hi : Lifecycle.RowsInv s.tasks) (h : step w s a = some s') :
    s'.tasks = s.tasks ∨ ∃ st now, Lifecycle.step s.tasks (st, now) = some s'.tasks ∧
      ∀ id ∈ s.claimed, ∀ data, st ≠ .create data id := by
  cases effect_of_step hi h with
  | @other st now T hst hnew => exact Or.inr ⟨st, now, hst, hnew⟩
  | @claim ids now n tasks T _ _ _ hpending hclaim _ =>
    refine Or.inr ⟨.claim ids, now, ?_, by simp⟩
    simp [Lifecycle.step, hpending, hclaim]
  | @dispatch now task tasks _ =>
    unfold dispatchTask
    split
    · exact Or.inl rfl
    · rcases markNotFound_cases s.tasks task now with hsame | ⟨op, hop⟩
      · exact Or.inl hsame
      · exact Or.inr ⟨_, now, hop, by simp⟩
  | shutdown | goOn | stop | full | free | claimFails | dispatched | cleanup | drain | drained
  | cancel | finish => exact Or.inl rfl

lemma rowsInv_step {a : LoopStep} (hi : Lifecycle.RowsInv s.tasks) (h : step w s a = some s') :
    Lifecycle.RowsInv s'.tasks := by
  rcases tasks_step hi h with hsame | ⟨st, now, hst, -⟩
  · rw [hsame]
    exact hi
  · exact hi.step hst

/-- **Refinement.**  The loop runs the statements of the life cycle. -/
theorem tasks_reachable (h : (machine w).Reachable Machine.anyStep s) :
    Lifecycle.machine.Reachable Machine.anyStep s.tasks := by
  refine Machine.Reachable.project Orchestrator.tasks (fun _ => Starts.rows) ?_ h
  intro s a s' _ hT hstep
  rcases tasks_step (Lifecycle.reachable_rowsInv hT) hstep with hsame | ⟨st, now, hst, -⟩
  · exact Or.inl hsame
  · exact Or.inr ⟨(st, now), hst⟩

/-! ### A worker on the empty table -/

/-- A worker on the empty table. -/
def start : Orchestrator where
  tasks := Table.empty Task.schema
  shutdown := false
  loop := .top
  active := []
  cancelled := []
  running := []
  spawned := []
  claimed := []

lemma starts_start : Starts start :=
  ⟨Machine.Reachable.init rfl, rfl, rfl, rfl, rfl, rfl, rfl⟩

/-- The task `id` is created, claimed and dispatched, and `during` happens before the
clean-up. -/
def rounds (id : Uuid) (during : List LoopStep) : List LoopStep :=
  [.other (.create Lifecycle.sampleTask id) 0, .next 1, .next 1, .claim [id] 1, .next 1] ++
    during ++ [.next 2, .next 2]

/-! ### Slots -/

/-- A finished execution leaves `active_tasks` before the slots are computed again: when an
execution returns, its entry is gone or a clean-up is still to come; a claim that skips the
clean-up finds no entry of a finished execution; and the clean-up finds their tokens
cancelled. -/
def Released (s : Orchestrator) : LoopStep → Prop
  | .finish id => id ∈ s.active → s.loop.beforeSlots = false
  | .claim ids _ => ids = [] → ∀ id ∈ s.active, id ∈ s.running
  | .claimFails => ∀ id ∈ s.active, id ∈ s.running
  | .next _ => s.loop.isCleanup = true → ∀ id ∈ s.active, id ∈ s.running ∨ id ∈ s.cancelled
  | _ => True

instance (s : Orchestrator) : ∀ a, Decidable (Released s a)
  | .finish id => inferInstanceAs (Decidable (id ∈ s.active → s.loop.beforeSlots = false))
  | .claim ids _ =>
    decidable_of_iff ((!ids.isEmpty || s.active.all s.running.contains) = true)
      (by cases ids <;> simp [Released])
  | .claimFails =>
    decidable_of_iff (s.active.all s.running.contains = true) (by simp [Released])
  | .next _ =>
    decidable_of_iff ((!s.loop.isCleanup ||
        s.active.all fun id => s.running.contains id || s.cancelled.contains id) = true)
      (by cases h : s.loop.isCleanup <;> simp [Released, h])
  | .other .. | .shutdown | .cancel _ => isTrue trivial

/-- The rows satisfy their invariant, and between the clean-up and the computation of the
slots every entry of `active_tasks` belongs to an execution in progress. -/
structure SlotsInv (s : Orchestrator) : Prop where
  rows : Lifecycle.RowsInv s.tasks
  slots : s.loop.beforeSlots = true → ∀ id ∈ s.active, id ∈ s.running

lemma SlotsInv.step {a : LoopStep} (hC : Released s a) (hi : SlotsInv s)
    (h : step w s a = some s') : SlotsInv s' := by
  refine ⟨rowsInv_step hi.rows h, ?_⟩
  have hslots := hi.slots
  cases effect_of_step hi.rows h with
  | other | shutdown | cancel => exact hslots
  | goOn hloop => exact fun _ => hslots (by rw [hloop]; rfl)
  | full hloop => exact fun _ => hslots (by rw [hloop]; rfl)
  | stop | free | dispatch | dispatched | drain | drained =>
    intro hbefore
    cases hbefore
  | @claim ids now n tasks _ _ _ _ _ _ hids =>
    cases tasks with
    | nil => exact fun _ => hC (by simpa using hids.symm)
    | cons t ts =>
      intro hbefore
      cases hbefore
  | claimFails => exact fun _ => hC
  | cleanup hloop =>
    -- what the clean-up retains is not cancelled, so it has not returned either
    intro _ id hid
    obtain ⟨hactive, hnot⟩ := mem_retain.1 hid
    exact (hC (by rw [hloop]; rfl) id hactive).resolve_right hnot
  | @finish id =>
    intro hbefore id' hid'
    have hne : id' ≠ id := by
      rintro rfl
      have hafter : s.loop.beforeSlots = false := hC hid'
      simp [hafter] at hbefore
    exact (List.mem_erase_of_ne hne).2 (hslots hbefore id' hid')

/-- **When slots are released.**  In every run in which finished executions leave
`active_tasks` in time, the map contains executions in progress only whenever the slots are
computed, and some slot is available when there are none. -/
theorem slots_of_released (w : Worker) {s : Orchestrator}
    (h : (machine w).Reachable Released s) (hloop : s.loop.isSlots = true) :
    (∀ id ∈ s.active, id ∈ s.running) ∧
      (0 < w.maxConcurrentTasks → s.running = [] → availableSlots w s ≠ 0) := by
  have hi : SlotsInv s := by
    refine h.invariant (fun s hs => ⟨Lifecycle.reachable_rowsInv hs.rows, ?_⟩)
      fun _ _ _ hC hi hstep => hi.step hC hstep
    simp [hs.active]
  have hbefore : s.loop.beforeSlots = true := by
    cases hcase : s.loop <;> simp_all [LoopPc.isSlots, LoopPc.beforeSlots]
  have hrunning := hi.slots hbefore
  refine ⟨hrunning, ?_⟩
  intro hpos hnone
  have hnil : s.active = [] := by
    refine List.eq_nil_iff_forall_not_mem.2 ?_
    intro id hid
    have := hrunning id hid
    simp [hnone] at this
  simp only [availableSlots, hnil, List.length_nil]
  omega

/-- The token of an execution is cancelled and the execution returns, both before the
clean-up: all slots are available again. -/
theorem slots_of_released_cancel :
    ∃ s, (machine {}).exec Released start (rounds 1 [.cancel 1, .finish 1] ++ [.next 3]) = some s ∧
      (∀ id ∈ s.active, id ∈ s.running) ∧ availableSlots {} s ≠ 0 := by
  have hrun : ((machine {}).exec Released start
      (rounds 1 [.cancel 1, .finish 1] ++ [.next 3])).map (fun s => (s.loop.isSlots, s.running)) =
      some (true, []) := by decide +kernel
  obtain ⟨s, hs, hobs⟩ := Option.map_eq_some_iff.1 hrun
  simp only [Prod.mk.injEq] at hobs
  have hr := slots_of_released {} ⟨start, _, starts_start, Machine.run_of_exec hs⟩ hobs.1
  exact ⟨s, hs, hr.1, hr.2 (by decide) hobs.2⟩

/-- With a cap of one: the only execution returns, and no slot is available. -/
theorem not_slots_of_return :
    ∃ s, (machine { maxConcurrentTasks := 1 }).Reachable Machine.anyStep s ∧
      s.loop.isSlots = true ∧ s.active = [1] ∧ s.running = [] ∧
      availableSlots { maxConcurrentTasks := 1 } s = 0 := by
  have hrun : ((machine { maxConcurrentTasks := 1 }).exec Machine.anyStep start
      (rounds 1 [] ++ [.other (.update (.markSucceeded (some 0)) 1) 3, .finish 1, .next 3])).map
        (fun s => (s.loop.isSlots, s.active, s.running,
          availableSlots { maxConcurrentTasks := 1 } s)) =
      some (true, [1], [], 0) := by decide +kernel
  obtain ⟨s, hs, hobs⟩ := Option.map_eq_some_iff.1 hrun
  simp only [Prod.mk.injEq] at hobs
  exact ⟨s, ⟨start, _, starts_start, Machine.run_of_exec hs⟩, hobs⟩

/-- **A full worker is stuck.**  When no slot is available, the loop goes back to its top
without a clean-up; so unless it is shut down it never claims another task, whatever becomes
of the executions. -/
theorem stuck_of_full {l : List LoopStep} (hs : (machine w).Reachable Machine.anyStep s)
    (hbefore : s.loop.beforeSlots = true) (hfull : availableSlots w s = 0)
    (hdown : s.shutdown = false)
    (h : (machine w).Run (fun _ a => a.isShutdown = false) s l s') :
    s'.loop.beforeSlots = true ∧ s'.active = s.active := by
  have hrows : Lifecycle.RowsInv s.tasks := by
    refine hs.invariant (P := fun s => Lifecycle.RowsInv s.tasks) ?_
      fun _ _ _ _ hi hstep => rowsInv_step hi hstep
    intro s₀ hs₀
    exact Lifecycle.reachable_rowsInv hs₀.rows
  have hstuck : Lifecycle.RowsInv s'.tasks ∧ s'.loop.beforeSlots = true ∧ s'.active = s.active ∧
      s'.shutdown = false := by
    refine h.preserves (P := fun s' => Lifecycle.RowsInv s'.tasks ∧ s'.loop.beforeSlots = true ∧
      s'.active = s.active ∧ s'.shutdown = false) ?_ ⟨hrows, hbefore, rfl, hdown⟩
    rintro s₁ a s₂ hC ⟨hi, hb, ha, hd⟩ hstep
    have hfull₁ : availableSlots w s₁ = 0 := by
      rw [availableSlots, ha]
      exact hfull
    refine ⟨rowsInv_step hi hstep, ?_⟩
    cases effect_of_step hi hstep with
    | other | cancel | finish => exact ⟨hb, ha, hd⟩
    | shutdown => cases hC
    | goOn | full => exact ⟨rfl, ha, hd⟩
    | stop _ hdown₁ => simp [hd] at hdown₁
    | free _ hsome => exact absurd hfull₁ hsome
    | claim hloop | claimFails hloop | dispatch hloop | dispatched hloop | cleanup hloop
    | drain hloop | drained hloop => simp [hloop, LoopPc.beforeSlots] at hb
  exact ⟨hstuck.2.1, hstuck.2.2.1⟩

/-! ### The cap on concurrent executions -/

/-- The clean-up removes no entry of an execution in progress. -/
def KeepsRunning (s : Orchestrator) : LoopStep → Prop
  | .next _ => s.loop.isCleanup = true → ∀ id ∈ s.active, id ∈ s.cancelled → id ∉ s.running
  | _ => True

instance (s : Orchestrator) : ∀ a, Decidable (KeepsRunning s a)
  | .next _ =>
    decidable_of_iff ((!s.loop.isCleanup ||
        s.active.all fun id => !s.cancelled.contains id || !s.running.contains id) = true)
      (by cases h : s.loop.isCleanup <;> simp [KeepsRunning, h, Classical.or_iff_not_imp_left])
  | .other .. | .shutdown | .claim .. | .claimFails | .cancel _ | .finish _ => isTrue trivial

variable (w) in
/-- The entries of `active_tasks`, with the tasks that are about to be claimed or dispatched,
do not exceed the cap; and the tasks to be dispatched are new. -/
def Room (s : Orchestrator) : LoopPc → Prop
  | .claiming availableSlots => s.active.length + availableSlots ≤ w.maxConcurrentTasks
  | .dispatching tasks =>
    s.active.length + tasks.length ≤ w.maxConcurrentTasks ∧ (tasks.map Task.id).Nodup ∧
      ∀ t ∈ tasks, t.id ∈ s.claimed ∧ t.id ∉ s.active ∧ t.id ∉ s.running
  | _ => s.active.length ≤ w.maxConcurrentTasks

variable (w) in
/-- The invariant of all runs: no task is claimed twice, and `active_tasks` fits the cap. -/
structure Inv (s : Orchestrator) : Prop where
  rows : Lifecycle.RowsInv s.tasks
  fresh : ∀ id ∈ s.claimed, Task.rowState s.tasks id ≠ some .pending
  active_nodup : s.active.Nodup
  active_sub : ∀ id ∈ s.active, id ∈ s.claimed
  running_nodup : s.running.Nodup
  running_sub : ∀ id ∈ s.running, id ∈ s.claimed
  room : Room w s s.loop

lemma fresh_step {a : LoopStep} (hi : Inv w s) (h : step w s a = some s') :
    ∀ id ∈ s.claimed, Task.rowState s'.tasks id ≠ some .pending := by
  intro id hid
  rcases tasks_step hi.rows h with hsame | ⟨st, now, hst, hnew⟩
  · rw [hsame]
    exact hi.fresh id hid
  · exact Lifecycle.rowState_ne_pending_of_step hi.rows hst (hnew id hid) (hi.fresh id hid)

lemma Starts.inv (h : Starts s) : Inv w s where
  rows := Lifecycle.reachable_rowsInv h.rows
  fresh := by simp [h.claimed]
  active_nodup := by simp [h.active]
  active_sub := by simp [h.active]
  running_nodup := by simp [h.running]
  running_sub := by simp [h.running]
  room := by simp [Room, h.loop, h.active]

/-- The rows of claimed tasks are running. -/
lemma rowState_of_claimTasks {T T' : TaskTable} {ids : List Uuid} {now : DateTime}
    {ts : List Task} (h : TaskQueue.claimTasks T ids now = .ok (ts, T')) {id : Uuid}
    (hid : id ∈ ids) : Task.rowState T' id ≠ some .pending := by
  rw [Task.rowState, TaskQueue.row_claimTasks h, if_pos hid, Option.map_map]
  cases T.row id <;> simp [TaskQueue.claimUpdate]

/-- The clean-up and the drain only shrink `active_tasks`. -/
lemma Inv.retain {pc : LoopPc} (hi : Inv w s) (hlen : s.active.length ≤ w.maxConcurrentTasks)
    (hpc : pc.shutsDown = true ∨ pc = .top) :
    Inv w { s with active := retain s, loop := pc } := by
  have hroom : (Orchestrator.retain s).length ≤ w.maxConcurrentTasks :=
    retain_sublist.length_le.trans hlen
  refine { hi with
    active_nodup := hi.active_nodup.sublist retain_sublist
    active_sub := fun id hid => hi.active_sub id (mem_retain.1 hid).1
    room := ?_ }
  rcases hpc with hpc | rfl
  · cases pc with
    | draining | stopped => exact hroom
    | top | slots | claiming | dispatching | cleanup => cases hpc
  · exact hroom

/-- The map always fits the cap. -/
lemma Inv.active_le (hi : Inv w s) : s.active.length ≤ w.maxConcurrentTasks := by
  have hroom := hi.room
  cases hloop : s.loop with
  | claiming n => rw [hloop] at hroom; exact Nat.le_of_add_right_le hroom
  | dispatching ts => rw [hloop] at hroom; exact Nat.le_of_add_right_le hroom.1
  | top | slots | cleanup | draining | stopped => rw [hloop] at hroom; exact hroom

/-- What the dispatch of a new task does to the map and the executions. -/
lemma dispatch_cases {t : Task} {now : DateTime} (hnew : t.id ∉ s.active) :
    (dispatchTask w (insertToken s t.id) t now).claimed = s.claimed ∧
      (dispatchTask w (insertToken s t.id) t now).active = s.active ++ [t.id] ∧
      ((dispatchTask w (insertToken s t.id) t now).running = s.running ++ [t.id] ∨
        (dispatchTask w (insertToken s t.id) t now).running = s.running) := by
  -- `insert` replaces no entry
  have hfilter : s.active.filter (fun id => id ≠ t.id) = s.active := by
    refine List.filter_eq_self.2 ?_
    intro id hid
    simpa using fun heq : id = t.id => hnew (heq ▸ hid)
  unfold dispatchTask insertToken
  split
  · exact ⟨rfl, by simp only [hfilter], Or.inl rfl⟩
  · exact ⟨rfl, by simp only [hfilter], Or.inr rfl⟩

/-- The dispatch of one task. -/
lemma Inv.dispatch {t : Task} {ts : List Task} {now : DateTime} (hi : Inv w s)
    (hloop : s.loop = .dispatching (t :: ts))
    (hs' : s' = { dispatchTask w (insertToken s t.id) t now with loop := .dispatching ts })
    (hrows : Lifecycle.RowsInv s'.tasks)
    (hfresh : ∀ id ∈ s.claimed, Task.rowState s'.tasks id ≠ some .pending) : Inv w s' := by
  have hroom := hi.room
  rw [hloop] at hroom
  obtain ⟨hlen, hnodup, hnew⟩ := hroom
  obtain ⟨hclaimed, hactive, hrunning⟩ := hnew t (by simp)
  rw [List.map_cons, List.nodup_cons] at hnodup
  have hloop' : s'.loop = .dispatching ts := by rw [hs']
  obtain ⟨hclaimed', hactive', hrunning'⟩ : s'.claimed = s.claimed ∧
      s'.active = s.active ++ [t.id] ∧
      (s'.running = s.running ++ [t.id] ∨ s'.running = s.running) := by
    rw [hs']
    exact dispatch_cases hactive
  have hmem : ∀ id ∈ s'.running, id ∈ s.running ∨ id = t.id := by
    rcases hrunning' with hr | hr
    · simp [hr]
    · exact fun id hid => Or.inl (hr ▸ hid)
  exact
    { rows := hrows
      fresh := by
        rw [hclaimed']
        exact hfresh
      active_nodup := by
        rw [hactive', ← List.concat_eq_append]
        exact hi.active_nodup.concat hactive
      active_sub := by
        intro id hid
        rw [hactive', List.mem_append, List.mem_singleton] at hid
        rw [hclaimed']
        exact hid.elim (hi.active_sub id) fun heq => heq ▸ hclaimed
      running_nodup := by
        rcases hrunning' with hr | hr
        · rw [hr, ← List.concat_eq_append]
          exact hi.running_nodup.concat hrunning
        · rw [hr]
          exact hi.running_nodup
      running_sub := by
        intro id hid
        rw [hclaimed']
        exact (hmem id hid).elim (hi.running_sub id) fun heq => heq ▸ hclaimed
      room := by
        rw [hloop']
        refine ⟨?_, hnodup.2, ?_⟩
        · rw [hactive', List.length_append, List.length_singleton]
          rw [List.length_cons] at hlen
          omega
        · intro t' ht'
          obtain ⟨hc, ha, hr⟩ := hnew t' (by simp [ht'])
          have hne : t'.id ≠ t.id := fun heq => hnodup.1 (heq ▸ List.mem_map_of_mem ht')
          rw [hclaimed', hactive', List.mem_append, List.mem_singleton, not_or]
          exact ⟨hc, ⟨ha, hne⟩, fun hid => (hmem _ hid).elim hr hne⟩ }

/-- The claim of new tasks. -/
lemma Inv.claim {ids : List Uuid} {now : DateTime} {n : ℕ} {ts : List Task} {T : TaskTable}
    (hi : Inv w s) (hloop : s.loop = .claiming n) (hnodup : ids.Nodup) (hlen : ids.length ≤ n)
    (hpending : ids.all (Lifecycle.isPending s.tasks) = true)
    (hclaim : TaskQueue.claimTasks s.tasks ids now = .ok (ts, T)) (hts : ts.map Task.id = ids)
    (hrows : Lifecycle.RowsInv T)
    (hfresh : ∀ id ∈ s.claimed, Task.rowState T id ≠ some .pending) :
    Inv w
      { s with
        tasks := T
        claimed := s.claimed ++ ids
        loop := if ts.isEmpty then .top else .dispatching ts } := by
  have hroom := hi.room
  rw [hloop] at hroom
  -- a pending task has not been claimed before
  have hnew : ∀ id ∈ ids, id ∉ s.claimed := by
    intro id hid hc
    obtain ⟨t, ht, hstate⟩ := Lifecycle.isPending_iff.1 (List.all_eq_true.1 hpending id hid)
    exact hi.fresh id hc (Task.rowState_eq_some_iff.2 ⟨t, ht, hstate⟩)
  refine { hi with
    rows := hrows, fresh := ?_
    active_sub := fun id hid => List.mem_append_left _ (hi.active_sub id hid)
    running_sub := fun id hid => List.mem_append_left _ (hi.running_sub id hid)
    room := ?_ }
  · intro id hid
    rcases List.mem_append.1 hid with hid | hid
    · exact hfresh id hid
    · exact rowState_of_claimTasks hclaim hid
  · cases ts with
    | nil => exact hi.active_le
    | cons t ts =>
      have hlen' : (t :: ts).length = ids.length := by rw [← hts, List.length_map]
      refine ⟨?_, hts ▸ hnodup, ?_⟩
      · have hle : s.active.length + n ≤ w.maxConcurrentTasks := hroom
        simp only
        omega
      · intro t' ht'
        have hid : t'.id ∈ ids := hts ▸ List.mem_map_of_mem ht'
        exact ⟨List.mem_append_right _ hid, fun ha => hnew _ hid (hi.active_sub _ ha),
          fun hr => hnew _ hid (hi.running_sub _ hr)⟩

/-- An execution returns. -/
lemma Inv.finish {id : Uuid} (hi : Inv w s) :
    Inv w { s with running := s.running.erase id } := by
  have hroom := hi.room
  refine { hi with
    running_nodup := hi.running_nodup.erase id
    running_sub := fun id' hid' => hi.running_sub id' (List.mem_of_mem_erase hid')
    room := ?_ }
  cases hloop : s.loop with
  | dispatching ts =>
    rw [hloop] at hroom
    refine ⟨hroom.1, hroom.2.1, ?_⟩
    intro t ht
    obtain ⟨hc, ha, hr⟩ := hroom.2.2 t ht
    exact ⟨hc, ha, fun hid => hr (List.mem_of_mem_erase hid)⟩
  | top | slots | claiming | cleanup | draining | stopped => rw [hloop] at hroom; exact hroom

/-- A step keeps the invariant. -/
lemma Inv.step {a : LoopStep} (hi : Inv w s) (h : step w s a = some s') : Inv w s' := by
  have hrows := rowsInv_step hi.rows h
  have hfresh := fresh_step hi h
  have hle := hi.active_le
  cases effect_of_step hi.rows h with
  | other => exact { hi with rows := hrows, fresh := hfresh }
  | shutdown | cancel => exact { hi with }
  | goOn | full | stop | claimFails | dispatched | drained => exact { hi with room := hle }
  | free =>
    refine { hi with room := ?_ }
    simp only [Room, availableSlots]
    omega
  | claim hloop hnodup hlen hpending hclaim hids =>
    exact hi.claim hloop hnodup hlen hpending hclaim hids hrows hfresh
  | dispatch hloop => exact hi.dispatch hloop rfl hrows hfresh
  | cleanup => exact hi.retain hle (Or.inr rfl)
  | drain => exact hi.retain hle (Or.inl rfl)
  | finish => exact hi.finish

/-- **What a step does to the map and the executions.**  It leaves both, dispatches a new
task, removes the entries with cancelled tokens, or ends an execution. -/
lemma active_running_cases {a : LoopStep} (hi : Inv w s) (h : step w s a = some s') :
    (s'.active = s.active ∧ s'.running = s.running ∧
      (s.loop.shutsDown = true → s'.loop.shutsDown = true)) ∨
    (s.loop.shutsDown = false ∧ s'.loop.shutsDown = false ∧
      ∃ t : Task, t.id ∉ s.active ∧ t.id ∉ s.running ∧ s'.active = s.active ++ [t.id] ∧
      (s'.running = s.running ++ [t.id] ∨ s'.running = s.running)) ∨
    (s'.active = Orchestrator.retain s ∧ s'.running = s.running ∧
      ((∃ now, a = .next now) ∧ s.loop.isCleanup = true ∨ s'.loop.shutsDown = true)) ∨
    ∃ id, s'.active = s.active ∧ s'.running = s.running.erase id ∧ s'.loop = s.loop := by
  cases effect_of_step hi.rows h with
  | other | shutdown | cancel => exact Or.inl ⟨rfl, rfl, id⟩
  | goOn hloop | full hloop | free hloop | claim hloop | claimFails hloop | dispatched hloop =>
    exact Or.inl ⟨rfl, rfl, fun hdown => by simp [hloop, LoopPc.shutsDown] at hdown⟩
  | stop | drained => exact Or.inl ⟨rfl, rfl, fun _ => rfl⟩
  | @dispatch now t ts hloop =>
    have hroom := hi.room
    rw [hloop] at hroom
    obtain ⟨-, hactive, hrunning⟩ := hroom.2.2 t (by simp)
    obtain ⟨-, hactive', hrunning'⟩ := dispatch_cases hactive
    refine Or.inr (Or.inl ⟨by rw [hloop]; rfl, rfl, t, hactive, hrunning, hactive', hrunning'⟩)
  | @cleanup now hloop =>
    exact Or.inr (Or.inr (Or.inl ⟨rfl, rfl, Or.inl ⟨⟨now, rfl⟩, by rw [hloop]; rfl⟩⟩))
  | drain => exact Or.inr (Or.inr (Or.inl ⟨rfl, rfl, Or.inr rfl⟩))
  | @finish id => exact Or.inr (Or.inr (Or.inr ⟨id, rfl, rfl, rfl⟩))

variable (w) in
/-- The invariant of the runs whose clean-ups keep the executions in progress: until the
shutdown, each of them has an entry in `active_tasks`. -/
structure CapInv (s : Orchestrator) : Prop where
  inv : Inv w s
  covered : s.loop.shutsDown = false → ∀ id ∈ s.running, id ∈ s.active
  cap : s.running.length ≤ w.maxConcurrentTasks

/-- Executions that are covered by the map fit the cap. -/
lemma Inv.cap (hi : Inv w s) (hcov : ∀ id ∈ s.running, id ∈ s.active) :
    s.running.length ≤ w.maxConcurrentTasks :=
  (List.subperm_of_subset hi.running_nodup hcov).length_le.trans hi.active_le

lemma CapInv.step {a : LoopStep} (hC : KeepsRunning s a) (hi : CapInv w s)
    (h : step w s a = some s') : CapInv w s' := by
  have hinv := hi.inv.step h
  have hcov : s'.loop.shutsDown = false → ∀ id ∈ s'.running, id ∈ s'.active := by
    intro hdown
    rcases active_running_cases hi.inv h with ⟨ha, hr, hback⟩ | ⟨hs, -, t, -, -, ha, hr⟩ |
      ⟨ha, hr, ⟨⟨now, rfl⟩, hclean⟩ | hback⟩ | ⟨id', ha, hr, hloop⟩
    · have hs : s.loop.shutsDown = false := by
        cases hcase : s.loop.shutsDown with
        | false => rfl
        | true => exact absurd (hback hcase) (by simp [hdown])
      rw [ha, hr]
      exact hi.covered hs
    · intro id hid
      rw [ha, List.mem_append, List.mem_singleton]
      rcases hr with hr | hr
      · rw [hr, List.mem_append, List.mem_singleton] at hid
        exact hid.imp_left (hi.covered hs id)
      · exact Or.inl (hi.covered hs id (hr ▸ hid))
    · intro id hid
      have hs : s.loop.shutsDown = false := by
        cases hcase : s.loop <;> simp_all [LoopPc.isCleanup, LoopPc.shutsDown]
      rw [hr] at hid
      rw [ha]
      have hactive := hi.covered hs id hid
      exact mem_retain.2 ⟨hactive, fun hc => hC hclean id hactive hc hid⟩
    · simp [hback] at hdown
    · intro id hid
      rw [hr] at hid
      rw [ha]
      exact hi.covered (hloop ▸ hdown) id (List.mem_of_mem_erase hid)
  refine ⟨hinv, hcov, ?_⟩
  cases hdown : s'.loop.shutsDown with
  | false => exact hinv.cap (hcov hdown)
  | true =>
    -- once the shutdown is seen, nothing is spawned any more
    refine Nat.le_trans ?_ hi.cap
    rcases active_running_cases hi.inv h with ⟨-, hr, -⟩ | ⟨-, hs', -⟩ | ⟨-, hr, -⟩ |
      ⟨id, -, hr, -⟩
    · rw [hr]
    · simp [hs'] at hdown
    · rw [hr]
    · rw [hr]
      exact List.erase_sublist.length_le

/-- **When the cap holds.**  In every run whose clean-ups remove no entry of an execution
in progress, the executions in progress never exceed the cap. -/
theorem running_le_maxConcurrentTasks (w : Worker) {s : Orchestrator}
    (h : (machine w).Reachable KeepsRunning s) : s.running.length ≤ w.maxConcurrentTasks := by
  have hi : CapInv w s := by
    refine h.invariant (fun s hs => ⟨hs.inv, ?_, ?_⟩) fun _ _ _ hC hi hstep => hi.step hC hstep
    · simp [hs.running]
    · simp [hs.running]
  exact hi.cap

/-- Two executions in progress, with their entries. -/
theorem running_le_maxConcurrentTasks_twoTasks :
    ∃ s, (machine { maxConcurrentTasks := 2 }).exec KeepsRunning start
        (rounds 1 [] ++ rounds 2 []) = some s ∧ s.running = [1, 2] ∧ s.running.length ≤ 2 := by
  have hrun : ((machine { maxConcurrentTasks := 2 }).exec KeepsRunning start
      (rounds 1 [] ++ rounds 2 [])).map running = some [1, 2] := by
    decide +kernel
  obtain ⟨s, hs, hobs⟩ := Option.map_eq_some_iff.1 hrun
  exact ⟨s, hs, hobs,
    running_le_maxConcurrentTasks _ ⟨start, _, starts_start, Machine.run_of_exec hs⟩⟩

/-- With a cap of two: a cancelled execution loses its entry while it still runs, and two
more are spawned. -/
theorem not_running_le_of_cancel :
    ∃ s, (machine { maxConcurrentTasks := 2 }).Reachable Machine.anyStep s ∧
      2 < s.running.length := by
  have hrun : ((machine { maxConcurrentTasks := 2 }).exec Machine.anyStep start
      (rounds 1 [] ++ rounds 2 [.cancel 1] ++ rounds 3 [])).map running = some [1, 2, 3] := by
    decide +kernel
  obtain ⟨s, hs, hobs⟩ := Option.map_eq_some_iff.1 hrun
  exact ⟨s, ⟨start, _, starts_start, Machine.run_of_exec hs⟩, by rw [hobs]; decide⟩

/-! ### Which runs release their slots -/

variable (w) in
/-- Before the shutdown an execution returns with its token cancelled, while claimed tasks are
dispatched or cleaned up; and no task without an adapter is dispatched. -/
def ReturnsCancelled (s : Orchestrator) : LoopStep → Prop
  | .finish id => s.loop.shutsDown = false → id ∈ s.active →
      id ∈ s.cancelled ∧ s.loop.inBatch = true
  | .next _ => ∀ task tasks, s.loop = .dispatching (task :: tasks) → task.adapter ∈ w.adapters
  | _ => True

/-- Before the shutdown, the entry of an execution that has returned is only there until the next
clean-up, which will remove it. -/
structure LeavesInTime (s : Orchestrator) : Prop where
  rows : Lifecycle.RowsInv s.tasks
  returned : s.loop.shutsDown = false → ∀ id ∈ s.active, id ∉ s.running →
    id ∈ s.cancelled ∧ s.loop.inBatch = true

/-- Outside a batch, every entry belongs to an execution in progress. -/
lemma LeavesInTime.running (hi : LeavesInTime s) (hdown : s.loop.shutsDown = false)
    (hbatch : s.loop.inBatch = false) : ∀ id ∈ s.active, id ∈ s.running := by
  intro id hid
  by_contra hnot
  have := (hi.returned hdown id hid hnot).2
  simp [hbatch] at this

lemma LeavesInTime.step {a : LoopStep} (hC : ReturnsCancelled w s a) (hi : LeavesInTime s)
    (h : step w s a = some s') : LeavesInTime s' := by
  refine ⟨rowsInv_step hi.rows h, ?_⟩
  have hreturned := hi.returned
  cases effect_of_step hi.rows h with
  | other | shutdown => exact hreturned
  | goOn hloop | full hloop | free hloop | claim hloop | claimFails hloop =>
    intro _ id hid hnot
    exact absurd (hi.running (by rw [hloop]; rfl) (by rw [hloop]; rfl) id hid) hnot
  | stop | drain | drained =>
    intro hdown
    cases hdown
  | @dispatch now task tasks hloop =>
    intro _ id hid hnot
    have hadapter : w.adapters.contains task.adapter = true := by simpa using hC task tasks hloop
    simp only [dispatchTask, if_pos hadapter, insertToken, List.mem_append, List.mem_singleton,
      not_or, List.mem_filter, decide_not, Bool.not_eq_true', decide_eq_false_iff_not] at hid hnot ⊢
    obtain ⟨hactive, hne⟩ := hid.resolve_right hnot.2
    obtain ⟨hcancelled, -⟩ := hreturned (by rw [hloop]; rfl) id hactive hnot.1
    exact ⟨⟨hcancelled, hne⟩, rfl⟩
  | dispatched hloop =>
    intro _ id hid hnot
    exact ⟨(hreturned (by rw [hloop]; rfl) id hid hnot).1, rfl⟩
  | cleanup hloop =>
    intro _ id hid hnot
    obtain ⟨hactive, hkept⟩ := mem_retain.1 hid
    exact absurd (hreturned (by rw [hloop]; rfl) id hactive hnot).1 hkept
  | cancel =>
    intro hdown id hid hnot
    obtain ⟨hcancelled, hbatch⟩ := hreturned hdown id hid hnot
    exact ⟨List.mem_append_left _ hcancelled, hbatch⟩
  | @finish id =>
    intro hdown id' hid' hnot
    by_cases hne : id' = id
    · subst hne
      exact hC hdown hid'
    · exact hreturned hdown id' hid' fun hr => hnot ((List.mem_erase_of_ne hne).2 hr)

/-- **Runs that release their slots.**  When executions return only with their tokens cancelled
and between a claim and its clean-up, and every dispatched task has an adapter, finished
executions leave `active_tasks` in time. -/
theorem reachable_released (h : (machine w).Reachable (ReturnsCancelled w) s) :
    (machine w).Reachable Released s := by
  refine h.of_invariant (P := LeavesInTime) ?_ ?_
  · intro s hs
    exact ⟨Lifecycle.reachable_rowsInv hs.rows, by simp [hs.active]⟩
  intro s a s' hC hi hstep
  refine ⟨?_, hi.step hC hstep⟩
  cases effect_of_step hi.rows hstep with
  | other | shutdown | cancel => exact trivial
  | goOn hloop | stop hloop | full hloop | free hloop | dispatch hloop | dispatched hloop
  | drain hloop | drained hloop =>
    intro hclean
    simp [hloop, LoopPc.isCleanup] at hclean
  | cleanup hloop =>
    intro _ id hid
    by_contra hnot
    obtain ⟨hrunning, hcancelled⟩ := not_or.1 hnot
    exact hcancelled (hi.returned (by rw [hloop]; rfl) id hid hrunning).1
  | claim hloop => exact fun _ => hi.running (by rw [hloop]; rfl) (by rw [hloop]; rfl)
  | claimFails hloop => exact hi.running (by rw [hloop]; rfl) (by rw [hloop]; rfl)
  | finish =>
    intro hactive
    cases hloop : s.loop with
    | top | slots =>
      have hbatch := (hC (by rw [hloop]; rfl) hactive).2
      simp [hloop, LoopPc.inBatch] at hbatch
    | claiming | dispatching | cleanup | draining | stopped => rfl

/-- When no shutdown has been requested, the loop goes from its top to the computation of the
slots. -/
lemma exists_slots (hbefore : s.loop.beforeSlots = true) (hdown : s.shutdown = false) :
    ∃ l s', (machine w).Run Machine.anyStep s l s' ∧ s'.loop.isSlots = true ∧
      s'.active = s.active ∧ s'.running = s.running := by
  cases hloop : s.loop with
  | top =>
    have hstep : (machine w).step s (.next 0) = some { s with loop := .slots } := by
      simp [machine, step, hloop, hdown]
    exact ⟨_, _, Machine.Run.single trivial hstep, rfl, rfl, rfl⟩
  | slots => exact ⟨[], s, Machine.Run.nil s, by rw [hloop]; rfl, rfl, rfl⟩
  | claiming | dispatching | cleanup | draining | stopped =>
    simp [hloop, LoopPc.beforeSlots] at hbefore

/-- **And no others, short of a shutdown.**  After a step that does not meet the condition, the
slots may be computed while the map has an entry of an execution that is not in progress. -/
theorem exists_stale_of_not_released {a : LoopStep} (hs : (machine w).Reachable Machine.anyStep s)
    (h : (machine w).step s a = some s') (hC : ¬ Released s a) (hdown : s'.shutdown = false) :
    ∃ l s'', (machine w).Run Machine.anyStep s' l s'' ∧ s''.loop.isSlots = true ∧
      ∃ id ∈ s''.active, id ∉ s''.running := by
  have hi : Inv w s := hs.invariant (fun _ => Starts.inv) fun _ _ _ _ hi hstep => hi.step hstep
  have hstale : s'.loop.beforeSlots = true ∧ ∃ id ∈ s'.active, id ∉ s'.running := by
    cases effect_of_step hi.rows h with
    | other | shutdown | cancel => exact absurd trivial hC
    | goOn hloop | stop hloop | full hloop | free hloop | dispatch hloop | dispatched hloop
    | drain hloop | drained hloop => exact absurd (by simp [Released, hloop, LoopPc.isCleanup]) hC
    | @claim ids now n tasks _ _ _ _ _ _ hids =>
      simp only [Released, Classical.not_imp, not_forall] at hC
      obtain ⟨rfl, id, hid, hnot⟩ := hC
      obtain rfl : tasks = [] := by simpa using hids
      exact ⟨rfl, id, hid, hnot⟩
    | claimFails =>
      simp only [Released, not_forall] at hC
      obtain ⟨id, hid, hnot⟩ := hC
      exact ⟨rfl, id, hid, hnot⟩
    | cleanup =>
      simp only [Released, Classical.not_imp, not_forall, not_or] at hC
      obtain ⟨-, id, hid, hnot, hkept⟩ := hC
      exact ⟨rfl, id, mem_retain.2 ⟨hid, hkept⟩, hnot⟩
    | @finish id =>
      simp only [Released, Classical.not_imp, Bool.not_eq_false] at hC
      exact ⟨hC.2, id, hC.1, fun hid => hi.running_nodup.not_mem_erase hid⟩
  obtain ⟨hbefore, id, hid, hnot⟩ := hstale
  obtain ⟨l, s'', hrun, hslots, hactive, hrunning⟩ := exists_slots (w := w) hbefore hdown
  exact ⟨l, s'', hrun, hslots, id, hactive ▸ hid, hrunning ▸ hnot⟩

end Orchestrator

end AxonTask
