import AxonTask.Lib.Handover
import AxonTask.Worker.LostReply

/-!
# Several workers on one table (`axontask-worker/src/orchestrator.rs`, `queue.rs`)

Any number of workers run their loops against the table `tasks`.  Replies of claims may be
lost, and a worker may crash and be started again; its map, its executions and the tasks that
it was about to dispatch are gone with it.

A claimed task is in one place: it has been dispatched, or one worker is about to dispatch it,
or it has been dropped by a lost reply or a crash (`Inv`).  So no task is ever dispatched
twice, and a dropped one never is, since nothing makes its row pending again.
-/

namespace AxonTask

open Lib

/-! ### What one loop takes and gives -/

namespace Orchestrator

variable {w : Worker} {s s' : Orchestrator}

/-- **What a step hands over.**  A claim takes new tasks, which are pending no more; what is
dispatched comes from the front of the claimed tasks; and only that is executed. -/
lemma handover_of_step {a : LoopStep} (hi : Lifecycle.RowsInv s.tasks)
    (h : step w s a = some s') :
    ∃ ids, s'.claimed = s.claimed ++ ids ∧ ids.Nodup ∧
      ids.all (Lifecycle.isPending s.tasks) = true ∧
      (∀ id ∈ ids, Task.rowState s'.tasks id ≠ some .pending) ∧
      s.loop.toDispatch ++ ids = s.dispatchedBy a ++ s'.loop.toDispatch ∧
      s'.running.Sublist (s.running ++ s.dispatchedBy a) := by
  cases effect_of_step hi h with
  | @claim ids now n tasks T hloop hnodup _ hpending hclaim hids =>
    refine ⟨ids, rfl, hnodup, hpending, fun id hid => rowState_of_claimTasks hclaim hid, ?_, ?_⟩
    · cases tasks with
      | nil =>
        obtain rfl : ids = [] := by simpa using hids.symm
        simp [dispatchedBy, hloop, LoopPc.toDispatch]
      | cons t ts => simpa [dispatchedBy, hloop, LoopPc.toDispatch] using hids.symm
    · simp [dispatchedBy]
  | @dispatch now task tasks hloop =>
    have hby : s.dispatchedBy (.next now) = [task.id] := by
      simp [dispatchedBy, hloop, LoopPc.toDispatch]
    refine ⟨[], ?_, List.nodup_nil, rfl, by simp, ?_, ?_⟩
    · unfold dispatchTask
      split <;> simp [insertToken]
    · simp [hby, hloop, LoopPc.toDispatch]
    · rw [hby]
      unfold dispatchTask
      split
      · exact List.Sublist.refl _
      · exact List.sublist_append_left _ _
  | finish =>
    refine ⟨[], by simp, List.nodup_nil, rfl, by simp, by simp [dispatchedBy], ?_⟩
    simpa [dispatchedBy] using List.erase_sublist
  | other | shutdown | cancel =>
    exact ⟨[], by simp, List.nodup_nil, rfl, by simp, by simp [dispatchedBy],
      by simp [dispatchedBy]⟩
  | goOn hloop | stop hloop | full hloop | free hloop | claimFails hloop | dispatched hloop
  | cleanup hloop | drain hloop | drained hloop =>
    exact ⟨[], by simp, List.nodup_nil, rfl, by simp,
      by simp [dispatchedBy, hloop, LoopPc.toDispatch], by simp [dispatchedBy]⟩

end Orchestrator

/-! ### The fleet -/

/-- The table, the workers on it, and what they have done. -/
structure Fleet (κ : Type*) where
  tasks : TaskTable
  /-- The loops; they all work on `tasks`, and the table in here is the one that they saw
  last. -/
  workers : κ → Orchestrator
  /-- The tasks that were passed to `dispatch_task`, by any worker. -/
  dispatched : List Uuid
  /-- The rows that claims have moved from `pending` to `running`. -/
  moved : List Uuid

/-- What happens next. -/
inductive FleetStep (κ : Type*)
  /-- A step of a worker, or a statement of another process that it sees. -/
  | loop (k : κ) (a : LoopStep)
  /-- The claim of the rows `ids` is committed, and its reply to a worker is lost. -/
  | replyLost (k : κ) (ids : List Uuid) (now : DateTime)
  /-- A worker crashes and is started again. -/
  | crash (k : κ)

namespace Fleet

variable {κ : Type*}

/-- A worker with the table as it is. -/
def view (s : Fleet κ) (k : κ) : Orchestrator := { s.workers k with tasks := s.tasks }

/-- The tasks that a worker is about to dispatch. -/
def queued (s : Fleet κ) (k : κ) : List Uuid := (s.workers k).loop.toDispatch

/-- The executions in progress on a worker. -/
def running (s : Fleet κ) (k : κ) : List Uuid := (s.workers k).running

variable [DecidableEq κ] (w : κ → Worker)

/-- The state after a step. -/
def step (s : Fleet κ) : FleetStep κ → Option (Fleet κ)
  | .loop k a =>
    -- `gen_random_uuid` does not repeat an id
    if s.moved.any fun id => a.creates id then none
    else (Orchestrator.step (w k) (s.view k) a).map fun o =>
      { tasks := o.tasks
        workers := Function.update s.workers k o
        dispatched := s.dispatched ++ (s.view k).dispatchedBy a
        moved := s.moved ++ o.claimed.drop (s.workers k).claimed.length }
  | .replyLost k ids now =>
    match (s.workers k).loop with
    | .claiming availableSlots =>
      if ids.Nodup ∧ ids.length ≤ availableSlots ∧
          ids.all (Lifecycle.isPending s.tasks) = true then
        match TaskQueue.claimTasks s.tasks ids now with
        | .ok (_, T) =>
          some { s with
            tasks := T
            workers := Function.update s.workers k { s.workers k with loop := .top }
            moved := s.moved ++ ids }
        | .error _ => none
      else none
    | _ => none
  | .crash k => some { s with workers := Function.update s.workers k Orchestrator.start }

/-- Workers that have just been started, on some table. -/
structure Begins (s : Fleet κ) : Prop where
  rows : Lifecycle.machine.Reachable Machine.anyStep s.tasks
  workers : ∀ k, s.workers k = Orchestrator.start
  dispatched : s.dispatched = []
  moved : s.moved = []

/-- The runs of the workers. -/
def machine : Machine (Fleet κ) (FleetStep κ) where
  Init := Begins
  step := step w

/-! ### The invariant -/

/-- A row that was moved is pending no more; the tasks that have been dispatched and those
that some worker is about to dispatch are apart, and so are the executions of the workers. -/
structure Inv (s : Fleet κ) : Prop where
  rows : Lifecycle.RowsInv s.tasks
  fresh : ∀ id ∈ s.moved, Task.rowState s.tasks id ≠ some .pending
  queued : Apart s.dispatched s.queued
  dispatched_sub : ∀ id ∈ s.dispatched, id ∈ s.moved
  queued_sub : ∀ k, ∀ id ∈ s.queued k, id ∈ s.moved
  running : Apart [] s.running
  running_sub : ∀ k, ∀ id ∈ s.running k, id ∈ s.dispatched

variable {w} {s s' : Fleet κ} {k : κ}

omit [DecidableEq κ] in
lemma Begins.inv (h : Begins s) : Inv s where
  rows := Lifecycle.reachable_rowsInv h.rows
  fresh := by simp [h.moved]
  queued := by
    rw [h.dispatched]
    exact Apart.empty fun k => by rw [Fleet.queued, h.workers k]; rfl
  dispatched_sub := by simp [h.dispatched]
  queued_sub := by simp [Fleet.queued, h.workers, Orchestrator.start, LoopPc.toDispatch]
  running := Apart.empty fun k => by rw [Fleet.running, h.workers k]; rfl
  running_sub := by simp [Fleet.running, h.workers, Orchestrator.start]

lemma queued_of_update {o : Orchestrator} (h : s'.workers = Function.update s.workers k o) :
    s'.queued = Function.update s.queued k o.loop.toDispatch := by
  funext k'
  rw [queued, h]
  exact congrFun (Function.comp_update (fun o : Orchestrator => o.loop.toDispatch) s.workers k o) k'

lemma running_of_update {o : Orchestrator} (h : s'.workers = Function.update s.workers k o) :
    s'.running = Function.update s.running k o.running := by
  funext k'
  rw [running, h]
  exact congrFun (Function.comp_update Orchestrator.running s.workers k o) k'

omit [DecidableEq κ] in
/-- A pending row has not been moved. -/
lemma Inv.not_mem_moved (hi : Inv s) {ids : List Uuid}
    (hpending : ids.all (Lifecycle.isPending s.tasks) = true) {id : Uuid} (hid : id ∈ ids) :
    id ∉ s.moved := by
  obtain ⟨t, ht, hstate⟩ := Lifecycle.isPending_iff.1 (List.all_eq_true.1 hpending id hid)
  exact fun hmoved => hi.fresh id hmoved (Task.rowState_eq_some_iff.2 ⟨t, ht, hstate⟩)

/-- A step of a worker. -/
lemma Inv.loop {a : LoopStep} {o : Orchestrator} (hi : Inv s)
    (hnew : ∀ id ∈ s.moved, a.creates id = false)
    (h : Orchestrator.step (w k) (s.view k) a = some o)
    (hs' : s' =
      { tasks := o.tasks
        workers := Function.update s.workers k o
        dispatched := s.dispatched ++ (s.view k).dispatchedBy a
        moved := s.moved ++ o.claimed.drop (s.workers k).claimed.length }) : Inv s' := by
  obtain ⟨ids, hclaimed, hnodup, hpending, hfresh, hqueue, hrunning⟩ :=
    Orchestrator.handover_of_step (s := s.view k) hi.rows h
  have hids : o.claimed.drop (s.workers k).claimed.length = ids := by
    rw [hclaimed]
    exact List.drop_left
  have hnot : ∀ id ∈ ids, id ∉ s.moved := fun id hid => hi.not_mem_moved hpending hid
  have hqueue : s.queued k ++ ids = (s.view k).dispatchedBy a ++ o.loop.toDispatch := hqueue
  -- what is dispatched has been claimed by this worker and by no other
  have hby : ∀ id ∈ (s.view k).dispatchedBy a ++ o.loop.toDispatch, id ∈ s.moved ++ ids := by
    intro id hid
    rw [← hqueue] at hid
    exact List.mem_append.2 ((List.mem_append.1 hid).imp_left (hi.queued_sub k id))
  have hqueued := hi.queued.move hqueue hnodup
    (fun id hid hd => hnot id hid (hi.dispatched_sub id hd))
    fun id hid k' hk' => hnot id hid (hi.queued_sub k' id hk')
  have hdone := List.nodup_append.1 hqueued.done_nodup
  have hruns : Apart [] (Function.update s.running k o.running) := by
    have hown : s.running k ++ (s.view k).dispatchedBy a =
        [] ++ (s.running k ++ (s.view k).dispatchedBy a) := rfl
    have hmove := hi.running.move hown hdone.2.1 (fun _ _ => List.not_mem_nil)
      fun id hid k' hk' => hdone.2.2 id (hi.running_sub k' id hk') id hid rfl
    have hdrop := hmove.drop (k := k) (l := o.running)
      (by rw [Function.update_self]; exact hrunning)
    rwa [Function.update_idem] at hdrop
  have hq : s'.queued = _ := queued_of_update (congrArg workers hs')
  have hr : s'.running = _ := running_of_update (congrArg workers hs')
  rw [hids] at hs'
  subst hs'
  exact
    { rows := Orchestrator.rowsInv_step hi.rows h
      fresh := by
        intro id hid
        rcases List.mem_append.1 hid with hid | hid
        · exact Orchestrator.rowState_ne_pending_of_step hi.rows h (hnew id hid) (hi.fresh id hid)
        · exact hfresh id hid
      queued := hq ▸ hqueued
      dispatched_sub := by
        intro id hid
        rcases List.mem_append.1 hid with hid | hid
        · exact List.mem_append_left _ (hi.dispatched_sub id hid)
        · exact hby id (List.mem_append_left _ hid)
      queued_sub := by
        rw [hq, Function.forall_update_iff _ (p := fun _ l => ∀ id ∈ l, id ∈ s.moved ++ ids)]
        exact ⟨fun id hid => hby id (List.mem_append_right _ hid),
          fun k' _ id hid => List.mem_append_left _ (hi.queued_sub k' id hid)⟩
      running := hr ▸ hruns
      running_sub := by
        rw [hr, Function.forall_update_iff _
          (p := fun _ l => ∀ id ∈ l, id ∈ s.dispatched ++ (s.view k).dispatchedBy a)]
        refine ⟨?_, fun k' _ id hid => List.mem_append_left _ (hi.running_sub k' id hid)⟩
        intro id hid
        exact List.mem_append.2
          ((List.mem_append.1 (hrunning.subset hid)).imp_left (hi.running_sub k id)) }

/-- A worker has nothing left to dispatch, and no new executions. -/
lemma Inv.lose {o : Orchestrator} (hi : Inv s)
    (hworkers : s'.workers = Function.update s.workers k o) (hnone : o.loop.toDispatch = [])
    (hruns : o.running.Sublist (s.running k)) (hdispatched : s'.dispatched = s.dispatched)
    (hmoved : ∀ id ∈ s.moved, id ∈ s'.moved) (hrows : Lifecycle.RowsInv s'.tasks)
    (hfresh : ∀ id ∈ s'.moved, Task.rowState s'.tasks id ≠ some .pending) : Inv s' := by
  have hq := queued_of_update hworkers
  have hr := running_of_update hworkers
  rw [hnone] at hq
  exact
    { rows := hrows
      fresh := hfresh
      queued := by
        rw [hq, hdispatched]
        exact hi.queued.drop (List.nil_sublist _)
      dispatched_sub := fun id hid => hmoved id (hi.dispatched_sub id (hdispatched ▸ hid))
      queued_sub := by
        rw [hq, Function.forall_update_iff _ (p := fun _ l => ∀ id ∈ l, id ∈ s'.moved)]
        exact ⟨fun id hid => absurd hid List.not_mem_nil,
          fun k' _ id hid => hmoved id (hi.queued_sub k' id hid)⟩
      running := by
        rw [hr]
        exact hi.running.drop hruns
      running_sub := by
        rw [hr, hdispatched,
          Function.forall_update_iff _ (p := fun _ l => ∀ id ∈ l, id ∈ s.dispatched)]
        exact ⟨fun id hid => hi.running_sub k id (hruns.subset hid),
          fun k' _ => hi.running_sub k'⟩ }

/-- A claim whose reply is lost. -/
lemma Inv.replyLost {ids : List Uuid} {now : DateTime} {tasks : List Task} {T : TaskTable}
    (hi : Inv s) (hpending : ids.all (Lifecycle.isPending s.tasks) = true)
    (hclaim : TaskQueue.claimTasks s.tasks ids now = .ok (tasks, T)) :
    Inv { s with
      tasks := T
      workers := Function.update s.workers k { s.workers k with loop := .top }
      moved := s.moved ++ ids } := by
  have hstep : Lifecycle.step s.tasks (.claim ids, now) = some T := by
    simp [Lifecycle.step, hpending, hclaim]
  refine hi.lose (o := { s.workers k with loop := .top }) rfl rfl (List.Sublist.refl _) rfl
    (fun id hid => List.mem_append_left _ hid) (hi.rows.step hstep) ?_
  intro id hid
  rcases List.mem_append.1 hid with hid | hid
  · exact Lifecycle.rowState_ne_pending_of_step hi.rows hstep (by simp) (hi.fresh id hid)
  · exact Orchestrator.rowState_of_claimTasks hclaim hid

/-- **Inversion of a step.** -/
lemma step_cases {a : FleetStep κ} (h : step w s a = some s') :
    (∃ k b o, (∀ id ∈ s.moved, b.creates id = false) ∧
      Orchestrator.step (w k) (s.view k) b = some o ∧
      s' =
        { tasks := o.tasks
          workers := Function.update s.workers k o
          dispatched := s.dispatched ++ (s.view k).dispatchedBy b
          moved := s.moved ++ o.claimed.drop (s.workers k).claimed.length }) ∨
    (∃ k ids now tasks T, ids.all (Lifecycle.isPending s.tasks) = true ∧
      TaskQueue.claimTasks s.tasks ids now = .ok (tasks, T) ∧
      s' = { s with
        tasks := T
        workers := Function.update s.workers k { s.workers k with loop := .top }
        moved := s.moved ++ ids }) ∨
    ∃ k, s' = { s with workers := Function.update s.workers k Orchestrator.start } := by
  cases a with
  | loop k b =>
    simp only [step] at h
    split at h
    · cases h
    · rename_i hnew
      obtain ⟨o, ho, rfl⟩ := Option.map_eq_some_iff.1 h
      exact Or.inl ⟨k, b, o, by simpa using hnew, ho, rfl⟩
  | replyLost k ids now =>
    simp only [step] at h
    split at h
    · split at h
      · rename_i hguard
        split at h
        · rename_i tasks T hclaim
          cases h
          exact Or.inr (Or.inl ⟨k, ids, now, tasks, T, hguard.2.2, hclaim, rfl⟩)
        · cases h
      · cases h
    · cases h
  | crash k =>
    cases h
    exact Or.inr (Or.inr ⟨k, rfl⟩)

lemma Inv.step {a : FleetStep κ} (hi : Inv s) (h : step w s a = some s') : Inv s' := by
  rcases step_cases h with ⟨k, b, o, hnew, ho, hs'⟩ |
    ⟨k, ids, now, tasks, T, hpending, hclaim, rfl⟩ | ⟨k, rfl⟩
  · exact hi.loop hnew ho hs'
  · exact hi.replyLost hpending hclaim
  · exact hi.lose (o := Orchestrator.start) rfl rfl (List.nil_sublist _) rfl (fun _ hid => hid)
      hi.rows hi.fresh

lemma inv_of_reachable (h : (machine w).Reachable Machine.anyStep s) : Inv s :=
  h.invariant (P := Inv) (fun _ hs => Begins.inv hs) fun _ _ _ _ hi hstep => hi.step hstep

/-! ### What becomes of a claimed task -/

/-- A row has been moved, and its task has neither been dispatched nor is about to be. -/
structure Dropped (s : Fleet κ) (id : Uuid) : Prop where
  moved : id ∈ s.moved
  dispatched : id ∉ s.dispatched
  queued : ∀ k, id ∉ s.queued k

lemma Dropped.of_queued {id : Uuid} {l : List Uuid} (hd : Dropped s id)
    (hmoved : ∀ id ∈ s.moved, id ∈ s'.moved) (hdispatched : id ∉ s'.dispatched)
    (hq : s'.queued = Function.update s.queued k l) (hl : id ∉ l) : Dropped s' id where
  moved := hmoved id hd.moved
  dispatched := hdispatched
  queued := by
    rw [hq, Function.forall_update_iff _ (p := fun _ l => id ∉ l)]
    exact ⟨hl, fun k' _ => hd.queued k'⟩

/-- Nobody takes up a task that was dropped. -/
lemma Dropped.step {a : FleetStep κ} {id : Uuid} (hd : Dropped s id) (hi : Inv s)
    (h : Fleet.step w s a = some s') : Dropped s' id := by
  rcases step_cases h with ⟨k, b, o, hnew, ho, rfl⟩ | ⟨k, ids, now, tasks, T, -, -, rfl⟩ | ⟨k, rfl⟩
  · obtain ⟨ids, -, -, hpending, -, hqueue, -⟩ :=
      Orchestrator.handover_of_step (s := s.view k) hi.rows ho
    have hqueue : s.queued k ++ ids = (s.view k).dispatchedBy b ++ o.loop.toDispatch := hqueue
    have hnot : id ∉ (s.view k).dispatchedBy b ++ o.loop.toDispatch := by
      rw [← hqueue, List.mem_append, not_or]
      exact ⟨hd.queued k, fun hid => hi.not_mem_moved hpending hid hd.moved⟩
    rw [List.mem_append, not_or] at hnot
    exact hd.of_queued (fun _ hid => List.mem_append_left _ hid)
      (fun hid => (List.mem_append.1 hid).elim hd.dispatched hnot.1) (queued_of_update rfl) hnot.2
  · exact hd.of_queued (fun _ hid => List.mem_append_left _ hid) hd.dispatched
      (queued_of_update rfl) List.not_mem_nil
  · exact hd.of_queued (fun _ hid => hid) hd.dispatched
      (queued_of_update (o := Orchestrator.start) rfl) List.not_mem_nil

/-- **No task is dispatched twice.**  In every run of any number of workers on one table, with
replies that get lost and workers that crash and are started again, among the statements of
other processes: no task is passed to `dispatch_task` twice, by whatever workers; none is
executed by two workers at a time, nor twice by one; and a claimed task that a lost reply or a
crash has dropped is never dispatched afterwards. -/
theorem at_most_once (w : κ → Worker) {s : Fleet κ} (h : (machine w).Reachable Machine.anyStep s) :
    s.dispatched.Nodup ∧
      (∀ k, (s.workers k).running.Nodup) ∧
      (∀ k k' id, id ∈ (s.workers k).running → id ∈ (s.workers k').running → k = k') ∧
      ∀ id, Dropped s id → ∀ l s', (machine w).Run Machine.anyStep s l s' → id ∉ s'.dispatched := by
  have hi := inv_of_reachable h
  refine ⟨hi.queued.done_nodup, hi.running.held_nodup, ?_, ?_⟩
  · intro k k' id hid hid'
    exact hi.running.eq_of_mem hid hid'
  · intro id hd l s' hrun
    have hlater : Inv s' ∧ Dropped s' id := by
      refine hrun.preserves (P := fun s => Inv s ∧ Dropped s id) ?_ ⟨hi, hd⟩
      rintro s₁ a s₂ - ⟨hi₁, hd₁⟩ hstep
      exact ⟨hi₁.step hstep, hd₁.step hi₁ hstep⟩
    exact hlater.2.dispatched

/-- Two workers on the empty table. -/
def twoWorkers : Fleet Bool := ⟨Table.empty Task.schema, fun _ => Orchestrator.start, [], []⟩

/-- One worker claims task 1 and crashes, and the other one claims and dispatches task 2. -/
def crashSteps : List (FleetStep Bool) :=
  [.loop true (.other (.create Lifecycle.sampleTask 1) 0),
    .loop true (.other (.create Lifecycle.sampleTask 2) 0), .loop false (.next 1),
    .loop false (.next 1), .loop false (.claim [1] 1), .crash false, .loop true (.next 2),
    .loop true (.next 2), .loop true (.claim [2] 2), .loop true (.next 2)]

/-- Task 1 stays running, and it is never dispatched. -/
theorem at_most_once_crashed :
    ∃ s : Fleet Bool, (machine fun _ => {}).Reachable Machine.anyStep s ∧
      Task.rowState s.tasks 1 = some .running ∧ s.dispatched = [2] ∧
      ∀ l s', (machine fun _ => {}).Run Machine.anyStep s l s' → 1 ∉ s'.dispatched := by
  have hrun : ((machine fun _ : Bool => {}).exec Machine.anyStep twoWorkers crashSteps).map
      (fun s => (Task.rowState s.tasks 1, s.dispatched, s.moved, s.queued false, s.queued true)) =
      some (some .running, [2], [1, 2], [], []) := by decide +kernel
  obtain ⟨s, hs, hobs⟩ := Option.map_eq_some_iff.1 hrun
  simp only [Prod.mk.injEq] at hobs
  obtain ⟨hrow, hdispatched, hmoved, hfirst, hsecond⟩ := hobs
  have hreach : (machine fun _ : Bool => {}).Reachable Machine.anyStep s :=
    ⟨twoWorkers, _, ⟨Machine.Reachable.init rfl, fun _ => rfl, rfl, rfl⟩, Machine.run_of_exec hs⟩
  have hdropped : Dropped s 1 :=
    ⟨by simp [hmoved], by simp [hdispatched], by simp [hfirst, hsecond]⟩
  exact ⟨s, hreach, hrow, hdispatched, (at_most_once _ hreach).2.2.2 1 hdropped⟩

end Fleet

end AxonTask
