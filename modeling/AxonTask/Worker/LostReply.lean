import AxonTask.Worker.Orchestrator

/-!
# Claims whose reply is lost (`axontask-worker/src/orchestrator.rs`, `queue.rs`)

`claim_tasks` changes the rows in the database, and the list of the tasks to be dispatched
exists in its reply only.  When the statement has been committed and the reply does not
arrive, the loop takes its error branch as if nothing had been claimed.  The machine below
adds this step to the worker loop.
-/

namespace AxonTask

open Lib

/-- A worker among other processes, with a record of what becomes of the rows that it moves
from `pending` to `running`. -/
structure Custody where
  orch : Orchestrator
  /-- The rows moved by claims whose reply was lost. -/
  lost : List Uuid
  /-- The tasks that were passed to `dispatch_task`. -/
  dispatched : List Uuid

/-- A step of the worker or of another process. -/
inductive CustodyStep
  | loop (a : LoopStep)
  /-- The claim of the rows `ids` is committed, and its reply is lost. -/
  | replyLost (ids : List Uuid) (now : DateTime)

/-- The tasks of a claim that are still to be dispatched. -/
def LoopPc.toDispatch : LoopPc → List Uuid
  | .dispatching tasks => tasks.map Task.id
  | _ => []

/-- The step creates a row under a given key. -/
def LoopStep.creates (id : Uuid) : LoopStep → Bool
  | .other st _ => Orchestrator.creates id st
  | _ => false

/-- The task that a step passes to `dispatch_task`. -/
def Orchestrator.dispatchedBy (s : Orchestrator) : LoopStep → List Uuid
  | .next _ => s.loop.toDispatch.take 1
  | _ => []

namespace Custody

variable (w : Worker)

/-- All rows that the claims of this worker have moved from `pending` to `running`. -/
def moved (s : Custody) : List Uuid := s.orch.claimed ++ s.lost

/-- A step of the worker or of another process. -/
def step (s : Custody) : CustodyStep → Option Custody
  | .loop a =>
    -- `gen_random_uuid` does not repeat an id
    if s.lost.any fun id => a.creates id then none
    else (Orchestrator.step w s.orch a).map fun orch =>
      { s with orch, dispatched := s.dispatched ++ s.orch.dispatchedBy a }
  | .replyLost ids now =>
    match s.orch.loop with
    | .claiming availableSlots =>
      if ids.Nodup ∧ ids.length ≤ availableSlots ∧
          ids.all (Lifecycle.isPending s.orch.tasks) = true then
        match TaskQueue.claimTasks s.orch.tasks ids now with
        | .ok (_, T) =>
          some { s with orch := { s.orch with tasks := T, loop := .top }, lost := s.lost ++ ids }
        | .error _ => none
      else none
    | _ => none

/-- A worker starts on some table. -/
structure Begins (s : Custody) : Prop where
  orch : Orchestrator.Starts s.orch
  lost : s.lost = []
  dispatched : s.dispatched = []

/-- The worker loop, with replies that get lost. -/
def machine : Machine Custody CustodyStep where
  Init := Begins
  step := step w

/-- Every row that was moved is dispatched exactly once before the loop is left, and no other
row is. -/
structure ExactlyOnce (s : Custody) : Prop where
  once : s.dispatched.Nodup
  moved : ∀ id ∈ s.dispatched, id ∈ s.moved
  all : s.orch.loop = .stopped → ∀ id ∈ s.moved, id ∈ s.dispatched

/-- The reply of a claim that has moved a row is not lost. -/
def RepliesArrive (_ : Custody) : CustodyStep → Prop
  | .loop _ => True
  | .replyLost ids _ => ids = []

variable {w} {s s' : Custody}

/-! ### What a step does -/

/-- **Inversion of a step.** -/
lemma step_cases {a : CustodyStep} (h : step w s a = some s') :
    (∃ b orch, a = .loop b ∧ (∀ id ∈ s.lost, b.creates id = false) ∧
      Orchestrator.step w s.orch b = some orch ∧
      s' = { s with orch, dispatched := s.dispatched ++ s.orch.dispatchedBy b }) ∨
    ∃ ids now n tasks T, a = .replyLost ids now ∧ s.orch.loop = .claiming n ∧ ids.Nodup ∧
      ids.all (Lifecycle.isPending s.orch.tasks) = true ∧
      TaskQueue.claimTasks s.orch.tasks ids now = .ok (tasks, T) ∧
      s' = { s with orch := { s.orch with tasks := T, loop := .top }, lost := s.lost ++ ids } := by
  cases a with
  | loop b =>
    simp only [step] at h
    split at h
    · cases h
    · rename_i hnew
      obtain ⟨orch, horch, rfl⟩ := Option.map_eq_some_iff.1 h
      exact Or.inl ⟨b, orch, rfl, by simpa using hnew, horch, rfl⟩
  | replyLost ids now =>
    simp only [step] at h
    split at h
    · rename_i n hloop
      split at h
      · rename_i hguard
        split at h
        · rename_i tasks T hclaim
          cases h
          exact Or.inr ⟨ids, now, n, tasks, T, rfl, hloop, hguard.1, hguard.2.2, hclaim, rfl⟩
        · cases h
      · cases h
    · cases h

end Custody

namespace Orchestrator

variable {w : Worker} {s s' : Orchestrator}

/-- A row that is not pending does not become so, unless it is created anew. -/
lemma rowState_ne_pending_of_step {a : LoopStep} (hi : Lifecycle.RowsInv s.tasks)
    (h : step w s a = some s') {id : Uuid} (hnew : a.creates id = false)
    (hne : Task.rowState s.tasks id ≠ some .pending) :
    Task.rowState s'.tasks id ≠ some .pending := by
  cases effect_of_step hi h with
  | @other st now T hst _ =>
    refine Lifecycle.rowState_ne_pending_of_step hi hst ?_ hne
    rintro data rfl
    simp [LoopStep.creates, creates] at hnew
  | @claim ids now n tasks T _ _ _ hpending hclaim _ =>
    have hst : Lifecycle.step s.tasks (.claim ids, now) = some T := by
      simp [Lifecycle.step, hpending, hclaim]
    exact Lifecycle.rowState_ne_pending_of_step hi hst (by simp) hne
  | @dispatch now task tasks _ =>
    unfold dispatchTask
    split
    · exact hne
    · rcases markNotFound_cases s.tasks task now with hsame | ⟨op, hop⟩
      · simpa [insertToken, hsame] using hne
      · exact Lifecycle.rowState_ne_pending_of_step hi hop (by simp) hne
  | shutdown | goOn | stop | full | free | claimFails | dispatched | cleanup | drain | drained
  | cancel | finish => exact hne

/-- What a step does to the tasks that have been claimed: new ones come from the claim. -/
lemma claimed_step {a : LoopStep} (hi : Lifecycle.RowsInv s.tasks) (h : step w s a = some s') :
    s'.claimed = s.claimed ∨ ∃ ids, s'.claimed = s.claimed ++ ids ∧ ids.Nodup ∧
      ids.all (Lifecycle.isPending s.tasks) = true := by
  cases effect_of_step hi h with
  | claim _ hnodup _ hpending => exact Or.inr ⟨_, rfl, hnodup, hpending⟩
  | @dispatch now task tasks _ =>
    refine Or.inl ?_
    unfold dispatchTask
    split <;> rfl
  | other | shutdown | goOn | stop | full | free | claimFails | dispatched | cleanup | drain
  | drained | cancel | finish => exact Or.inl rfl

/-- The tasks that have been claimed are those that have been dispatched and, in the same
order, those that are still to be. -/
lemma toDispatch_step {a : LoopStep} (hi : Lifecycle.RowsInv s.tasks) (h : step w s a = some s')
    {dispatched : List Uuid} (hs : s.claimed = dispatched ++ s.loop.toDispatch) :
    s'.claimed = dispatched ++ s.dispatchedBy a ++ s'.loop.toDispatch := by
  cases effect_of_step hi h with
  | other | shutdown | cancel | finish => simpa [dispatchedBy] using hs
  | goOn hloop | stop hloop | full hloop | free hloop | dispatched hloop | cleanup hloop
  | drain hloop | drained hloop => simpa [dispatchedBy, hloop, LoopPc.toDispatch] using hs
  | claimFails hloop => simpa [dispatchedBy, hloop, LoopPc.toDispatch] using hs
  | @claim ids now n tasks T hloop _ _ _ _ hids =>
    have hs' : s.claimed = dispatched := by simpa [hloop, LoopPc.toDispatch] using hs
    cases tasks with
    | nil =>
      obtain rfl : ids = [] := by simpa using hids.symm
      simpa [dispatchedBy, LoopPc.toDispatch] using hs'
    | cons t ts => simpa [dispatchedBy, LoopPc.toDispatch, hs'] using hids.symm
  | @dispatch now task tasks hloop =>
    -- the first task is passed to `dispatch_task`
    have hclaimed : (dispatchTask w (insertToken s task.id) task now).claimed = s.claimed := by
      unfold dispatchTask
      split <;> rfl
    simpa [dispatchedBy, hloop, LoopPc.toDispatch, hclaimed] using hs

end Orchestrator

namespace Custody

variable {w : Worker} {s s' : Custody}

/-! ### What becomes of the rows that were moved -/

variable (w) in
/-- The claimed tasks are those that have been dispatched and those that the loop is about to
dispatch; the rows whose reply was lost are none of them, and nobody claims them again. -/
structure Inv (s : Custody) : Prop where
  orch : Orchestrator.Inv w s.orch
  claimed : s.orch.claimed = s.dispatched ++ s.orch.loop.toDispatch
  nodup : s.orch.claimed.Nodup
  lost : ∀ id ∈ s.lost, id ∉ s.orch.claimed
  fresh : ∀ id ∈ s.lost, Task.rowState s.orch.tasks id ≠ some .pending

lemma Begins.inv (h : Begins s) : Inv w s where
  orch := h.orch.inv
  claimed := by simp [h.orch.claimed, h.dispatched, h.orch.loop, LoopPc.toDispatch]
  nodup := by simp [h.orch.claimed]
  lost := by simp [h.lost]
  fresh := by simp [h.lost]

/-- A pending row has not been moved. -/
lemma Inv.not_mem_moved (hi : Inv w s) {ids : List Uuid}
    (hpending : ids.all (Lifecycle.isPending s.orch.tasks) = true) {id : Uuid} (hid : id ∈ ids) :
    id ∉ s.orch.claimed ∧ id ∉ s.lost := by
  obtain ⟨t, ht, hstate⟩ := Lifecycle.isPending_iff.1 (List.all_eq_true.1 hpending id hid)
  have hrow : Task.rowState s.orch.tasks id = some .pending :=
    Task.rowState_eq_some_iff.2 ⟨t, ht, hstate⟩
  exact ⟨fun h => hi.orch.fresh id h hrow, fun h => hi.fresh id h hrow⟩

/-- A step of the loop or of another process. -/
lemma Inv.loop {a : LoopStep} {orch : Orchestrator} (hi : Inv w s)
    (hnew : ∀ id ∈ s.lost, a.creates id = false) (h : Orchestrator.step w s.orch a = some orch) :
    Inv w { s with orch, dispatched := s.dispatched ++ s.orch.dispatchedBy a } := by
  have hrows := hi.orch.rows
  refine
    { orch := hi.orch.step h
      claimed := Orchestrator.toDispatch_step hrows h hi.claimed
      nodup := ?_
      lost := ?_
      fresh := fun id hid =>
        Orchestrator.rowState_ne_pending_of_step hrows h (hnew id hid) (hi.fresh id hid) }
  · rcases Orchestrator.claimed_step hrows h with hsame | ⟨ids, hids, hnodup, hpending⟩
    · simpa only [hsame] using hi.nodup
    · simp only [hids]
      refine List.nodup_append.2 ⟨hi.nodup, hnodup, ?_⟩
      rintro id hid id' hid' rfl
      exact (hi.not_mem_moved hpending hid').1 hid
  · intro id hid
    rcases Orchestrator.claimed_step hrows h with hsame | ⟨ids, hids, -, hpending⟩
    · simpa only [hsame] using hi.lost id hid
    · simp only [hids, List.mem_append, not_or]
      exact ⟨hi.lost id hid, fun hnew => (hi.not_mem_moved hpending hnew).2 hid⟩

/-- A claim whose reply is lost. -/
lemma Inv.replyLost {ids : List Uuid} {now : DateTime} {n : ℕ} {tasks : List Task}
    {T : TaskTable} (hi : Inv w s) (hloop : s.orch.loop = .claiming n)
    (hpending : ids.all (Lifecycle.isPending s.orch.tasks) = true)
    (hclaim : TaskQueue.claimTasks s.orch.tasks ids now = .ok (tasks, T)) :
    Inv w { s with orch := { s.orch with tasks := T, loop := .top }, lost := s.lost ++ ids } := by
  have hstep : Lifecycle.step s.orch.tasks (.claim ids, now) = some T := by
    simp [Lifecycle.step, hpending, hclaim]
  have hkeep : ∀ id, Task.rowState s.orch.tasks id ≠ some .pending →
      Task.rowState T id ≠ some .pending := fun id hne =>
    Lifecycle.rowState_ne_pending_of_step hi.orch.rows hstep (by simp) hne
  exact
    { orch :=
        { hi.orch with
          rows := hi.orch.rows.step hstep
          fresh := fun id hid => hkeep id (hi.orch.fresh id hid)
          room := hi.orch.active_le }
      claimed := by
        have hclaimed := hi.claimed
        rw [hloop] at hclaimed
        exact hclaimed
      nodup := hi.nodup
      lost := by
        intro id hid
        rcases List.mem_append.1 hid with hid | hid
        · exact hi.lost id hid
        · exact (hi.not_mem_moved hpending hid).1
      fresh := by
        intro id hid
        rcases List.mem_append.1 hid with hid | hid
        · exact hkeep id (hi.fresh id hid)
        · exact Orchestrator.rowState_of_claimTasks hclaim hid }

lemma Inv.step {a : CustodyStep} (hi : Inv w s) (h : step w s a = some s') : Inv w s' := by
  rcases step_cases h with ⟨b, orch, -, hnew, horch, rfl⟩ |
    ⟨ids, now, n, tasks, T, -, hloop, -, hpending, hclaim, rfl⟩
  · exact hi.loop hnew horch
  · exact hi.replyLost hloop hpending hclaim

lemma inv_of_reachable {C : Custody → CustodyStep → Prop} (h : (machine w).Reachable C s) :
    Inv w s :=
  h.invariant (P := Inv w) (fun _ hs => Begins.inv hs) fun _ _ _ _ hi hstep => hi.step hstep

/-- What the invariant says of the rows that were moved, whatever replies were lost. -/
lemma Inv.exactlyOnce_iff (hi : Inv w s) :
    ExactlyOnce s ↔ (s.orch.loop = .stopped → s.lost = []) := by
  have hclaimed := hi.claimed
  have hnodup := hi.nodup
  rw [hclaimed] at hnodup
  have hmem : ∀ id ∈ s.dispatched, id ∈ s.orch.claimed := by
    intro id hid
    rw [hclaimed]
    exact List.mem_append_left _ hid
  constructor
  · intro h hstopped
    refine List.eq_nil_iff_forall_not_mem.2 ?_
    intro id hid
    exact hi.lost id hid (hmem id (h.all hstopped id (List.mem_append_right _ hid)))
  · intro h
    refine ⟨(List.nodup_append.1 hnodup).1, fun id hid => List.mem_append_left _ (hmem id hid), ?_⟩
    intro hstopped id hid
    -- nothing is left to dispatch when the loop is left
    rw [moved, h hstopped, List.append_nil, hclaimed, hstopped] at hid
    simpa [LoopPc.toDispatch] using hid

/-- A reply that is not lost adds no row to the lost ones. -/
lemma lost_step {a : CustodyStep} (hC : RepliesArrive s a) (h : step w s a = some s') :
    s'.lost = s.lost := by
  rcases step_cases h with ⟨b, orch, -, -, -, rfl⟩ | ⟨ids, now, n, tasks, T, rfl, -, -, -, -, rfl⟩
  · rfl
  · obtain rfl : ids = [] := hC
    simp

/-- **When no claimed task is lost.**  In every run in which the replies of the claims that
have moved rows arrive, every row that was moved is dispatched exactly once before the loop
is left, and no other row is; after any other run this is so only as long as the loop is not
left. -/
theorem exactlyOnce_of_repliesArrive (w : Worker) :
    (∀ s, (machine w).Reachable RepliesArrive s → ExactlyOnce s) ∧
      ∀ s, (machine w).Reachable Machine.anyStep s →
        (ExactlyOnce s ↔ (s.orch.loop = .stopped → s.lost = [])) := by
  refine ⟨?_, fun s h => (inv_of_reachable h).exactlyOnce_iff⟩
  intro s h
  refine (inv_of_reachable h).exactlyOnce_iff.2 ?_
  intro _
  refine h.invariant (P := fun s => s.lost = []) (fun _ hs => Begins.lost hs) ?_
  intro s a s' hC hnone hstep
  rw [lost_step hC hstep, hnone]

/-- A worker on the empty table. -/
def start : Custody := ⟨Orchestrator.start, [], []⟩

lemma begins_start : Begins start := ⟨Orchestrator.starts_start, rfl, rfl⟩

instance (s : Custody) : ∀ a, Decidable (RepliesArrive s a)
  | .loop _ => isTrue trivial
  | .replyLost ids _ => inferInstanceAs (Decidable (ids = []))

/-- The loop sees a shutdown and is left. -/
def leave : List CustodyStep := [.loop .shutdown, .loop (.next 3), .loop (.next 4), .loop (.next 5)]

/-- A task is claimed and dispatched. -/
theorem exactlyOnce_of_repliesArrive_oneTask :
    ∃ s, (machine {}).exec RepliesArrive start
        ((Orchestrator.rounds 1 []).map CustodyStep.loop ++ leave) = some s ∧
      s.orch.loop.isStopped = true ∧ s.moved = [1] ∧ s.dispatched = [1] ∧ ExactlyOnce s := by
  have hrun : ((machine {}).exec RepliesArrive start
      ((Orchestrator.rounds 1 []).map CustodyStep.loop ++ leave)).map
        (fun s => (s.orch.loop.isStopped, s.moved, s.dispatched)) = some (true, [1], [1]) := by
    decide +kernel
  obtain ⟨s, hs, hobs⟩ := Option.map_eq_some_iff.1 hrun
  simp only [Prod.mk.injEq] at hobs
  exact ⟨s, hs, hobs.1, hobs.2.1, hobs.2.2, (exactlyOnce_of_repliesArrive {}).1 s
    ⟨start, _, begins_start, Machine.run_of_exec hs⟩⟩

/-- The reply of the claim of task 1 is lost: the loop is left, and the row is running. -/
theorem not_exactlyOnce_of_replyLost :
    ∃ s, (machine {}).Reachable Machine.anyStep s ∧ s.orch.loop.isStopped = true ∧
      s.moved = [1] ∧ s.dispatched = [] ∧ Task.rowState s.orch.tasks 1 = some .running ∧
      ¬ ExactlyOnce s := by
  have hrun : ((machine {}).exec Machine.anyStep start
      [.loop (.other (.create Lifecycle.sampleTask 1) 0), .loop (.next 1), .loop (.next 1),
        .replyLost [1] 1, .loop .shutdown, .loop (.next 3), .loop (.next 4)]).map
        (fun s => (s.orch.loop.isStopped, s.moved, s.dispatched, Task.rowState s.orch.tasks 1)) =
      some (true, [1], [], some .running) := by decide +kernel
  obtain ⟨s, hs, hobs⟩ := Option.map_eq_some_iff.1 hrun
  simp only [Prod.mk.injEq] at hobs
  obtain ⟨hstopped, hmoved, hdispatched, hrow⟩ := hobs
  refine ⟨s, ⟨start, _, begins_start, Machine.run_of_exec hs⟩, hstopped, hmoved, hdispatched,
    hrow, ?_⟩
  intro h
  have hall := h.all (LoopPc.isStopped_iff.1 hstopped) 1
  simp [hmoved, hdispatched] at hall

end Custody

end AxonTask
