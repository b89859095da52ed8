import AxonTask.Worker.Orchestrator

/-!
# Shutting a worker down (`WorkerOrchestrator::run` in `axontask-worker/src/orchestrator.rs`)

After a shutdown request the loop cancels the tokens of all entries of `active_tasks`, and
waits for the map to become empty, for at most 30 periods of one second.  After each period
it removes the entries with a cancelled token; these are all of them, whether their
executions have returned or not.  So the loop never waits for a second period.
-/

namespace AxonTask

open Lib

/-- The step belongs to the loop. -/
def LoopStep.isNext : LoopStep → Bool
  | .next _ => true
  | _ => false

namespace Orchestrator

/-- A second, in nanoseconds. -/
def second : ℕ := 10 ^ 9

/-- The periods for which the loop waits in a run from the cancellation of the tokens until
the loop is left: each of its steps but the last one is such a period. -/
def periods (l : List LoopStep) : ℕ := l.countP LoopStep.isNext - 1

/-- The loop with its executions, when the shutdown has been seen and the tokens have been
cancelled. -/
def cancelAll (s : Orchestrator) : Orchestrator :=
  { s with cancelled := s.cancelled ++ s.active, loop := .draining 30 }

/-- `!active_tasks.is_empty() && remaining > 0`. -/
def waits (s : Orchestrator) (remaining : ℕ) : Bool := !(s.active.isEmpty || remaining == 0)

/-- The time of the next step of the waiting loop, since the tokens were cancelled. -/
def nextStep (s : Orchestrator) : Option ℕ :=
  match s.loop with
  | .draining remaining => some ((30 - remaining + if waits s remaining then 1 else 0) * second)
  | _ => none

/-- The executions return when they have run for the time that they need after the tokens
are cancelled: not later than the step of the loop by which this time has passed, and not
earlier. -/
def OnTime (needs : Uuid → ℕ) (s : Orchestrator) : LoopStep → Prop
  | .finish id => ∀ t ∈ nextStep s, needs id ≤ t
  | .next _ => ∀ t ∈ nextStep s, ∀ id ∈ s.running, t < needs id
  | _ => True

instance (needs : Uuid → ℕ) (s : Orchestrator) : ∀ a, Decidable (OnTime needs s a)
  | .finish id => inferInstanceAs (Decidable (∀ t ∈ nextStep s, needs id ≤ t))
  | .next _ =>
    decidable_of_iff (((nextStep s).all fun t => s.running.all fun id => t < needs id) = true)
      (by cases h : nextStep s <;> simp [OnTime, h])
  | .other .. | .shutdown | .claim .. | .claimFails | .cancel _ => isTrue trivial

/-- `run` returns only when every execution has returned, or after 30 periods: in every run
from `s` on, in which each execution takes the time that it needs. -/
def Graceful (w : Worker) (needs : Uuid → ℕ) (s : Orchestrator) : Prop :=
  ∀ l s', (machine w).Run (OnTime needs) s l s' → s'.loop = .stopped →
    s'.running = [] ∨ periods l = 30

variable {w : Worker} {s s' : Orchestrator} {needs : Uuid → ℕ}

lemma nextStep_of_draining {remaining : ℕ} (h : s.loop = .draining remaining) :
    nextStep s = some ((30 - remaining + if waits s remaining then 1 else 0) * second) := by
  simp [nextStep, h]

/-- The steps of the waiting loop. -/
lemma step_of_draining {remaining : ℕ} (h : s.loop = .draining remaining) (now : DateTime) :
    step w s (.next now) = some (if waits s remaining then
      { s with active := retain s, loop := .draining (remaining - 1) }
      else { s with loop := .stopped }) := by
  unfold waits
  cases hdone : s.active.isEmpty || remaining == 0 <;> simp [step, h, hdone]

/-- The loop sees the shutdown. -/
lemma step_of_shutdown (hloop : s.loop = .top) (hdown : s.shutdown = true) (now : DateTime) :
    step w s (.next now) = some (cancelAll s) := by
  simp [step, hloop, hdown, cancelAll]

/-- The tokens of all entries are cancelled. -/
lemma retain_eq_nil (h : s.active ⊆ s.cancelled) : retain s = [] := by
  refine List.eq_nil_iff_forall_not_mem.2 ?_
  intro id hid
  obtain ⟨hactive, hnot⟩ := mem_retain.1 hid
  exact hnot (h hactive)

/-! ### When all executions return in time -/

/-- The time that the loop leaves to the executions. -/
def grace (s : Orchestrator) : ℕ := if s.active = [] then 0 else second

/-- What holds while the loop waits, when no execution needs more than `grace`. -/
inductive Drains (needs : Uuid → ℕ) (s : Orchestrator) : Prop
  /-- The first period is not over. -/
  | first (loop : s.loop = .draining 30) (cancelled : s.active ⊆ s.cancelled)
      (soon : ∀ id ∈ s.running, needs id ≤ grace s)
  /-- The first period is over. -/
  | second (loop : s.loop = .draining 29) (active : s.active = []) (running : s.running = [])
  | stopped (loop : s.loop = .stopped) (running : s.running = [])

/-- A step of the waiting loop. -/
lemma Drains.next {now : DateTime} (hC : OnTime needs s (.next now)) (hd : Drains needs s)
    (h : step w s (.next now) = some s') : Drains needs s' := by
  cases hd with
  | first hloop hcancelled hsoon =>
    rw [step_of_draining hloop] at h
    have hlate := hC _ (nextStep_of_draining hloop)
    -- whoever needs no more than the grace has returned
    have hnone : s.running = [] := by
      refine List.eq_nil_iff_forall_not_mem.2 ?_
      intro id hid
      have hle := hsoon id hid
      have hlt := hlate id hid
      by_cases hactive : s.active = [] <;>
        simp [grace, waits, hactive] at hle hlt <;> omega
    cases hwaits : waits s 30 with
    | true =>
      simp only [hwaits, if_true, Option.some.injEq] at h
      subst h
      exact .second rfl (retain_eq_nil hcancelled) hnone
    | false =>
      simp only [hwaits, Bool.false_eq_true, if_false, Option.some.injEq] at h
      subst h
      exact .stopped rfl hnone
  | second hloop hactive hrunning =>
    rw [step_of_draining hloop] at h
    simp only [waits, hactive, List.isEmpty_nil, Bool.true_or, Bool.not_true, Bool.false_eq_true,
      if_false, Option.some.injEq] at h
    subst h
    exact .stopped rfl hrunning
  | stopped hloop => simp [step, hloop] at h

/-- What the steps of others do while the loop waits. -/
lemma frame_of_shutsDown {a : LoopStep} (hi : Lifecycle.RowsInv s.tasks)
    (hdown : s.loop.shutsDown = true) (ha : a.isNext = false) (h : step w s a = some s') :
    s'.loop = s.loop ∧ s'.active = s.active ∧ s.cancelled ⊆ s'.cancelled ∧
      s'.running ⊆ s.running := by
  cases effect_of_step hi h with
  | other | shutdown => exact ⟨rfl, rfl, fun _ h => h, fun _ h => h⟩
  | cancel => exact ⟨rfl, rfl, List.subset_append_left _ _, fun _ h => h⟩
  | finish => exact ⟨rfl, rfl, fun _ h => h, List.erase_subset⟩
  | claim hloop | claimFails hloop => simp [hloop, LoopPc.shutsDown] at hdown
  | goOn | stop | full | free | dispatch | dispatched | cleanup | drain | drained => cases ha

lemma Drains.of_frame (hd : Drains needs s) (hloop : s'.loop = s.loop)
    (hactive : s'.active = s.active) (hcancelled : s.cancelled ⊆ s'.cancelled)
    (hrunning : s'.running ⊆ s.running) : Drains needs s' := by
  have hnil : s.running = [] → s'.running = [] := fun h => List.subset_nil.1 (h ▸ hrunning)
  cases hd with
  | first loop cancelled soon =>
    refine .first (hloop.trans loop) (hactive ▸ List.Subset.trans cancelled hcancelled) ?_
    intro id hid
    rw [grace, hactive]
    exact soon id (hrunning hid)
  | second loop active running =>
    exact .second (hloop.trans loop) (hactive.trans active) (hnil running)
  | stopped loop running => exact .stopped (hloop.trans loop) (hnil running)

lemma Drains.shutsDown (hd : Drains needs s) : s.loop.shutsDown = true := by
  cases hd with
  | first hloop | second hloop | stopped hloop => simp [hloop, LoopPc.shutsDown]

lemma Drains.step {a : LoopStep} (hi : Lifecycle.RowsInv s.tasks) (hC : OnTime needs s a)
    (hd : Drains needs s) (h : step w s a = some s') : Drains needs s' := by
  cases hnext : a.isNext with
  | true =>
    cases a with
    | next now => exact hd.next hC h
    | other | shutdown | claim | claimFails | cancel | finish => cases hnext
  | false =>
    obtain ⟨hloop, hactive, hcancelled, hrunning⟩ := frame_of_shutsDown hi hd.shutsDown hnext h
    exact hd.of_frame hloop hactive hcancelled hrunning

/-- No execution needs more than the grace: the loop is left when all have returned. -/
lemma running_eq_nil_of_soon (hi : Lifecycle.RowsInv s.tasks) {l : List LoopStep}
    (hsoon : ∀ id ∈ s.running, needs id ≤ grace s)
    (h : (machine w).Run (OnTime needs) (cancelAll s) l s') (hstopped : s'.loop = .stopped) :
    s'.running = [] := by
  have hd : Lifecycle.RowsInv s'.tasks ∧ Drains needs s' := by
    refine h.preserves (P := fun s => Lifecycle.RowsInv s.tasks ∧ Drains needs s) ?_ ⟨hi, ?_⟩
    · rintro s₁ a s₂ hC ⟨hi, hd⟩ hstep
      exact ⟨rowsInv_step hi hstep, hd.step hi hC hstep⟩
    · exact .first rfl (List.subset_append_right _ _) hsoon
  cases hd.2 with
  | first hloop | second hloop => simp [hloop] at hstopped
  | stopped _ hrunning => exact hrunning

/-! ### When some execution takes longer -/

/-- All executions that are due return. -/
lemma exists_run_finish {t : ℕ} (ht : nextStep s = some t) :
    ∃ l s', (machine w).Run (OnTime needs) s l s' ∧ l.countP LoopStep.isNext = 0 ∧
      s' = { s with running := s'.running } ∧ (∀ id ∈ s'.running, t < needs id) ∧
      ∀ id ∈ s.running, t < needs id → id ∈ s'.running := by
  induction hn : s.running.length generalizing s with
  | zero =>
    have hnil : s.running = [] := List.eq_nil_of_length_eq_zero hn
    exact ⟨[], s, Machine.Run.nil s, rfl, rfl, by simp [hnil], fun _ hid _ => hid⟩
  | succ n ih =>
    by_cases hdue : ∃ id ∈ s.running, needs id ≤ t
    · obtain ⟨id, hid, hle⟩ := hdue
      have hstep : (machine w).step s (.finish id) =
          some { s with running := s.running.erase id } := by
        simp [machine, step, hid]
      obtain ⟨l, s', hrun, hcount, hs', hlate, hkept⟩ :=
        @ih { s with running := s.running.erase id } ht (by simp [List.length_erase_of_mem hid, hn])
      have honTime : OnTime needs s (.finish id) := by
        intro t' ht'
        rw [ht] at ht'
        cases ht'
        exact hle
      refine ⟨.finish id :: l, s', Machine.Run.cons honTime hstep hrun, ?_, hs', hlate, ?_⟩
      · rw [List.countP_cons_of_neg (by simp [LoopStep.isNext]), hcount]
      · intro id' hid' hlt
        have hne : id' ≠ id := by
          rintro rfl
          omega
        exact hkept id' ((List.mem_erase_of_ne hne).2 hid') hlt
    · simp only [not_exists, not_and, Nat.not_le] at hdue
      exact ⟨[], s, Machine.Run.nil s, rfl, rfl, hdue, fun _ hid _ => hid⟩

/-- The next step of the waiting loop, when all executions that are due have returned. -/
lemma run_next {t : ℕ} (ht : nextStep s = some t) (hlate : ∀ id ∈ s.running, t < needs id)
    (hstep : step w s (.next 0) = some s') : (machine w).Run (OnTime needs) s [.next 0] s' := by
  refine Machine.Run.single ?_ hstep
  intro t' ht'
  obtain rfl : t = t' := by rwa [ht, Option.mem_def, Option.some.injEq] at ht'
  exact hlate

/-- The loop is left after at most one period, and whoever needs more than the grace has not
returned. -/
lemma exists_run_stopped (w : Worker) (needs : Uuid → ℕ) (s : Orchestrator) :
    ∃ l s', (machine w).Run (OnTime needs) (cancelAll s) l s' ∧ s'.loop = .stopped ∧
      periods l ≤ 1 ∧ ∀ id ∈ s.running, grace s < needs id → id ∈ s'.running := by
  have hnext : nextStep (cancelAll s) = some (grace s) := by
    by_cases hactive : s.active = [] <;> simp [nextStep, cancelAll, waits, grace, hactive]
  obtain ⟨l, s₁, hrun, hcount, hs₁, hlate, hkept⟩ :
      ∃ l s', (machine w).Run (OnTime needs) _ l s' ∧ _ :=
    exists_run_finish (w := w) hnext
  have hloop : s₁.loop = .draining 30 := by rw [hs₁]; rfl
  have hnext₁ : nextStep s₁ = some (grace s) := by rw [hs₁]; exact hnext
  have hstep := step_of_draining (w := w) hloop 0
  have hrun₁ := hrun.trans (run_next hnext₁ hlate hstep)
  by_cases hactive : s.active = []
  · have hwaits : waits s₁ 30 = false := by rw [hs₁]; simp [waits, cancelAll, hactive]
    refine ⟨_, _, hrun₁, by simp [hwaits], ?_, ?_⟩
    · simp [periods, List.countP_append, hcount, LoopStep.isNext]
    · intro id hid hlt
      simpa [hwaits] using hkept id hid hlt
  · have hwaits : waits s₁ 30 = true := by rw [hs₁]; simp [waits, cancelAll, hactive]
    -- after one period no entry is left
    have hnone : retain s₁ = [] := by
      refine retain_eq_nil ?_
      rw [hs₁]
      exact List.subset_append_right _ _
    simp only [hwaits, if_true, hnone] at hrun₁
    have hnext₂ : nextStep { s₁ with active := [], loop := .draining (30 - 1) } =
        some (grace s) := by
      simp [nextStep, waits, grace, hactive]
    have hstep₂ := step_of_draining (w := w)
      (s := { s₁ with active := [], loop := .draining (30 - 1) }) rfl 0
    refine ⟨_, _, hrun₁.trans (run_next hnext₂ hlate hstep₂), by simp [waits], ?_, ?_⟩
    · simp [periods, List.countP_append, List.countP_cons, hcount, LoopStep.isNext]
    · intro id hid hlt
      simpa [waits] using hkept id hid hlt

/-- **When a shutdown is graceful.**  For every worker that sees the shutdown, and all times
that the executions need after their tokens are cancelled: the loop is left only when all of
them have returned, or after 30 periods, if and only if none of them needs more than one
second, and nothing at all when `active_tasks` is empty. -/
theorem graceful_iff (w : Worker) {s : Orchestrator} (h : (machine w).Reachable Machine.anyStep s)
    (needs : Uuid → ℕ) :
    Graceful w needs (cancelAll s) ↔ ∀ id ∈ s.running, needs id ≤ grace s := by
  have hrows := Lifecycle.reachable_rowsInv (tasks_reachable h)
  constructor
  · intro hgraceful id hid
    obtain ⟨l, s', hrun, hstopped, hperiods, hlate⟩ := exists_run_stopped w needs s
    rcases hgraceful l s' hrun hstopped with hnil | hthirty
    · by_contra hlt
      have hmem := hlate id hid (Nat.lt_of_not_le hlt)
      simp [hnil] at hmem
    · omega
  · intro hsoon l s' hrun hstopped
    exact Or.inl (running_eq_nil_of_soon hrows hsoon hrun hstopped)

/-- The worker after one dispatch and a shutdown request. -/
def shutDown : List LoopStep := rounds 1 [] ++ [.shutdown]

/-- An execution that returns after 0.4 seconds. -/
theorem graceful_iff_shutDown :
    ∃ s, (machine {}).exec Machine.anyStep start shutDown = some s ∧ s.loop.isTop = true ∧
      s.shutdown = true ∧ s.running = [1] ∧ Graceful {} (fun _ => 4 * 10 ^ 8) (cancelAll s) := by
  have hrun : ((machine {}).exec Machine.anyStep start shutDown).map
      (fun s => (s.loop.isTop, s.shutdown, s.running, s.active)) = some (true, true, [1], [1]) := by
    decide +kernel
  obtain ⟨s, hs, hobs⟩ := Option.map_eq_some_iff.1 hrun
  simp only [Prod.mk.injEq] at hobs
  obtain ⟨hloop, hdown, hrunning, hactive⟩ := hobs
  refine ⟨s, hs, hloop, hdown, hrunning, (graceful_iff {} ⟨start, _, starts_start,
    Machine.run_of_exec hs⟩ _).2 ?_⟩
  intro id _
  simp [grace, hactive, second]

/-- An execution that needs five seconds has not returned when the loop is left, after one
period. -/
theorem not_graceful_shutDown :
    ∃ s s', (machine {}).Reachable Machine.anyStep s ∧ s.loop.isTop = true ∧ s.shutdown = true ∧
      (machine {}).exec (OnTime fun _ => 5 * 10 ^ 9) s [.next 0, .next 0, .next 0] = some s' ∧
      s'.loop.isStopped = true ∧ s'.running = [1] ∧ periods [.next 0, .next 0] = 1 ∧
      ¬ Graceful {} (fun _ => 5 * 10 ^ 9) (cancelAll s) := by
  have hrun : ((machine {}).exec Machine.anyStep start shutDown).bind (fun s =>
      ((machine {}).exec (OnTime fun _ => 5 * 10 ^ 9) s [.next 0, .next 0, .next 0]).map fun s' =>
        (s.loop.isTop, s.shutdown, s'.loop.isStopped, s'.running)) =
      some (true, true, true, [1]) := by decide +kernel
  obtain ⟨s, hs, hrun⟩ := Option.bind_eq_some_iff.1 hrun
  obtain ⟨s', hs', hobs⟩ := Option.map_eq_some_iff.1 hrun
  simp only [Prod.mk.injEq] at hobs
  obtain ⟨htop, hdown, hstopped, hrunning⟩ := hobs
  refine ⟨s, s', ⟨start, _, starts_start, Machine.run_of_exec hs⟩, htop, hdown, hs', hstopped,
    hrunning, rfl, ?_⟩
  have hloop := LoopPc.isTop_iff.1 htop
  have htail : (machine {}).exec (OnTime fun _ => 5 * 10 ^ 9) (cancelAll s) [.next 0, .next 0] =
      some s' := by
    rw [Machine.exec, if_pos (by simp [OnTime, nextStep, hloop])] at hs'
    simpa [machine, step_of_shutdown hloop hdown] using hs'
  intro hgraceful
  rcases hgraceful _ _ (Machine.run_of_exec htail) (LoopPc.isStopped_iff.1 hstopped) with
    hnil | hthirty
  · simp [hrunning] at hnil
  · cases hthirty

end Orchestrator

end AxonTask
