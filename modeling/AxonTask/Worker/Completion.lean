import AxonTask.Worker.Execute
import AxonTask.Worker.Forwarding

/-!
# The end of a task and the end of its stream (`axontask-worker/src/orchestrator.rs`)

`execute_task` drops the handle of the emission loop and pauses for 100 ms before it writes
the final state; dropping a handle detaches the loop and waits for nothing.  The cancel
endpoint does not wait either.  The machine below puts the execution of a task beside the
emission loops of its worker: an event may reach the stream after the row has become
terminal, unless the loop of the task has nothing left to do when that happens.
-/

namespace AxonTask

open Lib

/-- An execution and the emission loops.  The last field records the history: when the row of
the task first became terminal, whether all events sent had gone through `emit`, and the
entries of the stream. -/
structure Completion where
  exec : Execution
  fwd : Forwarding
  /-- A sender of the channel of the task is left. -/
  sending : Bool
  atEnd : Option (Bool × List TaskEvent)

/-- A step. -/
inductive CompletionStep
  | exec (a : ExecStep × DateTime)
  | forward (a : ForwardStep)
  /-- The last sender is dropped. -/
  | close

namespace Completion

section Machine

variable (L : Libs) (task : Task)

/-- The row of the task is terminal. -/
def ended (s : Completion) : Bool := Lifecycle.isEnded s.exec.tasks task.id

/-- The channel of the task is empty, and no event of the task is being emitted. -/
def drained (s : Completion) : Bool :=
  (s.fwd.channel task.id).isEmpty && (s.fwd.shared.pcs task.id).seq.isNone

/-- The entries of the stream of the task. -/
def stream (s : Completion) : List TaskEvent := s.fwd.shared.streams task.id

/-- The history is written when the row has just become terminal. -/
def record (s : Completion) : Completion :=
  if s.ended task then { s with atEnd := s.atEnd.or (some (s.drained task, s.stream task)) } else s

/-- The channel of the task is made together with the adapter. -/
def opens (s : Completion) : ExecStep → Bool
  | .validateArgs (.ok ()) => true
  | _ => s.sending

/-- An adapter sends only while a sender is left. -/
def maySend (s : Completion) : ForwardStep → Bool
  | .send t _ => decide (t ≠ task.id) || s.sending
  | _ => true

/-- A step. -/
def step (s : Completion) : CompletionStep → Option Completion
  | .exec a =>
    (Execution.step task s.exec a).map fun exec =>
      record task { s with exec, sending := s.opens a.1 }
  | .forward a =>
    if s.maySend task a then (s.fwd.step L a).map fun fwd => { s with fwd } else none
  | .close => some { s with sending := false }

/-- The execution of the task is about to begin, and nothing has been sent for it. -/
structure Begins (s : Completion) : Prop where
  exec : Execution.Begins task s.exec
  channel : s.fwd.channel task.id = []
  idle : s.fwd.shared.pcs task.id = .idle
  sending : s.sending = false
  atEnd : s.atEnd = none

/-- The execution of a task and the emission loops of its worker. -/
def machine : Machine Completion CompletionStep where
  Init := Begins task
  step := step L task

/-- When the row became terminal, all events that had been sent had gone through `emit`, and
no entry has been appended to the stream since. -/
def NothingAfter (s : Completion) : Prop :=
  ∀ d l, s.atEnd = some (d, l) → d = true ∧ s.stream task = l

/-- The emission loop has been spawned and returns: every event that it received has gone through
`emit`, the channel is empty, and all senders have been dropped, so that `recv` gives `None`. -/
structure Quiet (s : Completion) : Prop where
  channel : s.fwd.channel task.id = []
  idle : s.fwd.shared.pcs task.id = .idle
  sending : s.sending = false
  begun : s.exec.pc ≠ .validating

/-- Whoever makes the row terminal does so after the emission loop has returned. -/
def Waits (s : Completion) (a : CompletionStep) : Prop :=
  ∀ s', step L task s a = some s' → s.ended task = false → s'.ended task = true → s.Quiet task

end Machine

variable {L : Libs} {task : Task} {s s' : Completion}

@[simp] lemma exec_record : (record task s).exec = s.exec := by
  unfold record
  split <;> rfl

@[simp] lemma fwd_record : (record task s).fwd = s.fwd := by
  unfold record
  split <;> rfl

@[simp] lemma sending_record : (record task s).sending = s.sending := by
  unfold record
  split <;> rfl

@[simp] lemma ended_record : (record task s).ended task = s.ended task := by
  simp [ended]

@[simp] lemma drained_record : (record task s).drained task = s.drained task := by
  simp [drained]

@[simp] lemma stream_record : (record task s).stream task = s.stream task := by
  simp [stream]

lemma atEnd_record_of_ended (h : s.ended task = true) (hnone : s.atEnd = none) :
    (record task s).atEnd = some (s.drained task, s.stream task) := by
  rw [record, if_pos h, hnone, Option.none_or]

lemma atEnd_record_of_some {p : Bool × List TaskEvent} (h : s.atEnd = some p) :
    (record task s).atEnd = some p := by
  unfold record
  split
  · rw [h, Option.some_or]
  · exact h

lemma atEnd_record_of_not_ended (h : s.ended task = false) : (record task s).atEnd = s.atEnd := by
  rw [record, if_neg (by simp [h])]

lemma drained_of_quiet (h : s.Quiet task) : s.drained task = true := by
  simp [drained, h.channel, h.idle, EmitPc.seq]

/-! ### What a step does -/

/-- **Inversion of a step.** -/
lemma step_cases {a : CompletionStep} (h : step L task s a = some s') :
    (∃ b exec, a = .exec b ∧ Execution.step task s.exec b = some exec ∧
      s' = record task { s with exec, sending := s.opens b.1 }) ∨
    (∃ b fwd, a = .forward b ∧ s.maySend task b = true ∧ s.fwd.step L b = some fwd ∧
      s' = { s with fwd }) ∨
    (a = .close ∧ s' = { s with sending := false }) := by
  cases a with
  | exec b =>
    obtain ⟨exec, hexec, rfl⟩ := Option.map_eq_some_iff.1 h
    exact Or.inl ⟨b, exec, rfl, hexec, rfl⟩
  | forward b =>
    simp only [step] at h
    split at h
    · rename_i hsend
      obtain ⟨fwd, hfwd, rfl⟩ := Option.map_eq_some_iff.1 h
      exact Or.inr (Or.inl ⟨b, fwd, rfl, hsend, hfwd, rfl⟩)
    · cases h
  | close =>
    cases h
    exact Or.inr (Or.inr ⟨rfl, rfl⟩)

/-- A loop with nothing to do keeps still while the others go on. -/
lemma quiet_forward {f f' : Forwarding} {b : ForwardStep} (hchannel : f.channel task.id = [])
    (hidle : f.shared.pcs task.id = .idle) (hsend : ∀ event, b ≠ .send task.id event)
    (h : f.step L b = some f') :
    f'.channel task.id = [] ∧ f'.shared.pcs task.id = .idle ∧
      f'.shared.streams task.id = f.shared.streams task.id := by
  rcases Forwarding.step_cases h with ⟨t, event, rfl, rfl⟩ |
    ⟨t, ts, event, rest, shared, rfl, hrecv, hs, rfl⟩ | ⟨b, shared, rfl, hb, hs, rfl⟩
  · have ht : task.id ≠ t := fun heq => hsend event (heq ▸ rfl)
    simp [Function.update_of_ne ht, hchannel, hidle]
  · have ht : task.id ≠ t := by
      rintro rfl
      rw [hchannel] at hrecv
      cases hrecv
    obtain ⟨hstream, hpc⟩ := SharedEmitter.step_of_ne hs ht
    exact ⟨by simp [Function.update_of_ne ht, hchannel], hpc.trans hidle, hstream⟩
  · have ht : task.id ≠ b.task := by
      intro heq
      rcases SharedEmitter.step_cases hs with ⟨event, ts, -, htakes, -⟩ | ⟨event, seq, ts, hpc, -⟩ |
        ⟨e, hpc, -⟩ | ⟨e, hpc, -⟩
      · rw [hb] at htakes
        cases htakes
      all_goals
        rw [← heq, hidle] at hpc
        cases hpc
    obtain ⟨hstream, hpc⟩ := SharedEmitter.step_of_ne hs ht
    exact ⟨hchannel, hpc.trans hidle, hstream⟩

/-- Then nothing is appended to the stream any more. -/
lemma Quiet.step {a : CompletionStep} (hq : s.Quiet task)
    (h : Completion.step L task s a = some s') :
    s'.Quiet task ∧ s'.stream task = s.stream task := by
  rcases step_cases h with ⟨b, exec, rfl, hexec, rfl⟩ | ⟨b, fwd, rfl, hsend, hfwd, rfl⟩ | ⟨rfl, rfl⟩
  · obtain ⟨hbegun, hnot⟩ := Execution.pc_ne_validating_of_step hexec hq.begun
    have hopens : s.opens b.1 = s.sending := by
      unfold opens
      split
      · rename_i heq
        exact absurd heq (hnot _)
      · rfl
    refine ⟨⟨by simpa using hq.channel, by simpa using hq.idle, ?_, by simpa using hbegun⟩, ?_⟩
    · simp [hopens, hq.sending]
    · simp [stream]
  · have hnot : ∀ event, b ≠ .send task.id event := by
      rintro event rfl
      simp [maySend, hq.sending] at hsend
    obtain ⟨hchannel, hidle, hstream⟩ := quiet_forward hq.channel hq.idle hnot hfwd
    exact ⟨⟨hchannel, hidle, hq.sending, hq.begun⟩, hstream⟩
  · exact ⟨⟨hq.channel, hq.idle, rfl, hq.begun⟩, rfl⟩

/-- The invariant of the runs that wait for the emission loop. -/
structure Inv (task : Task) (s : Completion) : Prop where
  running : s.atEnd = none → s.ended task = false
  after : ∀ d l, s.atEnd = some (d, l) → d = true ∧ s.stream task = l ∧ s.Quiet task

lemma Begins.inv (h : Begins task s) : Inv task s := by
  refine ⟨fun _ => ?_, fun d l hd => by simp [h.atEnd] at hd⟩
  have hrun : Task.rowState s.exec.tasks task.id = some .running :=
    Task.rowState_eq_some_iff.2 ⟨task, h.exec.row, h.exec.running⟩
  simp [ended, Lifecycle.isEnded, hrun, TaskState.isTerminal]

lemma Inv.step {a : CompletionStep} (hC : Waits L task s a) (hi : Inv task s)
    (h : Completion.step L task s a = some s') : Inv task s' := by
  cases hend : s.atEnd with
  | some p =>
    -- the row has been terminal before
    obtain ⟨hd, hl, hq⟩ := hi.after p.1 p.2 hend
    obtain ⟨hq', hstream⟩ := hq.step h
    have hkeep : s'.atEnd = some p := by
      rcases step_cases h with ⟨b, exec, rfl, -, rfl⟩ | ⟨b, fwd, rfl, -, -, rfl⟩ | ⟨rfl, rfl⟩
      · exact atEnd_record_of_some hend
      · exact hend
      · exact hend
    refine ⟨fun hnone => by simp [hkeep] at hnone, ?_⟩
    intro d l hdl
    obtain rfl : p = (d, l) := Option.some.inj (hkeep.symm.trans hdl)
    exact ⟨hd, hstream.trans hl, hq'⟩
  | none =>
    have hnot := hi.running hend
    rcases step_cases h with ⟨b, exec, rfl, -, rfl⟩ | ⟨b, fwd, rfl, -, -, rfl⟩ | ⟨rfl, rfl⟩
    · cases hnow : ended task { s with exec, sending := s.opens b.1 } with
      | false =>
        have hnone := (atEnd_record_of_not_ended hnow).trans hend
        exact ⟨fun _ => by simpa using hnow, fun d l hdl => by simp [hnone] at hdl⟩
      | true =>
        have hq := hC _ h hnot (by simpa using hnow)
        obtain ⟨hq', hstream⟩ := hq.step h
        have hrec := atEnd_record_of_ended hnow hend
        have hdrained := drained_of_quiet hq'
        constructor
        · intro hnone
          rw [hrec] at hnone
          cases hnone
        · intro d l hdl
          rw [hrec] at hdl
          cases hdl
          exact ⟨by simpa using hdrained, stream_record, hq'⟩
    · exact ⟨fun _ => hnot, fun d l hdl => by simp [hend] at hdl⟩
    · exact ⟨fun _ => hnot, fun d l hdl => by simp [hend] at hdl⟩

/-! ### When the row is made terminal too early -/

lemma drained_eq_true_iff :
    s.drained task = true ↔ s.fwd.channel task.id = [] ∧ s.fwd.shared.pcs task.id = .idle := by
  unfold drained
  cases s.fwd.shared.pcs task.id with
  | idle => simp [EmitPc.seq]
  | numbered | hashed | stored => simp [EmitPc.seq]

/-- The emission loops go on while the execution stands still. -/
lemma run_forward {f' : Forwarding} {l : List ForwardStep} (hsend : s.sending = true)
    (h : (Forwarding.machine L).Run Machine.anyStep s.fwd l f') :
    (machine L task).Run Machine.anyStep s (l.map .forward) { s with fwd := f' } := by
  induction h with
  | nil => exact Machine.Run.nil s
  | @snoc f₁ f₂ l a _ _ hs ih =>
    rw [List.map_append]
    refine ih.snoc trivial ?_
    have hmay : maySend task { s with fwd := f₁ } a = true := by
      unfold maySend
      split
      · simp [hsend]
      · rfl
    simp only [machine, step, hmay, if_true]
    exact Option.map_eq_some_iff.2 ⟨f₂, hs, rfl⟩

/-- While a sender is left, one more event can be sent and written. -/
lemma exists_late (hserde : ∀ v, (L.serdeToString v).isSome = true)
    (hdrained : s.drained task = true) (hsend : s.sending = true) {d : Bool}
    (hend : s.atEnd = some (d, s.stream task)) :
    ∃ l s', (machine L task).Run Machine.anyStep s l s' ∧ ¬ NothingAfter task s' := by
  obtain ⟨hchannel, hidle⟩ := drained_eq_true_iff.1 hdrained
  obtain ⟨f', e, hrun, hstream, -⟩ :=
    Forwarding.exists_run_forwardSteps ⟨.completed, .null⟩ (hserde _) 0 hidle hchannel
  refine ⟨_, { s with fwd := f' }, run_forward hsend hrun, ?_⟩
  intro h
  have hsame : f'.shared.streams task.id = s.stream task := (h d (s.stream task) hend).2
  rw [hstream, stream] at hsame
  simp at hsame

lemma sending_of_opens {a : ExecStep} (h : s.opens a = false) : s.sending = false := by
  unfold opens at h
  split at h
  · cases h
  · exact h

/-- An adapter that has not been started yet may be, although the row is terminal. -/
lemma exists_late_of_validating (hserde : ∀ v, (L.serdeToString v).isSome = true)
    (hpc : s.exec.pc = .validating) (hdrained : s.drained task = true)
    (hend : (record task s).atEnd = some (s.drained task, s.stream task)) :
    ∃ l s', (machine L task).Run Machine.anyStep (record task s) l s' ∧ ¬ NothingAfter task s' := by
  obtain ⟨exec, hexec⟩ : ∃ exec,
      Execution.step task s.exec (.validateArgs (.ok ()), s.exec.clock) = some exec := by
    simp [Execution.step, Execution.move, hpc]
  have hstep : (machine L task).step (record task s)
      (.exec (.validateArgs (.ok ()), s.exec.clock)) =
        some (record task { record task s with exec, sending := true }) := by
    simp [machine, step, opens, hexec]
  set s₂ : Completion := { record task s with exec, sending := true } with hs₂
  have hsame : s₂.drained task = s.drained task ∧ s₂.stream task = s.stream task := by
    simp [hs₂, drained, stream]
  have hend₂ : (record task s₂).atEnd = some (true, s₂.stream task) := by
    rw [hsame.2, ← hdrained]
    exact atEnd_record_of_some (s := s₂) hend
  obtain ⟨l, s', hrun, hlate⟩ := exists_late (L := L) (s := record task s₂) hserde
    (by rw [drained_record, hsame.1, hdrained]) (by simp [hs₂]) (d := true)
    (by rw [hend₂, stream_record])
  exact ⟨_ :: l, s', hrun.cons trivial hstep, hlate⟩

/-- When the row becomes terminal before the emission loop has nothing left to do, events may
follow. -/
lemma exists_late_of_not_waits (hserde : ∀ v, (L.serdeToString v).isSome = true)
    {a : CompletionStep} (hend : s.atEnd = none) (h : step L task s a = some s')
    (hC : ¬ Waits L task s a) :
    ∃ l s'', (machine L task).Run Machine.anyStep s' l s'' ∧ ¬ NothingAfter task s'' := by
  obtain ⟨hnot, hnow, hquiet⟩ :
      s.ended task = false ∧ s'.ended task = true ∧ ¬ s.Quiet task := by
    simp only [Waits, not_forall] at hC
    obtain ⟨s₁, hs₁, hnot, hnow, hquiet⟩ := hC
    obtain rfl := Option.some.inj (h.symm.trans hs₁)
    exact ⟨hnot, hnow, hquiet⟩
  rcases step_cases h with ⟨b, exec, rfl, hexec, rfl⟩ | ⟨b, fwd, rfl, -, -, rfl⟩ | ⟨rfl, rfl⟩
  · set s₁ : Completion := { s with exec, sending := s.opens b.1 } with hs₁
    rw [ended_record] at hnow
    have hrec := atEnd_record_of_ended hnow hend
    cases hdrained : s₁.drained task with
    | false =>
      -- an event has not gone through `emit` yet
      refine ⟨[], _, Machine.Run.nil _, ?_⟩
      intro hN
      have := (hN _ _ hrec).1
      rw [hdrained] at this
      cases this
    | true =>
      cases hsend : s₁.sending with
      | true =>
        refine exists_late (s := record task s₁) hserde (by simpa using hdrained)
          (by simpa using hsend) (d := true) ?_
        rw [hrec, hdrained, stream_record]
      | false =>
        -- the adapter has not been started yet, and it will be
        obtain ⟨hchannel, hidle⟩ := drained_eq_true_iff.1 hdrained
        have hsending : s.sending = false := sending_of_opens hsend
        have hpc : s.exec.pc = .validating := by
          by_contra hpc
          exact hquiet ⟨hchannel, hidle, hsending, hpc⟩
        have hpc' : exec.pc = .validating := by
          refine (Execution.pc_or_tasks_of_step hexec hpc).resolve_right ?_
          intro hsame
          have hended : s₁.ended task = s.ended task := by simp [hs₁, ended, hsame]
          rw [hended, hnot] at hnow
          cases hnow
        exact exists_late_of_validating hserde hpc' hdrained hrec
  · exact absurd (hnot.symm.trans hnow) (by simp)
  · exact absurd (hnot.symm.trans hnow) (by simp)

/-- **Nothing after the end.**  In the runs in which the row is made terminal only when the
emission loop has nothing left to do, all events have gone through `emit` by then and no entry
follows.  When it is made terminal otherwise, an event that can be printed may follow. -/
theorem nothingAfter_of_waits (L : Libs) (task : Task) :
    (∀ s, (machine L task).Reachable (Waits L task) s → NothingAfter task s) ∧
      ((∀ v, (L.serdeToString v).isSome = true) →
        ∀ s a s', s.atEnd = none → step L task s a = some s' → ¬ Waits L task s a →
          ∃ l s'', (machine L task).Run Machine.anyStep s' l s'' ∧ ¬ NothingAfter task s'') := by
  refine ⟨?_, fun hserde s a s' hend h hC => exists_late_of_not_waits hserde hend h hC⟩
  intro s h d l hdl
  have hi : Inv task s := h.invariant (fun _ => Begins.inv) fun _ _ _ hC hi => hi.step hC
  exact ⟨(hi.after d l hdl).1, (hi.after d l hdl).2.1⟩

/-! ### Two executions -/

/-- The execution of a task is about to begin, and no other task is executed. -/
def sampleStart : Completion := ⟨Execution.sampleStart, .start, false, none⟩

lemma begins_sampleStart : Begins Execution.sampleRow sampleStart :=
  ⟨Execution.begins_sampleStart, rfl, rfl, rfl, rfl⟩

/-- The adapter sends an event and returns; Redis is slow. -/
def slowSteps : List CompletionStep :=
  [.exec (.validateArgs (.ok ()), 2), .forward (.send 1 ⟨.completed, .object []⟩), .close,
    .exec (.adapter (.ok ()), 4), .exec (.decide, 10 ^ 9), .exec (.mark, 10 ^ 9)] ++
    [.forward (.recv 1 0), .forward (.emit (.computeHash 1)), .forward (.emit (.setPrevHash 1)),
      .forward (.emit (.xadd 1 true))]

/-- The event is written after the task has succeeded. -/
theorem not_nothingAfter_slowSteps :
    ∃ s, (machine Libs.sample Execution.sampleRow).Reachable Machine.anyStep s ∧
      ¬ NothingAfter Execution.sampleRow s := by
  have hrun : ((machine Libs.sample Execution.sampleRow).exec Machine.anyStep sampleStart
      slowSteps).map (fun s => (s.atEnd.map fun p => (p.1, p.2.length),
        (s.stream Execution.sampleRow).length)) = some (some (false, 0), 1) := by decide +kernel
  obtain ⟨s, hs, hobs⟩ := Option.map_eq_some_iff.1 hrun
  obtain ⟨⟨d, l⟩, hend, hp⟩ := Option.map_eq_some_iff.1 (Prod.mk.inj hobs).1
  refine ⟨s, ⟨sampleStart, slowSteps, begins_sampleStart, Machine.run_of_exec hs⟩, ?_⟩
  intro h
  have hd : d = true := (h d l hend).1
  have hfalse : d = false := (Prod.mk.inj hp).1
  rw [hfalse] at hd
  cases hd

/-- The execution has got beyond the check of the arguments. -/
def begun : ExecPc → Bool
  | .validating => false
  | _ => true

instance (L : Libs) (task : Task) (s : Completion) (a : CompletionStep) :
    Decidable (Waits L task s a) :=
  decidable_of_iff
    (((step L task s a).all fun s' => s.ended task || !s'.ended task ||
      (s.drained task && !s.sending && begun s.exec.pc)) = true) <| by
    have hquiet : (s.drained task && !s.sending && begun s.exec.pc) = true ↔ s.Quiet task := by
      have hbegun : begun s.exec.pc = true ↔ s.exec.pc ≠ .validating := by
        cases s.exec.pc <;> simp [begun]
      rw [Bool.and_eq_true, Bool.and_eq_true, drained_eq_true_iff, hbegun]
      constructor
      · rintro ⟨⟨⟨hchannel, hidle⟩, hsend⟩, hpc⟩
        exact ⟨hchannel, hidle, by simpa using hsend, hpc⟩
      · rintro ⟨hchannel, hidle, hsend, hpc⟩
        exact ⟨⟨⟨hchannel, hidle⟩, by simp [hsend]⟩, hpc⟩
    unfold Waits
    cases hstep : step L task s a with
    | none => simp
    | some s' =>
      simp only [Option.all_some, Bool.or_eq_true, hquiet, Option.some.injEq, forall_eq']
      cases s.ended task <;> cases s'.ended task <;> simp

/-- The event is written while the adapter runs. -/
def promptSteps : List CompletionStep :=
  [.exec (.validateArgs (.ok ()), 2), .forward (.send 1 ⟨.completed, .object []⟩)] ++
    [.forward (.recv 1 0), .forward (.emit (.computeHash 1)), .forward (.emit (.setPrevHash 1)),
      .forward (.emit (.xadd 1 true))] ++
    [.close, .exec (.adapter (.ok ()), 4), .exec (.decide, 10 ^ 9), .exec (.mark, 10 ^ 9)]

/-- Nothing follows. -/
theorem nothingAfter_of_waits_promptSteps :
    ∃ s, (machine Libs.sample Execution.sampleRow).exec (Waits Libs.sample Execution.sampleRow)
        sampleStart promptSteps = some s ∧ NothingAfter Execution.sampleRow s := by
  have hrun : ((machine Libs.sample Execution.sampleRow).exec
      (Waits Libs.sample Execution.sampleRow) sampleStart promptSteps).isSome = true := by
    decide +kernel
  obtain ⟨s, hs⟩ := Option.isSome_iff_exists.1 hrun
  exact ⟨s, hs, (nothingAfter_of_waits .sample Execution.sampleRow).1 s
    ⟨sampleStart, promptSteps, begins_sampleStart, Machine.run_of_exec hs⟩⟩

end Completion

end AxonTask
