import AxonTask.Lib.Machine
import AxonTask.Lib.Numbering
import AxonTask.Worker.Emitter

/-!
# One emitter for all tasks of a worker (`axontask-worker/src/orchestrator.rs`)

`WorkerOrchestrator::new` makes one `EventEmitter`, and every execution clones it: the
forwarders of all tasks, one per task, draw their numbers from one counter and link to one
previous hash.  The machine below interleaves the steps of their calls of `emit`.  The
streams are chains as long as a single task emits, and no longer.
-/

namespace AxonTask

open Lib EventEmitter
open TaskEvent (links links_prev links_curr)

/-- How far the forwarder of a task has come with one call of `emit`. -/
inductive EmitPc
  | idle
  /-- The number and the time have been taken. -/
  | numbered (event : AdapterEvent) (seq : Int64) (ts : DateTime)
  /-- The previous hash has been read, and the event has been hashed. -/
  | hashed (e : TaskEvent)
  /-- The hash of the event has been stored as the previous hash. -/
  | stored (e : TaskEvent)

/-- The number that a call in progress holds. -/
def EmitPc.seq : EmitPc → Option Int64
  | .idle => none
  | .numbered _ seq _ => some seq
  | .hashed e | .stored e => some e.seq

/-- The emitter of a worker, the forwarders of its tasks, and the streams
`events:{task_id}`. -/
structure SharedEmitter where
  emitter : EmitterState
  pcs : Uuid → EmitPc
  streams : Uuid → List TaskEvent

/-- A step of the forwarder of a task. -/
inductive EmitStep
  | nextSeq (taskId : Uuid) (event : AdapterEvent) (ts : DateTime)
  | computeHash (taskId : Uuid)
  | setPrevHash (taskId : Uuid)
  /-- The answer of Redis to `XADD`. -/
  | xadd (taskId : Uuid) (accepted : Bool)

namespace EmitStep

/-- The task whose forwarder makes the step. -/
def task : EmitStep → Uuid
  | nextSeq t _ _ | computeHash t | setPrevHash t | xadd t _ => t

/-- Redis does not fail in this step. -/
def redisOk : EmitStep → Bool
  | xadd _ accepted => accepted
  | _ => true

/-- The step takes a number. -/
def takesSeq : EmitStep → Bool
  | nextSeq .. => true
  | _ => false

end EmitStep

namespace SharedEmitter

/-- A forwarder moves on. -/
def setPc (s : SharedEmitter) (t : Uuid) (pc : EmitPc) : SharedEmitter :=
  { s with pcs := Function.update s.pcs t pc }

/-- A step of a forwarder. -/
def step (L : Libs) (s : SharedEmitter) : EmitStep → Option SharedEmitter
  | .nextSeq t event ts =>
    match s.pcs t with
    | .idle =>
      let (seq, emitter) := s.emitter.nextSeq
      some ({ s with emitter }.setPc t (.numbered event seq ts))
    | _ => none
  | .computeHash t =>
    match s.pcs t with
    | .numbered event seq ts =>
      match taskEvent L t event seq ts s.emitter.prevHash with
      | some e => some (s.setPc t (.hashed e))
      | none => some (s.setPc t .idle)
    | _ => none
  | .setPrevHash t =>
    match s.pcs t with
    | .hashed e =>
      some ({ s with emitter := s.emitter.setPrevHash e.hashCurr }.setPc t (.stored e))
    | _ => none
  | .xadd t accepted =>
    match s.pcs t with
    | .stored e =>
      let streams :=
        if accepted then Function.update s.streams t (s.streams t ++ [e]) else s.streams
      some ({ s with streams }.setPc t .idle)
    | _ => none

/-- A fresh emitter, no call in progress, and empty streams. -/
def start : SharedEmitter := ⟨.new, fun _ => .idle, fun _ => []⟩

/-- The forwarders of a worker. -/
def machine (L : Libs) : Machine SharedEmitter EmitStep where
  Init s := s = start
  step := step L

variable {L : Libs} {s s' : SharedEmitter} {t : Uuid}

/-! ### One call at a time -/

/-- The steps of one call of `emit`. -/
def emitSteps (t : Uuid) (ts : DateTime) (event : AdapterEvent) : List EmitStep :=
  [.nextSeq t event ts, .computeHash t, .setPrevHash t, .xadd t true]

/-- A call of `emit` that nothing interrupts computes `emit`. -/
lemma exec_emitSteps (hidle : s.pcs t = .idle) {ts : DateTime} {event : AdapterEvent}
    {e : TaskEvent} {emitter : EmitterState} (h : emit L s.emitter t ts event = (some e, emitter)) :
    (machine L).exec Machine.anyStep s (emitSteps t ts event) =
      some { s with emitter, streams := Function.update s.streams t (s.streams t ++ [e]) } := by
  have hpcs : Function.update s.pcs t .idle = s.pcs := by rw [← hidle, Function.update_eq_self]
  unfold emit at h
  cases hte : taskEvent L t event s.emitter.seq ts s.emitter.prevHash with
  | none => simp [EmitterState.nextSeq, hte] at h
  | some e' =>
    simp only [EmitterState.nextSeq, hte, Prod.mk.injEq, Option.some.injEq] at h
    obtain ⟨rfl, rfl⟩ := h
    simp [Machine.exec, Machine.anyStep, emitSteps, machine, step, setPc, hidle, hte,
      EmitterState.nextSeq, hpcs]

/-- Calls of `emit` for one event after another write what `emitAll` computes. -/
lemma exec_emitAll (hserde : ∀ v, (L.serdeToString v).isSome = true)
    (events : List (DateTime × AdapterEvent)) (hidle : s.pcs t = .idle) :
    ∃ s', (machine L).exec Machine.anyStep s (events.flatMap fun a => emitSteps t a.1 a.2) =
      some s' ∧ s'.pcs t = .idle ∧ s'.streams t = s.streams t ++ emitAll L t s.emitter events := by
  induction events generalizing s with
  | nil => exact ⟨s, rfl, hidle, by simp [emitAll]⟩
  | cons a events ih =>
    obtain ⟨e, he⟩ := exists_taskEvent hserde t a.2 s.emitter.seq a.1 s.emitter.prevHash
    have hemit : emit L s.emitter t a.1 a.2 =
        (some e, s.emitter.nextSeq.2.setPrevHash e.hashCurr) := by
      simp [emit, EmitterState.nextSeq, he]
    have hexec := exec_emitSteps hidle hemit
    obtain ⟨s', hs', hidle', hstream⟩ := ih (s := { s with
      emitter := s.emitter.nextSeq.2.setPrevHash e.hashCurr
      streams := Function.update s.streams t (s.streams t ++ [e]) }) hidle
    refine ⟨s', ?_, hidle', ?_⟩
    · rw [List.flatMap_cons, Machine.exec_append, hexec]
      exact hs'
    · simpa [emitAll, hemit] using hstream

/-! ### What a step does -/

@[simp] lemma emitter_setPc (pc : EmitPc) : (s.setPc t pc).emitter = s.emitter := rfl

@[simp] lemma streams_setPc (pc : EmitPc) : (s.setPc t pc).streams = s.streams := rfl

@[simp] lemma pcs_setPc (pc : EmitPc) : (s.setPc t pc).pcs = Function.update s.pcs t pc := rfl

/-- **Inversion of a step.** -/
lemma step_cases {a : EmitStep} (h : step L s a = some s') :
    (∃ event ts, s.pcs a.task = .idle ∧ a.takesSeq = true ∧
      s' = { s with emitter := s.emitter.nextSeq.2 }.setPc a.task
        (.numbered event s.emitter.seq ts)) ∨
    (∃ event seq ts, s.pcs a.task = .numbered event seq ts ∧
      s' = s.setPc a.task
        ((taskEvent L a.task event seq ts s.emitter.prevHash).elim .idle .hashed)) ∨
    (∃ e, s.pcs a.task = .hashed e ∧
      s' = { s with emitter := s.emitter.setPrevHash e.hashCurr }.setPc a.task (.stored e)) ∨
    ∃ e, s.pcs a.task = .stored e ∧
      s' = { s with
        streams := if a.redisOk then
            Function.update s.streams a.task (s.streams a.task ++ [e])
          else s.streams }.setPc a.task .idle := by
  cases a with
  | nextSeq t event ts =>
    simp only [step] at h
    split at h
    · rename_i hpc
      cases h
      exact Or.inl ⟨event, ts, hpc, rfl, rfl⟩
    · cases h
  | computeHash t =>
    simp only [step] at h
    split at h
    · rename_i event seq ts hpc
      refine Or.inr (Or.inl ⟨event, seq, ts, hpc, ?_⟩)
      simp only [EmitStep.task]
      split at h <;> rename_i he <;> cases h <;> rw [he] <;> rfl
    · cases h
  | setPrevHash t =>
    simp only [step] at h
    split at h
    · rename_i e hpc
      cases h
      exact Or.inr (Or.inr (Or.inl ⟨e, hpc, rfl⟩))
    · cases h
  | xadd t accepted =>
    simp only [step] at h
    split at h
    · rename_i e hpc
      cases h
      exact Or.inr (Or.inr (Or.inr ⟨e, hpc, rfl⟩))
    · cases h

/-! ### A single task emits -/

/-- The step is made for the task `t₀`, Redis does not fail in it, and it takes no number
after the counter has wrapped around. -/
def Solo (t₀ : Uuid) (s : SharedEmitter) (a : EmitStep) : Prop :=
  a.task = t₀ ∧ a.redisOk = true ∧ (a.takesSeq = true → 0 ≤ s.emitter.seq)

instance (t₀ : Uuid) (s : SharedEmitter) (a : EmitStep) : Decidable (Solo t₀ s a) :=
  inferInstanceAs (Decidable (_ ∧ _ ∧ (_ → _)))

/-- What the emitter holds when its only user stands at a point of `emit` and has written
the stream `l`. -/
def Fits (m : EmitterState) (l : List TaskEvent) : EmitPc → Prop
  | .idle => (0 ≤ m.seq → m.seq.toInt = l.length) ∧ m.prevHash = links.tip none l
  | .numbered _ seq _ => seq.toInt = l.length ∧ m.seq = seq + 1 ∧ m.prevHash = links.tip none l
  | .hashed e => e.seq.toInt = l.length ∧ m.seq = e.seq + 1 ∧ e.hashPrev = links.tip none l
  | .stored e =>
    e.seq.toInt = l.length ∧ m.seq = e.seq + 1 ∧ e.hashPrev = links.tip none l ∧
      m.prevHash = some e.hashCurr

/-- Every stream carries the numbers `0, 1, …` and is a hash chain. -/
def StreamsChained (s : SharedEmitter) : Prop :=
  ∀ t, Numbered TaskEvent.seq (s.streams t) ∧ links.Chained none (s.streams t)

/-- The invariant of the runs in which only `t₀` emits. -/
structure SoloInv (t₀ : Uuid) (s : SharedEmitter) : Prop where
  chained : StreamsChained s
  fits : Fits s.emitter (s.streams t₀) (s.pcs t₀)

lemma SoloInv.start (t₀ : Uuid) : SoloInv t₀ start := by
  refine ⟨fun t => ⟨numbered_nil, trivial⟩, ?_⟩
  simp [SharedEmitter.start, Fits, EmitterState.new]

lemma SoloInv.step (hserde : ∀ v, (L.serdeToString v).isSome = true) {t₀ : Uuid} {a : EmitStep}
    (hC : Solo t₀ s a) (hi : SoloInv t₀ s) (h : step L s a = some s') : SoloInv t₀ s' := by
  obtain ⟨rfl, hok, htake⟩ := hC
  have hfits := hi.fits
  rcases step_cases h with ⟨event, ts, hpc, htakes, rfl⟩ | ⟨event, seq, ts, hpc, rfl⟩ |
    ⟨e, hpc, rfl⟩ | ⟨e, hpc, rfl⟩
  · -- `next_seq`: the number taken is the length of the stream
    rw [hpc] at hfits
    refine ⟨hi.chained, ?_⟩
    simpa [Fits, EmitterState.nextSeq] using ⟨hfits.1 (htake htakes), hfits.2⟩
  · -- `compute_hash`: the event names the last hash of the stream
    rw [hpc] at hfits
    obtain ⟨hseq, hnext, hprev⟩ := hfits
    obtain ⟨e, he⟩ := exists_taskEvent hserde a.task event seq ts s.emitter.prevHash
    obtain ⟨-, hseq', hprev', -⟩ := taskEvent_eq_some he
    refine ⟨hi.chained, ?_⟩
    simp only [he, Option.elim_some, pcs_setPc, streams_setPc, emitter_setPc,
      Function.update_self, Fits, hseq', hprev']
    exact ⟨hseq, hnext, hprev⟩
  · -- `set_prev_hash`: the stream does not have the event yet
    rw [hpc] at hfits
    obtain ⟨hseq, hnext, hprev⟩ := hfits
    refine ⟨hi.chained, ?_⟩
    simpa [Fits, EmitterState.setPrevHash] using ⟨hseq, hnext, hprev⟩
  · -- `XADD`: the event becomes the last one of the stream
    rw [hpc] at hfits
    obtain ⟨hseq, hnext, hprev, hcurr⟩ := hfits
    rw [if_pos hok]
    constructor
    · intro t
      by_cases ht : t = a.task
      · subst ht
        simp only [streams_setPc, Function.update_self]
        exact ⟨numbered_concat.2 ⟨(hi.chained _).1, hseq⟩,
          Links.chained_concat.2 ⟨(hi.chained _).2, hprev⟩⟩
      · simpa [Function.update_of_ne ht] using hi.chained t
    · have hpos : 0 ≤ e.seq := by
        rw [Int64.le_iff_toInt_le, hseq]
        simp
      simp only [streams_setPc, pcs_setPc, emitter_setPc, Function.update_self, Fits, hcurr,
        Links.tip_concat, links_curr, and_true]
      intro hnonneg
      rw [hnext] at hnonneg ⊢
      rw [toInt_succ hpos hnonneg, hseq]
      simp

/-- **One task, one chain.**  As long as a single task emits, every stream is a numbered
hash chain in every state. -/
theorem streamsChained_of_solo (hserde : ∀ v, (L.serdeToString v).isSome = true) (t₀ : Uuid)
    (h : (machine L).Reachable (Solo t₀) s) : StreamsChained s := by
  have hi : SoloInv t₀ s := by
    refine h.invariant ?_ fun _ _ _ hC hi => hi.step hserde hC
    rintro s rfl
    exact SoloInv.start t₀
  exact hi.chained

/-- A worker whose only task emits two events, the second of which names the first. -/
theorem streamsChained_of_solo_twoEvents :
    ∃ s, (machine Libs.sample).exec (Solo 1) start
        (emitSteps 1 Libs.sampleTime ⟨.started, .object []⟩ ++
          emitSteps 1 Libs.sampleTime ⟨.progress, .object []⟩) = some s ∧
      (s.streams 1).map (fun e => (e.seq, e.hashPrev.isSome)) = [(0, false), (1, true)] ∧
      StreamsChained s := by
  have hrun : ((machine Libs.sample).exec (Solo 1) start
      (emitSteps 1 Libs.sampleTime ⟨.started, .object []⟩ ++
        emitSteps 1 Libs.sampleTime ⟨.progress, .object []⟩)).map
      (fun s => (s.streams 1).map fun e => (e.seq, e.hashPrev.isSome)) =
      some [(0, false), (1, true)] := by decide +kernel
  obtain ⟨s, hs, hstream⟩ := Option.map_eq_some_iff.1 hrun
  exact ⟨s, hs, hstream, streamsChained_of_solo (fun _ => rfl) 1
    ⟨start, _, rfl, Machine.run_of_exec hs⟩⟩

/-! ### Two tasks emit -/

/-- The counter has not wrapped around when a number is taken. -/
def NoOverflow (s : SharedEmitter) (a : EmitStep) : Prop := a.takesSeq = true → 0 ≤ s.emitter.seq

/-- The numbers that were given to a task and have not been lost. -/
def Holds (s : SharedEmitter) (t : Uuid) (x : Int64) : Prop :=
  (∃ e ∈ s.streams t, e.seq = x) ∨ (s.pcs t).seq = some x

/-- The counter is above all numbers given, and no number is given to two tasks. -/
structure Distinct (s : SharedEmitter) : Prop where
  below : ∀ t x, s.Holds t x → 0 ≤ x ∧ (0 ≤ s.emitter.seq → x.toInt < s.emitter.seq.toInt)
  inj : ∀ t u x, s.Holds t x → s.Holds u x → t = u

/-- The numbers after a forwarder has moved on. -/
lemma Holds.of_setPc {pc : EmitPc} {u : Uuid} {x : Int64} (h : (s.setPc t pc).Holds u x) :
    s.Holds u x ∨ (u = t ∧ pc.seq = some x) := by
  rcases h with hstream | hpc
  · exact Or.inl (Or.inl hstream)
  · by_cases hu : u = t
    · rw [pcs_setPc, hu, Function.update_self] at hpc
      exact Or.inr ⟨hu, hpc⟩
    · rw [pcs_setPc, Function.update_of_ne hu] at hpc
      exact Or.inl (Or.inr hpc)

/-- Only the first step of `emit` gives a number to a task; it gives the counter. -/
lemma holds_step {a : EmitStep} (h : step L s a = some s') :
    (s'.emitter.seq = s.emitter.seq ∧ ∀ t x, s'.Holds t x → s.Holds t x) ∨
    (a.takesSeq = true ∧ s'.emitter.seq = s.emitter.seq + 1 ∧
      ∀ t x, s'.Holds t x → s.Holds t x ∨ (t = a.task ∧ x = s.emitter.seq)) := by
  rcases step_cases h with ⟨event, ts, hpc, htakes, rfl⟩ | ⟨event, seq, ts, hpc, rfl⟩ |
    ⟨e, hpc, rfl⟩ | ⟨e, hpc, rfl⟩
  · refine Or.inr ⟨htakes, rfl, ?_⟩
    intro t x hx
    rcases hx.of_setPc with hold | ⟨ht, hseq⟩
    · exact Or.inl hold
    · exact Or.inr ⟨ht, (Option.some.inj hseq).symm⟩
  · refine Or.inl ⟨rfl, ?_⟩
    intro t x hx
    rcases hx.of_setPc with hold | ⟨rfl, hnum⟩
    · exact hold
    · -- the event carries the number of the call, unless it cannot be hashed
      refine Or.inr ?_
      cases hte : taskEvent L a.task event seq ts s.emitter.prevHash with
      | none => simp [hte, EmitPc.seq] at hnum
      | some e =>
        obtain ⟨-, hseq, -, -⟩ := taskEvent_eq_some hte
        simpa [hte, EmitPc.seq, hseq, hpc] using hnum
  · refine Or.inl ⟨rfl, ?_⟩
    intro t x hx
    rcases hx.of_setPc with hold | ⟨rfl, hnum⟩
    · exact hold
    · refine Or.inr ?_
      rw [hpc]
      exact hnum
  · -- the number passes from the call to the stream, or is lost
    refine Or.inl ⟨rfl, ?_⟩
    intro t x hx
    rcases hx.of_setPc with (⟨e', he', rfl⟩ | hold) | ⟨-, hnum⟩
    · have hmem : e' ∈ s.streams t ∨ t = a.task ∧ e' = e := by
        by_cases hok : a.redisOk = true
        · by_cases ht : t = a.task <;> simpa [hok, ht] using he'
        · exact Or.inl (by simpa [hok] using he')
      rcases hmem with hmem | ⟨rfl, rfl⟩
      · exact Or.inl ⟨e', hmem, rfl⟩
      · refine Or.inr ?_
        rw [hpc]
        rfl
    · exact Or.inr hold
    · cases hnum

lemma Distinct.start : Distinct start := by
  have hnone : ∀ t x, ¬ SharedEmitter.start.Holds t x := by
    intro t x hx
    simp [Holds, SharedEmitter.start, EmitPc.seq] at hx
  exact ⟨fun t x hx => absurd hx (hnone t x), fun t u x hx => absurd hx (hnone t x)⟩

lemma Distinct.step {a : EmitStep} (hC : NoOverflow s a) (hi : Distinct s)
    (h : step L s a = some s') : Distinct s' := by
  rcases holds_step h with ⟨hseq, hold⟩ | ⟨htakes, hseq, hold⟩
  · refine ⟨?_, fun t u x hx hx' => hi.inj t u x (hold t x hx) (hold u x hx')⟩
    intro t x hx
    rw [hseq]
    exact hi.below t x (hold t x hx)
  · have hpos := hC htakes
    constructor
    · intro t x hx
      rw [hseq]
      rcases hold t x hx with hx | ⟨-, rfl⟩
      · obtain ⟨hx0, hlt⟩ := hi.below t x hx
        refine ⟨hx0, ?_⟩
        intro hnext
        rw [toInt_succ hpos hnext]
        have := hlt hpos
        omega
      · refine ⟨hpos, ?_⟩
        intro hnext
        rw [toInt_succ hpos hnext]
        omega
    · -- the counter is above every number that was given before
      intro t u x hx hx'
      have hfresh : ∀ t, ¬ s.Holds t s.emitter.seq := fun t hx =>
        absurd ((hi.below t _ hx).2 hpos) (lt_irrefl _)
      rcases hold t x hx with hx | ⟨rfl, rfl⟩
      · rcases hold u x hx' with hx' | ⟨-, rfl⟩
        · exact hi.inj t u x hx hx'
        · exact absurd hx (hfresh t)
      · rcases hold u _ hx' with hx' | ⟨rfl, -⟩
        · exact absurd hx' (hfresh u)
        · rfl

/-- **Two tasks, no chain.**  Once two tasks have written to their streams, the numbers of
one of them do not start at 0. -/
theorem eq_of_streamsChained (h : (machine L).Reachable NoOverflow s) (hs : StreamsChained s)
    {t u : Uuid} (ht : s.streams t ≠ []) (hu : s.streams u ≠ []) : t = u := by
  have hi : Distinct s := by
    refine h.invariant ?_ fun _ _ _ hC hi => hi.step hC
    rintro s rfl
    exact Distinct.start
  have hzero : ∀ t, s.streams t ≠ [] → s.Holds t 0 := by
    intro t ht
    obtain ⟨e, l, hl⟩ := List.exists_cons_of_ne_nil ht
    have hseq := (hs t).1.toInt_eq (i := 0) (e := e) (by rw [hl]; rfl)
    exact Or.inl ⟨e, by simp [hl], Int64.toInt_inj.1 (by simpa using hseq)⟩
  exact hi.inj t u 0 (hzero t ht) (hzero u hu)

/-- Two tasks emit one event each, one after the other. -/
def twoTasks : List EmitStep :=
  emitSteps 1 Libs.sampleTime ⟨.started, .object []⟩ ++
    emitSteps 2 Libs.sampleTime ⟨.started, .object []⟩

/-- Redis accepts everything, and yet the stream of the second task starts with the
number 1. -/
theorem not_streamsChained_twoTasks :
    ∃ s, (machine Libs.sample).Reachable (fun _ a => a.redisOk = true) s ∧ ¬ StreamsChained s := by
  have hseqs : ((machine Libs.sample).exec (fun _ a => a.redisOk = true) start twoTasks).map
      (fun s => (s.streams 2).map TaskEvent.seq) = some [1] := by decide +kernel
  obtain ⟨s, hs, hseq⟩ := Option.map_eq_some_iff.1 hseqs
  refine ⟨s, ⟨start, twoTasks, rfl, Machine.run_of_exec hs⟩, ?_⟩
  intro h
  obtain ⟨e, he, hone⟩ : ∃ e, s.streams 2 = [e] ∧ e.seq = 1 := by
    simpa [List.map_eq_singleton_iff] using hseq
  have hzero := (h 2).1.toInt_eq (i := 0) (e := e) (by rw [he]; rfl)
  rw [hone] at hzero
  exact absurd hzero (by decide)

end SharedEmitter

end AxonTask
