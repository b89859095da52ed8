import AxonTask.Worker.SharedEmitter

/-!
# From the adapters to the streams (`axontask-worker/src/orchestrator.rs`)

An adapter sends its events into an unbounded channel (`AdapterContext::emit`), and the
emission loop of the task takes them out one by one and calls `EventEmitter::emit`.  The loops
of all tasks share one emitter, and Redis may lose any event.  What arrives in the stream of a
task is a subsequence of what its adapter has sent.
-/

namespace AxonTask

open Lib

/-- The emission loops of a worker with their channels. -/
structure Forwarding where
  shared : SharedEmitter
  /-- What is in the channel of a task. -/
  channel : Uuid → List AdapterEvent
  /-- What the adapter of a task has sent. -/
  sent : Uuid → List AdapterEvent

/-- A step of an adapter or of an emission loop. -/
inductive ForwardStep
  /-- `AdapterContext::emit`. -/
  | send (taskId : Uuid) (event : AdapterEvent)
  /-- The loop receives an event, and `emit` takes the number and the time for it. -/
  | recv (taskId : Uuid) (ts : DateTime)
  /-- A later step of `emit`. -/
  | emit (a : EmitStep)

/-- The kind and the payload of an event. -/
def AdapterEvent.content (event : AdapterEvent) : String × JsonValue :=
  (event.kind.toString, event.payload)

/-- The kind and the payload of an entry of the stream. -/
def TaskEvent.content (e : TaskEvent) : String × JsonValue := (e.kind, e.payload)

/-- The kind and the payload of the event that a loop is emitting. -/
def EmitPc.content : EmitPc → List (String × JsonValue)
  | .idle => []
  | .numbered event _ _ => [event.content]
  | .hashed e | .stored e => [e.content]

lemma EventEmitter.content_taskEvent {L : Libs} {taskId : Uuid} {event : AdapterEvent}
    {seq : Int64} {ts : DateTime} {hashPrev : Option Bytes} {e : TaskEvent}
    (h : taskEvent L taskId event seq ts hashPrev = some e) : e.content = event.content := by
  obtain ⟨hashCurr, -, rfl⟩ := Option.map_eq_some_iff.1 h
  rfl

namespace SharedEmitter

variable {L : Libs} {s s' : SharedEmitter}

/-- The entries of the stream of a task, in kind and payload. -/
def contents (s : SharedEmitter) (t : Uuid) : List (String × JsonValue) :=
  (s.streams t).map TaskEvent.content

/-- The entries of the stream and the event that is being emitted. -/
def inTransit (s : SharedEmitter) (t : Uuid) : List (String × JsonValue) :=
  s.contents t ++ (s.pcs t).content

/-- A call of `emit` begins. -/
lemma inTransit_nextSeq {t : Uuid} {event : AdapterEvent} {ts : DateTime}
    (h : step L s (.nextSeq t event ts) = some s') :
    s'.inTransit t = s.inTransit t ++ [event.content] ∧
      ∀ u ≠ t, s'.inTransit u = s.inTransit u := by
  simp only [step] at h
  split at h
  · rename_i hpc
    cases h
    refine ⟨by simp [inTransit, contents, hpc, EmitPc.content], ?_⟩
    intro u hu
    simp [inTransit, contents, Function.update_of_ne hu]
  · cases h

/-- A step of another loop. -/
lemma step_of_ne {a : EmitStep} (h : step L s a = some s') {t : Uuid} (ht : t ≠ a.task) :
    s'.streams t = s.streams t ∧ s'.pcs t = s.pcs t := by
  rcases step_cases h with ⟨event, ts, -, -, rfl⟩ | ⟨event, seq, ts, -, rfl⟩ | ⟨e, -, rfl⟩ |
    ⟨e, -, rfl⟩
  · simp [Function.update_of_ne ht]
  · simp [Function.update_of_ne ht]
  · simp [Function.update_of_ne ht]
  · by_cases hok : a.redisOk = true
    · simp [Function.update_of_ne ht, hok]
    · simp [Function.update_of_ne ht, hok]

/-- Later the event stays what it is, or it is lost: when its hash cannot be computed, and when
Redis does not accept it. -/
lemma inTransit_cases {a : EmitStep} (ha : a.takesSeq = false) (h : step L s a = some s')
    (t : Uuid) :
    s'.inTransit t = s.inTransit t ∨
      s'.inTransit t = s.contents t ∧ (a.redisOk = false ∨ ∃ event seq ts hashPrev,
        EventEmitter.taskEvent L a.task event seq ts hashPrev = none) := by
  by_cases ht : t = a.task
  · subst ht
    rcases step_cases h with ⟨event, ts, -, htakes, -⟩ | ⟨event, seq, ts, hpc, rfl⟩ |
      ⟨e, hpc, rfl⟩ | ⟨e, hpc, rfl⟩
    · rw [ha] at htakes
      cases htakes
    · cases he : EventEmitter.taskEvent L a.task event seq ts s.emitter.prevHash with
      | none =>
        refine Or.inr ⟨?_, Or.inr ⟨event, seq, ts, _, he⟩⟩
        simp [inTransit, contents, EmitPc.content]
      | some e =>
        refine Or.inl ?_
        simp [inTransit, contents, hpc, EmitPc.content, EventEmitter.content_taskEvent he]
    · refine Or.inl ?_
      simp [inTransit, contents, hpc, EmitPc.content]
    · cases hok : a.redisOk with
      | true =>
        refine Or.inl ?_
        simp [inTransit, contents, hpc, EmitPc.content]
      | false =>
        refine Or.inr ⟨?_, Or.inl rfl⟩
        simp [inTransit, contents, EmitPc.content]
  · obtain ⟨hstream, hpc⟩ := step_of_ne h ht
    exact Or.inl (by simp only [inTransit, contents, hstream, hpc])

lemma inTransit_sublist {a : EmitStep} (ha : a.takesSeq = false) (h : step L s a = some s')
    (t : Uuid) : (s'.inTransit t).Sublist (s.inTransit t) := by
  rcases inTransit_cases ha h t with hkept | ⟨hlost, -⟩
  · rw [hkept]
  · rw [hlost]
    exact List.sublist_append_left _ _

/-- When Redis accepts the event and the payload can be printed, the event stays what it is. -/
lemma inTransit_of_redisOk (hserde : ∀ v, (L.serdeToString v).isSome = true) {a : EmitStep}
    (ha : a.takesSeq = false) (hok : a.redisOk = true) (h : step L s a = some s') (t : Uuid) :
    s'.inTransit t = s.inTransit t := by
  rcases inTransit_cases ha h t with hkept | ⟨-, hrefused | ⟨event, seq, ts, hashPrev, hnone⟩⟩
  · exact hkept
  · rw [hok] at hrefused
    cases hrefused
  · obtain ⟨e, he⟩ := EventEmitter.exists_taskEvent hserde a.task event seq ts hashPrev
    rw [hnone] at he
    cases he

/-! ### The numbers of a stream -/

/-- The numbers of every stream increase, and a number that its task holds is above them. -/
structure Increasing (s : SharedEmitter) : Prop where
  stream : ∀ t, (s.streams t).Pairwise fun a b => a.seq < b.seq
  held : ∀ t, ∀ e ∈ s.streams t, ∀ x, (s.pcs t).seq = some x → e.seq < x

lemma Increasing.start : Increasing start :=
  ⟨fun _ => List.Pairwise.nil, fun _ _ he => absurd he List.not_mem_nil⟩

lemma Increasing.step {a : EmitStep} (hC : NoOverflow s a) (hd : Distinct s) (hi : Increasing s)
    (h : step L s a = some s') : Increasing s' := by
  have hown : (s'.streams a.task).Pairwise (fun a b => a.seq < b.seq) ∧
      ∀ e ∈ s'.streams a.task, ∀ x, (s'.pcs a.task).seq = some x → e.seq < x := by
    have hstream := hi.stream a.task
    have hheld := hi.held a.task
    rcases step_cases h with ⟨event, ts, -, htakes, rfl⟩ | ⟨event, seq, ts, hpc, rfl⟩ |
      ⟨e, hpc, rfl⟩ | ⟨e, hpc, rfl⟩
    · -- the counter is above all numbers that were given
      refine ⟨hstream, ?_⟩
      intro e he x hx
      obtain rfl : s.emitter.seq = x := by simpa [EmitPc.seq] using hx
      exact Int64.lt_iff_toInt_lt.2 ((hd.below a.task e.seq (Or.inl ⟨e, he, rfl⟩)).2 (hC htakes))
    · refine ⟨hstream, ?_⟩
      intro e he x hx
      cases hte : EventEmitter.taskEvent L a.task event seq ts s.emitter.prevHash with
      | none => simp [hte, EmitPc.seq] at hx
      | some e' =>
        obtain ⟨-, hseq, -, -⟩ := EventEmitter.taskEvent_eq_some hte
        obtain rfl : seq = x := by simpa [hte, EmitPc.seq, hseq] using hx
        exact hheld e he seq (by rw [hpc]; rfl)
    · refine ⟨hstream, ?_⟩
      intro e' he x hx
      obtain rfl : e.seq = x := by simpa [EmitPc.seq] using hx
      exact hheld e' he e.seq (by rw [hpc]; rfl)
    · by_cases hok : a.redisOk = true
      · simp only [hok, if_true, streams_setPc, pcs_setPc, Function.update_self, EmitPc.seq]
        refine ⟨List.pairwise_append.2 ⟨hstream, List.pairwise_singleton _ _, ?_⟩, by simp⟩
        intro e' he' b hb
        rw [List.mem_singleton.1 hb]
        exact hheld e' he' e.seq (by rw [hpc]; rfl)
      · exact ⟨by simpa [hok] using hstream, by simp [hok, EmitPc.seq]⟩
  constructor
  · intro t
    by_cases ht : t = a.task
    · rw [ht]
      exact hown.1
    · rw [(step_of_ne h ht).1]
      exact hi.stream t
  · intro t
    by_cases ht : t = a.task
    · rw [ht]
      exact hown.2
    · rw [(step_of_ne h ht).1, (step_of_ne h ht).2]
      exact hi.held t

end SharedEmitter

namespace Forwarding

/-- A step. -/
def step (L : Libs) (s : Forwarding) : ForwardStep → Option Forwarding
  | .send t event =>
    some
      { s with
        channel := Function.update s.channel t (s.channel t ++ [event])
        sent := Function.update s.sent t (s.sent t ++ [event]) }
  | .recv t ts =>
    match s.channel t with
    | [] => none
    | event :: rest =>
      (s.shared.step L (.nextSeq t event ts)).map fun shared =>
        { s with shared, channel := Function.update s.channel t rest }
  | .emit a =>
    if a.takesSeq then none else (s.shared.step L a).map fun shared => { s with shared }

/-- Nothing has been sent. -/
def start : Forwarding := ⟨.start, fun _ => [], fun _ => []⟩

/-- The emission loops of a worker. -/
def machine (L : Libs) : Machine Forwarding ForwardStep where
  Init s := s = start
  step := step L

/-- The counter has not wrapped around when a number is taken. -/
def NoWrap (s : Forwarding) : ForwardStep → Prop
  | .recv .. => 0 ≤ s.shared.emitter.seq
  | _ => True

variable {L : Libs} {s s' : Forwarding} {t : Uuid}

/-! ### What a step does -/

/-- **Inversion of a step.** -/
lemma step_cases {a : ForwardStep} (h : step L s a = some s') :
    (∃ t event, a = .send t event ∧ s' = { s with
      channel := Function.update s.channel t (s.channel t ++ [event])
      sent := Function.update s.sent t (s.sent t ++ [event]) }) ∨
    (∃ t ts event rest shared, a = .recv t ts ∧ s.channel t = event :: rest ∧
      s.shared.step L (.nextSeq t event ts) = some shared ∧
      s' = { s with shared, channel := Function.update s.channel t rest }) ∨
    ∃ b shared, a = .emit b ∧ b.takesSeq = false ∧ s.shared.step L b = some shared ∧
      s' = { s with shared } := by
  cases a with
  | send t event =>
    cases h
    exact Or.inl ⟨t, event, rfl, rfl⟩
  | recv t ts =>
    simp only [step] at h
    split at h
    · cases h
    · rename_i event rest hchannel
      obtain ⟨shared, hshared, rfl⟩ := Option.map_eq_some_iff.1 h
      exact Or.inr (Or.inl ⟨t, ts, event, rest, shared, rfl, hchannel, hshared, rfl⟩)
  | emit b =>
    simp only [step] at h
    split at h
    · cases h
    · rename_i htakes
      obtain ⟨shared, hshared, rfl⟩ := Option.map_eq_some_iff.1 h
      exact Or.inr (Or.inr ⟨b, shared, rfl, by simpa using htakes, hshared, rfl⟩)

/-! ### The order of the events -/

/-- The events that the adapter of a task has sent, in kind and payload. -/
def sentContents (s : Forwarding) (t : Uuid) : List (String × JsonValue) :=
  (s.sent t).map AdapterEvent.content

/-- The stream, the event that is being emitted and the channel are, in this order, a
subsequence of what has been sent. -/
def Conveyed (s : Forwarding) : Prop := ∀ t,
  (s.shared.inTransit t ++ (s.channel t).map AdapterEvent.content).Sublist (s.sentContents t)

lemma Conveyed.start : Conveyed start := fun _ => List.Sublist.refl _

lemma Conveyed.step {a : ForwardStep} (hi : Conveyed s) (h : step L s a = some s') :
    Conveyed s' := by
  intro t
  rcases step_cases h with ⟨u, event, -, rfl⟩ | ⟨u, ts, event, rest, shared, -, hchannel, hs, rfl⟩ |
    ⟨b, shared, -, hb, hs, rfl⟩
  · -- the event goes to the end of the channel
    by_cases ht : t = u
    · subst ht
      simpa [sentContents, ← List.append_assoc] using
        (hi t).append (List.Sublist.refl [event.content])
    · simpa [sentContents, Function.update_of_ne ht] using hi t
  · -- the first event of the channel becomes the one that is being emitted
    obtain ⟨hown, hother⟩ := SharedEmitter.inTransit_nextSeq hs
    by_cases ht : t = u
    · subst ht
      simpa [sentContents, hown, hchannel] using hi t
    · simpa [sentContents, hother t ht, Function.update_of_ne ht] using hi t
  · exact ((SharedEmitter.inTransit_sublist hb hs t).append (List.Sublist.refl _)).trans (hi t)

lemma conveyed_of_reachable (h : (machine L).Reachable Machine.anyStep s) : Conveyed s := by
  refine h.invariant ?_ fun _ _ _ _ hi => hi.step
  rintro s rfl
  exact Conveyed.start

/-- The stream, the event that is being emitted and the channel. -/
def carried (s : Forwarding) (t : Uuid) : List (String × JsonValue) :=
  s.shared.inTransit t ++ (s.channel t).map AdapterEvent.content

/-- Redis does not fail in this step. -/
def redisOk : ForwardStep → Bool
  | .emit b => b.redisOk
  | _ => true

/-- The step sends nothing for the task. -/
def keepsSilent (t : Uuid) : ForwardStep → Bool
  | .send t' _ => decide (t' ≠ t)
  | _ => true

/-- What is sent is carried on. -/
lemma carried_send {event : AdapterEvent} (h : step L s (.send t event) = some s') :
    s'.carried t = s.carried t ++ [event.content] ∧ s'.sent t = s.sent t ++ [event] := by
  cases h
  simp [carried]

/-- Nothing is lost on the way, as long as Redis does not fail. -/
lemma carried_of_redisOk (hserde : ∀ v, (L.serdeToString v).isSome = true) {a : ForwardStep}
    (hok : redisOk a = true) (hsilent : keepsSilent t a = true) (h : step L s a = some s') :
    s'.carried t = s.carried t ∧ s'.sent t = s.sent t := by
  rcases step_cases h with ⟨u, event, rfl, rfl⟩ |
    ⟨u, ts, event, rest, shared, rfl, hchannel, hs, rfl⟩ | ⟨b, shared, rfl, hb, hs, rfl⟩
  · have hne : u ≠ t := by simpa [keepsSilent] using hsilent
    simp [carried, Function.update_of_ne hne.symm]
  · obtain ⟨hown, hother⟩ := SharedEmitter.inTransit_nextSeq hs
    by_cases ht : t = u
    · subst ht
      simp [carried, hown, hchannel]
    · simp [carried, hother t ht, Function.update_of_ne ht]
  · simp [carried, SharedEmitter.inTransit_of_redisOk hserde hb hok hs t]

/-- As long as the counter does not wrap around, the numbers are given in order. -/
lemma increasing_of_noWrap (h : (machine L).Reachable NoWrap s) :
    s.shared.Distinct ∧ s.shared.Increasing := by
  refine h.invariant (P := fun s => s.shared.Distinct ∧ s.shared.Increasing) ?_ ?_
  · rintro s rfl
    exact ⟨SharedEmitter.Distinct.start, SharedEmitter.Increasing.start⟩
  · rintro s a s' hC ⟨hd, hi⟩ hstep
    rcases step_cases hstep with ⟨t, event, -, rfl⟩ |
      ⟨t, ts, event, rest, shared, rfl, -, hs, rfl⟩ | ⟨b, shared, -, hb, hs, rfl⟩
    · exact ⟨hd, hi⟩
    · have hno : s.shared.NoOverflow (.nextSeq t event ts) := fun _ => hC
      exact ⟨hd.step hno hs, hi.step hno hd hs⟩
    · have hno : s.shared.NoOverflow b := fun htakes => absurd htakes (by simp [hb])
      exact ⟨hd.step hno hs, hi.step hno hd hs⟩

/-- The entries of every stream are a subsequence of what has been sent, none of them occurs
more often than it was sent, and their numbers increase. -/
def StreamOrder (s : Forwarding) : Prop := ∀ t,
  (s.shared.contents t).Sublist (s.sentContents t) ∧
    (∀ p, (s.shared.contents t).countP p ≤ (s.sentContents t).countP p) ∧
    (s.shared.streams t).Pairwise fun a b => a.seq < b.seq

/-- **The order of the streams.**  Whatever is lost, a stream is a subsequence of what the
adapter has sent; its numbers increase until the counter wraps around. -/
theorem streamOrder (L : Libs) :
    (∀ s, (machine L).Reachable Machine.anyStep s → ∀ t,
      (s.shared.contents t).Sublist (s.sentContents t) ∧
        ∀ p, (s.shared.contents t).countP p ≤ (s.sentContents t).countP p) ∧
    ∀ s, (machine L).Reachable NoWrap s → StreamOrder s := by
  have hsub : ∀ s, (machine L).Reachable Machine.anyStep s → ∀ t,
      (s.shared.contents t).Sublist (s.sentContents t) := by
    intro s h t
    refine (List.Sublist.trans ?_ (List.sublist_append_left _ _)).trans (conveyed_of_reachable h t)
    exact List.sublist_append_left _ _
  refine ⟨fun s h t => ⟨hsub s h t, fun p => (hsub s h t).countP_le⟩, ?_⟩
  intro s h t
  obtain ⟨s₀, l, h₀, hrun⟩ := h
  have hany : (machine L).Reachable Machine.anyStep s :=
    ⟨s₀, l, h₀, hrun.mono fun _ _ _ => trivial⟩
  exact ⟨hsub s hany t, fun p => (hsub s hany t).countP_le,
    (increasing_of_noWrap ⟨s₀, l, h₀, hrun⟩).2.stream t⟩

/-! ### After 2^63 events -/

/-- The steps by which an event is sent and written. -/
def forwardSteps (t : Uuid) (ts : DateTime) (event : AdapterEvent) : List ForwardStep :=
  [.send t event, .recv t ts, .emit (.computeHash t), .emit (.setPrevHash t), .emit (.xadd t true)]

instance (s : Forwarding) (a : ForwardStep) : Decidable (NoWrap s a) :=
  match a with
  | .send .. => isTrue trivial
  | .recv .. => inferInstanceAs (Decidable (_ ≤ _))
  | .emit _ => isTrue trivial

/-- Two tasks send in turn, and the second event of the first task is lost. -/
def lossySteps : List ForwardStep :=
  forwardSteps 1 Libs.sampleTime ⟨.started, .object []⟩ ++
    forwardSteps 2 Libs.sampleTime ⟨.started, .object []⟩ ++
    [.send 1 ⟨.stdout, .object []⟩, .recv 1 Libs.sampleTime, .emit (.computeHash 1),
      .emit (.setPrevHash 1), .emit (.xadd 1 false)] ++
    forwardSteps 1 Libs.sampleTime ⟨.progress, .object []⟩

/-- The stream has the first and the third event that the task has sent. -/
theorem streamOrder_lossySteps :
    ∃ s, (machine Libs.sample).exec NoWrap start lossySteps = some s ∧
      (s.shared.streams 1).map TaskEvent.seq = [0, 3] ∧
      (s.sent 1).map AdapterEvent.kind = [.started, .stdout, .progress] ∧ StreamOrder s := by
  have hrun : ((machine Libs.sample).exec NoWrap start lossySteps).map
      (fun s => ((s.shared.streams 1).map TaskEvent.seq, (s.sent 1).map AdapterEvent.kind)) =
      some ([0, 3], [.started, .stdout, .progress]) := by decide +kernel
  obtain ⟨s, hs, hobs⟩ := Option.map_eq_some_iff.1 hrun
  obtain ⟨hstream, hsent⟩ := Prod.mk.inj hobs
  exact ⟨s, hs, hstream, hsent,
    (streamOrder Libs.sample).2 s ⟨start, _, rfl, Machine.run_of_exec hs⟩⟩

/-- An event that is sent to an idle loop is written with the number of the counter. -/
lemma exists_run_forwardSteps (event : AdapterEvent)
    (hjson : (L.serdeToString event.payload).isSome = true) (ts : DateTime)
    (hidle : s.shared.pcs t = .idle) (hempty : s.channel t = []) :
    ∃ s' e, (machine L).Run Machine.anyStep s (forwardSteps t ts event) s' ∧
      s'.shared.streams t = s.shared.streams t ++ [e] ∧ e.seq = s.shared.emitter.seq ∧
      s'.shared.emitter.seq = s.shared.emitter.seq + 1 ∧ s'.shared.pcs t = .idle ∧
      s'.channel t = [] := by
  obtain ⟨json, hjson⟩ := Option.isSome_iff_exists.1 hjson
  obtain ⟨e, he⟩ : ∃ e, EventEmitter.taskEvent L t event s.shared.emitter.seq ts
      s.shared.emitter.prevHash = some e := by
    simp [EventEmitter.taskEvent, EventEmitter.computeHash, EventEmitter.hashInput, hjson]
  have hpcs : Function.update s.shared.pcs t .idle = s.shared.pcs := by
    rw [← hidle, Function.update_eq_self]
  have hchannel : Function.update s.channel t [] = s.channel := by
    rw [← hempty, Function.update_eq_self]
  have hexec : (machine L).exec Machine.anyStep s (forwardSteps t ts event) = some
      { shared :=
          { emitter := ⟨s.shared.emitter.seq + 1, some e.hashCurr⟩
            pcs := s.shared.pcs
            streams := Function.update s.shared.streams t (s.shared.streams t ++ [e]) }
        channel := s.channel
        sent := Function.update s.sent t (s.sent t ++ [event]) } := by
    simp [Machine.exec, Machine.anyStep, forwardSteps, machine, step, SharedEmitter.step,
      SharedEmitter.setPc, EmitStep.takesSeq, hidle, hempty, he, EmitterState.nextSeq,
      EmitterState.setPrevHash, hpcs, hchannel]
  exact ⟨_, e, Machine.run_of_exec hexec, by simp, (EventEmitter.taskEvent_eq_some he).2.1, rfl,
    hidle, hempty⟩

/-- Every number of events can be sent and written. -/
lemma exists_counted (t : Uuid) (n : ℕ) :
    ∃ s, (machine Libs.sample).Reachable Machine.anyStep s ∧ s.shared.pcs t = .idle ∧
      s.channel t = [] ∧ s.shared.emitter.seq = Int64.ofNat (s.shared.streams t).length ∧
      (s.shared.streams t).length = n ∧ Counted TaskEvent.seq (s.shared.streams t) := by
  induction n with
  | zero => exact ⟨start, Machine.Reachable.init rfl, rfl, rfl, rfl, rfl, counted_nil⟩
  | succ n ih =>
    obtain ⟨s, hs, hidle, hempty, hseq, hlen, hcounted⟩ := ih
    obtain ⟨s', e, hrun, hstream, he, hseq', hidle', hempty'⟩ :=
      exists_run_forwardSteps (L := Libs.sample) ⟨.stdout, .object []⟩ rfl Libs.sampleTime hidle
        hempty
    refine ⟨s', hs.run hrun, hidle', hempty', ?_, ?_, ?_⟩
    · simp [hseq', hstream, hseq, Int64.ofNat_add]
    · simp [hstream, hlen]
    · rw [hstream]
      exact counted_concat.2 ⟨hcounted, he.trans hseq⟩

/-- The number after 2^63 events is a negative one. -/
theorem not_streamOrder_wrap :
    ∃ s, (machine Libs.sample).Reachable Machine.anyStep s ∧ ¬ StreamOrder s := by
  obtain ⟨s, hs, -, -, -, hlen, hcounted⟩ := exists_counted 1 (2 ^ 63 + 1)
  refine ⟨s, hs, ?_⟩
  intro h
  -- the entries with the numbers 0 and -2^63
  have hlast : 2 ^ 63 < (s.shared.streams 1).length := by omega
  have hfirst : 0 < (s.shared.streams 1).length := by omega
  have hlt := List.pairwise_iff_getElem.1 (h 1).2.2 0 (2 ^ 63) hfirst hlast (by omega)
  rw [hcounted.seq_getElem, hcounted.seq_getElem] at hlt
  exact absurd hlt (by decide +kernel)

end Forwarding

end AxonTask
