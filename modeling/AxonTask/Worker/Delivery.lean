import AxonTask.Shared.LiveTail
import AxonTask.Worker.Forwarding

/-!
# From the adapter to the client

The whole way of the events of one task: the adapter sends them, the emission loop numbers and
hashes them, `serialize_event` prints them, `XADD` appends them to the stream of the task, and a
client reads them with `read_backfill` and `read_live`.  What the client has at any moment is,
event by event, a part of what the emitter has written, and so a subsequence of what the
adapter has sent.
-/

namespace AxonTask

open Lib

/-- A worker, and a client that follows the stream of one of its tasks. -/
structure Delivery where
  worker : Forwarding
  tail : StreamReader.Tail

/-- A step of the worker or of the client. -/
inductive DeliveryStep
  /-- Redis gives the identifier to the entry, if the step adds one to the stream. -/
  | worker (a : ForwardStep) (id : StreamId)
  | client (a : StreamReader.TailStep)

/-- The event that a step adds to the stream of a task. -/
def Forwarding.written (s : Forwarding) (t : Uuid) : ForwardStep → Option TaskEvent
  | .emit (.xadd u true) =>
    match s.shared.pcs u with
    | .stored e => if u = t then some e else none
    | _ => none
  | _ => none

namespace Delivery

variable (L : Libs) (P : EventParsers) (config : StreamReaderConfig) (t : Uuid)

/-- The state after a step. -/
def step (s : Delivery) : DeliveryStep → Option Delivery
  | .worker a id =>
    (s.worker.step L a).bind fun worker =>
      match s.worker.written t a with
      | none => some { s with worker }
      | some e =>
        match serializeEvent L e with
        | .error _ => none
        | .ok fields =>
          (s.tail.step P config (.append (.ofFields id fields))).map fun tail => ⟨worker, tail⟩
  | .client (.append _) => none
  | .client a => (s.tail.step P config a).map fun tail => { s with tail }

/-- A fresh worker, an empty stream, and a client that starts after an identifier. -/
def machine (start : StreamId) : Machine Delivery DeliveryStep where
  Init s := s.worker = .start ∧ s.tail.stream = .empty ∧ s.tail.StartsAfter start
  step := step L P config t

variable {L : Libs} {P : EventParsers} {config : StreamReaderConfig} {t : Uuid} {s s' : Delivery}

/-! ### What a step does -/

/-- **Inversion of a step.** -/
lemma step_cases {a : DeliveryStep} (h : step L P config t s a = some s') :
    (∃ b id, a = .worker b id ∧ s.worker.step L b = some s'.worker ∧
      ((s.worker.written t b = none ∧ s'.tail = s.tail) ∨
        ∃ e fields, s.worker.written t b = some e ∧ serializeEvent L e = .ok fields ∧
          s.tail.step P config (.append (.ofFields id fields)) = some s'.tail)) ∨
    ∃ b, a = .client b ∧ (∀ e, b ≠ .append e) ∧ s'.worker = s.worker ∧
      s.tail.step P config b = some s'.tail := by
  cases a with
  | worker b id =>
    simp only [step] at h
    obtain ⟨worker, hworker, h⟩ := Option.bind_eq_some_iff.1 h
    refine Or.inl ⟨b, id, rfl, ?_⟩
    cases hwritten : s.worker.written t b with
    | none =>
      rw [hwritten] at h
      cases h
      exact ⟨hworker, Or.inl ⟨rfl, rfl⟩⟩
    | some e =>
      rw [hwritten] at h
      cases hfields : serializeEvent L e with
      | error => simp [hfields] at h
      | ok fields =>
        simp only [hfields] at h
        obtain ⟨tail, htail, rfl⟩ := Option.map_eq_some_iff.1 h
        exact ⟨hworker, Or.inr ⟨e, fields, rfl, hfields, htail⟩⟩
  | client b =>
    cases b with
    | append e => cases h
    | _ =>
      obtain ⟨tail, htail, rfl⟩ := Option.map_eq_some_iff.1 h
      exact Or.inr ⟨_, rfl, by simp, rfl, htail⟩

/-- A step of the worker appends what it writes. -/
lemma streams_of_step {w w' : Forwarding} {a : ForwardStep} (h : w.step L a = some w') :
    w'.shared.streams t = w.shared.streams t ++ (w.written t a).toList := by
  rcases Forwarding.step_cases h with ⟨u, event, rfl, rfl⟩ |
    ⟨u, ts, event, rest, shared, rfl, -, hs, rfl⟩ | ⟨b, shared, rfl, hb, hs, rfl⟩
  · simp [Forwarding.written]
  · simp only [SharedEmitter.step] at hs
    split at hs <;> cases hs
    simp [Forwarding.written]
  · cases b with
    | nextSeq => cases hb
    | computeHash u =>
      simp only [SharedEmitter.step] at hs
      split at hs
      · split at hs <;> cases hs <;> simp [Forwarding.written]
      · cases hs
    | setPrevHash u =>
      simp only [SharedEmitter.step] at hs
      split at hs <;> cases hs
      simp [Forwarding.written]
    | xadd u accepted =>
      simp only [SharedEmitter.step] at hs
      split at hs <;> cases hs
      rename_i e hpc
      cases accepted with
      | false => simp [Forwarding.written]
      | true =>
        by_cases hu : u = t
        · subst hu
          simp [Forwarding.written, hpc]
        · simp [Forwarding.written, hpc, hu, Function.update_of_ne (Ne.symm hu)]

/-! ### What can be read back -/

/-- The event can be read back from what is printed for it. -/
structure Printable (payloads : Set JsonValue) (e : TaskEvent) : Prop where
  ts : Rfc3339.FourDigitYear e.ts
  hashPrev : e.hashPrev ≠ some []
  payload : e.payload ∈ payloads

/-- The same of an event that is on its way through `emit`. -/
def PrintablePc (payloads : Set JsonValue) : EmitPc → Prop
  | .idle => True
  | .numbered event _ ts => event.payload ∈ payloads ∧ Rfc3339.FourDigitYear ts
  | .hashed e | .stored e => Printable payloads e

/-- What is sent for the task and the times taken for it can be read back. -/
def Readable (payloads : Set JsonValue) (t : Uuid) : ForwardStep → Prop
  | .send u event => u = t → event.payload ∈ payloads
  | .recv u ts => u = t → Rfc3339.FourDigitYear ts
  | .emit _ => True

/-- All that the worker holds for the task can be read back, and no hash is empty. -/
structure Sound (payloads : Set JsonValue) (t : Uuid) (w : Forwarding) : Prop where
  channel : ∀ event ∈ w.channel t, event.payload ∈ payloads
  pc : PrintablePc payloads (w.shared.pcs t)
  hashed : ∀ u e, w.shared.pcs u = .hashed e → e.hashCurr ≠ []
  prevHash : w.shared.emitter.prevHash ≠ some []

variable {payloads : Set JsonValue} {w w' : Forwarding}

lemma Sound.start : Sound payloads t .start :=
  ⟨by simp [Forwarding.start], trivial, by simp [Forwarding.start, SharedEmitter.start],
    by simp [Forwarding.start, SharedEmitter.start, EmitterState.new]⟩

/-- The event that `emit` builds. -/
lemma printable_taskEvent {event : AdapterEvent} {seq : Int64} {ts : DateTime} {u : Uuid}
    {e : TaskEvent} (hi : Sound payloads t w) (hpayload : event.payload ∈ payloads)
    (hts : Rfc3339.FourDigitYear ts)
    (he : EventEmitter.taskEvent L u event seq ts w.shared.emitter.prevHash = some e) :
    Printable payloads e := by
  obtain ⟨hashCurr, -, rfl⟩ := Option.map_eq_some_iff.1 he
  exact ⟨hts, hi.prevHash, hpayload⟩

/-- A step of `emit` concerns one task. -/
lemma Sound.of_emit (hi : Sound payloads t w) {b : EmitStep} {shared : SharedEmitter}
    (hs : w.shared.step L b = some shared)
    (hpc : b.task = t → PrintablePc payloads (shared.pcs b.task))
    (hhashed : ∀ e, shared.pcs b.task = .hashed e → e.hashCurr ≠ [])
    (hprev : shared.emitter.prevHash ≠ some []) : Sound payloads t { w with shared } := by
  refine ⟨hi.channel, ?_, ?_, hprev⟩
  · by_cases ht : t = b.task
    · rw [ht]
      exact hpc ht.symm
    · show PrintablePc payloads (shared.pcs t)
      rw [(SharedEmitter.step_of_ne hs ht).2]
      exact hi.pc
  · intro u e he
    by_cases hu : u = b.task
    · exact hhashed e (hu ▸ he)
    · exact hi.hashed u e ((SharedEmitter.step_of_ne hs hu).2 ▸ he)

/-- The steps of `emit` after the first one. -/
lemma Sound.emit (hsha : ∀ b, L.sha256 b ≠ []) (hi : Sound payloads t w) {b : EmitStep}
    {shared : SharedEmitter} (hb : b.takesSeq = false) (hs : w.shared.step L b = some shared) :
    Sound payloads t { w with shared } := by
  have hpc : b.task = t → PrintablePc payloads (w.shared.pcs b.task) := fun ht => ht ▸ hi.pc
  rcases SharedEmitter.step_cases hs with ⟨event, ts, -, htakes, -⟩ |
    ⟨event, seq, ts, hnumbered, rfl⟩ | ⟨e, hhashed, rfl⟩ | ⟨e, hstored, rfl⟩
  · rw [hb] at htakes
    cases htakes
  · rw [hnumbered] at hpc
    refine hi.of_emit hs ?_ ?_ hi.prevHash
    · intro ht
      cases he : EventEmitter.taskEvent L b.task event seq ts w.shared.emitter.prevHash with
      | none => simp [PrintablePc]
      | some e => simpa [PrintablePc] using printable_taskEvent hi (hpc ht).1 (hpc ht).2 he
    · intro e hpc'
      cases he : EventEmitter.taskEvent L b.task event seq ts w.shared.emitter.prevHash with
      | none => simp [he] at hpc'
      | some e' =>
        obtain rfl : e' = e := by simpa [he] using hpc'
        obtain ⟨-, -, -, input, -, hcurr⟩ := EventEmitter.taskEvent_eq_some he
        rw [hcurr]
        exact hsha input
  · refine hi.of_emit hs ?_ (by simp) ?_
    · intro ht
      rw [hhashed] at hpc
      simpa [PrintablePc] using hpc ht
    · simpa [EmitterState.setPrevHash] using hi.hashed b.task e hhashed
  · exact hi.of_emit hs (by simp [PrintablePc]) (by simp) hi.prevHash

lemma Sound.step (hsha : ∀ b, L.sha256 b ≠ []) {a : ForwardStep} (ha : Readable payloads t a)
    (hi : Sound payloads t w) (h : w.step L a = some w') : Sound payloads t w' := by
  rcases Forwarding.step_cases h with ⟨u, event, rfl, rfl⟩ |
    ⟨u, ts, event, rest, shared, rfl, hchannel, hs, rfl⟩ | ⟨b, shared, rfl, hb, hs, rfl⟩
  · refine { hi with channel := ?_ }
    intro event' hevent'
    by_cases hu : u = t
    · subst hu
      simp only [Function.update_self, List.mem_append, List.mem_singleton] at hevent'
      rcases hevent' with hold | rfl
      · exact hi.channel event' hold
      · exact ha rfl
    · simp only [Function.update_of_ne (Ne.symm hu)] at hevent'
      exact hi.channel event' hevent'
  · have hemit : Sound payloads t { w with shared } := by
      have hpc : u = t → PrintablePc payloads (.numbered event w.shared.emitter.seq ts) := by
        rintro rfl
        exact ⟨hi.channel event (hchannel ▸ List.mem_cons_self), ha rfl⟩
      refine hi.of_emit hs ?_ ?_ ?_ <;> simp only [SharedEmitter.step] at hs <;>
        split at hs <;> cases hs
      · simpa [EmitStep.task, EmitterState.nextSeq] using hpc
      · simp [EmitStep.task]
      · exact hi.prevHash
    refine { hemit with channel := ?_ }
    intro event' hevent'
    by_cases hu : u = t
    · subst hu
      simp only [Function.update_self] at hevent'
      exact hi.channel event' (hchannel ▸ List.mem_cons_of_mem _ hevent')
    · simp only [Function.update_of_ne (Ne.symm hu)] at hevent'
      exact hi.channel event' hevent'
  · exact hi.emit hsha hb hs

/-! ### The stream and the worker -/

/-- The stream is decoded to the events that the emitter has written. -/
def Mirrors (P : EventParsers) (s : Delivery) (t : Uuid) : Prop :=
  (StreamReader.parseReply P s.tail.stream.entries).map Prod.snd = s.worker.shared.streams t

/-- The invariant of the way. -/
structure Inv (P : EventParsers) (payloads : Set JsonValue) (t : Uuid) (s : Delivery) : Prop where
  sound : Sound payloads t s.worker
  mirrors : Mirrors P s t

/-- What the worker writes can be read back. -/
lemma printable_written (hi : Sound payloads t w) {a : ForwardStep} {e : TaskEvent}
    (h : w.written t a = some e) : Printable payloads e := by
  unfold Forwarding.written at h
  split at h
  · rename_i u
    split at h
    · rename_i e' hpc
      obtain ⟨rfl, heq⟩ := Option.ite_none_right_eq_some.1 h
      obtain rfl : e' = e := Option.some.inj heq
      have hstored := hi.pc
      rwa [hpc] at hstored
    · cases h
  · cases h

lemma Inv.step (hP : P.Inverts L payloads) (hsha : ∀ b, L.sha256 b ≠ []) {a : DeliveryStep}
    (ha : ∀ b id, a = .worker b id → Readable payloads t b) (hi : Inv P payloads t s)
    (h : step L P config t s a = some s') : Inv P payloads t s' := by
  rcases step_cases h with ⟨b, id, rfl, hworker, hwrite⟩ | ⟨b, rfl, hb, hworker, htail⟩
  · refine ⟨hi.sound.step hsha (ha b id rfl) hworker, ?_⟩
    have hstreams := streams_of_step (t := t) hworker
    rcases hwrite with ⟨hnone, htail⟩ | ⟨e, fields, hsome, hfields, htail⟩
    · simpa [Mirrors, hstreams, hnone, htail] using hi.mirrors
    · have hprint := printable_written hi.sound hsome
      have hentries : s'.tail.stream.entries = s.tail.stream.entries ++ [.ofFields id fields] := by
        obtain ⟨stream, hadd, htail⟩ := Option.map_eq_some_iff.1 htail
        rw [← htail]
        exact (Stream.add_eq_some hadd).2
      have hdecode :=
        RawEntry.decode_ofFields hP hprint.ts hprint.hashPrev hprint.payload hfields id
      rw [Mirrors, hentries, hstreams, hsome, StreamReader.parseReply, List.filterMap_append,
        List.map_append, ← hi.mirrors]
      simp [hdecode, StreamReader.parseReply]
  · refine ⟨hworker ▸ hi.sound, ?_⟩
    have hstream : s'.tail.stream = s.tail.stream := by
      revert htail
      generalize s'.tail = tail
      intro htail
      cases StreamReader.Tail.effect_of_step htail with
      | append => exact absurd rfl (hb _)
      | _ => rfl
    rw [Mirrors, hstream, hworker]
    exact hi.mirrors

/-! ### What the client has -/

/-- The payloads and times of the watched task can be read back. -/
def Admissible (payloads : Set JsonValue) (t : Uuid) (_ : Delivery) : DeliveryStep → Prop
  | .worker a _ => Readable payloads t a
  | .client _ => True

/-- And Redis does not fail. -/
def Reliable (payloads : Set JsonValue) (t : Uuid) (_ : Delivery) : DeliveryStep → Prop
  | .worker a _ => Readable payloads t a ∧ Forwarding.redisOk a = true
  | .client _ => True

/-- There is no entry after the last event that the client has. -/
def CaughtUp (start : StreamId) (s : Delivery) : Prop :=
  ∀ e ∈ s.tail.stream.entries, e.id ≤ StreamReader.Tail.lastReturned start s.tail.returned

/-- The emission loop of the task has nothing left to do. -/
def Drained (t : Uuid) (s : Delivery) : Prop :=
  s.worker.channel t = [] ∧ s.worker.shared.pcs t = .idle

variable {start : StreamId}

lemma inv_of_reachable (hP : P.Inverts L payloads) (hsha : ∀ b, L.sha256 b ≠ [])
    (h : (machine L P config t start).Reachable (Admissible payloads t) s) :
    Inv P payloads t s := by
  refine h.invariant (P := Inv P payloads t) ?_ ?_
  · rintro ⟨worker, tail⟩ ⟨rfl, hstream, -⟩
    exact ⟨Sound.start, by rw [Mirrors, show tail.stream = .empty from hstream]; rfl⟩
  · intro s a s' ha hi hstep
    refine hi.step hP hsha ?_ hstep
    rintro b id rfl
    exact ha

/-- On the client's side, a run is a run of a client beside others that append. -/
lemma tail_reachable {C : Delivery → DeliveryStep → Prop}
    (h : (machine L P config t start).Reachable C s) :
    (StreamReader.Tail.machine P config (StreamReader.Tail.StartsAfter start)).Reachable
      Machine.anyStep s.tail := by
  refine h.project Delivery.tail ?_ ?_
  · rintro s ⟨-, -, hstart⟩
    exact Machine.Reachable.init hstart
  intro s a s' _ _ hstep
  rcases step_cases hstep with ⟨b, id, -, -, ⟨-, hsame⟩ | ⟨e, fields, -, -, htail⟩⟩ |
    ⟨b, -, -, -, htail⟩
  · exact Or.inl hsame
  · exact Or.inr ⟨.append (.ofFields id fields), htail⟩
  · exact Or.inr ⟨b, htail⟩

/-- On the worker's side it is a run of the emission loops. -/
lemma worker_reachable {C : Delivery → DeliveryStep → Prop}
    (h : (machine L P config t start).Reachable C s) :
    (Forwarding.machine L).Reachable Machine.anyStep s.worker := by
  refine h.project Delivery.worker ?_ ?_
  · rintro s ⟨hstart, -⟩
    exact Machine.Reachable.init hstart
  intro s a s' _ _ hstep
  rcases step_cases hstep with ⟨b, id, -, hworker, -⟩ | ⟨b, -, -, hsame, -⟩
  · exact Or.inr ⟨b, hworker⟩
  · exact Or.inl hsame

/-- As long as Redis does not fail, all that was sent is carried on. -/
lemma carried_of_reachable (hserde : ∀ v, (L.serdeToString v).isSome = true)
    (h : (machine L P config t start).Reachable (Reliable payloads t) s) :
    s.worker.carried t = s.worker.sentContents t := by
  refine h.invariant (P := fun s => s.worker.carried t = s.worker.sentContents t) ?_ ?_
  · rintro ⟨worker, tail⟩ ⟨rfl, -⟩
    rfl
  · intro s a s' ha hi hstep
    rcases step_cases hstep with ⟨b, id, rfl, hworker, -⟩ | ⟨b, rfl, -, hsame, -⟩
    · by_cases hsilent : Forwarding.keepsSilent t b = true
      · obtain ⟨hcarried, hsent⟩ := Forwarding.carried_of_redisOk hserde ha.2 hsilent hworker
        rw [hcarried, Forwarding.sentContents, hsent]
        exact hi
      · obtain ⟨event, rfl⟩ : ∃ event, b = .send t event := by
          cases b with
          | send u event =>
            obtain rfl : u = t := by simpa [Forwarding.keepsSilent] using hsilent
            exact ⟨event, rfl⟩
          | _ => exact absurd rfl hsilent
        obtain ⟨hcarried, hsent⟩ := Forwarding.carried_send hworker
        rw [hcarried, Forwarding.sentContents, hsent, List.map_append, hi]
        rfl
    · rw [hsame]
      exact hi

/-- What the client has is a part of what the emitter has written. -/
lemma Inv.split (hi : Inv P payloads t s)
    (h : (StreamReader.Tail.machine P config (StreamReader.Tail.StartsAfter start)).Reachable
      Machine.anyStep s.tail) :
    ∃ before after, s.worker.shared.streams t = before ++ s.tail.returned.map Prod.snd ++ after ∧
      (start = .zero → before = []) ∧ (s.CaughtUp start → after = []) := by
  have hfollows := StreamReader.Tail.follows_of_reachable h
  have hcursor : s.tail.lastId.getD start =
      StreamReader.Tail.lastReturned start s.tail.returned := by
    rw [StreamReader.Tail.lastId_of_reachable h]
    rfl
  have hsplit := StreamLog.upTo_append_after s.tail.stream.increasing start
  rw [← StreamLog.window_append_after s.tail.stream.increasing hfollows.start_le,
    ← List.append_assoc] at hsplit
  have hmirrors := hi.mirrors
  have hreturned := hfollows.returned
  rw [StreamReader.parseReply] at hreturned
  rw [Mirrors, ← hsplit, StreamReader.parseReply, List.filterMap_append, List.filterMap_append,
    List.map_append, List.map_append, ← hreturned] at hmirrors
  refine ⟨_, _, hmirrors.symm, ?_, ?_⟩
  · rintro rfl
    have hnone : StreamLog.upTo RawEntry.id .zero s.tail.stream.entries = [] := by
      rw [StreamLog.upTo, List.filter_eq_nil_iff]
      intro e he
      simpa using s.tail.stream.pos e he
    rw [hnone]
    rfl
  · intro hcaught
    have hnone :
        StreamLog.after RawEntry.id (s.tail.lastId.getD start) s.tail.stream.entries = [] := by
      rw [StreamLog.after, List.filter_eq_nil_iff]
      intro e he
      rw [hcursor]
      simpa using hcaught e he
    rw [hnone]
    rfl

/-- **End to end.**  Whatever the interleaving of all tasks of the worker, the client and the
failures of Redis, what a client has is, with its numbers and hashes, a contiguous part of what
the emitter has written for the task: from the beginning, if the client starts there, and to the
end, if the client has read all entries.  In kind and payload it is a subsequence of what the
adapter has sent.  Once the emission loop and the client are done and Redis has not failed, it is
the last part of what the adapter has sent, and all of it if the client starts at the
beginning. -/
theorem delivery (hP : P.Inverts L payloads) (hsha : ∀ b, L.sha256 b ≠ [])
    (hserde : ∀ v, (L.serdeToString v).isSome = true) :
    (∀ start s, (machine L P config t start).Reachable (Admissible payloads t) s →
      (∃ before after,
        s.worker.shared.streams t = before ++ s.tail.returned.map Prod.snd ++ after ∧
          (start = .zero → before = []) ∧ (s.CaughtUp start → after = [])) ∧
      (s.tail.returned.map fun y => y.2.content).Sublist (s.worker.sentContents t)) ∧
    ∀ start s, (machine L P config t start).Reachable (Reliable payloads t) s → s.Drained t →
      s.CaughtUp start →
      (s.tail.returned.map fun y => y.2.content) <:+ s.worker.sentContents t ∧
        (start = .zero →
          (s.tail.returned.map fun y => y.2.content) = s.worker.sentContents t) := by
  have hcontents : ∀ s : Delivery, (s.tail.returned.map fun y => y.2.content) =
      (s.tail.returned.map Prod.snd).map TaskEvent.content := by
    intro s
    rw [List.map_map]
    rfl
  constructor
  · intro start s h
    have hsplit := (inv_of_reachable hP hsha h).split (tail_reachable h)
    refine ⟨hsplit, ?_⟩
    obtain ⟨before, after, hstream, -⟩ := hsplit
    have hpart : (s.tail.returned.map Prod.snd).Sublist (s.worker.shared.streams t) := by
      rw [hstream, List.append_assoc]
      exact (List.sublist_append_left _ _).trans (List.sublist_append_right _ _)
    have hstreams : (s.worker.shared.contents t).Sublist (s.worker.sentContents t) := by
      refine (List.Sublist.trans ?_ (List.sublist_append_left _ _)).trans
        (Forwarding.conveyed_of_reachable (worker_reachable h) t)
      exact List.sublist_append_left _ _
    rw [hcontents]
    exact (hpart.map _).trans hstreams
  · rintro start s h ⟨hchannel, hpc⟩ hcaught
    have hadmissible : (machine L P config t start).Reachable (Admissible payloads t) s := by
      obtain ⟨s₀, l, h₀, hrun⟩ := h
      refine ⟨s₀, l, h₀, hrun.mono ?_⟩
      rintro s (⟨a, id⟩ | a) ha
      · exact ha.1
      · trivial
    obtain ⟨before, after, hstream, hbefore, hafter⟩ :=
      (inv_of_reachable hP hsha hadmissible).split (tail_reachable h)
    rw [hafter hcaught, List.append_nil] at hstream
    have hsent : s.worker.sentContents t =
        before.map TaskEvent.content ++ (s.tail.returned.map Prod.snd).map TaskEvent.content := by
      rw [← List.map_append, ← hstream, ← carried_of_reachable hserde h]
      simp [Forwarding.carried, SharedEmitter.inTransit, SharedEmitter.contents, hchannel, hpc,
        EmitPc.content]
    rw [hcontents, hsent]
    refine ⟨List.suffix_append _ _, ?_⟩
    rintro rfl
    rw [hbefore rfl, List.map_nil, List.nil_append]

/-- An event is sent and written, and then read. -/
def conveySteps (event : AdapterEvent) (id : StreamId) : List DeliveryStep :=
  (Forwarding.forwardSteps 1 Libs.sampleTime event).map (.worker · id) ++
    [.client (.backfill 10), .client .arrive, .client .receive]

lemma reliable_conveySteps {event : AdapterEvent} {id : StreamId} (h : event.payload ∈ payloads) :
    ∀ a ∈ conveySteps event id, ∀ s, Reliable payloads 1 s a := by
  intro a ha s
  simp only [conveySteps, Forwarding.forwardSteps, List.map_cons, List.map_nil, List.cons_append,
    List.nil_append, List.mem_cons, List.not_mem_nil, or_false] at ha
  rcases ha with rfl | rfl | rfl | rfl | rfl | rfl | rfl | rfl
  · exact ⟨fun _ => h, rfl⟩
  · exact ⟨fun _ => by decide, rfl⟩
  all_goals trivial

/-- Two events, one after the other. -/
def sampleSteps : List DeliveryStep :=
  conveySteps ⟨.started, .object []⟩ (toLex (5, 0)) ++
    conveySteps ⟨.progress, .object []⟩ (toLex (6, 0))

/-- The client has what was sent. -/
theorem delivery_twoEvents : ∃ s,
    (machine Libs.printing .sample {} 1 .zero).exec Machine.anyStep
      ⟨.start, .empty, .id .zero, .idle, []⟩ sampleSteps = some s ∧
    (s.tail.returned.map fun y => y.2.content) = s.worker.sentContents 1 ∧
    (s.worker.sent 1).map AdapterEvent.kind = [.started, .progress] := by
  have hrun : ((machine Libs.printing .sample {} 1 .zero).exec Machine.anyStep
      ⟨.start, .empty, .id .zero, .idle, []⟩ sampleSteps).map (fun s =>
        ((s.worker.sent 1).map AdapterEvent.kind,
          (s.worker.channel 1).isEmpty && (s.worker.shared.pcs 1).content.isEmpty &&
            s.tail.stream.entries.all fun e => decide (e.id ≤ toLex (6, 0)),
          s.tail.lastId)) =
      some ([.started, .progress], true, .id (toLex (6, 0))) := by decide +kernel
  obtain ⟨s, hs, hobs⟩ := Option.map_eq_some_iff.1 hrun
  simp only [Prod.mk.injEq, Bool.and_eq_true, List.isEmpty_iff, List.all_eq_true,
    decide_eq_true_eq] at hobs
  obtain ⟨hsent, ⟨⟨hchannel, hpc⟩, hentries⟩, hlast⟩ := hobs
  have hlabels : ∀ a ∈ sampleSteps, ∀ s, Reliable {.object []} 1 s a := by
    intro a ha
    rcases List.mem_append.1 ha with ha | ha
    · exact reliable_conveySteps (Set.mem_singleton _) a ha
    · exact reliable_conveySteps (Set.mem_singleton _) a ha
  have hreach : (machine Libs.printing .sample {} 1 .zero).Reachable (Reliable {.object []} 1) s :=
    ⟨_, _, ⟨rfl, rfl, rfl, rfl, rfl⟩,
      ((Machine.run_of_exec hs).of_forall_label hlabels).mono fun s _ h => h.2 s⟩
  have hdrained : s.Drained 1 := by
    refine ⟨hchannel, ?_⟩
    cases hcontent : s.worker.shared.pcs 1 <;> simp_all [EmitPc.content]
  have hcaught : s.CaughtUp .zero := by
    intro e he
    have hcursor := StreamReader.Tail.lastId_of_reachable (tail_reachable hreach)
    rw [← Cursor.id.inj (hlast.symm.trans hcursor)]
    exact hentries e he
  have hsha : ∀ b, Libs.printing.sha256 b ≠ [] := by
    intro b hb
    have hlength := Sha256.length_sha256 b
    rw [show Sha256.sha256 b = [] from hb] at hlength
    cases hlength
  exact ⟨s, hs,
    ((delivery EventParsers.inverts_sample hsha fun _ => rfl).2 .zero s hreach hdrained
      hcaught).2 rfl, hsent⟩

end Delivery

end AxonTask
