import AxonTask.Lib.Numbering
import AxonTask.Worker.Emitter

/-!
# Calls of the emitter that fail (`axontask-worker/src/events.rs`)

`emit` takes a number and stores the hash of the event as the previous hash before it writes
to Redis, and when the write fails it undoes neither.  Here the calls of `emit` and
`emit_batch` for one task follow one another, and Redis answers as it likes.  The first event
that fails leaves a hole in the numbers and breaks the chain for good.
-/

namespace AxonTask

open Lib
open TaskEvent (links links_prev links_curr)

/-- The errors of `emit`. -/
inductive EmitError
  /-- The payload cannot be printed. -/
  | json
  /-- Redis does not accept the event. -/
  | redis (context : String)
deriving DecidableEq, Repr

/-- An event of a call, the time at which it is emitted, and the answer of Redis to its
`XADD`: the id of the new entry, or an error. -/
structure EmitInput where
  event : AdapterEvent
  ts : DateTime
  answer : Option String

/-- The event can be printed and Redis accepts it. -/
def EmitInput.accepted (L : Libs) (i : EmitInput) : Bool :=
  (L.serdeToString i.event.payload).isSome && i.answer.isSome

/-- The emitter and the stream of its task.  The last field records the history: the emitter
before and after every event that failed. -/
structure Emission where
  emitter : EmitterState
  stream : List TaskEvent
  errors : List (EmitterState × EmitterState)

/-- A call. -/
inductive EmitCall
  | emit (i : EmitInput)
  | emitBatch (events : List EmitInput)

/-- The events of a call. -/
def EmitCall.inputs : EmitCall → List EmitInput
  | emit i => [i]
  | emitBatch events => events

namespace Emission

/-- A fresh emitter and an empty stream. -/
def start : Emission := ⟨.new, [], []⟩

section Calls

variable (L : Libs) (taskId : Uuid)

/-- `EventEmitter::emit`. -/
def emit (s : Emission) (i : EmitInput) : Except EmitError String × Emission :=
  match EventEmitter.emit L s.emitter taskId i.ts i.event with
  | (none, emitter) =>
    (.error .json, { s with emitter, errors := s.errors ++ [(s.emitter, emitter)] })
  | (some e, emitter) =>
    match i.answer with
    | some streamId => (.ok streamId, { s with emitter, stream := s.stream ++ [e] })
    | none =>
      (.error (.redis "Failed to write event to Redis Stream"),
        { s with emitter, errors := s.errors ++ [(s.emitter, emitter)] })

/-- `EventEmitter::emit_batch`, which stops at the first error. -/
def emitBatch : Emission → List EmitInput → Except EmitError (List String) × Emission
  | s, [] => (.ok [], s)
  | s, i :: events =>
    match emit L taskId s i with
    | (.error e, s) => (.error e, s)
    | (.ok streamId, s) =>
      match emitBatch s events with
      | (.error e, s) => (.error e, s)
      | (.ok streamIds, s) => (.ok (streamId :: streamIds), s)

/-- The state after a call. -/
def call (s : Emission) : EmitCall → Emission
  | .emit i => (emit L taskId s i).2
  | .emitBatch events => (emitBatch L taskId s events).2

/-- The state after the calls. -/
def after (s : Emission) (calls : List EmitCall) : Emission := calls.foldl (call L taskId) s

/-- The states before a batch and after each event that it tries. -/
def batchStates : Emission → List EmitInput → List Emission
  | s, [] => [s]
  | s, i :: events =>
    match emit L taskId s i with
    | (.error _, s') => [s, s']
    | (.ok _, s') => s :: batchStates s' events

/-- The states before the calls and after each event that they try. -/
def states : Emission → List EmitCall → List Emission
  | s, [] => [s]
  | s, c :: calls => batchStates L taskId s c.inputs ++ states (call L taskId s c) calls

end Calls

/-- Every event that failed left the emitter as it was, and the entries of the stream are
numbered from 0 on and chained. -/
structure Atomic (s : Emission) : Prop where
  unchanged : ∀ p ∈ s.errors, p.2 = p.1
  numbered : Numbered TaskEvent.seq s.stream
  chained : links.Chained none s.stream

variable {L : Libs} (taskId : Uuid) {s s' s'' : Emission} {i : EmitInput}
  {events : List EmitInput} {calls : List EmitCall}

/-! ### One event -/

/-- An event that is accepted gets the next number and names the previous hash. -/
lemma emit_of_accepted (h : i.accepted L = true) (s : Emission) :
    ∃ e streamId, emit L taskId s i =
        (.ok streamId, { s with
          emitter := ⟨s.emitter.seq + 1, some e.hashCurr⟩
          stream := s.stream ++ [e] }) ∧
      e.seq = s.emitter.seq ∧ e.hashPrev = s.emitter.prevHash := by
  simp only [EmitInput.accepted, Bool.and_eq_true, Option.isSome_iff_exists] at h
  obtain ⟨⟨json, hjson⟩, streamId, hanswer⟩ := h
  obtain ⟨e, he⟩ : ∃ e, EventEmitter.taskEvent L taskId i.event s.emitter.seq i.ts
      s.emitter.prevHash = some e := by
    simp [EventEmitter.taskEvent, EventEmitter.computeHash, EventEmitter.hashInput, hjson]
  obtain ⟨-, hseq, hprev, -⟩ := EventEmitter.taskEvent_eq_some he
  refine ⟨e, streamId, ?_, hseq, hprev⟩
  simp [emit, EventEmitter.emit, EmitterState.nextSeq, he, hanswer, EmitterState.setPrevHash]

/-- An event that is not accepted has taken a number. -/
lemma emit_of_not_accepted (h : i.accepted L = false) (s : Emission) :
    ∃ error emitter, emit L taskId s i =
        (.error error, { s with emitter, errors := s.errors ++ [(s.emitter, emitter)] }) ∧
      emitter.seq = s.emitter.seq + 1 := by
  cases he : EventEmitter.taskEvent L taskId i.event s.emitter.seq i.ts s.emitter.prevHash with
  | none =>
    refine ⟨.json, s.emitter.nextSeq.2, ?_, rfl⟩
    simp [emit, EventEmitter.emit, EmitterState.nextSeq, he]
  | some e =>
    have hjson : (L.serdeToString i.event.payload).isSome = true := by
      cases hjson : L.serdeToString i.event.payload with
      | none =>
        simp [EventEmitter.taskEvent, EventEmitter.computeHash, EventEmitter.hashInput,
          hjson] at he
      | some json => rfl
    have hanswer : i.answer = none := by
      simpa [EmitInput.accepted, hjson] using h
    refine ⟨.redis "Failed to write event to Redis Stream",
      s.emitter.nextSeq.2.setPrevHash e.hashCurr, ?_, rfl⟩
    simp [emit, EventEmitter.emit, EmitterState.nextSeq, he, hanswer, EmitterState.setPrevHash]

/-! ### What is written stays -/

/-- The stream and the record of the errors have grown. -/
structure Grows (s s' : Emission) : Prop where
  stream : s.stream <+: s'.stream
  errors : s.errors <+: s'.errors

namespace Grows

lemma refl (s : Emission) : Grows s s := ⟨List.prefix_rfl, List.prefix_rfl⟩

lemma trans (h : Grows s s') (h' : Grows s' s'') : Grows s s'' :=
  ⟨h.stream.trans h'.stream, h.errors.trans h'.errors⟩

lemma of_emit (s : Emission) (i : EmitInput) : Grows s (emit L taskId s i).2 := by
  cases ha : i.accepted L with
  | true =>
    obtain ⟨e, streamId, he, -⟩ := emit_of_accepted taskId ha s
    rw [he]
    exact ⟨List.prefix_append _ _, List.prefix_rfl⟩
  | false =>
    obtain ⟨error, emitter, he, -⟩ := emit_of_not_accepted taskId ha s
    rw [he]
    exact ⟨List.prefix_rfl, List.prefix_append _ _⟩

end Grows

/-- What holds in the end held before. -/
lemma Atomic.of_grows (h : Grows s s') (hs' : s'.Atomic) : s.Atomic where
  unchanged p hp := hs'.unchanged p (h.errors.mem hp)
  numbered := by
    obtain ⟨l, hl⟩ := h.stream
    exact Numbered.of_append (hl ▸ hs'.numbered)
  chained := by
    obtain ⟨l, hl⟩ := h.stream
    exact Links.Chained.of_append (hl ▸ hs'.chained)

/-- An event that is not accepted has changed the emitter. -/
lemma not_atomic_emit (h : i.accepted L = false) : ¬ (emit L taskId s i).2.Atomic := by
  obtain ⟨error, emitter, he, hseq⟩ := emit_of_not_accepted taskId h s
  rw [he]
  intro hs
  have hsame : emitter = s.emitter := hs.unchanged (s.emitter, emitter) (by simp)
  rw [hsame] at hseq
  exact absurd hseq.symm (by simp)

/-! ### Batches -/

/-- A batch goes on after an event that is accepted. -/
lemma emitBatch_cons_of_accepted (h : i.accepted L = true) (s : Emission)
    (events : List EmitInput) :
    (emitBatch L taskId s (i :: events)).2 =
        (emitBatch L taskId (emit L taskId s i).2 events).2 ∧
      batchStates L taskId s (i :: events) =
        s :: batchStates L taskId (emit L taskId s i).2 events := by
  obtain ⟨e, streamId, he, -⟩ := emit_of_accepted taskId h s
  refine ⟨?_, by simp only [batchStates, he]⟩
  simp only [emitBatch, he]
  split
  · rename_i herror
    rw [herror]
  · rename_i hok
    rw [hok]

/-- It stops at an event that is not. -/
lemma emitBatch_cons_of_not_accepted (h : i.accepted L = false) (s : Emission)
    (events : List EmitInput) :
    (emitBatch L taskId s (i :: events)).2 = (emit L taskId s i).2 ∧
      batchStates L taskId s (i :: events) = [s, (emit L taskId s i).2] := by
  obtain ⟨error, emitter, he, -⟩ := emit_of_not_accepted taskId h s
  exact ⟨by simp only [emitBatch, he], by simp only [batchStates, he]⟩

/-- A call is a batch of its events. -/
lemma call_eq (s : Emission) (c : EmitCall) :
    call L taskId s c = (emitBatch L taskId s c.inputs).2 := by
  cases c with
  | emitBatch events => rfl
  | emit i =>
    cases h : i.accepted L with
    | true => exact (emitBatch_cons_of_accepted taskId h s []).1.symm
    | false => exact (emitBatch_cons_of_not_accepted taskId h s []).1.symm

lemma grows_emitBatch (events : List EmitInput) (s : Emission) :
    Grows s (emitBatch L taskId s events).2 := by
  induction events generalizing s with
  | nil => exact .refl s
  | cons i events ih =>
    have hemit := Grows.of_emit (L := L) taskId s i
    cases h : i.accepted L with
    | true =>
      rw [(emitBatch_cons_of_accepted taskId h s events).1]
      exact hemit.trans (ih _)
    | false =>
      rw [(emitBatch_cons_of_not_accepted taskId h s events).1]
      exact hemit

/-- The last state of a batch has grown from all others. -/
lemma grows_of_mem_batchStates {s' : Emission} (events : List EmitInput) (s : Emission)
    (hs' : s' ∈ batchStates L taskId s events) : Grows s' (emitBatch L taskId s events).2 := by
  induction events generalizing s with
  | nil =>
    obtain rfl := List.mem_singleton.1 hs'
    exact .refl s'
  | cons i events ih =>
    cases h : i.accepted L with
    | true =>
      obtain ⟨hlast, hstates⟩ := emitBatch_cons_of_accepted taskId h s events
      rw [hstates] at hs'
      rcases List.mem_cons.1 hs' with rfl | hs'
      · exact grows_emitBatch taskId (i :: events) s'
      · rw [hlast]
        exact ih _ hs'
    | false =>
      obtain ⟨hlast, hstates⟩ := emitBatch_cons_of_not_accepted taskId h s events
      rw [hstates] at hs'
      simp only [List.mem_cons, List.not_mem_nil, or_false] at hs'
      rcases hs' with rfl | rfl
      · exact grows_emitBatch taskId (i :: events) s'
      · rw [hlast]
        exact .refl _

/-- A batch with an event that is not accepted fails there. -/
lemma not_atomic_emitBatch (s : Emission) (h : ∃ i ∈ events, i.accepted L = false) :
    ¬ (emitBatch L taskId s events).2.Atomic := by
  induction events generalizing s with
  | nil => simp at h
  | cons i events ih =>
    cases hi : i.accepted L with
    | true =>
      rw [(emitBatch_cons_of_accepted taskId hi s events).1]
      exact ih _ (by simpa [hi] using h)
    | false =>
      rw [(emitBatch_cons_of_not_accepted taskId hi s events).1]
      exact not_atomic_emit taskId hi

/-! ### Without errors -/

/-- What holds of the emitter and of its stream as long as every event is accepted. -/
structure Accepted (s : Emission) : Prop where
  errors : s.errors = []
  counted : Counted TaskEvent.seq s.stream
  chained : links.Chained none s.stream
  seq : s.emitter.seq = Int64.ofNat s.stream.length
  prevHash : s.emitter.prevHash = links.tip none s.stream

namespace Accepted

lemma start : Accepted start := ⟨rfl, counted_nil, trivial, rfl, rfl⟩

lemma emit (hs : s.Accepted) (h : i.accepted L = true) :
    (emit L taskId s i).2.Accepted ∧
      (emit L taskId s i).2.stream.length = s.stream.length + 1 := by
  obtain ⟨e, streamId, he, hseq, hprev⟩ := emit_of_accepted taskId h s
  rw [he]
  refine ⟨⟨hs.errors, ?_, ?_, ?_, ?_⟩, by simp⟩
  · exact counted_concat.2 ⟨hs.counted, hseq.trans hs.seq⟩
  · exact Links.chained_concat.2 ⟨hs.chained, hprev.trans hs.prevHash⟩
  · simp [hs.seq, Int64.ofNat_add]
  · simp

lemma emitBatch (hs : s.Accepted) (h : ∀ i ∈ events, i.accepted L = true) :
    (emitBatch L taskId s events).2.Accepted ∧
      (emitBatch L taskId s events).2.stream.length = s.stream.length + events.length := by
  induction events generalizing s with
  | nil => exact ⟨hs, rfl⟩
  | cons i events ih =>
    have hi := h i (by simp)
    rw [(emitBatch_cons_of_accepted taskId hi s events).1]
    obtain ⟨hemit, hlen⟩ := hs.emit taskId hi
    obtain ⟨hbatch, hlen'⟩ := ih hemit fun i hi => h i (by simp [hi])
    refine ⟨hbatch, ?_⟩
    rw [hlen', hlen, List.length_cons]
    omega

/-- The emission is as it should be until the counter has run out of numbers. -/
lemma atomic_iff (hs : s.Accepted) : s.Atomic ↔ s.stream.length ≤ 2 ^ 63 := by
  rw [← hs.counted.numbered_iff]
  constructor
  · intro h
    exact h.numbered
  · intro h
    exact ⟨by simp [hs.errors], h, hs.chained⟩

end Accepted

/-! ### Calls -/

lemma grows_after (calls : List EmitCall) (s : Emission) : Grows s (after L taskId s calls) := by
  induction calls generalizing s with
  | nil => exact .refl s
  | cons c calls ih =>
    have hcall := grows_emitBatch (L := L) taskId c.inputs s
    rw [← call_eq] at hcall
    exact hcall.trans (ih _)

lemma grows_of_mem_states {s' : Emission} (calls : List EmitCall) (s : Emission)
    (hs' : s' ∈ states L taskId s calls) : Grows s' (after L taskId s calls) := by
  induction calls generalizing s with
  | nil =>
    obtain rfl := List.mem_singleton.1 hs'
    exact .refl s'
  | cons c calls ih =>
    rcases List.mem_append.1 hs' with hs' | hs'
    · have hcall := grows_of_mem_batchStates taskId c.inputs s hs'
      rw [← call_eq] at hcall
      exact hcall.trans (grows_after taskId calls _)
    · exact ih _ hs'

lemma after_mem_states (calls : List EmitCall) (s : Emission) :
    after L taskId s calls ∈ states L taskId s calls := by
  induction calls generalizing s with
  | nil => exact List.mem_singleton.2 rfl
  | cons c calls ih => exact List.mem_append_right _ (ih _)

lemma not_atomic_after (s : Emission) (h : ∃ i ∈ calls.flatMap EmitCall.inputs,
    i.accepted L = false) : ¬ (after L taskId s calls).Atomic := by
  induction calls generalizing s with
  | nil => simp at h
  | cons c calls ih =>
    obtain ⟨i, hi, hacc⟩ := h
    rw [List.flatMap_cons, List.mem_append] at hi
    rcases hi with hi | hi
    · -- what this call leaves behind is still there in the end
      intro hs
      have hcall := hs.of_grows (grows_after taskId calls (call L taskId s c))
      rw [call_eq] at hcall
      exact not_atomic_emitBatch taskId s ⟨i, hi, hacc⟩ hcall
    · exact ih _ ⟨i, hi, hacc⟩

lemma accepted_after (hs : s.Accepted)
    (h : ∀ i ∈ calls.flatMap EmitCall.inputs, i.accepted L = true) :
    (after L taskId s calls).Accepted ∧ (after L taskId s calls).stream.length =
      s.stream.length + (calls.flatMap EmitCall.inputs).length := by
  induction calls generalizing s with
  | nil => exact ⟨hs, rfl⟩
  | cons c calls ih =>
    have hacc : ∀ i ∈ c.inputs, i.accepted L = true := fun i hi => h i (by simp [hi])
    obtain ⟨hcall, hlen⟩ := hs.emitBatch taskId hacc
    rw [← call_eq] at hcall hlen
    obtain ⟨hafter, hlen'⟩ := ih hcall fun i hi => h i (by simp [hi])
    refine ⟨hafter, ?_⟩
    rw [List.flatMap_cons, List.length_append, ← Nat.add_assoc, ← hlen]
    exact hlen'

/-- **When emission is atomic.**  In every state of the calls, failed events have left the
emitter as it was and the stream is numbered and chained, exactly when no event fails and the
counter does not run out of numbers. -/
theorem atomic_states_iff (L : Libs) (taskId : Uuid) (calls : List EmitCall) :
    (∀ s ∈ states L taskId start calls, s.Atomic) ↔
      (∀ i ∈ calls.flatMap EmitCall.inputs, i.accepted L = true) ∧
        (calls.flatMap EmitCall.inputs).length ≤ 2 ^ 63 := by
  constructor
  · intro h
    have hlast := h _ (after_mem_states taskId calls start)
    have hacc : ∀ i ∈ calls.flatMap EmitCall.inputs, i.accepted L = true := by
      intro i hi
      by_contra hacc
      exact not_atomic_after taskId start ⟨i, hi, by simpa using hacc⟩ hlast
    obtain ⟨hafter, hlen⟩ := accepted_after taskId Accepted.start hacc
    have hle := hafter.atomic_iff.1 hlast
    rw [hlen, start, List.length_nil, Nat.zero_add] at hle
    exact ⟨hacc, hle⟩
  · rintro ⟨hacc, hlen⟩ s hs
    obtain ⟨hafter, hlen'⟩ := accepted_after taskId Accepted.start hacc
    refine (hafter.atomic_iff.2 ?_).of_grows (grows_of_mem_states taskId calls start hs)
    rw [hlen', start, List.length_nil, Nat.zero_add]
    exact hlen

/-- The first event is lost in Redis, and the second one is accepted. -/
def oneLost : List EmitCall :=
  [.emit ⟨⟨.started, .object []⟩, Libs.sampleTime, none⟩,
    .emit ⟨⟨.progress, .object []⟩, Libs.sampleTime, some "1735992000000-0"⟩]

/-- The stream starts with the number 1. -/
theorem not_atomic_oneLost :
    ¬ ∀ s ∈ states .sample 1 start oneLost, s.Atomic := by
  intro h
  have hlast := h _ (after_mem_states 1 oneLost start)
  have hseqs : (after .sample 1 start oneLost).stream.map TaskEvent.seq = [1] := by
    decide +kernel
  obtain ⟨e, he, hone⟩ := List.map_eq_singleton_iff.1 hseqs
  have hzero := hlast.numbered.toInt_eq (i := 0) (e := e) (by rw [he]; rfl)
  rw [hone] at hzero
  exact absurd hzero (by decide)

end Emission

end AxonTask
