import AxonTask.Shared.TaskEvent
import AxonTask.Worker.Adapter
import Mathlib.Data.Set.Function

/-!
# The event emitter (`axontask-worker/src/events.rs`)

`EventEmitter::emit` numbers an event, links it to the previous one and hashes it.  Its hash
covers the sequence number, the kind, the payload, the timestamp and the previous hash, in
this order; the verifier `TaskEvent::verify_chain` recomputes one that covers the previous
hash, the sequence number, the kind and the payload.  The two inputs never have the same
length, so the verifier rejects everything the emitter writes.
-/

namespace AxonTask

open Lib

/-- `EmitterState`. -/
structure EmitterState where
  seq : Int64
  prevHash : Option Bytes
deriving DecidableEq

namespace EmitterState

/-- `EmitterState::new`. -/
def new : EmitterState := ⟨0, none⟩

/-- `next_seq`: the counter before the increment, which wraps around. -/
def nextSeq (s : EmitterState) : Int64 × EmitterState := (s.seq, { s with seq := s.seq + 1 })

/-- `set_prev_hash`. -/
def setPrevHash (s : EmitterState) (hash : Bytes) : EmitterState := { s with prevHash := some hash }

end EmitterState

namespace EventEmitter

variable (L : Libs)

/-- The bytes that `EventEmitter::compute_hash` feeds to the hasher; `none` when the payload
cannot be printed. -/
def hashInput (event : TaskEvent) : Option Bytes :=
  (L.serdeToString event.payload).map fun payloadJson =>
    i64LeBytes event.seq ++ (utf8 event.kind ++ (utf8 payloadJson ++
      (utf8 (L.toRfc3339 event.ts) ++ event.hashPrev.getD [])))

/-- `EventEmitter::compute_hash`. -/
def computeHash (event : TaskEvent) : Option Bytes := (hashInput L event).map L.sha256

/-- The byte strings that the emitter hashes for the rows of a log. -/
def hashInputs (events : List TaskEvent) : Set Bytes :=
  {b | ∃ e ∈ events, hashInput L e = some b}

/-- The task event that `emit` builds. -/
def taskEvent (taskId : Uuid) (event : AdapterEvent) (seq : Int64) (ts : DateTime)
    (hashPrev : Option Bytes) : Option TaskEvent :=
  let e : TaskEvent :=
    { taskId, seq, kind := event.kind.toString, payload := event.payload, ts, hashPrev,
      hashCurr := [] }
  (computeHash L e).map fun hashCurr => { e with hashCurr }

/-- `EventEmitter::emit` at the time `ts`, when nothing else uses the emitter meanwhile and
Redis accepts the event: the event written to the stream, and the state afterwards.  The
counter has advanced also when the event cannot be hashed. -/
def emit (s : EmitterState) (taskId : Uuid) (ts : DateTime) (event : AdapterEvent) :
    Option TaskEvent × EmitterState :=
  let (seq, s) := s.nextSeq
  match taskEvent L taskId event seq ts s.prevHash with
  | some e => (some e, s.setPrevHash e.hashCurr)
  | none => (none, s)

/-- The events written when `emit` is called for one event after another. -/
def emitAll (taskId : Uuid) : EmitterState → List (DateTime × AdapterEvent) → List TaskEvent
  | _, [] => []
  | s, (ts, event) :: events =>
    let (e, s) := emit L s taskId ts event
    e.toList ++ emitAll taskId s events

/-! ### The emitter and the verifier -/

variable {L} {taskId : Uuid}

/-- The hash of an event is the one of the emitter. -/
def HashedByEmitter (L : Libs) (e : TaskEvent) : Prop :=
  ∃ b, hashInput L e = some b ∧ e.hashCurr = L.sha256 b

lemma taskEvent_eq_some {event : AdapterEvent} {seq : Int64} {ts : DateTime}
    {hashPrev : Option Bytes} {e : TaskEvent}
    (h : taskEvent L taskId event seq ts hashPrev = some e) :
    e.taskId = taskId ∧ e.seq = seq ∧ e.hashPrev = hashPrev ∧ HashedByEmitter L e := by
  simp only [taskEvent, computeHash, Option.map_map, Option.map_eq_some_iff] at h
  obtain ⟨b, hb, rfl⟩ := h
  exact ⟨rfl, rfl, rfl, b, hb, rfl⟩

lemma exists_taskEvent (hserde : ∀ v, (L.serdeToString v).isSome = true) (taskId : Uuid)
    (event : AdapterEvent) (seq : Int64) (ts : DateTime) (hashPrev : Option Bytes) :
    ∃ e, taskEvent L taskId event seq ts hashPrev = some e := by
  obtain ⟨json, hjson⟩ := Option.isSome_iff_exists.1 (hserde event.payload)
  simp [taskEvent, computeHash, hashInput, hjson]

lemma hashedByEmitter_of_mem {s : EmitterState} {events : List (DateTime × AdapterEvent)}
    {e : TaskEvent} (h : e ∈ emitAll L taskId s events) : HashedByEmitter L e := by
  induction events generalizing s with
  | nil => simp [emitAll] at h
  | cons a events ih =>
    simp only [emitAll, List.mem_append, Option.mem_toList] at h
    rcases h with h | h
    · unfold emit at h
      cases hte : taskEvent L taskId a.2 s.nextSeq.1 a.1 s.nextSeq.2.prevHash with
      | none => simp [hte] at h
      | some e' =>
        simp only [hte, Option.some.injEq] at h
        obtain rfl : e' = e := h
        exact (taskEvent_eq_some hte).2.2.2
    · exact ih h

lemma emitAll_ne_nil (hserde : ∀ v, (L.serdeToString v).isSome = true) {s : EmitterState}
    {a : DateTime × AdapterEvent} {events : List (DateTime × AdapterEvent)} :
    emitAll L taskId s (a :: events) ≠ [] := by
  obtain ⟨e, he⟩ := exists_taskEvent hserde taskId a.2 s.nextSeq.1 a.1
    s.nextSeq.2.prevHash
  simp [emitAll, emit, he]

/-- The verifier does not hash what the emitter hashes: the timestamp is missing. -/
lemma hashInput_ne (hts : ∀ t, L.toRfc3339 t ≠ "") {e : TaskEvent} {b : Bytes}
    (hb : hashInput L e = some b) :
    TaskEvent.hashInput L e.hashPrev e.seq e.kind e.payload ≠ b := by
  simp only [hashInput, Option.map_eq_some_iff] at hb
  obtain ⟨json, hjson, rfl⟩ := hb
  intro h
  have hpos : 0 < (utf8 (L.toRfc3339 e.ts)).length :=
    List.length_pos_iff.2 (utf8_ne_nil (hts e.ts))
  -- the fields of the shorter input are all in the longer one
  have hlen := congrArg List.length h
  simp only [TaskEvent.hashInput, Libs.serdeToVec, hjson, Option.map_some, Option.getD_some,
    List.length_append, length_i64LeBytes] at hlen
  omega

/-- No event of the emitter passes the recomputation of its hash. -/
lemma computeHash_ne (hts : ∀ t, L.toRfc3339 t ≠ "") {l : List TaskEvent}
    (hcf : Set.InjOn L.sha256 (TaskEvent.hashInputs L l ∪ hashInputs L l)) {e : TaskEvent}
    (he : e ∈ l) (hemit : HashedByEmitter L e) :
    TaskEvent.computeHash L e.hashPrev e.seq e.kind e.payload ≠ e.hashCurr := by
  obtain ⟨b, hb, hcurr⟩ := hemit
  rw [hcurr]
  exact fun h => hashInput_ne hts hb (hcf (Or.inl ⟨e, he, rfl⟩) (Or.inr ⟨e, he, hb⟩) h)

/-- **The verifier rejects every chain of the emitter.**  The events that a fresh emitter
writes one after another, taken in the order of their numbers, are accepted by the loop of
`verify_chain` only when there are none. -/
theorem verifyLoop_emitAll_iff (hserde : ∀ v, (L.serdeToString v).isSome = true)
    (hts : ∀ t, L.toRfc3339 t ≠ "") (taskId : Uuid) (events : List (DateTime × AdapterEvent))
    (hcf : Set.InjOn L.sha256 (TaskEvent.hashInputs L (emitAll L taskId .new events) ∪
      hashInputs L (emitAll L taskId .new events))) :
    TaskEvent.verifyLoop L none (TaskEvent.orderBySeq (emitAll L taskId .new events)) = true ↔
      events = [] := by
  constructor
  · intro hv
    rw [TaskEvent.verifyLoop_iff] at hv
    cases horder : TaskEvent.orderBySeq (emitAll L taskId .new events) with
    | nil =>
      cases events with
      | nil => rfl
      | cons a events =>
        have hperm := List.mergeSort_perm (emitAll L taskId .new (a :: events))
          fun a b => decide (a.seq ≤ b.seq)
        rw [← TaskEvent.orderBySeq, horder] at hperm
        exact absurd hperm.symm.eq_nil (emitAll_ne_nil hserde)
    | cons e l =>
      have he : e ∈ emitAll L taskId .new events := by
        rw [← TaskEvent.mem_orderBySeq, horder]
        simp
      have hcurr := hv.curr_eq e (by rw [horder]; simp)
      exact absurd hcurr.symm (computeHash_ne hts hcf he (hashedByEmitter_of_mem he))
  · rintro rfl
    simp [emitAll, TaskEvent.orderBySeq, TaskEvent.verifyLoop]

/-- One `started` event. -/
def oneEvent : List (DateTime × AdapterEvent) := [(Libs.sampleTime, ⟨.started, .object []⟩)]

/-- The verifier rejects the chain of a single event. -/
theorem verifyLoop_oneEvent :
    ¬ TaskEvent.verifyLoop Libs.sample none
      (TaskEvent.orderBySeq (emitAll Libs.sample 1 .new oneEvent)) = true := by
  have hone : TaskEvent.orderBySeq (emitAll Libs.sample 1 .new oneEvent) =
      emitAll Libs.sample 1 .new oneEvent := List.mergeSort_singleton _
  rw [hone]
  decide +kernel

/-- SHA-256 separates what the two sides hash for this event. -/
theorem verifyLoop_emitAll_oneEvent :
    TaskEvent.verifyLoop Libs.sample none
        (TaskEvent.orderBySeq (emitAll Libs.sample 1 .new oneEvent)) = true ↔ oneEvent = [] := by
  let verified := TaskEvent.hashInput Libs.sample none 0 "started" (.object [])
  let emitted := verified ++ utf8 "2025-01-04T12:00:00+00:00"
  have hne : Libs.sample.sha256 verified ≠ Libs.sample.sha256 emitted := by decide +kernel
  refine verifyLoop_emitAll_iff (fun _ => rfl) (fun _ => by simp [Libs.sample]) 1 oneEvent
    ((Set.injOn_pair.2 fun h => absurd h hne).mono (Set.union_subset ?_ ?_))
  · rintro b ⟨e, he, rfl⟩
    obtain rfl := List.mem_singleton.1 he
    exact Or.inl rfl
  · rintro b ⟨e, he, hb⟩
    obtain rfl := List.mem_singleton.1 he
    exact Or.inr (Option.some.inj hb).symm

end EventEmitter

end AxonTask
