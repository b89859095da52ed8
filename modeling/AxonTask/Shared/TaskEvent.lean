import AxonTask.Lib.HashChain
import AxonTask.Lib.Table
import AxonTask.Shared.Basic

/-!
# The event log (`axontask-shared/src/models/task_event.rs`)

`TaskEvent` rows, the table `task_events` with its constraints, the hash of a row, and the
operations `append`, `query_range` and `verify_chain`.  An append is two statements, a read
of the last row and an insertion, so it is modelled by `appendRead` and `appendInsert`.
-/

namespace AxonTask

open Lib

/-- `EventKind`. -/
inductive EventKind
  | started | progress | stdout | stderr | success | error | canceled | timeout | digest
deriving DecidableEq, Repr

namespace EventKind

/-- All kinds, in the order of the source. -/
def all : List EventKind :=
  [started, progress, stdout, stderr, success, error, canceled, timeout, digest]

/-- `EventKind::as_str`. -/
def asStr : EventKind → String
  | started => "started"
  | progress => "progress"
  | stdout => "stdout"
  | stderr => "stderr"
  | success => "success"
  | error => "error"
  | canceled => "canceled"
  | timeout => "timeout"
  | digest => "digest"

lemma mem_all (k : EventKind) : k ∈ all := by cases k <;> decide

end EventKind

/-- `TaskEvent`. -/
structure TaskEvent where
  taskId : Uuid
  seq : Int64
  ts : DateTime
  kind : String
  payload : JsonValue
  hashPrev : Option Bytes
  hashCurr : Bytes

namespace TaskEvent

/-- The strings of the constraint `task_events_kind_check`. -/
def kinds : List String :=
  ["started", "progress", "stdout", "stderr", "success", "error", "canceled", "timeout", "digest"]

/-- The table `task_events`: its primary key, its three CHECK constraints, and the texts
that the column types accept. -/
def schema : Schema (Uuid × Int64) TaskEvent where
  key e := (e.taskId, e.seq)
  check e :=
    kinds.contains e.kind && decide (0 ≤ e.seq) &&
      ((decide (e.seq = 0) && e.hashPrev.isNone) || decide (0 < e.seq)) && !e.payload.hasNul

/-- The links of the hash chain. -/
def links : Links Bytes TaskEvent where
  prev := hashPrev
  curr := hashCurr

@[simp] lemma links_prev (e : TaskEvent) : links.prev e = e.hashPrev := rfl

@[simp] lemma links_curr (e : TaskEvent) : links.curr e = e.hashCurr := rfl

end TaskEvent

/-- The rows of `task_events`. -/
abbrev EventTable := Table TaskEvent.schema

/-- `AppendEvent`. -/
structure AppendEvent where
  taskId : Uuid
  kind : EventKind
  payload : JsonValue

namespace TaskEvent

variable (L : Libs)

/-- The bytes that `TaskEvent::compute_hash` feeds to the hasher. -/
def hashInput (hashPrev : Option Bytes) (seq : Int64) (kind : String) (payload : JsonValue) :
    Bytes :=
  hashPrev.getD [] ++ (i64LeBytes seq ++ (utf8 kind ++ (L.serdeToVec payload).getD []))

/-- `TaskEvent::compute_hash`. -/
def computeHash (hashPrev : Option Bytes) (seq : Int64) (kind : String) (payload : JsonValue) :
    Bytes :=
  L.sha256 (hashInput L hashPrev seq kind payload)

/-- The byte strings hashed for the rows of a log, each with the previous hash it names. -/
def hashInputs (events : List TaskEvent) : Set Bytes :=
  {b | ∃ e ∈ events, b = hashInput L e.hashPrev e.seq e.kind e.payload}

/-- `ORDER BY seq ASC`. -/
def orderBySeq (events : List TaskEvent) : List TaskEvent :=
  events.mergeSort fun a b => decide (a.seq ≤ b.seq)

/-- `TaskEvent::query_range`. -/
def queryRange (T : EventTable) (taskId : Uuid) (startSeq : Int64) (endSeq : Option Int64) :
    List TaskEvent :=
  orderBySeq <| T.rows.filter fun e =>
    decide (e.taskId = taskId) && decide (startSeq ≤ e.seq) &&
      endSeq.all fun m => decide (e.seq ≤ m)

/-- The loop of `TaskEvent::verify_chain`. -/
def verifyLoop : Option Bytes → List TaskEvent → Bool
  | _, [] => true
  | prevHash, event :: events =>
    let computedHash := computeHash L prevHash event.seq event.kind event.payload
    if computedHash ≠ event.hashCurr then false
    else if event.hashPrev ≠ prevHash then false
    else verifyLoop (some event.hashCurr) events

/-- `TaskEvent::verify_chain`. -/
def verifyChain (T : EventTable) (taskId : Uuid) : Bool :=
  let events := queryRange T taskId 0 none
  if events.isEmpty then true else verifyLoop L none events

/-- The row that `append` inserts, but for its timestamp. -/
structure NewEvent where
  taskId : Uuid
  seq : Int64
  kind : String
  payload : JsonValue
  hashPrev : Option Bytes
  hashCurr : Bytes

/-- `SELECT seq, hash_curr … ORDER BY seq DESC LIMIT 1`. -/
def lastEvent (T : EventTable) (taskId : Uuid) : Option (Int64 × Option Bytes) :=
  ((T.rows.filter fun e => decide (e.taskId = taskId)).mergeSort
    fun a b => decide (b.seq ≤ a.seq)).head?.map fun e => (e.seq, some e.hashCurr)

/-- The next sequence number and previous hash that `append` derives from the last row. -/
def nextLink : Option (Int64 × Option Bytes) → Int64 × Option Bytes
  | some (lastSeq, some lastHash) => (lastSeq + 1, some lastHash)
  | some (lastSeq, none) => (lastSeq + 1, none)
  | none => (0, none)

/-- The first statement of `TaskEvent::append` and the computation that follows it. -/
def appendRead (T : EventTable) (data : AppendEvent) : NewEvent :=
  let link := nextLink (lastEvent T data.taskId)
  { taskId := data.taskId
    seq := link.1
    kind := data.kind.asStr
    payload := data.payload
    hashPrev := link.2
    hashCurr := computeHash L link.2 link.1 data.kind.asStr data.payload }

/-- The row of an insertion at the time `ts`. -/
def NewEvent.toEvent (n : NewEvent) (ts : DateTime) : TaskEvent :=
  ⟨n.taskId, n.seq, ts, n.kind, n.payload, n.hashPrev, n.hashCurr⟩

/-- The second statement of `TaskEvent::append`, with `ts` the default `NOW()`. -/
def appendInsert (T : EventTable) (n : NewEvent) (ts : DateTime) :
    Except Violation (TaskEvent × EventTable) :=
  (T.insert (n.toEvent ts)).map fun T' => (n.toEvent ts, T')

/-! ### The verifier accepts the sealed logs -/

variable {L}

/-- The hash of an entry, given the hash before it. -/
def digest (L : Libs) (hashPrev : Option Bytes) (e : TaskEvent) : Bytes :=
  computeHash L hashPrev e.seq e.kind e.payload

lemma verifyLoop_iff {prevHash : Option Bytes} {events : List TaskEvent} :
    verifyLoop L prevHash events = true ↔ links.Sealed (digest L) prevHash events := by
  induction events generalizing prevHash with
  | nil => simp [verifyLoop, Links.Sealed]
  | cons e events ih =>
    simp only [verifyLoop, Links.Sealed, ← ih, links_prev, links_curr, digest]
    by_cases hc : computeHash L prevHash e.seq e.kind e.payload = e.hashCurr
    · by_cases hp : e.hashPrev = prevHash
      · simp [hc, hp]
      · simp [hc, hp]
    · simp [hc, Ne.symm hc]

/-- The verifier accepts a stored log exactly when it is sealed by the row hash. -/
lemma verifyChain_iff {T : EventTable} {taskId : Uuid} :
    verifyChain L T taskId = true ↔ links.Sealed (digest L) none (queryRange T taskId 0 none) := by
  unfold verifyChain
  cases h : queryRange T taskId 0 none with
  | nil => simp [Links.Sealed]
  | cons e l => simp [verifyLoop_iff]

lemma mem_orderBySeq {e : TaskEvent} {l : List TaskEvent} : e ∈ orderBySeq l ↔ e ∈ l :=
  List.mem_mergeSort

lemma mem_queryRange {T : EventTable} {taskId : Uuid} {e : TaskEvent}
    (h : e ∈ queryRange T taskId 0 none) : e ∈ T.rows :=
  List.mem_of_mem_filter (mem_orderBySeq.1 h)

end TaskEvent

end AxonTask
