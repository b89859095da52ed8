import AxonTask.Shared.GapDetection

/-!
# Stream metrics (`axontask-shared/src/redis/metrics.rs`)

`StreamMetrics` asks Redis for the length of a stream and for its entries up to the position
of a consumer, and takes the difference for the lag.  The two commands do not see the same
stream when entries are appended in between; the difference is right all the same.  But a
command that fails counts as an answer: a length of 0, or no entry.
-/

namespace AxonTask

open Lib

/-- `MetricsError`. -/
inductive MetricsError
  | redisError (message : String)
  | redisCommandError (message : String)
  | invalidStreamId (id : String)
  | calculationError (message : String)
deriving DecidableEq, Repr

/-- `StreamInfo`. -/
structure StreamInfo where
  length : ℕ
  firstEntryId : Option String
  lastEntryId : Option String
  groups : UInt64
  collectedAt : DateTime
deriving DecidableEq, Repr

/-- `LagInfo`. -/
structure LagInfo where
  eventsBehind : ℕ
  consumerPosition : String
  latestPosition : String
  estimatedTimeLagMs : Option Int64
deriving DecidableEq, Repr

namespace StreamMetrics

/-- The texts and the number that `parse_stream_info` has found so far. -/
structure ParsedInfo where
  firstEntryId : Option String := none
  lastEntryId : Option String := none
  groups : UInt64 := 0
deriving DecidableEq, Repr

/-- One round of the loop of `parse_stream_info`. -/
def parseInfoField (key value : RedisValue) (info : ParsedInfo) : ParsedInfo :=
  match key with
  | .data keyBytes =>
    match fromUtf8 keyBytes with
    | some key =>
      if key = "first-entry" then
        match value with
        | .bulk (.data idBytes :: _) => { info with firstEntryId := fromUtf8 idBytes }
        | _ => info
      else if key = "last-entry" then
        match value with
        | .bulk (.data idBytes :: _) => { info with lastEntryId := fromUtf8 idBytes }
        | _ => info
      else if key = "groups" then
        match value with
        | .int g => { info with groups := g.toUInt64 }
        | _ => info
      else info
    | none => info
  | _ => info

/-- The loop of `parse_stream_info`, which goes two values at a time. -/
def parseInfoFields : List RedisValue → ParsedInfo → ParsedInfo
  | key :: value :: info, parsed => parseInfoFields info (parseInfoField key value parsed)
  | _, parsed => parsed

/-- `parse_stream_info`. -/
def parseStreamInfo (info : List RedisValue) : Option String × Option String × UInt64 :=
  let parsed := parseInfoFields info {}
  (parsed.firstEntryId, parsed.lastEntryId, parsed.groups)

/-- `parse_stream_id_timestamp`. -/
def parseStreamIdTimestamp (streamId : String) : Option (Int64 × Int64) :=
  match streamId.toList.splitOn '-' with
  | [part₀, part₁] =>
    match parseI64 (String.ofList part₀), parseI64 (String.ofList part₁) with
    | .ok timestamp, .ok sequence => some (timestamp, sequence)
    | _, _ => none
  | _ => none

/-- `estimate_time_lag`. -/
def estimateTimeLag (oldId newId : String) : Option Int64 := do
  let (oldTs, _) ← parseStreamIdTimestamp oldId
  let (newTs, _) ← parseStreamIdTimestamp newId
  return GapDetector.saturatingSub newTs oldTs

/-- `StreamMetrics::get_stream_info`, with what `XLEN` and `XINFO STREAM` answer. -/
def getStreamInfo (xlen : Except String ℕ) (xinfo : Except String (List RedisValue))
    (now : DateTime) : Except MetricsError StreamInfo :=
  let length := xlen.toOption.getD 0
  let (firstEntryId, lastEntryId, groups) :=
    match xinfo with
    | .ok info => parseStreamInfo info
    | .error _ => (none, none, 0)
  .ok { length, firstEntryId, lastEntryId, groups, collectedAt := now }

/-- `StreamMetrics::calculate_lag`, with what `XLEN` and `XRANGE - position` answer. -/
def calculateLag (xlen : Except String ℕ) (xrange : Except String (List RedisValue)) :
    Except MetricsError ℕ :=
  let count := xlen.toOption.getD 0
  let consumed := xrange.toOption.getD []
  -- `saturating_sub`
  .ok (count - consumed.length)

/-- `StreamMetrics::get_lag_info`. -/
def getLagInfo (infoXlen : Except String ℕ) (xinfo : Except String (List RedisValue))
    (now : DateTime) (xlen : Except String ℕ) (xrange : Except String (List RedisValue))
    (consumerPosition : String) : Except MetricsError LagInfo := do
  let info ← getStreamInfo infoXlen xinfo now
  let latestPosition := info.lastEntryId.getD "0-0"
  let eventsBehind ← calculateLag xlen xrange
  return {
    eventsBehind
    consumerPosition
    latestPosition
    estimatedTimeLagMs := estimateTimeLag consumerPosition latestPosition }

end StreamMetrics

/-! ### The commands -/

namespace Stream

/-- Entries appended one after another. -/
def addAll (S : Stream) : List RawEntry → Option Stream
  | [] => some S
  | e :: l => (S.add e).bind fun S' => S'.addAll l

lemma entries_addAll {S S' : Stream} {l : List RawEntry} (h : S.addAll l = some S') :
    S'.entries = S.entries ++ l := by
  induction l generalizing S with
  | nil =>
    cases h
    rw [List.append_nil]
  | cons e l ih =>
    obtain ⟨S₁, hadd, hrest⟩ := Option.bind_eq_some_iff.1 h
    rw [ih hrest, (add_eq_some hadd).2, List.append_assoc]
    rfl

/-- The reply to `XRANGE key - position`. -/
def xrangeUpTo (S : Stream) (position : StreamId) : List RedisValue :=
  (StreamLog.upTo RawEntry.id position S.entries).map fun e => TrimmedStream.entryReply (some e)

end Stream

/-- What a command answers, or the error with which it fails. -/
def answer {α : Type} (failure : Option String) (a : α) : Except String α :=
  failure.elim (.ok a) .error

namespace StreamMetrics

/-- `calculate_lag` with the stream as `XLEN` and as `XRANGE` find it, and the failures of the
two commands. -/
def lagOf (S S' : Stream) (position : StreamId) (xlenFailure xrangeFailure : Option String) :
    Except MetricsError ℕ :=
  calculateLag (answer xlenFailure S.entries.length) (answer xrangeFailure (S'.xrangeUpTo position))

/-- A number is the number of entries after the position when `XLEN` ran, and a failure of a
command leads to an error. -/
structure LagExact (S S' : Stream) (position : StreamId)
    (xlenFailure xrangeFailure : Option String) : Prop where
  exact : ∀ n, lagOf S S' position xlenFailure xrangeFailure = .ok n →
    n = (StreamLog.after RawEntry.id position S.entries).length
  failure : xlenFailure ≠ none ∨ xrangeFailure ≠ none →
    ∃ e, lagOf S S' position xlenFailure xrangeFailure = .error e

variable {S S' : Stream} {appended : List RawEntry}

/-- **Appends between the two commands do no harm.** -/
lemma lagOf_answered (h : S.addAll appended = some S') (position : StreamId) :
    lagOf S S' position none none =
      .ok (StreamLog.after RawEntry.id position S.entries).length := by
  have hincreasing : StreamLog.Increasing RawEntry.id (S.entries ++ appended) :=
    Stream.entries_addAll h ▸ S'.increasing
  have hlag := StreamLog.length_sub_upTo hincreasing position
  simp only [lagOf, calculateLag, answer, Option.elim_none, Except.toOption, Option.getD_some,
    Stream.xrangeUpTo, List.length_map, Stream.entries_addAll h, hlag]

/-- **The lag is exact exactly when both commands are answered.** -/
theorem lagExact_iff (h : S.addAll appended = some S') (position : StreamId)
    (xlenFailure xrangeFailure : Option String) :
    LagExact S S' position xlenFailure xrangeFailure ↔
      xlenFailure = none ∧ xrangeFailure = none := by
  constructor
  · intro hexact
    by_contra hfailed
    obtain ⟨e, herror⟩ := hexact.failure (not_and_or.1 hfailed)
    cases herror
  · rintro ⟨rfl, rfl⟩
    refine ⟨?_, by simp⟩
    intro n hn
    rw [lagOf_answered h] at hn
    exact (Except.ok.inj hn).symm

/-- The entry with this time and no other fields than its kind. -/
def startedAt (t : ℕ) : RawEntry := ⟨toLex (t, 0), [("kind", utf8 "started")]⟩

/-- The stream of the entries 5-0 and 6-0. -/
def twoEntries : Stream where
  entries := [startedAt 5, startedAt 6]
  increasing := by
    unfold StreamLog.Increasing
    decide
  pos := by decide

/-- The stream after a third entry. -/
def threeEntries : Stream where
  entries := [startedAt 5, startedAt 6, startedAt 7]
  increasing := by
    unfold StreamLog.Increasing
    decide
  pos := by decide

/-- An append between the commands is not counted. -/
theorem lagExact_threeEntries : LagExact twoEntries threeEntries (toLex (5, 0)) none none := by
  have hadd : twoEntries.addAll [startedAt 7] = some threeEntries := rfl
  exact (lagExact_iff hadd _ none none).2 ⟨rfl, rfl⟩

/-- Without an answer to `XLEN` the consumer is said to be behind by nothing. -/
theorem not_lagExact_twoEntries :
    lagOf twoEntries twoEntries (toLex (5, 0)) (some "connection lost") none = .ok 0 ∧
      (StreamLog.after RawEntry.id (toLex (5, 0)) twoEntries.entries).length = 1 ∧
      ¬ LagExact twoEntries twoEntries (toLex (5, 0)) (some "connection lost") none := by
  refine ⟨rfl, rfl, ?_⟩
  intro h
  obtain ⟨e, herror⟩ := h.failure (Or.inl (Option.some_ne_none _))
  cases herror

end StreamMetrics

end AxonTask
