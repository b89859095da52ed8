import AxonTask.Shared.GapDetection

/-!
# The earliest identifier (`get_earliest_id` of `gap_detection.rs`)

`XRANGE key - + COUNT 1` answers with a list of at most one entry.  `get_earliest_id` looks
into it one level deeper than it goes: it takes the first entry for a list of entries, and the
identifier of this entry for another entry.  So it finds an identifier in no reply.  The other
walk over a reply, `parse_xinfo_stream`, finds the smallest identifier of the same stream.
-/

namespace AxonTask

open Lib GapDetector

/-- `GapDetector::get_earliest_id`, with what `XRANGE` answers; `none` is a panic. -/
def GapDetector.getEarliestId (result : Except String (List RedisValue)) :
    Option (Except GapDetectionError (Option String)) :=
  match result with
  | .error e => some (.error (.redisCommandError e))
  | .ok [] => some (.ok none)
  | .ok (.bulk entries :: _) =>
    match entries with
    -- `entries[0]`
    | [] => none
    | .bulk entryParts :: _ =>
      match entryParts with
      -- `entry_parts[0]`
      | [] => none
      | .data idBytes :: _ => some (.ok (fromUtf8 idBytes))
      | _ :: _ => some (.ok none)
    | _ :: _ => some (.ok none)
  | .ok (_ :: _) => some (.ok none)

/-! ### Replies of a stream -/

/-- An entry of a reply: an identifier, and names and values in turn. -/
def entryValue (id : Bytes) (fields : List (Bytes × Bytes)) : RedisValue :=
  .bulk [.data id, .bulk (fields.flatMap fun kv => [.data kv.1, .data kv.2])]

/-- The reply is an error, or a list of entries. -/
def IsEntries (result : Except String (List RedisValue)) : Prop :=
  ∀ l, result = .ok l → ∀ v ∈ l, ∃ id fields, v = entryValue id fields

/-- An entry of a stream, with any names and values. -/
structure ByteEntry where
  id : StreamId
  fields : List (Bytes × Bytes)

/-- The entry in a reply. -/
def ByteEntry.value (e : ByteEntry) : RedisValue := entryValue (utf8 e.id.text) e.fields

/-- A stream of such entries. -/
structure ByteStream where
  entries : List ByteEntry
  increasing : StreamLog.Increasing ByteEntry.id entries

namespace ByteStream

/-- The reply to `XRANGE key - + COUNT 1`. -/
def xrange (S : ByteStream) : Except String (List RedisValue) :=
  .ok ((S.entries.take 1).map ByteEntry.value)

/-- The reply to `XINFO STREAM key` for a stream that exists. -/
def xinfoStream (others : TrimmedStream.OtherFields) (S : ByteStream) : List RedisValue :=
  (others.fields ++ [("first-entry", (S.entries.head?.map ByteEntry.value).getD .nil),
    ("last-entry", (S.entries.getLast?.map ByteEntry.value).getD .nil)]).flatMap
      fun f => [.data (utf8 f.1), f.2]

/-- What is asked of `get_earliest_id`. -/
structure EarliestIdRight (others : TrimmedStream.OtherFields) (S : ByteStream) : Prop where
  noPanic : ∀ result, IsEntries result → getEarliestId result ≠ none
  eq_none_iff : getEarliestId S.xrange = some (.ok none) ↔ S.entries = []
  smallest : ∀ a ∈ S.entries, (∀ e ∈ S.entries, a.id ≤ e.id) →
    getEarliestId S.xrange = some (.ok (some a.id.text)) ∧
      ∃ last, parseXinfoStream (S.xinfoStream others) = .ok (a.id.text, last)

/-! ### What the two walks find -/

/-- In no list of entries an identifier is found. -/
lemma getEarliestId_ok {l : List RedisValue} (h : IsEntries (.ok l)) :
    getEarliestId (.ok l) = some (.ok none) := by
  cases l with
  | nil => rfl
  | cons v l =>
    -- the first part of an entry is its identifier, and not an entry
    obtain ⟨id, fields, rfl⟩ := h (v :: l) rfl v List.mem_cons_self
    rfl

lemma getEarliestId_ne_none {result : Except String (List RedisValue)} (h : IsEntries result) :
    getEarliestId result ≠ none := by
  cases result with
  | error e => simp [getEarliestId]
  | ok l => simp [getEarliestId_ok h]

lemma isEntries_xrange (S : ByteStream) : IsEntries S.xrange := by
  rintro l ⟨⟩ v hv
  obtain ⟨e, -, rfl⟩ := List.mem_map.1 hv
  exact ⟨_, _, rfl⟩

/-- **Every stream is taken for an empty one.** -/
lemma getEarliestId_xrange (S : ByteStream) : getEarliestId S.xrange = some (.ok none) :=
  getEarliestId_ok S.isEntries_xrange

lemma entryId_value (e : ByteEntry) : entryId e.value = some e.id.text := by
  simp [ByteEntry.value, entryValue, entryId, fromUtf8_utf8]

/-- **The other walk finds the smallest and the greatest identifier.** -/
theorem parseXinfoStream_eq (others : TrimmedStream.OtherFields) {S : ByteStream} {a z : ByteEntry}
    (ha : S.entries.head? = some a) (hz : S.entries.getLast? = some z) :
    parseXinfoStream (S.xinfoStream others) = .ok (a.id.text, z.id.text) ∧
      ∀ e ∈ S.entries, a.id ≤ e.id ∧ e.id ≤ z.id := by
  refine ⟨?_, fun e he => ⟨S.increasing.head?_le ha he, S.increasing.le_getLast? hz he⟩⟩
  rw [parseXinfoStream, xinfoStream, TrimmedStream.parseFields_entries, ha, hz]
  simp [entryId_value]

/-- **The earliest identifier is found exactly on an empty stream**, where there is none. -/
theorem earliestIdRight_iff (others : TrimmedStream.OtherFields) (S : ByteStream) :
    S.EarliestIdRight others ↔ S.entries = [] := by
  constructor
  · intro h
    exact h.eq_none_iff.1 S.getEarliestId_xrange
  · intro hnil
    refine ⟨fun _ => getEarliestId_ne_none, iff_of_true S.getEarliestId_xrange hnil, ?_⟩
    intro a ha
    simp [hnil] at ha

/-- The stream with the one entry 5-0. -/
def oneEntry : ByteStream where
  entries := [⟨toLex (5, 0), [(utf8 "kind", utf8 "started")]⟩]
  increasing := List.pairwise_singleton _ _

/-- Of the entry 5-0 nothing is found. -/
theorem not_earliestIdRight_oneEntry :
    ¬ oneEntry.EarliestIdRight TrimmedStream.sampleFields := by
  intro h
  have hfound := (h.smallest ⟨toLex (5, 0), [(utf8 "kind", utf8 "started")]⟩
    List.mem_cons_self (by simp [oneEntry])).1
  rw [getEarliestId_xrange] at hfound
  cases hfound

end ByteStream

end AxonTask
