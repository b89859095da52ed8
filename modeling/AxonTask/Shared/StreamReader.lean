import AxonTask.Lib.StreamLog
import AxonTask.Shared.EventFields
import Mathlib.Data.Prod.Lex

/-!
# The stream reader (`axontask-shared/src/redis/stream_reader.rs`)

`StreamReader` asks Redis for the entries of the event stream of a task after an identifier
and decodes them; entries that cannot be decoded are skipped.  `read_all` pages through the
whole stream: it goes on after the last event that a page was decoded to, and stops at the
first page without one.  So it returns all events exactly when no run of entries that cannot
be decoded fills a page before another event.

Redis reads the texts of identifiers; here an identifier is the pair of numbers it stands for.
-/

namespace AxonTask

open Lib

/-- An identifier of a stream entry: milliseconds and a sequence number. -/
abbrev StreamId := ℕ ×ₗ ℕ

/-- The identifier `0`, or `0-0`. -/
def StreamId.zero : StreamId := toLex (0, 0)

/-- `StreamId` of the client library: an entry with its identifier, names and values. -/
structure RawEntry where
  id : StreamId
  map : List (String × Bytes)
deriving DecidableEq

/-- A stream from which nothing is removed. -/
structure Stream where
  entries : List RawEntry
  increasing : StreamLog.Increasing RawEntry.id entries
  pos : ∀ e ∈ entries, StreamId.zero < e.id

namespace Stream

/-- The stream without entries. -/
def empty : Stream := ⟨[], List.Pairwise.nil, by simp⟩

/-- The greatest identifier. -/
def lastId (S : Stream) : StreamId := (S.entries.getLast?.map RawEntry.id).getD StreamId.zero

lemma le_lastId (S : Stream) {e : RawEntry} (he : e ∈ S.entries) : e.id ≤ S.lastId := by
  unfold lastId
  cases hlast : S.entries.getLast? with
  | none => simp [List.getLast?_eq_none_iff.1 hlast] at he
  | some z => exact S.increasing.le_getLast? hlast he

lemma zero_le_lastId (S : Stream) : StreamId.zero ≤ S.lastId := by
  unfold lastId
  cases hlast : S.entries.getLast? with
  | none => exact le_rfl
  | some e => exact (S.pos e (List.mem_of_getLast? hlast)).le

lemma lastId_mono {S S' : Stream} (h : ∀ e ∈ S.entries, e ∈ S'.entries) : S.lastId ≤ S'.lastId := by
  cases hlast : S.entries.getLast? with
  | none => simpa [lastId, hlast] using S'.zero_le_lastId
  | some e => simpa [lastId, hlast] using S'.le_lastId (h e (List.mem_of_getLast? hlast))

/-- `XADD`: Redis refuses an identifier that is not greater than all before. -/
def add (S : Stream) (e : RawEntry) : Option Stream :=
  if h : S.lastId < e.id then
    some
      { entries := S.entries ++ [e]
        increasing := List.pairwise_append.2 ⟨S.increasing, List.pairwise_singleton _ _, by
          intro a ha b hb
          rw [List.mem_singleton.1 hb]
          exact (S.le_lastId ha).trans_lt h⟩
        pos := by
          intro a ha
          rcases List.mem_append.1 ha with ha | ha
          · exact S.pos a ha
          · rw [List.mem_singleton.1 ha]
            exact S.zero_le_lastId.trans_lt h }
  else none

lemma add_eq_some {S S' : Stream} {e : RawEntry} (h : S.add e = some S') :
    S.lastId < e.id ∧ S'.entries = S.entries ++ [e] := by
  unfold add at h
  split at h
  · next hlt =>
    cases h
    exact ⟨hlt, rfl⟩
  · cases h

end Stream

/-- The identifier that a read starts after: one of an entry, or the special `$`. -/
inductive Cursor
  | id (i : StreamId)
  | latest
deriving DecidableEq

/-- The identifier that Redis takes for a cursor: `$` is the greatest one at that time. -/
def Cursor.resolve (S : Stream) : Cursor → StreamId
  | id i => i
  | latest => S.lastId

/-- The reply to `XREAD COUNT count STREAMS key cursor`; the count 0 is no limit. -/
def xread (S : Stream) (cursor : Cursor) (count : ℕ) : List RawEntry :=
  StreamLog.page RawEntry.id count (cursor.resolve S) S.entries

/-- The fields of an entry; values that are not UTF-8 are dropped. -/
def RawEntry.fields (e : RawEntry) : Fields :=
  e.map.filterMap fun kv => (fromUtf8 kv.2).map fun value => (kv.1, value)

/-- The event of an entry with its identifier, if it can be decoded. -/
def RawEntry.decode (P : EventParsers) (e : RawEntry) : Option (StreamId × TaskEvent) :=
  match deserializeEvent P e.fields with
  | .ok event => some (e.id, event)
  | .error _ => none

lemma RawEntry.fst_of_decode {P : EventParsers} {e : RawEntry} {y : StreamId × TaskEvent}
    (h : e.decode P = some y) : y.1 = e.id := by
  unfold decode at h
  split at h
  · cases h
    rfl
  · cases h

/-- The entry that `XADD` makes of fields. -/
def RawEntry.ofFields (id : StreamId) (fields : Fields) : RawEntry :=
  ⟨id, fields.map fun kv => (kv.1, utf8 kv.2)⟩

lemma RawEntry.fields_ofFields (id : StreamId) (fields : Fields) :
    (ofFields id fields).fields = fields := by
  simp only [RawEntry.fields, ofFields, List.filterMap_map]
  refine (List.filterMap_congr (g := some) ?_).trans List.filterMap_some
  intro kv _
  simp [fromUtf8_utf8]

/-- An entry written for an event is decoded to the event. -/
lemma RawEntry.decode_ofFields {P : EventParsers} {L : Libs} {payloads : Set JsonValue}
    (hP : P.Inverts L payloads) {event : TaskEvent} (hts : Rfc3339.FourDigitYear event.ts)
    (hprev : event.hashPrev ≠ some []) (hmem : event.payload ∈ payloads) {fields : Fields}
    (h : serializeEvent L event = .ok fields) (id : StreamId) :
    (ofFields id fields).decode P = some (id, event) := by
  have hread := deserializeEvent_serializeEvent hP hts hprev hmem
  rw [h] at hread
  have hread : deserializeEvent P fields = .ok event := hread
  rw [decode, fields_ofFields, hread]
  rfl

/-- `StreamReaderConfig`. -/
structure StreamReaderConfig where
  defaultBatchSize : ℕ := 1000
  defaultLiveTimeoutMs : ℕ := 5000
  maxBatchSize : ℕ := 10000

namespace StreamReader

variable (P : EventParsers) (config : StreamReaderConfig)

/-- The loop over a reply: entries that cannot be decoded are skipped. -/
def parseReply (reply : List RawEntry) : List (StreamId × TaskEvent) :=
  reply.filterMap (RawEntry.decode P)

/-- `StreamReader::read_backfill`. -/
def readBackfill (S : Stream) (sinceId : Cursor) (count : ℕ) : List (StreamId × TaskEvent) :=
  parseReply P (xread S sinceId (min count config.maxBatchSize))

/-- What `StreamReader::read_live` returns when Redis answers it from the stream `S`, where
`afterId` is the identifier that Redis took for the cursor when the call arrived. -/
def readLive (S : Stream) (afterId : StreamId) : List (StreamId × TaskEvent) :=
  parseReply P (xread S (.id afterId) config.defaultBatchSize)

variable {P config} {S : Stream} {i : StreamId} {y : StreamId × TaskEvent}

/-- What a reply after `i` is decoded to: the events of the window up to the last of them. -/
lemma exists_window_of_reply {reply : List RawEntry}
    (hreply : reply <+: StreamLog.after RawEntry.id i S.entries)
    (h : (parseReply P reply).getLast? = some y) :
    ∃ x ∈ S.entries, x.id = y.1 ∧ i < y.1 ∧
      parseReply P (StreamLog.window RawEntry.id i y.1 S.entries) = parseReply P reply := by
  obtain ⟨x, hx, hdecode, hlt, hwindow⟩ :=
    StreamLog.exists_window_of_getLast? S.increasing hreply h
  rw [← RawEntry.fst_of_decode hdecode] at hlt hwindow
  exact ⟨x, hx, (RawEntry.fst_of_decode hdecode).symm, hlt, hwindow⟩

lemma isPrefix_xread (S : Stream) (cursor : Cursor) (count : ℕ) :
    xread S cursor count <+: StreamLog.after RawEntry.id (cursor.resolve S) S.entries :=
  StreamLog.isPrefix_page _ _ _

/-- A page that is decoded to an event leaves fewer entries to read. -/
lemma length_after_lt {n : ℕ} (h : (readBackfill P config S (.id i) n).getLast? = some y) :
    (StreamLog.after RawEntry.id y.1 S.entries).length <
      (StreamLog.after RawEntry.id i S.entries).length := by
  obtain ⟨x, hx, hxy, hlt, -⟩ := exists_window_of_reply (isPrefix_xread S (.id i) _) h
  have hlt : i < y.1 := hlt
  rw [← StreamLog.after_after (le_of_lt hlt)]
  refine List.length_filter_lt_length_iff_exists.2 ⟨x, ?_, by simp [hxy]⟩
  exact StreamLog.mem_after.2 ⟨hx, hxy ▸ hlt⟩

variable (P config S) in
/-- The loop of `read_all`, from `last_id` on. -/
def readAllLoop (lastId : StreamId) : List TaskEvent :=
  let batch := readBackfill P config S (.id lastId) config.defaultBatchSize
  match _h : batch.getLast? with
  | none => []
  | some (streamId, _) => batch.map Prod.snd ++ readAllLoop streamId
termination_by (StreamLog.after RawEntry.id lastId S.entries).length
decreasing_by exact length_after_lt _h

variable (P config S) in
/-- `StreamReader::read_all`. -/
def readAll : List TaskEvent := readAllLoop P config S StreamId.zero

/-! ### What `read_all` returns -/

/-- The events of a list of entries. -/
def events (P : EventParsers) (l : List RawEntry) : List TaskEvent :=
  (parseReply P l).map Prod.snd

/-- The size of the pages that `read_all` asks for. -/
def pageSize (config : StreamReaderConfig) : ℕ := min config.defaultBatchSize config.maxBatchSize

lemma readBackfill_eq (hsize : 0 < pageSize config) (i : StreamId) :
    readBackfill P config S (.id i) config.defaultBatchSize =
      parseReply P ((StreamLog.after RawEntry.id i S.entries).take (pageSize config)) := by
  have hne : min config.defaultBatchSize config.maxBatchSize ≠ 0 := Nat.ne_of_gt hsize
  rw [readBackfill, xread, StreamLog.page, if_neg hne]
  rfl

/-- The loop stops at a page without an event. -/
lemma readAllLoop_of_none
    (h : (readBackfill P config S (.id i) config.defaultBatchSize).getLast? = none) :
    readAllLoop P config S i = [] := by
  rw [readAllLoop]
  split
  · rfl
  · next hsome => simp [hsome] at h

/-- The loop goes on after the last event of a page. -/
lemma readAllLoop_of_some
    (h : (readBackfill P config S (.id i) config.defaultBatchSize).getLast? = some y) :
    readAllLoop P config S i =
      (readBackfill P config S (.id i) config.defaultBatchSize).map Prod.snd ++
        readAllLoop P config S y.1 := by
  rw [readAllLoop]
  split
  · next hnone => simp [hnone] at h
  · next hsome =>
    obtain rfl := Option.some.inj (hsome.symm.trans h)
    rfl

/-- From every place on, the loop returns all events exactly when no gap fills a page. -/
lemma readAllLoop_eq_iff (hsize : 0 < pageSize config) (i : StreamId) :
    readAllLoop P config S i = events P (StreamLog.after RawEntry.id i S.entries) ↔
      StreamLog.Dense (RawEntry.decode P) (pageSize config) 0
        (StreamLog.after RawEntry.id i S.entries) := by
  induction i using readAllLoop.induct P config S with
  | case1 i batch hnone =>
    -- no entry of the page can be decoded, and the loop stops
    have hpage : parseReply P
        ((StreamLog.after RawEntry.id i S.entries).take (pageSize config)) = [] :=
      (readBackfill_eq hsize i).symm.trans (List.getLast?_eq_none_iff.1 hnone)
    have hbad : ∀ e ∈ (StreamLog.after RawEntry.id i S.entries).take (pageSize config - 0),
        e.decode P = none := List.filterMap_eq_nil_iff.1 hpage
    rw [StreamLog.dense_iff_of_take hbad, readAllLoop_of_none hnone, events, parseReply, eq_comm,
      List.map_eq_nil_iff]
  | case2 i batch streamId event hlast ih =>
    -- the page ends in entries that cannot be decoded, after the one with the new `last_id`
    have hloop := readAllLoop_of_some hlast
    have hbatch : batch = parseReply P
        ((StreamLog.after RawEntry.id i S.entries).take (pageSize config)) :=
      readBackfill_eq hsize i
    rw [readBackfill_eq hsize] at hloop
    rw [hbatch] at hlast
    obtain ⟨a, x, b, hpage, hx, hdecoded⟩ := StreamLog.exists_split_of_getLast? hlast
    obtain rfl : streamId = x.id := RawEntry.fst_of_decode hx
    have hlen : a.length < pageSize config := by
      have htake := List.length_take_le (pageSize config)
        (StreamLog.after RawEntry.id i S.entries)
      rw [hpage, List.length_append, List.length_cons] at htake
      omega
    have hsplit : StreamLog.after RawEntry.id i S.entries =
        a ++ x :: (b ++ (StreamLog.after RawEntry.id i S.entries).drop (pageSize config)) := by
      have hall := List.take_append_drop (pageSize config)
        (StreamLog.after RawEntry.id i S.entries)
      rw [hpage] at hall
      simpa using hall.symm
    rw [StreamLog.after_of_split S.increasing hsplit] at ih
    rw [parseReply, hdecoded] at hloop
    generalize b ++ (StreamLog.after RawEntry.id i S.entries).drop (pageSize config) = rest at *
    rw [hloop, hsplit, StreamLog.dense_append (by simp [hx]) (by simpa using hlen), ← ih]
    simp [events, parseReply, List.filterMap_append, hx]

lemma after_zero (S : Stream) :
    StreamLog.after RawEntry.id StreamId.zero S.entries = S.entries := by
  rw [StreamLog.after, List.filter_eq_self]
  intro e he
  simpa using S.pos e he

lemma readAll_eq_events_iff (hsize : 0 < pageSize config) :
    readAll P config S = events P S.entries ↔
      StreamLog.Dense (RawEntry.decode P) (pageSize config) 0 S.entries := by
  have hiff := readAllLoop_eq_iff (P := P) (S := S) hsize StreamId.zero
  rwa [after_zero] at hiff

/-- An entry for `sampleEvent`. -/
def goodEntry (id : StreamId) : RawEntry :=
  .ofFields id (textsOf Libs.printing sampleEvent "{}")

/-- An entry without fields. -/
def badEntry (id : StreamId) : RawEntry := ⟨id, []⟩

lemma decode_goodEntry (id : StreamId) :
    (goodEntry id).decode EventParsers.sample = some (id, sampleEvent) := by
  have hmem : sampleEvent.payload ∈ ({.object []} : Set JsonValue) := rfl
  have hprev : sampleEvent.hashPrev ≠ some [] := by simp [sampleEvent]
  exact RawEntry.decode_ofFields EventParsers.inverts_sample (by decide) hprev hmem rfl id

lemma decode_badEntry (P : EventParsers) (id : StreamId) : (badEntry id).decode P = none := rfl

/-- The stream of two entries. -/
def twoEntries (first second : StreamId → RawEntry) (hfirst : ∀ id, (first id).id = id)
    (hsecond : ∀ id, (second id).id = id) : Stream where
  entries := [first (toLex (1, 0)), second (toLex (2, 0))]
  increasing := by
    have hlt : toLex (1, 0) < (toLex (2, 0) : StreamId) := by decide
    simpa [StreamLog.Increasing, hfirst, hsecond] using hlt
  pos := by
    intro e he
    simp only [List.mem_cons, List.not_mem_nil, or_false] at he
    rcases he with rfl | rfl
    · rw [hfirst]
      decide
    · rw [hsecond]
      decide

end StreamReader

end AxonTask
