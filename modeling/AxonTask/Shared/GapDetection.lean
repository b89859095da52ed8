import AxonTask.Lib.Machine
import AxonTask.Shared.StreamReader

/-!
# Gap detection (`axontask-shared/src/redis/gap_detection.rs`)

`detect_gap` compares the cursor of a client with the first entry that `XINFO STREAM`
reports.  Its verdict is about the entries that are present; what it is used for is a
statement about the entries that have been removed.  The machine of appends and trims keeps
both, so the two can be compared: the verdict is right except where the stream has been
trimmed to nothing, and where the cursor lies below the first entry but nothing after it has
been removed.
-/

namespace AxonTask

open Lib

/-! ### Texts of identifiers -/

namespace StreamId

/-- `Display` of an identifier. -/
def text (i : StreamId) : String :=
  String.ofList (Nat.toDigits 10 (ofLex i).1 ++ '-' :: Nat.toDigits 10 (ofLex i).2)

/-- A number without a sign. -/
def isNumeral (l : List Char) : Bool := !l.isEmpty && l.all Char.isDigit

/-- The identifier that a well-formed text stands for: two numbers of any size. -/
def ofText (s : String) : Option StreamId :=
  match s.toList.splitOn '-' with
  | [ms, seq] =>
    if isNumeral ms && isNumeral seq then
      some (toLex (Nat.ofDigitChars 10 ms 0, Nat.ofDigitChars 10 seq 0))
    else none
  | _ => none

/-- Both numbers are values of an `i64`. -/
def Readable (i : StreamId) : Prop := (ofLex i).1 < 2 ^ 63 ∧ (ofLex i).2 < 2 ^ 63

instance (i : StreamId) : Decidable i.Readable := inferInstanceAs (Decidable (_ ∧ _))

lemma zero_le (i : StreamId) : zero ≤ i := by
  rw [Prod.Lex.le_iff]
  rcases Nat.eq_zero_or_pos (ofLex i).1 with h | h
  · exact Or.inr ⟨h.symm, Nat.zero_le _⟩
  · exact Or.inl h

lemma isNumeral_iff {l : List Char} :
    isNumeral l = true ↔ l ≠ [] ∧ ∀ c ∈ l, c.isDigit = true := by
  simp [isNumeral]

lemma isNumeral_toDigits (n : ℕ) : isNumeral (Nat.toDigits 10 n) = true :=
  isNumeral_iff.2 ⟨Nat.toDigits_ne_nil, fun _ hc => Nat.isDigit_of_mem_toDigits (by decide)
    (by decide) hc⟩

lemma hyphen_notMem_toDigits (n : ℕ) : '-' ∉ Nat.toDigits 10 n := fun h =>
  absurd (Nat.isDigit_of_mem_toDigits (by decide) (by decide) h) (by decide)

/-- **Reading the text of an identifier gives the identifier.** -/
lemma ofText_text (i : StreamId) : ofText i.text = some i := by
  have hsplit : i.text.toList.splitOn '-' =
      [Nat.toDigits 10 (ofLex i).1, Nat.toDigits 10 (ofLex i).2] := by
    have h : (['-'].intercalate [Nat.toDigits 10 (ofLex i).1, Nat.toDigits 10 (ofLex i).2]).splitOn
        '-' = [Nat.toDigits 10 (ofLex i).1, Nat.toDigits 10 (ofLex i).2] :=
      List.splitOn_intercalate '-' (by simp [hyphen_notMem_toDigits]) (by simp)
    rw [text, String.toList_ofList, ← h]
    simp [List.intercalate]
  rw [ofText, hsplit]
  simp only [isNumeral_toDigits, Bool.and_self, if_true,
    Nat.ofDigitChars_toDigits (b := 10) (by decide) (by decide), Prod.mk.eta, toLex_ofLex]

lemma isEmpty_text (i : StreamId) : i.text.isEmpty = false := by
  have hnone : ofText "" = none := by decide
  have hne : i.text ≠ "" := by
    intro h
    have hread := ofText_text i
    rw [h, hnone] at hread
    cases hread
  simpa using hne

end StreamId

/-! ### The detector -/

/-- `redis::Value`. -/
inductive RedisValue
  | nil
  | int (n : Int64)
  | data (bytes : Bytes)
  | bulk (values : List RedisValue)
  | status (s : String)
  | okay

/-- `GapDetectionError`. -/
inductive GapDetectionError
  | redisError (message : String)
  | redisCommandError (message : String)
  | invalidStreamId (id : String)
deriving DecidableEq, Repr

/-- `GapInfo`. -/
structure GapInfo where
  clientCursor : String
  earliestAvailableId : String
  latestAvailableId : String
  estimatedMissingCount : UInt64
  compacted : Bool
deriving DecidableEq, Repr

namespace GapDetector

/-- `parse_stream_id`. -/
def parseStreamId (streamId : String) : Except GapDetectionError (Int64 × Int64) :=
  match streamId.toList.splitOn '-' with
  | [part₀, part₁] =>
    match parseI64 (String.ofList part₀), parseI64 (String.ofList part₁) with
    | .ok timestamp, .ok sequence => .ok (timestamp, sequence)
    | _, _ => .error (.invalidStreamId streamId)
  | _ => .error (.invalidStreamId streamId)

/-- `GapDetector::compare_stream_ids`. -/
def compareStreamIds (id₁ id₂ : String) : Except GapDetectionError Int64 := do
  let (ts₁, seq₁) ← parseStreamId id₁
  let (ts₂, seq₂) ← parseStreamId id₂
  return if ts₁ ≠ ts₂ then ts₁ - ts₂ else seq₁ - seq₂

/-- `i64::saturating_sub`. -/
def saturatingSub (a b : Int64) : Int64 :=
  Int64.ofInt (max (-2 ^ 63) (min (2 ^ 63 - 1) (a.toInt - b.toInt)))

/-- `GapDetector::estimate_missing_count`. -/
def estimateMissingCount (earliestId clientCursor : String) : UInt64 :=
  match parseStreamId earliestId, parseStreamId clientCursor with
  | .ok (earliestTs, _), .ok (clientTs, _) =>
    let timeDiff := (saturatingSub earliestTs clientTs).toUInt64
    max (timeDiff / 100) 1
  | _, _ => 0

/-- The text in the first place of a value that is an entry. -/
def entryId : RedisValue → Option String
  | .bulk (.data idBytes :: _) => some ((fromUtf8 idBytes).getD "")
  | _ => none

/-- One round of the loop of `parse_xinfo_stream`, with the texts found so far. -/
def parseField (key value : RedisValue) (ids : String × String) : String × String :=
  match key with
  | .data keyBytes =>
    match fromUtf8 keyBytes with
    | some key =>
      if key = "first-entry" then ((entryId value).getD ids.1, ids.2)
      else if key = "last-entry" then (ids.1, (entryId value).getD ids.2)
      else ids
    | none => ids
  | _ => ids

/-- The loop of `parse_xinfo_stream`, which goes two values at a time. -/
def parseFields : List RedisValue → String × String → String × String
  | key :: value :: info, ids => parseFields info (parseField key value ids)
  | _, ids => ids

/-- `parse_xinfo_stream`. -/
def parseXinfoStream (info : List RedisValue) : Except GapDetectionError (String × String) :=
  .ok (parseFields info ("", ""))

/-- What `detect_gap` does once it has read the reply. -/
def verdict (earliestId latestId clientCursor : String) :
    Except GapDetectionError (Option GapInfo) := do
  if earliestId.isEmpty then
    return none
  let order ← compareStreamIds clientCursor earliestId
  if 0 ≤ order then
    return none
  return some
    { clientCursor
      earliestAvailableId := earliestId
      latestAvailableId := latestId
      estimatedMissingCount := estimateMissingCount earliestId clientCursor
      compacted := true }

/-- `GapDetector::detect_gap`, with what `XINFO STREAM` answers. -/
def detectGap (streamInfo : Except String (List RedisValue)) (clientCursor : String) :
    Except GapDetectionError (Option GapInfo) := do
  let streamInfo ← streamInfo.mapError .redisCommandError
  let (earliestId, latestId) ← parseXinfoStream streamInfo
  verdict earliestId latestId clientCursor

end GapDetector

namespace GapDetector

/-- What is read of a well-formed text. -/
lemma parseStreamId_of_ofText {s : String} {i : StreamId} (h : StreamId.ofText s = some i) :
    parseStreamId s =
      if i.Readable then
        .ok (Int64.ofInt ((ofLex i).1 : ℕ), Int64.ofInt ((ofLex i).2 : ℕ))
      else .error (.invalidStreamId s) := by
  unfold StreamId.ofText at h
  unfold parseStreamId
  split at h
  · rename_i ms seq hsplit
    split at h
    · rename_i hnumerals
      obtain ⟨hms, hseq⟩ := Bool.and_eq_true_iff.1 hnumerals
      obtain ⟨hms, hmsDigit⟩ := StreamId.isNumeral_iff.1 hms
      obtain ⟨hseq, hseqDigit⟩ := StreamId.isNumeral_iff.1 hseq
      cases h
      simp only [parseI64_ofList hms hmsDigit, parseI64_ofList hseq hseqDigit,
        StreamId.Readable, ofLex_toLex]
      by_cases h₁ : Nat.ofDigitChars 10 ms 0 < 2 ^ 63
      · by_cases h₂ : Nat.ofDigitChars 10 seq 0 < 2 ^ 63
        · simp only [h₁, h₂, if_true, and_self]
        · simp only [h₁, h₂, if_true, if_false, and_false]
      · simp only [h₁, if_false, false_and]
    · cases h
  · cases h

lemma toInt_ofInt_sub {a b : ℕ} (ha : a < 2 ^ 63) (hb : b < 2 ^ 63) :
    (Int64.ofInt a - Int64.ofInt b).toInt = (a : ℤ) - b := by
  rw [← Int64.ofInt_sub, Int64.toInt_ofInt_of_le (by omega) (by omega)]

/-- Two numbers of an `i64` differ when their values do. -/
lemma ofInt_eq_iff {a b : ℕ} (ha : a < 2 ^ 63) (hb : b < 2 ^ 63) :
    Int64.ofInt a = Int64.ofInt b ↔ a = b := by
  constructor
  · intro h
    have hsub := toInt_ofInt_sub ha hb
    rw [h, Int64.sub_self] at hsub
    have hzero : (0 : Int64).toInt = 0 := rfl
    omega
  · rintro rfl
    rfl

/-- **The comparison has the sign of the order of identifiers.** -/
lemma compareStreamIds_of_readable {s t : String} {i j : StreamId} (hs : StreamId.ofText s = some i)
    (ht : StreamId.ofText t = some j) (hi : i.Readable) (hj : j.Readable) :
    ∃ order, compareStreamIds s t = .ok order ∧ (0 ≤ order ↔ j ≤ i) := by
  refine ⟨_, by rw [compareStreamIds, parseStreamId_of_ofText hs, parseStreamId_of_ofText ht,
    if_pos hi, if_pos hj]; rfl, ?_⟩
  rw [Prod.Lex.le_iff, Int64.le_iff_toInt_le]
  simp only [ne_eq, ofInt_eq_iff hi.1 hj.1]
  by_cases hts : (ofLex i).1 = (ofLex j).1
  · rw [if_neg (not_not.2 hts), toInt_ofInt_sub hi.2 hj.2]
    simp only [hts, lt_irrefl, true_and, false_or]
    change (0 : ℤ) ≤ _ ↔ _
    omega
  · rw [if_pos hts, toInt_ofInt_sub hi.1 hj.1]
    have hne := Ne.symm hts
    simp only [hne, false_and, or_false]
    change (0 : ℤ) ≤ _ ↔ _
    omega

lemma compareStreamIds_of_not_readable {s t : String} {i j : StreamId}
    (hs : StreamId.ofText s = some i) (ht : StreamId.ofText t = some j)
    (hij : ¬ (i.Readable ∧ j.Readable)) : ∃ e, compareStreamIds s t = .error e := by
  rw [compareStreamIds, parseStreamId_of_ofText hs, parseStreamId_of_ofText ht]
  by_cases hi : i.Readable
  · have hj : ¬ j.Readable := fun hj => hij ⟨hi, hj⟩
    rw [if_pos hi, if_neg hj]
    exact ⟨_, rfl⟩
  · rw [if_neg hi]
    exact ⟨_, rfl⟩

lemma verdict_of_le {cursor : String} {c i : StreamId} (hc : StreamId.ofText cursor = some c)
    (hread : c.Readable ∧ i.Readable) (hle : i ≤ c) (latestId : String) :
    verdict i.text latestId cursor = .ok none := by
  obtain ⟨order, horder, hsign⟩ :=
    compareStreamIds_of_readable hc (StreamId.ofText_text i) hread.1 hread.2
  simp only [verdict, StreamId.isEmpty_text, horder, bind, Except.bind, hsign.2 hle,
    Bool.false_eq_true, if_false, if_true]
  rfl

lemma verdict_of_lt {cursor : String} {c i : StreamId} (hc : StreamId.ofText cursor = some c)
    (hread : c.Readable ∧ i.Readable) (hlt : c < i) (latestId : String) :
    verdict i.text latestId cursor = .ok (some
      { clientCursor := cursor
        earliestAvailableId := i.text
        latestAvailableId := latestId
        estimatedMissingCount := estimateMissingCount i.text cursor
        compacted := true }) := by
  obtain ⟨order, horder, hsign⟩ :=
    compareStreamIds_of_readable hc (StreamId.ofText_text i) hread.1 hread.2
  have hneg : ¬ 0 ≤ order := fun hle => not_le.2 hlt (hsign.1 hle)
  simp only [verdict, StreamId.isEmpty_text, horder, bind, Except.bind, hneg, Bool.false_eq_true,
    if_false]
  rfl

lemma verdict_of_not_readable {cursor : String} {c i : StreamId}
    (hc : StreamId.ofText cursor = some c) (hread : ¬ (c.Readable ∧ i.Readable))
    (latestId : String) : ∃ e, verdict i.text latestId cursor = .error e := by
  obtain ⟨e, he⟩ := compareStreamIds_of_not_readable hc (StreamId.ofText_text i) hread
  refine ⟨e, ?_⟩
  simp only [verdict, StreamId.isEmpty_text, he, Bool.false_eq_true, if_false]
  rfl

/-- **When no gap is reported**: the cursor is not before the first entry. -/
lemma verdict_eq_none_iff {cursor : String} {c i : StreamId} (hc : StreamId.ofText cursor = some c)
    {latestId : String} :
    verdict i.text latestId cursor = .ok none ↔ i ≤ c ∧ c.Readable ∧ i.Readable := by
  by_cases hread : c.Readable ∧ i.Readable
  · rcases le_or_gt i c with hle | hlt
    · exact iff_of_true (verdict_of_le hc hread hle latestId) ⟨hle, hread⟩
    · rw [verdict_of_lt hc hread hlt]
      exact iff_of_false (fun h => by cases h) fun h => not_le.2 hlt h.1
  · obtain ⟨e, he⟩ := verdict_of_not_readable hc hread latestId
    rw [he]
    exact iff_of_false (fun h => by cases h) fun h => hread h.2

/-- **When a gap is reported**: the cursor is before the first entry. -/
lemma verdict_eq_some_iff {cursor : String} {c i : StreamId} (hc : StreamId.ofText cursor = some c)
    {latestId : String} {info : GapInfo} :
    verdict i.text latestId cursor = .ok (some info) ↔
      c < i ∧ (c.Readable ∧ i.Readable) ∧ info =
        { clientCursor := cursor
          earliestAvailableId := i.text
          latestAvailableId := latestId
          estimatedMissingCount := estimateMissingCount i.text cursor
          compacted := true } := by
  by_cases hread : c.Readable ∧ i.Readable
  · rcases le_or_gt i c with hle | hlt
    · rw [verdict_of_le hc hread hle]
      exact iff_of_false (fun h => by cases h) fun h => not_le.2 h.1 hle
    · rw [verdict_of_lt hc hread hlt]
      constructor
      · intro h
        cases h
        exact ⟨hlt, hread, rfl⟩
      · rintro ⟨-, -, rfl⟩
        rfl
  · obtain ⟨e, he⟩ := verdict_of_not_readable hc hread latestId
    rw [he]
    exact iff_of_false (fun h => by cases h) fun h => hread h.2.1

end GapDetector

/-! ### Streams with trims -/

/-- A stream, and the entries that have been removed from it. -/
structure TrimmedStream where
  /-- Whether the key exists; it stays when all entries are removed. -/
  created : Bool
  entries : List RawEntry
  lastGeneratedId : StreamId
  /-- The removed entries, in the order of the stream. -/
  removed : List RawEntry

/-- An append, or a trim that leaves out the first entries. -/
inductive StreamOp
  | xadd (e : RawEntry)
  | trim (n : ℕ)

namespace TrimmedStream

/-- No key. -/
def empty : TrimmedStream := ⟨false, [], StreamId.zero, []⟩

/-- `XADD` and `XTRIM`: Redis refuses an identifier that is not greater than the last one it
generated, also after that entry has been removed. -/
def step (s : TrimmedStream) : StreamOp → Option TrimmedStream
  | .xadd e =>
    if s.lastGeneratedId < e.id then
      some { s with created := true, entries := s.entries ++ [e], lastGeneratedId := e.id }
    else none
  | .trim n =>
    some { s with entries := s.entries.drop n, removed := s.removed ++ s.entries.take n }

/-- The histories of one stream. -/
def machine : Machine TrimmedStream StreamOp where
  Init s := s = empty
  step := step

/-- The greatest identifier removed so far. -/
def lastRemovedId (s : TrimmedStream) : StreamId :=
  (s.removed.getLast?.map RawEntry.id).getD StreamId.zero

/-- An entry as a reply, or nil. -/
def entryReply : Option RawEntry → RedisValue
  | none => .nil
  | some e =>
    .bulk [.data (utf8 e.id.text), .bulk (e.map.flatMap fun kv => [.data (utf8 kv.1), .data kv.2])]

/-- The other fields of a reply to `XINFO STREAM`. -/
structure OtherFields where
  fields : List (String × RedisValue)
  other : ∀ f ∈ fields, f.1 ≠ "first-entry" ∧ f.1 ≠ "last-entry"

/-- The reply to `XINFO STREAM key`: names and values in turn. -/
def xinfoStream (others : OtherFields) (s : TrimmedStream) : Except String (List RedisValue) :=
  if s.created then
    .ok ((others.fields ++ [("first-entry", entryReply s.entries.head?),
      ("last-entry", entryReply s.entries.getLast?)]).flatMap fun f => [.data (utf8 f.1), f.2])
  else .error "ERR no such key"

/-! ### What the detector reads of the reply -/

open GapDetector

lemma parseFields_others {l : List (String × RedisValue)}
    (h : ∀ f ∈ l, f.1 ≠ "first-entry" ∧ f.1 ≠ "last-entry") (rest : List RedisValue)
    (ids : String × String) :
    parseFields ((l.flatMap fun f => [.data (utf8 f.1), f.2]) ++ rest) ids =
      parseFields rest ids := by
  induction l with
  | nil => rfl
  | cons f l ih =>
    obtain ⟨hfirst, hlast⟩ := h f List.mem_cons_self
    simp only [List.flatMap_cons, List.cons_append, List.nil_append, parseFields, parseField,
      fromUtf8_utf8, if_neg hfirst, if_neg hlast]
    exact ih fun f hf => h f (List.mem_cons_of_mem _ hf)

lemma entryId_entryReply (o : Option RawEntry) :
    (entryId (entryReply o)).getD "" = (o.map fun e => e.id.text).getD "" := by
  cases o with
  | none => rfl
  | some e => simp [entryReply, entryId, fromUtf8_utf8]

variable {s : TrimmedStream} {others : OtherFields}

/-- **The two identifiers that are read of a reply**, among any other fields. -/
lemma parseFields_entries (others : OtherFields) (first last : RedisValue) :
    parseFields ((others.fields ++ [("first-entry", first), ("last-entry", last)]).flatMap fun f =>
      [RedisValue.data (utf8 f.1), f.2]) ("", "") =
      ((entryId first).getD "", (entryId last).getD "") := by
  have hfirst : "last-entry" ≠ "first-entry" := by decide
  rw [List.flatMap_append, parseFields_others others.other]
  simp only [List.flatMap_cons, List.flatMap_nil, List.cons_append, List.nil_append, parseFields,
    parseField, fromUtf8_utf8, if_true, if_neg hfirst]

/-- The detector goes by the first and the last entry that are present. -/
lemma detectGap_of_created (h : s.created = true) (cursor : String) :
    detectGap (s.xinfoStream others) cursor =
      verdict ((s.entries.head?.map fun e => e.id.text).getD "")
        ((s.entries.getLast?.map fun e => e.id.text).getD "") cursor := by
  simp only [detectGap, xinfoStream, if_pos h, Except.mapError, parseXinfoStream, bind, Except.bind,
    parseFields_entries, entryId_entryReply]

/-! ### Histories -/

/-- The entries in the order in which they were appended, and what the server remembers of
them. -/
structure Invariant (s : TrimmedStream) : Prop where
  increasing : StreamLog.Increasing RawEntry.id (s.removed ++ s.entries)
  lastGenerated :
    s.lastGeneratedId = ((s.removed ++ s.entries).getLast?.map RawEntry.id).getD StreamId.zero
  created : s.created = true ↔ s.removed ++ s.entries ≠ []

lemma Invariant.le_lastGeneratedId {s : TrimmedStream} (hi : s.Invariant) {e : RawEntry}
    (he : e ∈ s.removed ++ s.entries) : e.id ≤ s.lastGeneratedId := by
  rw [hi.lastGenerated]
  cases hlast : (s.removed ++ s.entries).getLast? with
  | none => simp [List.getLast?_eq_none_iff.1 hlast] at he
  | some z => exact hi.increasing.le_getLast? hlast he

lemma invariant_of_step {s s' : TrimmedStream} {op : StreamOp} (hi : s.Invariant)
    (h : step s op = some s') : s'.Invariant := by
  cases op with
  | xadd e =>
    simp only [step] at h
    split at h
    · rename_i hlt
      cases h
      refine ⟨?_, ?_, ?_⟩
      · change StreamLog.Increasing RawEntry.id (s.removed ++ (s.entries ++ [e]))
        rw [← List.append_assoc]
        refine List.pairwise_append.2 ⟨hi.increasing, List.pairwise_singleton _ _, ?_⟩
        intro a ha b hb
        rw [List.mem_singleton.1 hb]
        exact (hi.le_lastGeneratedId ha).trans_lt hlt
      · simp [List.getLast?_append]
      · simp
    · cases h
  | trim n =>
    cases h
    have hall : s.removed ++ s.entries.take n ++ s.entries.drop n = s.removed ++ s.entries := by
      rw [List.append_assoc, List.take_append_drop]
    exact ⟨hall ▸ hi.increasing, hall ▸ hi.lastGenerated, hall ▸ hi.created⟩

lemma invariant_of_reachable (h : machine.Reachable Machine.anyStep s) : s.Invariant := by
  refine h.invariant (P := Invariant) ?_ fun s op s' _ hi hs => invariant_of_step hi hs
  rintro s rfl
  exact ⟨List.Pairwise.nil, rfl, by simp [empty]⟩

namespace Invariant

variable {a e : RawEntry}

lemma lt_of_removed (hi : s.Invariant) (he : e ∈ s.removed) (ha : a ∈ s.entries) : e.id < a.id :=
  (List.pairwise_append.1 hi.increasing).2.2 e he a ha

lemma created_of_mem (hi : s.Invariant) (ha : a ∈ s.entries) : s.created = true :=
  hi.created.2 (List.ne_nil_of_mem (List.mem_append_right _ ha))

lemma le_lastRemovedId (hi : s.Invariant) (he : e ∈ s.removed) : e.id ≤ s.lastRemovedId := by
  have hsorted : StreamLog.Increasing RawEntry.id s.removed :=
    (List.pairwise_append.1 hi.increasing).1
  unfold lastRemovedId
  cases hlast : s.removed.getLast? with
  | none => simp [List.getLast?_eq_none_iff.1 hlast] at he
  | some z => exact hsorted.le_getLast? hlast he

end Invariant

lemma exists_removed_of_lt_lastRemovedId {c : StreamId} (h : c < s.lastRemovedId) :
    ∃ e ∈ s.removed, c < e.id := by
  unfold lastRemovedId at h
  cases hlast : s.removed.getLast? with
  | none =>
    rw [hlast] at h
    exact absurd h (not_lt.2 (StreamId.zero_le c))
  | some z =>
    rw [hlast] at h
    exact ⟨z, List.mem_of_getLast? hlast, h⟩

/-- Of an emptied stream the server remembers the last entry that was removed. -/
lemma Invariant.lastGeneratedId_of_nil (hi : s.Invariant) (hnil : s.entries = []) :
    s.lastGeneratedId = s.lastRemovedId := by
  rw [hi.lastGenerated, hnil, List.append_nil]
  rfl

/-! ### What the detector answers in a state -/

variable {cursor : String} {c : StreamId}

lemma detectGap_of_head? (hi : s.Invariant) {a z : RawEntry} (ha : s.entries.head? = some a)
    (hz : s.entries.getLast? = some z) :
    detectGap (s.xinfoStream others) cursor = verdict a.id.text z.id.text cursor := by
  rw [detectGap_of_created (hi.created_of_mem (List.mem_of_head? ha)), ha, hz]
  rfl

lemma exists_getLast? {a : RawEntry} (ha : s.entries.head? = some a) :
    ∃ z, s.entries.getLast? = some z :=
  ⟨_, List.getLast?_eq_some_getLast (List.ne_nil_of_mem (List.mem_of_head? ha))⟩

/-- Without entries, no gap is reported for a stream that exists. -/
lemma detectGap_of_nil (hnil : s.entries = []) (hcreated : s.created = true) :
    detectGap (s.xinfoStream others) cursor = .ok none := by
  rw [detectGap_of_created hcreated, hnil]
  rfl

/-- A cursor for which no gap is reported is not before the first entry. -/
lemma le_of_detectGap_eq_none (hi : s.Invariant) (hc : StreamId.ofText cursor = some c)
    (h : detectGap (s.xinfoStream others) cursor = .ok none) {a : RawEntry}
    (ha : s.entries.head? = some a) : a.id ≤ c := by
  obtain ⟨z, hz⟩ := exists_getLast? ha
  rw [detectGap_of_head? hi ha hz] at h
  exact ((verdict_eq_none_iff hc).1 h).1

/-- **The reports of the detector.** -/
lemma detectGap_eq_some_iff (hi : s.Invariant) (hc : StreamId.ofText cursor = some c)
    {info : GapInfo} :
    detectGap (s.xinfoStream others) cursor = .ok (some info) ↔
      ∃ a z, s.entries.head? = some a ∧ s.entries.getLast? = some z ∧ c < a.id ∧
        (c.Readable ∧ a.id.Readable) ∧ info =
          { clientCursor := cursor
            earliestAvailableId := a.id.text
            latestAvailableId := z.id.text
            estimatedMissingCount := estimateMissingCount a.id.text cursor
            compacted := true } := by
  constructor
  · intro h
    cases ha : s.entries.head? with
    | none =>
      -- nothing is present: either there is no key, or there is no gap
      have hnil := List.head?_eq_none_iff.1 ha
      cases hcreated : s.created with
      | false =>
        rw [detectGap, xinfoStream, hcreated] at h
        cases h
      | true =>
        rw [detectGap_of_nil hnil hcreated] at h
        cases h
    | some a =>
      obtain ⟨z, hz⟩ := exists_getLast? ha
      rw [detectGap_of_head? hi ha hz] at h
      exact ⟨a, z, rfl, hz, (verdict_eq_some_iff hc).1 h⟩
  · rintro ⟨a, z, ha, hz, hreport⟩
    rw [detectGap_of_head? hi ha hz]
    exact (verdict_eq_some_iff hc).2 hreport

/-! ### The verdict and the history -/

section

variable (s : TrimmedStream) (others : OtherFields) (cursor : String) (c : StreamId)

/-- When no gap is reported, no entry after the cursor has been removed. -/
def NoSilentLoss : Prop :=
  detectGap (s.xinfoStream others) cursor = .ok none → ∀ e ∈ s.removed, ¬ c < e.id

/-- When a gap is reported, some entry after the cursor has been removed, and the report names
the smallest and the greatest identifier that are present, the smallest being after the
cursor. -/
def NoFalseAlarm : Prop :=
  ∀ info, detectGap (s.xinfoStream others) cursor = .ok (some info) →
    (∃ e ∈ s.removed, c < e.id) ∧
      ∃ a ∈ s.entries, ∃ z ∈ s.entries, info.earliestAvailableId = a.id.text ∧
        info.latestAvailableId = z.id.text ∧ (∀ e ∈ s.entries, a.id ≤ e.id ∧ e.id ≤ z.id) ∧
        c < a.id

end

/-- **Losses go unnoticed exactly on an emptied stream**: no gap is reported wrongly exactly
when an entry is present, or the last identifier of the stream is not after the cursor. -/
theorem noSilentLoss_iff (h : machine.Reachable Machine.anyStep s) (others : OtherFields)
    (hc : StreamId.ofText cursor = some c) :
    s.NoSilentLoss others cursor c ↔ s.entries ≠ [] ∨ s.lastGeneratedId ≤ c := by
  have hi := invariant_of_reachable h
  constructor
  · intro hloss
    by_cases hnil : s.entries = []
    · right
      by_contra hlt
      rw [hi.lastGeneratedId_of_nil hnil] at hlt
      obtain ⟨e, he, hce⟩ := exists_removed_of_lt_lastRemovedId (not_le.1 hlt)
      have hcreated := hi.created.2 (List.ne_nil_of_mem (List.mem_append_left _ he))
      exact hloss (detectGap_of_nil hnil hcreated) e he hce
    · exact Or.inl hnil
  · rintro (hne | hle) hnone e he
    · -- the cursor is not before the first entry, and `e` was
      obtain ⟨a, ha⟩ := Option.ne_none_iff_exists'.1 (mt List.head?_eq_none_iff.1 hne)
      have hea := hi.lt_of_removed he (List.mem_of_head? ha)
      exact not_lt.2 (hea.le.trans (le_of_detectGap_eq_none hi hc hnone ha))
    · exact not_lt.2 ((hi.le_lastGeneratedId (List.mem_append_left _ he)).trans hle)

/-- A sample entry. -/
def sampleEntry (ms : ℕ) : RawEntry := ⟨toLex (ms, 0), []⟩

/-- The fields that a server reports beside the entries. -/
def sampleFields : OtherFields where
  fields := [("length", .int 0), ("last-generated-id", .data (utf8 "5-0"))]
  other := by decide

/-- A stream that has been trimmed to one entry. -/
theorem noSilentLoss_iff_trimmed : ∃ s : TrimmedStream,
    machine.exec Machine.anyStep empty
      [.xadd (sampleEntry 5), .xadd (sampleEntry 7), .trim 1] = some s ∧
      StreamId.ofText "0-0" = some StreamId.zero ∧
      (s.NoSilentLoss sampleFields "0-0" StreamId.zero ↔
        s.entries ≠ [] ∨ s.lastGeneratedId ≤ StreamId.zero) := by
  have hc : StreamId.ofText "0-0" = some StreamId.zero := by decide
  obtain ⟨s, hs⟩ : ∃ s, machine.exec Machine.anyStep empty
      [.xadd (sampleEntry 5), .xadd (sampleEntry 7), .trim 1] = some s := ⟨_, rfl⟩
  exact ⟨s, hs, hc, noSilentLoss_iff ⟨empty, _, rfl, Machine.run_of_exec hs⟩ sampleFields hc⟩

/-- One entry is appended and removed: a client that has seen nothing is told nothing. -/
theorem silent_loss_on_emptied_stream : ∃ s : TrimmedStream,
    machine.exec Machine.anyStep empty [.xadd (sampleEntry 5), .trim 1] = some s ∧
      StreamId.ofText "0-0" = some StreamId.zero ∧
      ¬ s.NoSilentLoss sampleFields "0-0" StreamId.zero := by
  refine ⟨_, rfl, by decide, ?_⟩
  intro h
  exact h rfl (sampleEntry 5) (by decide) (by decide)

/-- **False alarms are raised exactly for a cursor between what has been removed and what is
present**: every report is right exactly when no entry is present, or the cursor is before the
last removed one, or it is not before the first entry, or one of the two cannot be read. -/
theorem noFalseAlarm_iff (h : machine.Reachable Machine.anyStep s) (others : OtherFields)
    (hc : StreamId.ofText cursor = some c) :
    s.NoFalseAlarm others cursor c ↔
      ¬ ∃ a, s.entries.head? = some a ∧ s.lastRemovedId ≤ c ∧ c < a.id ∧
        c.Readable ∧ a.id.Readable := by
  have hi := invariant_of_reachable h
  constructor
  · rintro halarm ⟨a, ha, hle, hlt, hread⟩
    obtain ⟨z, hz⟩ := exists_getLast? ha
    obtain ⟨⟨e, he, hce⟩, -⟩ :=
      halarm _ ((detectGap_eq_some_iff hi hc).2 ⟨a, z, ha, hz, hlt, hread, rfl⟩)
    exact not_le.2 hce ((hi.le_lastRemovedId he).trans hle)
  · intro hno info hinfo
    obtain ⟨a, z, ha, hz, hlt, hread, rfl⟩ := (detectGap_eq_some_iff hi hc).1 hinfo
    have hsorted : StreamLog.Increasing RawEntry.id s.entries :=
      (List.pairwise_append.1 hi.increasing).2.1
    refine ⟨exists_removed_of_lt_lastRemovedId ?_, a, List.mem_of_head? ha, z,
      List.mem_of_getLast? hz, rfl, rfl,
      fun e he => ⟨hsorted.head?_le ha he, hsorted.le_getLast? hz he⟩, hlt⟩
    exact not_le.1 fun hle => hno ⟨a, ha, hle, hlt, hread⟩

/-- A stream of which an entry has been removed. -/
theorem noFalseAlarm_iff_trimmed : ∃ s : TrimmedStream,
    machine.exec Machine.anyStep empty
      [.xadd (sampleEntry 5), .xadd (sampleEntry 7), .trim 1] = some s ∧
      StreamId.ofText "3-0" = some (toLex (3, 0)) ∧
      (s.NoFalseAlarm sampleFields "3-0" (toLex (3, 0)) ↔
        ¬ ∃ a, s.entries.head? = some a ∧ s.lastRemovedId ≤ toLex (3, 0) ∧
          toLex (3, 0) < a.id ∧ StreamId.Readable (toLex (3, 0)) ∧ a.id.Readable) := by
  have hc : StreamId.ofText "3-0" = some (toLex (3, 0)) := by decide
  obtain ⟨s, hs⟩ : ∃ s, machine.exec Machine.anyStep empty
      [.xadd (sampleEntry 5), .xadd (sampleEntry 7), .trim 1] = some s := ⟨_, rfl⟩
  exact ⟨s, hs, hc, noFalseAlarm_iff ⟨empty, _, rfl, Machine.run_of_exec hs⟩ sampleFields hc⟩

/-- Nothing has been removed, and a client that starts from the beginning is told of a gap. -/
theorem false_alarm_on_intact_stream : ∃ s : TrimmedStream,
    machine.exec Machine.anyStep empty [.xadd (sampleEntry 5)] = some s ∧ s.removed = [] ∧
      StreamId.ofText "0-0" = some StreamId.zero ∧
      ¬ s.NoFalseAlarm sampleFields "0-0" StreamId.zero := by
  have hc : StreamId.ofText "0-0" = some StreamId.zero := by decide
  refine ⟨_, rfl, rfl, hc, ?_⟩
  intro h
  obtain ⟨⟨e, he, -⟩, -⟩ := h _ (by
    rw [detectGap_of_created rfl]
    exact verdict_of_lt (i := (sampleEntry 5).id) hc (by decide) (by decide) _)
  simp [empty] at he

end TrimmedStream

end AxonTask
