import AxonTask.Lib.Pairs
import AxonTask.Shared.Metrics

/-!
# The twin parsers (`redis/gap_detection.rs` and `redis/metrics.rs` of `axontask-shared`)

The reply to `XINFO STREAM` and the texts of identifiers are parsed by two copies of the same code,
which differ in what stands for a missing identifier.  The loops over the reply are modelled a
second time here, with the positions that they access.
-/

namespace AxonTask

open Lib

namespace TwinParsers

/-! ### The loops with their positions -/

/-- The text in the first place of the entry at position `i + 1`, in bytes, if there is one; `none`
when a position is not there. -/
def idBytesAt (info : List RedisValue) (i : ℕ) : Option (Option Bytes) :=
  info[i + 1]?.bind fun value =>
    match value with
    | .bulk entry =>
      if entry.isEmpty then some none
      else
        entry[0]?.bind fun id =>
          match id with
          | .data idBytes => some (some idBytes)
          | _ => some none
    | _ => some none

/-- The name at position `i`, if it is one; `none` when the position is not there. -/
def nameAt (info : List RedisValue) (i : ℕ) : Option (Option String) :=
  info[i]?.bind fun key =>
    match key with
    | .data keyBytes => some (fromUtf8 keyBytes)
    | _ => some none

/-- One round of the loop of `parse_xinfo_stream`. -/
def xinfoRound (info : List RedisValue) (i : ℕ) (ids : String × String) :
    Option (String × String) :=
  (nameAt info i).bind fun name =>
    match name with
    | some key =>
      if key = "first-entry" ∧ i + 1 < info.length then
        (idBytesAt info i).bind fun id =>
          match id with
          | some idBytes => some ((fromUtf8 idBytes).getD "", ids.2)
          | none => some ids
      else if key = "last-entry" ∧ i + 1 < info.length then
        (idBytesAt info i).bind fun id =>
          match id with
          | some idBytes => some (ids.1, (fromUtf8 idBytes).getD "")
          | none => some ids
      else some ids
    | none => some ids

/-- `parse_xinfo_stream`, with its loop. -/
def parseXinfoStreamLoop (info : List RedisValue) :
    Option (Except GapDetectionError (String × String)) :=
  (Pairs.loop info.length (xinfoRound info) 0 ("", "")).map .ok

/-- One round of the loop of `parse_stream_info`. -/
def infoRound (info : List RedisValue) (i : ℕ) (parsed : StreamMetrics.ParsedInfo) :
    Option StreamMetrics.ParsedInfo :=
  (nameAt info i).bind fun name =>
    match name with
    | some key =>
      if key = "first-entry" ∧ i + 1 < info.length then
        (idBytesAt info i).bind fun id =>
          match id with
          | some idBytes => some { parsed with firstEntryId := fromUtf8 idBytes }
          | none => some parsed
      else if key = "last-entry" ∧ i + 1 < info.length then
        (idBytesAt info i).bind fun id =>
          match id with
          | some idBytes => some { parsed with lastEntryId := fromUtf8 idBytes }
          | none => some parsed
      else if key = "groups" ∧ i + 1 < info.length then
        info[i + 1]?.bind fun value =>
          match value with
          | .int g => some { parsed with groups := g.toUInt64 }
          | _ => some parsed
      else some parsed
    | none => some parsed

/-- `parse_stream_info`, with its loop. -/
def parseStreamInfoLoop (info : List RedisValue) :
    Option (Option String × Option String × UInt64) :=
  (Pairs.loop info.length (infoRound info) 0 {}).map fun parsed =>
    (parsed.firstEntryId, parsed.lastEntryId, parsed.groups)

/-! ### The steps of the two recursions -/

/-- The name that a value stands for. -/
def nameOf : RedisValue → Option String
  | .data keyBytes => fromUtf8 keyBytes
  | _ => none

/-- The text in the first place of an entry, in bytes. -/
def idBytesOf : RedisValue → Option Bytes
  | .bulk (.data idBytes :: _) => some idBytes
  | _ => none

/-- The number that a value is. -/
def groupsOf : RedisValue → Option UInt64
  | .int g => some g.toUInt64
  | _ => none

lemma entryId_eq (value : RedisValue) :
    GapDetector.entryId value = (idBytesOf value).map fun b => (fromUtf8 b).getD "" := by
  cases value with
  | bulk entry =>
    cases entry with
    | nil => rfl
    | cons id entry => cases id <;> rfl
  | _ => rfl

lemma parseField_eq (key value : RedisValue) (ids : String × String) :
    GapDetector.parseField key value ids =
      if nameOf key = some "first-entry" then
        (((idBytesOf value).map fun b => (fromUtf8 b).getD "").getD ids.1, ids.2)
      else if nameOf key = some "last-entry" then
        (ids.1, ((idBytesOf value).map fun b => (fromUtf8 b).getD "").getD ids.2)
      else ids := by
  rw [← entryId_eq]
  cases key with
  | data keyBytes =>
    cases hname : fromUtf8 keyBytes with
    | none => simp [GapDetector.parseField, nameOf, hname]
    | some name => simp [GapDetector.parseField, nameOf, hname]
  | _ => simp [GapDetector.parseField, nameOf]

lemma parseInfoField_eq (key value : RedisValue) (parsed : StreamMetrics.ParsedInfo) :
    StreamMetrics.parseInfoField key value parsed =
      if nameOf key = some "first-entry" then
        { parsed with firstEntryId := ((idBytesOf value).map fromUtf8).getD parsed.firstEntryId }
      else if nameOf key = some "last-entry" then
        { parsed with lastEntryId := ((idBytesOf value).map fromUtf8).getD parsed.lastEntryId }
      else if nameOf key = some "groups" then
        { parsed with groups := (groupsOf value).getD parsed.groups }
      else parsed := by
  cases key with
  | data keyBytes =>
    cases hname : fromUtf8 keyBytes with
    | none => simp [StreamMetrics.parseInfoField, nameOf, hname]
    | some name =>
      simp only [StreamMetrics.parseInfoField, nameOf, hname, Option.some.injEq]
      cases value with
      | bulk entry =>
        cases entry with
        | nil => rfl
        | cons id entry => cases id <;> rfl
      | _ => rfl
  | _ => simp [StreamMetrics.parseInfoField, nameOf]

/-! ### No position is out of range -/

section Rounds

variable {info rest : List RedisValue} {i : ℕ} {key value : RedisValue}

lemma getElem?_of_drop (h : info.drop i = key :: rest) : info[i]? = some key := by
  rw [← List.head?_drop, h, List.head?_cons]

lemma getElem?_succ_of_drop (h : info.drop i = key :: value :: rest) :
    info[i + 1]? = some value := by
  rw [← List.head?_drop, ← List.drop_drop, h]
  rfl

lemma lt_length_iff (h : info.drop i = key :: rest) : i + 1 < info.length ↔ rest ≠ [] := by
  have hlength := congrArg List.length h
  rw [List.length_drop, List.length_cons] at hlength
  rw [← List.length_pos_iff]
  omega

lemma nameAt_of_drop (h : info.drop i = key :: rest) : nameAt info i = some (nameOf key) := by
  rw [nameAt, getElem?_of_drop h, Option.bind_some]
  cases key <;> rfl

lemma idBytesAt_of_drop (h : info.drop i = key :: value :: rest) :
    idBytesAt info i = some (idBytesOf value) := by
  rw [idBytesAt, getElem?_succ_of_drop h, Option.bind_some]
  cases value with
  | bulk entry =>
    cases entry with
    | nil => rfl
    | cons id entry => cases id <;> rfl
  | _ => rfl

/-- A round that has a value does the step. -/
lemma xinfoRound_of_pair (h : info.drop i = key :: value :: rest) (ids : String × String) :
    xinfoRound info i ids = some (GapDetector.parseField key value ids) := by
  have hlt : i + 1 < info.length := (lt_length_iff h).2 (List.cons_ne_nil _ _)
  rw [xinfoRound, nameAt_of_drop h, idBytesAt_of_drop h, parseField_eq]
  cases nameOf key with
  | none => rfl
  | some name =>
    simp only [Option.bind_some, hlt, and_true, Option.some.injEq]
    split
    · cases idBytesOf value <;> rfl
    · split
      · cases idBytesOf value <;> rfl
      · rfl

lemma infoRound_of_pair (h : info.drop i = key :: value :: rest)
    (parsed : StreamMetrics.ParsedInfo) :
    infoRound info i parsed = some (StreamMetrics.parseInfoField key value parsed) := by
  have hlt : i + 1 < info.length := (lt_length_iff h).2 (List.cons_ne_nil _ _)
  rw [infoRound, nameAt_of_drop h, idBytesAt_of_drop h, getElem?_succ_of_drop h,
    parseInfoField_eq]
  cases nameOf key with
  | none => rfl
  | some name =>
    simp only [Option.bind_some, hlt, and_true, Option.some.injEq]
    split
    · cases idBytesOf value <;> rfl
    · split
      · cases idBytesOf value <;> rfl
      · split
        · cases value <;> rfl
        · rfl

/-- A round without a value does nothing. -/
lemma xinfoRound_of_last (h : info.drop i = [key]) (ids : String × String) :
    xinfoRound info i ids = some ids := by
  have hlt : ¬ i + 1 < info.length := fun hlt => (lt_length_iff h).1 hlt rfl
  rw [xinfoRound, nameAt_of_drop h]
  simp only [hlt, and_false, if_false, Option.bind_some]
  cases nameOf key <;> rfl

lemma infoRound_of_last (h : info.drop i = [key]) (parsed : StreamMetrics.ParsedInfo) :
    infoRound info i parsed = some parsed := by
  have hlt : ¬ i + 1 < info.length := fun hlt => (lt_length_iff h).1 hlt rfl
  rw [infoRound, nameAt_of_drop h]
  simp only [hlt, and_false, if_false, Option.bind_some]
  cases nameOf key <;> rfl

end Rounds

lemma parseFields_eq_fold (info : List RedisValue) (ids : String × String) :
    GapDetector.parseFields info ids = Pairs.fold GapDetector.parseField info ids := by
  induction info, ids using GapDetector.parseFields.induct with
  | case1 key value info ids ih => rw [GapDetector.parseFields, Pairs.fold, ih]
  | case2 info ids hshort =>
    rw [Pairs.fold_of_short hshort, GapDetector.parseFields.eq_2 _ _ hshort]

lemma parseInfoFields_eq_fold (info : List RedisValue) (parsed : StreamMetrics.ParsedInfo) :
    StreamMetrics.parseInfoFields info parsed =
      Pairs.fold StreamMetrics.parseInfoField info parsed := by
  induction info, parsed using StreamMetrics.parseInfoFields.induct with
  | case1 key value info parsed ih => rw [StreamMetrics.parseInfoFields, Pairs.fold, ih]
  | case2 info parsed hshort =>
    rw [Pairs.fold_of_short hshort, StreamMetrics.parseInfoFields.eq_2 _ _ hshort]

/-- **The loop of `parse_xinfo_stream`** ends, and accesses no position that is not there. -/
lemma parseXinfoStreamLoop_eq (info : List RedisValue) :
    parseXinfoStreamLoop info = some (GapDetector.parseXinfoStream info) := by
  rw [parseXinfoStreamLoop, GapDetector.parseXinfoStream, parseFields_eq_fold,
    Pairs.loop_eq_fold (fun _ ids _ _ _ h => xinfoRound_of_pair h ids)
      (fun _ ids _ h => xinfoRound_of_last h ids), List.drop_zero]
  rfl

/-- **The loop of `parse_stream_info`** ends, and accesses no position that is not there. -/
lemma parseStreamInfoLoop_eq (info : List RedisValue) :
    parseStreamInfoLoop info = some (StreamMetrics.parseStreamInfo info) := by
  rw [parseStreamInfoLoop, StreamMetrics.parseStreamInfo, parseInfoFields_eq_fold,
    Pairs.loop_eq_fold (fun _ parsed _ _ _ h => infoRound_of_pair h parsed)
      (fun _ parsed _ h => infoRound_of_last h parsed), List.drop_zero]
  rfl

/-! ### The twins -/

/-- The identifiers that have been found, with the empty text for a missing one. -/
def idsOf (parsed : StreamMetrics.ParsedInfo) : String × String :=
  (parsed.firstEntryId.getD "", parsed.lastEntryId.getD "")

/-- The steps of the two recursions correspond. -/
lemma idsOf_parseInfoField (key value : RedisValue) (parsed : StreamMetrics.ParsedInfo) :
    idsOf (StreamMetrics.parseInfoField key value parsed) =
      GapDetector.parseField key value (idsOf parsed) := by
  have hgetD : ∀ o : Option String, (((idBytesOf value).map fromUtf8).getD o).getD "" =
      ((idBytesOf value).map fun b => (fromUtf8 b).getD "").getD (o.getD "") := by
    intro o
    cases idBytesOf value <;> rfl
  rw [parseInfoField_eq, parseField_eq]
  by_cases hfirst : nameOf key = some "first-entry"
  · simp [hfirst, idsOf, hgetD]
  · by_cases hlast : nameOf key = some "last-entry"
    · simp [hlast, idsOf, hgetD]
    · rw [if_neg hfirst, if_neg hlast, if_neg hfirst, if_neg hlast]
      split <;> rfl

/-- **The parsers of the reply** agree on every array. -/
lemma parseXinfoStream_eq_parseStreamInfo (info : List RedisValue) :
    GapDetector.parseXinfoStream info =
      .ok ((StreamMetrics.parseStreamInfo info).1.getD "",
        (StreamMetrics.parseStreamInfo info).2.1.getD "") := by
  have hmap := Pairs.map_fold idsOf_parseInfoField info {}
  rw [GapDetector.parseXinfoStream, StreamMetrics.parseStreamInfo, parseFields_eq_fold,
    parseInfoFields_eq_fold]
  exact congrArg Except.ok hmap.symm

/-- **The parsers of identifiers** agree on every text. -/
lemma parseStreamId_eq_ok_iff {s : String} {p : Int64 × Int64} :
    GapDetector.parseStreamId s = .ok p ↔ StreamMetrics.parseStreamIdTimestamp s = some p := by
  unfold GapDetector.parseStreamId StreamMetrics.parseStreamIdTimestamp
  generalize s.toList.splitOn '-' = parts
  match parts with
  | [] => simp
  | [part] => simp
  | [part₀, part₁] =>
    dsimp only
    cases parseI64 (String.ofList part₀) <;> cases parseI64 (String.ofList part₁) <;> simp
  | part₀ :: part₁ :: part₂ :: parts => simp

/-! ### Well-formed replies -/

/-- A reply of names and values in turn, with distinct names. -/
structure FlatReply where
  fields : List (String × RedisValue)
  names : (fields.map Prod.fst).Nodup

/-- The reply as an array. -/
def FlatReply.values (r : FlatReply) : List RedisValue :=
  r.fields.flatMap fun f => [.data (utf8 f.1), f.2]

/-- The field is the entry with the identifier, whatever else belongs to the entry. -/
def FlatReply.HasEntry (r : FlatReply) (name id : String) : Prop :=
  ∃ entry, (name, RedisValue.bulk (.data (utf8 id) :: entry)) ∈ r.fields

lemma nameOf_data (name : String) : nameOf (.data (utf8 name)) = some name := fromUtf8_utf8 name

section Names

variable (name : String) (value : RedisValue) (parsed : StreamMetrics.ParsedInfo)

lemma firstEntryId_parseInfoField :
    (StreamMetrics.parseInfoField (.data (utf8 name)) value parsed).firstEntryId =
      if name = "first-entry" then ((idBytesOf value).map fromUtf8).getD parsed.firstEntryId
      else parsed.firstEntryId := by
  rw [parseInfoField_eq, nameOf_data]
  simp only [Option.some.injEq]
  split
  · rfl
  · split
    · rfl
    · split <;> rfl

lemma lastEntryId_parseInfoField :
    (StreamMetrics.parseInfoField (.data (utf8 name)) value parsed).lastEntryId =
      if name = "last-entry" then ((idBytesOf value).map fromUtf8).getD parsed.lastEntryId
      else parsed.lastEntryId := by
  rw [parseInfoField_eq, nameOf_data]
  simp only [Option.some.injEq]
  by_cases hfirst : name = "first-entry"
  · subst hfirst
    rfl
  · rw [if_neg hfirst]
    split
    · rfl
    · split <;> rfl

end Names

lemma map_idBytesOf_entry (id : String) (entry : List RedisValue) (o : Option String) :
    ((idBytesOf (.bulk (.data (utf8 id) :: entry))).map fromUtf8).getD o = some id :=
  fromUtf8_utf8 id

/-- The identifiers of the reply are found, in whatever order its fields are. -/
lemma parseStreamInfo_values {r : FlatReply} {first last : String}
    (hfirst : r.HasEntry "first-entry" first) (hlast : r.HasEntry "last-entry" last) :
    ∃ groups, StreamMetrics.parseStreamInfo r.values = (some first, some last, groups) := by
  obtain ⟨firstEntry, hfirst⟩ := hfirst
  obtain ⟨lastEntry, hlast⟩ := hlast
  rw [StreamMetrics.parseStreamInfo, parseInfoFields_eq_fold, FlatReply.values,
    Pairs.fold_flatMap]
  refine ⟨_, Prod.ext ?_ (Prod.ext ?_ rfl)⟩
  · show StreamMetrics.ParsedInfo.firstEntryId (List.foldl _ _ _) = some first
    refine Pairs.foldl_of_mem ?_ ?_ r.names hfirst _
    · intro parsed f hother
      rw [firstEntryId_parseInfoField, if_neg hother]
    · intro parsed
      rw [firstEntryId_parseInfoField, if_pos rfl, map_idBytesOf_entry]
  · show StreamMetrics.ParsedInfo.lastEntryId (List.foldl _ _ _) = some last
    refine Pairs.foldl_of_mem ?_ ?_ r.names hlast _
    · intro parsed f hother
      rw [lastEntryId_parseInfoField, if_neg hother]
    · intro parsed
      rw [lastEntryId_parseInfoField, if_pos rfl, map_idBytesOf_entry]

/-- **The twin parsers**: both loops end without an access out of range and compute what the
recursions do; they agree on every array, as the parsers of identifiers do on every text; and of a
reply with distinct names both return the two identifiers. -/
theorem twinParsers :
    (∀ info, parseXinfoStreamLoop info = some (GapDetector.parseXinfoStream info) ∧
      parseStreamInfoLoop info = some (StreamMetrics.parseStreamInfo info)) ∧
    (∀ info, GapDetector.parseXinfoStream info =
      .ok ((StreamMetrics.parseStreamInfo info).1.getD "",
        (StreamMetrics.parseStreamInfo info).2.1.getD "")) ∧
    (∀ s p, GapDetector.parseStreamId s = .ok p ↔
      StreamMetrics.parseStreamIdTimestamp s = some p) ∧
    ∀ (r : FlatReply) (first last : String), r.HasEntry "first-entry" first →
      r.HasEntry "last-entry" last →
        parseXinfoStreamLoop r.values = some (.ok (first, last)) ∧
          ∃ groups, parseStreamInfoLoop r.values = some (some first, some last, groups) := by
  refine ⟨fun info => ⟨parseXinfoStreamLoop_eq info, parseStreamInfoLoop_eq info⟩,
    parseXinfoStream_eq_parseStreamInfo, fun s p => parseStreamId_eq_ok_iff, ?_⟩
  intro r first last hfirst hlast
  obtain ⟨groups, hparse⟩ := parseStreamInfo_values hfirst hlast
  refine ⟨?_, groups, ?_⟩
  · rw [parseXinfoStreamLoop_eq, parseXinfoStream_eq_parseStreamInfo, hparse]
    rfl
  · rw [parseStreamInfoLoop_eq, hparse]

/-- A reply whose last entry comes first, and a value that looks like a name. -/
def sampleReply : FlatReply where
  fields := [("last-entry", .bulk [.data (utf8 "7-0"), .nil]), ("key", .data (utf8 "first-entry")),
    ("groups", .int 2), ("first-entry", .bulk [.data (utf8 "5-1")])]
  names := by decide

/-- Both identifiers of the reply are found. -/
theorem twinParsers_sampleReply :
    parseXinfoStreamLoop sampleReply.values = some (.ok ("5-1", "7-0")) :=
  (twinParsers.2.2.2 sampleReply "5-1" "7-0" ⟨[], by simp [sampleReply]⟩
    ⟨[.nil], by simp [sampleReply]⟩).1

end TwinParsers

end AxonTask
