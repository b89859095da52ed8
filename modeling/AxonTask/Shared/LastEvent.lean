import AxonTask.Shared.EarliestId

/-!
# The last event (`read_last` of `stream_reader.rs`)

`read_last` asks with `XREVRANGE`, whose reply is a list of entries, and reads the reply as
one of `XREAD`, which is a list of keys with lists of entries.  The client library is a
parameter; what is assumed of it is that it reads nil and replies of the latter kind, and no
others.  So `read_last` fails on every stream with an entry.
-/

namespace AxonTask

open Lib

/-- `redis::streams::StreamId`. -/
structure ReplyEntry where
  id : String
  map : List (String × Bytes)
deriving DecidableEq

/-- `redis::streams::StreamKey`. -/
structure ReplyKey where
  key : String
  ids : List ReplyEntry

/-- `redis::streams::StreamReadReply`. -/
structure StreamReadReply where
  keys : List ReplyKey

/-! ### The kinds of replies -/

/-- An entry in a reply. -/
def ReplyEntry.value (e : ReplyEntry) : RedisValue :=
  entryValue (utf8 e.id) (e.map.map fun kv => (utf8 kv.1, kv.2))

/-- A key with its entries in a reply. -/
def ReplyKey.value (k : ReplyKey) : RedisValue :=
  .bulk [.data (utf8 k.key), .bulk (k.ids.map ReplyEntry.value)]

/-- The reply to `XREAD` that is read as this. -/
def StreamReadReply.value (r : StreamReadReply) : RedisValue := .bulk (r.keys.map ReplyKey.value)

/-- The library reads nil and the replies to `XREAD`, and no others. -/
def ReadsXread (fromRedisValue : RedisValue → Except String StreamReadReply) : Prop :=
  ∀ v reply, fromRedisValue v = .ok reply ↔ v = .nil ∧ reply = ⟨[]⟩ ∨ v = reply.value

/-- The entry of a stream as an entry of a reply. -/
def RawEntry.reply (e : RawEntry) : ReplyEntry := ⟨e.id.text, e.map⟩

/-- The reply to `XREVRANGE key + - COUNT 1`. -/
def Stream.xrevrange (S : Stream) : RedisValue :=
  .bulk ((S.entries.reverse.take 1).map fun e => e.reply.value)

/-! ### The reader -/

/-- `StreamReaderError`. -/
inductive StreamReaderError
  | redisError (message : String)
  | deserializationError (error : SerializationError)
  | redisCommandError (message : String)
  | invalidStreamId (id : String)
deriving DecidableEq, Repr

/-- The fields of an entry of a reply; values that are not UTF-8 are dropped. -/
def ReplyEntry.fields (e : ReplyEntry) : Fields :=
  e.map.filterMap fun kv => (fromUtf8 kv.2).map fun value => (kv.1, value)

namespace StreamReader

/-- `StreamReader::read_last`, with what `XREVRANGE` answers. -/
def readLast (fromRedisValue : RedisValue → Except String StreamReadReply) (P : EventParsers)
    (result : Except String RedisValue) :
    Except StreamReaderError (Option (String × TaskEvent)) := do
  let value ← result.mapError .redisCommandError
  let reply ← (fromRedisValue value).mapError .redisCommandError
  -- the loops over the keys and their entries return at the first entry
  match reply.keys.flatMap ReplyKey.ids with
  | [] => return none
  | entry :: _ =>
    let event ← (deserializeEvent P entry.fields).mapError .deserializationError
    return some (entry.id, event)

variable (fromRedisValue : RedisValue → Except String StreamReadReply) (P : EventParsers)

/-- `read_last` agrees with `read_all`. -/
structure ReadLastAgrees (config : StreamReaderConfig) (S : Stream) : Prop where
  eq_none_iff : readLast fromRedisValue P (.ok S.xrevrange) = .ok none ↔ S.entries = []
  eq_last : ∀ z, S.entries.getLast? = some z → ∃ event,
    readLast fromRedisValue P (.ok S.xrevrange) = .ok (some (z.id.text, event)) ∧
      (readAll P config S).getLast? = some event

variable {fromRedisValue P} {S : Stream}

/-- An entry that can be decoded has a field. -/
lemma map_ne_nil_of_decode {e : RawEntry} (h : (e.decode P).isSome = true) : e.map ≠ [] := by
  intro hnil
  have hfields : e.fields = [] := by rw [RawEntry.fields, hnil]; rfl
  rw [RawEntry.decode, hfields] at h
  cases h

/-- A list of entries is not a list of keys. -/
lemma entry_value_ne (e : RawEntry) (hmap : e.map ≠ []) (k : ReplyKey) :
    e.reply.value ≠ k.value := by
  intro h
  obtain ⟨kv, rest, hkv⟩ := List.exists_cons_of_ne_nil hmap
  simp only [ReplyEntry.value, entryValue, RawEntry.reply, ReplyKey.value, hkv, List.map_cons,
    List.flatMap_cons, List.cons_append] at h
  -- the first field of the entry stands where a key has its first entry
  cases hids : k.ids with
  | nil => simp [hids] at h
  | cons first ids => simp [hids, ReplyEntry.value, entryValue] at h

lemma xrevrange_of_nil (hnil : S.entries = []) : S.xrevrange = (⟨[]⟩ : StreamReadReply).value := by
  simp [Stream.xrevrange, hnil, StreamReadReply.value]

lemma xrevrange_of_getLast? {z : RawEntry} (hz : S.entries.getLast? = some z) :
    S.xrevrange = .bulk [z.reply.value] := by
  obtain ⟨l, hl⟩ := List.getLast?_eq_some_iff.1 hz
  simp [Stream.xrevrange, hl]

/-- **The reply about a stream with entries is not read.** -/
lemma exists_readLast_error (hreads : ReadsXread fromRedisValue)
    (hdecode : ∀ e ∈ S.entries, (e.decode P).isSome = true) {z : RawEntry}
    (hz : S.entries.getLast? = some z) :
    ∃ message, readLast fromRedisValue P (.ok S.xrevrange) =
      .error (.redisCommandError message) := by
  have hmap := map_ne_nil_of_decode (hdecode z (List.mem_of_getLast? hz))
  rw [xrevrange_of_getLast? hz]
  cases hread : fromRedisValue (.bulk [z.reply.value]) with
  | error message =>
    refine ⟨message, ?_⟩
    simp only [readLast, Except.mapError, bind, Except.bind, hread]
  | ok reply =>
    rcases (hreads _ _).1 hread with ⟨hnil, -⟩ | hvalue
    · cases hnil
    · exfalso
      rw [StreamReadReply.value, RedisValue.bulk.injEq] at hvalue
      obtain ⟨k, -, hk⟩ := List.mem_map.1 (hvalue ▸ List.mem_singleton_self z.reply.value)
      exact entry_value_ne z hmap k hk.symm

/-- **`read_last` and `read_all` agree exactly on an empty stream.** -/
theorem readLastAgrees_iff (hreads : ReadsXread fromRedisValue) (config : StreamReaderConfig)
    (hdecode : ∀ e ∈ S.entries, (e.decode P).isSome = true) :
    ReadLastAgrees fromRedisValue P config S ↔ S.entries = [] := by
  constructor
  · intro h
    cases hlast : S.entries.getLast? with
    | none => exact List.getLast?_eq_none_iff.1 hlast
    | some z =>
      obtain ⟨message, herror⟩ := exists_readLast_error hreads hdecode hlast
      obtain ⟨event, hevent, -⟩ := h.eq_last z hlast
      rw [herror] at hevent
      cases hevent
  · intro hnil
    have hread : fromRedisValue S.xrevrange = .ok ⟨[]⟩ :=
      (hreads _ _).2 (Or.inr (xrevrange_of_nil hnil))
    refine ⟨iff_of_true ?_ hnil, ?_⟩
    · simp only [readLast, Except.mapError, bind, Except.bind, hread]
      rfl
    · intro z hz
      simp [hnil] at hz

end StreamReader

/-! ### A library that reads replies to `XREAD` -/

/-- Every value of a list, read by `f`. -/
def readAllWith {β : Type} (f : RedisValue → Option β) : List RedisValue → Option (List β)
  | [] => some []
  | v :: l =>
    match f v, readAllWith f l with
    | some b, some bs => some (b :: bs)
    | _, _ => none

lemma readAllWith_eq_some {β : Type} {f : RedisValue → Option β} {g : β → RedisValue}
    (h : ∀ v b, f v = some b ↔ v = g b) {l : List RedisValue} {bs : List β} :
    readAllWith f l = some bs ↔ l = bs.map g := by
  induction l generalizing bs with
  | nil => cases bs <;> simp [readAllWith]
  | cons v l ih =>
    constructor
    · intro hread
      rw [readAllWith] at hread
      split at hread
      · rename_i b bs' hb hbs
        cases hread
        rw [List.map_cons, (h v b).1 hb, ih.1 hbs]
      · cases hread
    · intro hmap
      obtain ⟨b, bs', rfl, rfl, rfl⟩ := List.map_eq_cons_iff.1 hmap.symm
      rw [readAllWith, (h _ b).2 rfl, ih.2 rfl]

/-- Names and values in turn. -/
def readFields : List RedisValue → Option (List (String × Bytes))
  | [] => some []
  | .data name :: .data value :: l =>
    match fromUtf8 name, readFields l with
    | some name, some fields => some ((name, value) :: fields)
    | _, _ => none
  | _ => none

lemma readFields_eq_some {l : List RedisValue} {fields : List (String × Bytes)} :
    readFields l = some fields ↔
      l = fields.flatMap fun kv => [.data (utf8 kv.1), .data kv.2] := by
  induction fields generalizing l with
  | nil =>
    constructor
    · intro h
      unfold readFields at h
      split at h
      · rfl
      · split at h <;> cases h
      · cases h
    · rintro rfl
      rfl
  | cons kv fields ih =>
    constructor
    · intro h
      unfold readFields at h
      split at h
      · cases h
      · split at h
        · rename_i name value l' n fs hname hfields
          cases h
          rw [fromUtf8_eq_some.1 hname, ih.1 hfields]
          rfl
        · cases h
      · cases h
    · rintro rfl
      simp only [List.flatMap_cons, List.cons_append, List.nil_append, readFields, fromUtf8_utf8,
        ih.2 rfl]

/-- An entry. -/
def ReplyEntry.ofValue : RedisValue → Option ReplyEntry
  | .bulk [.data id, .bulk fields] =>
    match fromUtf8 id, readFields fields with
    | some id, some map => some ⟨id, map⟩
    | _, _ => none
  | _ => none

lemma ReplyEntry.ofValue_eq_some (v : RedisValue) (e : ReplyEntry) :
    ofValue v = some e ↔ v = e.value := by
  constructor
  · intro h
    unfold ofValue at h
    split at h
    · split at h
      · rename_i id map hid hmap
        cases h
        simp only [value, entryValue, fromUtf8_eq_some.1 hid, readFields_eq_some.1 hmap,
          List.flatMap_map]
      · cases h
    · cases h
  · rintro rfl
    simp only [value, entryValue, ofValue, fromUtf8_utf8, List.flatMap_map,
      readFields_eq_some.2 rfl]

/-- A key with its entries. -/
def ReplyKey.ofValue : RedisValue → Option ReplyKey
  | .bulk [.data key, .bulk ids] =>
    match fromUtf8 key, readAllWith ReplyEntry.ofValue ids with
    | some key, some ids => some ⟨key, ids⟩
    | _, _ => none
  | _ => none

lemma ReplyKey.ofValue_eq_some (v : RedisValue) (k : ReplyKey) :
    ofValue v = some k ↔ v = k.value := by
  constructor
  · intro h
    unfold ofValue at h
    split at h
    · split at h
      · rename_i key ids hkey hids
        cases h
        simp only [value, fromUtf8_eq_some.1 hkey,
          (readAllWith_eq_some ReplyEntry.ofValue_eq_some).1 hids]
      · cases h
    · cases h
  · rintro rfl
    simp only [value, ofValue, fromUtf8_utf8,
      (readAllWith_eq_some ReplyEntry.ofValue_eq_some).2 rfl]

/-- Nil, or a list of keys. -/
def StreamReadReply.ofValue (v : RedisValue) : Except String StreamReadReply :=
  match v with
  | .nil => .ok ⟨[]⟩
  | .bulk keys =>
    match readAllWith ReplyKey.ofValue keys with
    | some keys => .ok ⟨keys⟩
    | none => .error "Response was of incompatible type"
  | _ => .error "Response was of incompatible type"

lemma StreamReadReply.readsXread_ofValue : ReadsXread ofValue := by
  intro v reply
  constructor
  · intro h
    unfold ofValue at h
    split at h
    · cases h
      exact Or.inl ⟨rfl, rfl⟩
    · split at h
      · rename_i keys hkeys
        cases h
        exact Or.inr (congrArg RedisValue.bulk
          ((readAllWith_eq_some ReplyKey.ofValue_eq_some).1 hkeys))
      · cases h
    · cases h
  · rintro (⟨rfl, rfl⟩ | rfl)
    · rfl
    · simp only [value, ofValue, (readAllWith_eq_some ReplyKey.ofValue_eq_some).2 rfl]

namespace StreamReader

/-- The stream of one entry for `sampleEvent`. -/
def oneGoodEntry : Stream where
  entries := [goodEntry (toLex (1, 0))]
  increasing := List.pairwise_singleton _ _
  pos := by
    intro e he
    rw [List.mem_singleton.1 he]
    decide

lemma decode_oneGoodEntry : ∀ e ∈ oneGoodEntry.entries,
    (e.decode EventParsers.sample).isSome = true := by
  intro e he
  rw [List.mem_singleton.1 he, decode_goodEntry]
  rfl

/-- The theorem on this stream. -/
theorem readLastAgrees_iff_oneGoodEntry :
    ReadLastAgrees StreamReadReply.ofValue EventParsers.sample {} oneGoodEntry ↔
      oneGoodEntry.entries = [] :=
  readLastAgrees_iff StreamReadReply.readsXread_ofValue {} decode_oneGoodEntry

/-- The one event is not returned. -/
theorem not_readLastAgrees_oneGoodEntry :
    readLast StreamReadReply.ofValue EventParsers.sample (.ok oneGoodEntry.xrevrange) =
        .error (.redisCommandError "Response was of incompatible type") ∧
      ¬ ReadLastAgrees StreamReadReply.ofValue EventParsers.sample {} oneGoodEntry := by
  have herror : readLast StreamReadReply.ofValue EventParsers.sample (.ok oneGoodEntry.xrevrange) =
      .error (.redisCommandError "Response was of incompatible type") := rfl
  refine ⟨herror, fun h => ?_⟩
  obtain ⟨event, hevent, -⟩ := h.eq_last _ rfl
  rw [herror] at hevent
  cases hevent

end StreamReader

end AxonTask
