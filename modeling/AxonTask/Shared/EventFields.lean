import AxonTask.Lib.Digits
import AxonTask.Lib.ParseInt
import AxonTask.Lib.Rfc3339
import AxonTask.Shared.ApiKey
import AxonTask.Shared.Serialization
import AxonTask.Shared.TaskEvent

/-!
# Events on the wire (`axontask-shared/src/events/serialization.rs`)

`serialize_event` writes a task event as texts by field name, and `deserialize_event` reads
such texts, in more spellings than are written.  What is written is read back, and so is
what was read in another spelling once it is written again.
-/

namespace AxonTask

open Lib

/-- The readers of third parties that `deserialize_event` calls. -/
structure EventParsers extends Parsers where
  /-- `Uuid::parse_str`; `none` is an error. -/
  parseUuid : String → Option Uuid
  /-- `DateTime::parse_from_rfc3339` and `with_timezone(&Utc)`, or the text of the error. -/
  parseRfc3339 : String → Except String DateTime
  /-- `hex::decode`, or the text of the error. -/
  hexDecode : String → Except String Bytes

/-- `SerializationError`, without the errors of `serde_json` and `uuid` that it wraps. -/
inductive SerializationError
  | missingField (field : String)
  | invalidValue (field error : String)
  | jsonError
  | uuidError
  | timestampError (error : String)
  | hexError (error : String)
deriving DecidableEq, Repr

/-- `HashMap<String, String>`, by its insertions, the last one first. -/
abbrev Fields := List (String × String)

namespace Fields

/-- `HashMap::get`. -/
def get (fields : Fields) (key : String) : Option String := fields.lookup key

/-- `HashMap::insert`. -/
def insert (fields : Fields) (key value : String) : Fields := (key, value) :: fields

/-- The value of a field that has to be there. -/
def require (fields : Fields) (key : String) : Except SerializationError String :=
  match fields.get key with
  | some value => .ok value
  | none => .error (.missingField key)

lemma require_eq_ok {fields : Fields} {key value : String} :
    fields.require key = .ok value ↔ fields.get key = some value := by
  unfold require
  split <;> simp [*]

end Fields

/-- `Option::ok_or`. -/
def okOr {ε α : Type*} (error : ε) : Option α → Except ε α
  | some a => .ok a
  | none => .error error

/-- `serialize_event`. -/
def serializeEvent (L : Libs) (event : TaskEvent) : Except SerializationError Fields := do
  let fields : Fields := []
  let fields := fields.insert "task_id" event.taskId.display
  let fields := fields.insert "seq" (i64ToString event.seq)
  let fields := fields.insert "ts" (L.toRfc3339 event.ts)
  let fields := fields.insert "kind" event.kind
  let payloadJson ← okOr .jsonError (L.serdeToString event.payload)
  let fields := fields.insert "payload" payloadJson
  -- no previous hash is written as the empty text
  let hashPrevHex := (event.hashPrev.map hexEncode).getD ""
  let fields := fields.insert "hash_prev" hashPrevHex
  let hashCurrHex := hexEncode event.hashCurr
  return fields.insert "hash_curr" hashCurrHex

/-- The part of `deserialize_event` that reads `hash_prev`. -/
def readHashPrev (P : EventParsers) (hashPrevStr : String) :
    Except SerializationError (Option Bytes) :=
  if hashPrevStr = "" then .ok none
  else ((P.hexDecode hashPrevStr).map some).mapError .hexError

/-- `deserialize_event`. -/
def deserializeEvent (P : EventParsers) (fields : Fields) :
    Except SerializationError TaskEvent := do
  let taskIdStr ← fields.require "task_id"
  let taskId ← okOr .uuidError (P.parseUuid taskIdStr)
  let seqStr ← fields.require "seq"
  let seq ← (parseI64 seqStr).mapError fun e => .invalidValue "seq" e.toString
  let tsStr ← fields.require "ts"
  let ts ← (P.parseRfc3339 tsStr).mapError .timestampError
  let kind ← fields.require "kind"
  let payloadStr ← fields.require "payload"
  let payload ← okOr .jsonError (P.serdeFromStr payloadStr)
  let hashPrev ← readHashPrev P ((fields.get "hash_prev").getD "")
  let hashCurrStr ← fields.require "hash_curr"
  let hashCurr ← (P.hexDecode hashCurrStr).mapError .hexError
  return { taskId, seq, ts, kind, payload, hashPrev, hashCurr }

/-! ### What the two functions say -/

lemma bind_eq_ok {ε α β : Type} {x : Except ε α} {f : α → Except ε β} {b : β} :
    (x >>= f) = .ok b ↔ ∃ a, x = .ok a ∧ f a = .ok b := by
  cases x <;> simp [bind, Except.bind]

lemma okOr_eq_ok {ε α : Type*} {error : ε} {o : Option α} {a : α} :
    okOr error o = .ok a ↔ o = some a := by
  cases o <;> simp [okOr]

/-- The texts of an event, with the text of its payload. -/
def textsOf (L : Libs) (event : TaskEvent) (payloadJson : String) : Fields :=
  [("hash_curr", hexEncode event.hashCurr), ("hash_prev", (event.hashPrev.map hexEncode).getD ""),
    ("payload", payloadJson), ("kind", event.kind), ("ts", L.toRfc3339 event.ts),
    ("seq", i64ToString event.seq), ("task_id", event.taskId.display)]

lemma serializeEvent_eq (L : Libs) (event : TaskEvent) :
    serializeEvent L event =
      (okOr .jsonError (L.serdeToString event.payload)).map (textsOf L event) := by
  rw [serializeEvent]
  cases L.serdeToString event.payload <;> rfl

/-- The event whose fields are read from the texts. -/
structure Reads (P : EventParsers) (fields : Fields) (event : TaskEvent) : Prop where
  taskId : ∃ s, fields.get "task_id" = some s ∧ P.parseUuid s = some event.taskId
  seq : ∃ s, fields.get "seq" = some s ∧ parseI64 s = .ok event.seq
  ts : ∃ s, fields.get "ts" = some s ∧ P.parseRfc3339 s = .ok event.ts
  kind : fields.get "kind" = some event.kind
  payload : ∃ s, fields.get "payload" = some s ∧ P.serdeFromStr s = some event.payload
  hashPrev : readHashPrev P ((fields.get "hash_prev").getD "") = .ok event.hashPrev
  hashCurr : ∃ s, fields.get "hash_curr" = some s ∧ P.hexDecode s = .ok event.hashCurr

variable {P : EventParsers} {L : Libs} {fields : Fields} {event : TaskEvent}

/-- `deserialize_event` succeeds exactly with the event that the texts say. -/
lemma deserializeEvent_eq_ok : deserializeEvent P fields = .ok event ↔ Reads P fields event := by
  unfold deserializeEvent
  simp only [bind_eq_ok, Fields.require_eq_ok, okOr_eq_ok, mapError_eq_ok]
  constructor
  · rintro ⟨s₁, h₁, taskId, hid, s₂, h₂, seq, hseq, s₃, h₃, ts, hts, kind, hkind, s₄, h₄, payload,
      hpayload, hashPrev, hprev, s₅, h₅, hashCurr, hcurr, h⟩
    cases h
    exact ⟨⟨s₁, h₁, hid⟩, ⟨s₂, h₂, hseq⟩, ⟨s₃, h₃, hts⟩, hkind, ⟨s₄, h₄, hpayload⟩, hprev,
      ⟨s₅, h₅, hcurr⟩⟩
  · rintro ⟨⟨s₁, h₁, hid⟩, ⟨s₂, h₂, hseq⟩, ⟨s₃, h₃, hts⟩, hkind, ⟨s₄, h₄, hpayload⟩, hprev,
      ⟨s₅, h₅, hcurr⟩⟩
    exact ⟨s₁, h₁, _, hid, s₂, h₂, _, hseq, s₃, h₃, _, hts, _, hkind, s₄, h₄, _, hpayload, _, hprev,
      s₅, h₅, _, hcurr, rfl⟩

/-! ### Reading back -/

lemma length_hexEncode (b : Bytes) : (hexEncode b).length = 2 * b.length := by
  rw [hexEncode, String.length_ofList]
  induction b with
  | nil => rfl
  | cons x b ih =>
    rw [List.flatMap_cons, List.length_append, ih]
    simp only [List.length_cons, List.length_nil]
    omega

/-- The readers invert the printers, for JSON on a set of payloads (such as those without
floating-point numbers that are nested below the recursion limit of `serde_json`), and a
hexadecimal text has two digits for a byte. -/
structure EventParsers.Inverts (P : EventParsers) (L : Libs) (payloads : Set JsonValue) :
    Prop where
  uuid : ∀ id, P.parseUuid (Uuid.display id) = some id
  ts : ∀ t, Rfc3339.FourDigitYear t → P.parseRfc3339 (L.toRfc3339 t) = .ok t
  hex : ∀ b, P.hexDecode (hexEncode b) = .ok b
  length_hex : ∀ s b, P.hexDecode s = .ok b → s.length = 2 * b.length
  payload : ∀ v ∈ payloads, ∃ s, L.serdeToString v = some s ∧ P.serdeFromStr s = some v

variable {payloads : Set JsonValue}

lemma readHashPrev_hexEncode (hP : P.Inverts L payloads) {hashPrev : Option Bytes}
    (h : hashPrev ≠ some []) :
    readHashPrev P ((hashPrev.map hexEncode).getD "") = .ok hashPrev := by
  cases hashPrev with
  | none => rfl
  | some b =>
    have hne : hexEncode b ≠ "" := by
      intro hempty
      have hlength := length_hexEncode b
      rw [hempty, String.length_empty] at hlength
      have hnil : b = [] := List.eq_nil_of_length_eq_zero (by omega)
      exact h (by rw [hnil])
    rw [readHashPrev, Option.map_some, Option.getD_some, if_neg hne, hP.hex]
    rfl

/-- The hash that is read for a text is not the empty one. -/
lemma ne_of_readHashPrev (hP : P.Inverts L payloads) {s : String} {hashPrev : Option Bytes}
    (h : readHashPrev P s = .ok hashPrev) : hashPrev ≠ some [] := by
  rintro rfl
  unfold readHashPrev at h
  split at h
  · simp at h
  · next hne =>
    cases hs : P.hexDecode s with
    | error => simp [hs, Except.map, Except.mapError] at h
    | ok b =>
      have hlength := hP.length_hex s b hs
      simp only [hs, Except.map, Except.mapError, Except.ok.injEq, Option.some.injEq] at h
      subst h
      exact hne (by simpa using hlength)

/-- What `serialize_event` writes is read as the event. -/
lemma reads_textsOf (hP : P.Inverts L payloads) (hts : Rfc3339.FourDigitYear event.ts)
    (hprev : event.hashPrev ≠ some []) {payloadJson : String}
    (hpayload : P.serdeFromStr payloadJson = some event.payload) :
    Reads P (textsOf L event payloadJson) event where
  taskId := ⟨_, rfl, hP.uuid _⟩
  seq := ⟨_, rfl, parseI64_i64ToString _⟩
  ts := ⟨_, rfl, hP.ts _ hts⟩
  kind := rfl
  payload := ⟨_, rfl, hpayload⟩
  hashPrev := readHashPrev_hexEncode hP hprev
  hashCurr := ⟨_, rfl, hP.hex _⟩

lemma deserializeEvent_serializeEvent (hP : P.Inverts L payloads)
    (hts : Rfc3339.FourDigitYear event.ts) (hprev : event.hashPrev ≠ some [])
    (hmem : event.payload ∈ payloads) :
    (serializeEvent L event).bind (deserializeEvent P) = .ok event := by
  obtain ⟨payloadJson, hprint, hread⟩ := hP.payload _ hmem
  rw [serializeEvent_eq, hprint]
  exact deserializeEvent_eq_ok.2 (reads_textsOf hP hts hprev hread)

/-- **Wire round trip.**  An event is read back from what is written for it; and so is an
event that was read from any texts, once it is written again. -/
theorem wire_roundTrip (hP : P.Inverts L payloads) :
    (∀ event : TaskEvent, Rfc3339.FourDigitYear event.ts → event.hashPrev ≠ some [] →
      event.payload ∈ payloads → (serializeEvent L event).bind (deserializeEvent P) = .ok event) ∧
    ∀ (fields : Fields) (event : TaskEvent), deserializeEvent P fields = .ok event →
      Rfc3339.FourDigitYear event.ts → event.payload ∈ payloads →
      (serializeEvent L event).bind (deserializeEvent P) = .ok event := by
  constructor
  · intro event hts hprev hmem
    exact deserializeEvent_serializeEvent hP hts hprev hmem
  · intro fields event hread hts hmem
    have hprev := ne_of_readHashPrev hP (deserializeEvent_eq_ok.1 hread).hashPrev
    exact deserializeEvent_serializeEvent hP hts hprev hmem

/-! ### Readers of the printed forms -/

/-- The identifier with a text, if the text is the printed form of one. -/
def Uuid.ofDisplay (s : String) : Option Uuid :=
  let id := BitVec.ofNat 128 (ofDigits 16 (s.toList.filter fun c => c ≠ '-'))
  if Uuid.display id = s then some id else none

lemma Uuid.ofDisplay_display (id : Uuid) : Uuid.ofDisplay (Uuid.display id) = some id := by
  have hdigits : Uuid.hexDigits id = digits 16 32 id.toNat := (digits_eq_map 32 id.toNat).symm
  have hvalue : ofDigits 16 (Uuid.hexDigits id) = id.toNat := by
    rw [hdigits]
    exact ofDigits_digits (by decide) (by decide) id.isLt
  rw [Uuid.ofDisplay, Uuid.filter_display, hvalue, BitVec.ofNat_toNat, BitVec.setWidth_eq]
  exact if_pos rfl

/-- The bytes with the hexadecimal digits. -/
def ofHexDigits : List Char → Option Bytes
  | [] => some []
  | [_] => none
  | c :: c' :: l => do
    let high ← digitValue? c
    let low ← digitValue? c'
    let b ← ofHexDigits l
    return UInt8.ofNat (16 * high + low) :: b

lemma ofHexDigits_hexEncode (b : Bytes) : ofHexDigits (hexEncode b).toList = some b := by
  rw [hexEncode, String.toList_ofList]
  induction b with
  | nil => rfl
  | cons x b ih =>
    have hx := x.toNat_lt
    have hhigh := digitValue?_digitChar (d := x.toNat / 16) (by omega)
    have hlow := digitValue?_digitChar (d := x.toNat % 16) (by omega)
    have hvalue : 16 * (x.toNat / 16) + x.toNat % 16 = x.toNat := by omega
    simp only [List.flatMap_cons, List.cons_append, List.nil_append, ofHexDigits, hhigh, hlow, ih,
      Option.bind_eq_bind, Option.bind_some, Option.pure_def, hvalue, UInt8.ofNat_toNat]

lemma hexEncode_injective : Function.Injective hexEncode := by
  intro a b h
  have hbytes : some a = some b := by
    rw [← ofHexDigits_hexEncode, ← ofHexDigits_hexEncode, h]
  exact Option.some.inj hbytes

lemma length_of_ofHexDigits {l : List Char} {b : Bytes} (h : ofHexDigits l = some b) :
    l.length = 2 * b.length := by
  induction l using ofHexDigits.induct generalizing b with
  | case1 =>
    cases h
    rfl
  | case2 => simp [ofHexDigits] at h
  | case3 c c' l ih =>
    simp only [ofHexDigits, Option.bind_eq_bind, Option.bind_eq_some_iff, Option.pure_def,
      Option.some.injEq] at h
    obtain ⟨high, -, low, -, b', hb', rfl⟩ := h
    have hlength := ih hb'
    simp only [List.length_cons]
    omega

/-- Readers of the printed forms, for the payload `{}` alone. -/
def EventParsers.sample : EventParsers where
  serdeFromStr s := if s = "{}" then some (.object []) else none
  parseUuid := Uuid.ofDisplay
  parseRfc3339 s := okOr "input contains invalid characters" (Rfc3339.read s)
  hexDecode s := okOr "Invalid string" (ofHexDigits s.toList)

lemma EventParsers.parseUuid_sample (s : String) :
    EventParsers.sample.parseUuid s = Uuid.ofDisplay s := by
  simp only [EventParsers.sample]

lemma EventParsers.parseRfc3339_sample (s : String) :
    EventParsers.sample.parseRfc3339 s =
      okOr "input contains invalid characters" (Rfc3339.read s) := by
  simp only [EventParsers.sample]

lemma EventParsers.inverts_sample : EventParsers.sample.Inverts Libs.printing {.object []} where
  uuid id := by rw [parseUuid_sample, Uuid.ofDisplay_display]
  ts t ht := by
    rw [parseRfc3339_sample, Libs.toRfc3339_printing, Rfc3339.read_print ht, okOr]
  hex b := by
    show okOr _ (ofHexDigits (hexEncode b).toList) = _
    rw [ofHexDigits_hexEncode, okOr]
  length_hex s b h := by
    have hdigits : okOr "Invalid string" (ofHexDigits s.toList) = .ok b := h
    rw [← String.length_toList]
    exact length_of_ofHexDigits (okOr_eq_ok.1 hdigits)
  payload := by
    rintro v rfl
    exact ⟨_, rfl, rfl⟩

/-- An event in another spelling than the printed one: a plus sign and a leading zero, upper
case, a field that no event has, and no field `hash_prev`. -/
def foreignFields : Fields :=
  [("task_id", "00000000-0000-0000-0000-000000000001"), ("seq", "+042"),
    ("ts", "2025-01-04T12:00:00+00:00"), ("kind", "stdout"), ("payload", "{}"), ("retry", "1"),
    ("hash_curr", "0A0b")]

/-- The event with these texts. -/
def sampleEvent : TaskEvent :=
  ⟨1, 42, Libs.sampleTime, "stdout", .object [], none, [10, 11]⟩

lemma reads_foreignFields : Reads EventParsers.sample foreignFields sampleEvent where
  taskId := ⟨_, rfl, by decide +kernel⟩
  seq := ⟨_, rfl, by decide +kernel⟩
  ts := ⟨_, rfl, by decide +kernel⟩
  kind := rfl
  payload := ⟨_, rfl, rfl⟩
  hashPrev := rfl
  hashCurr := ⟨_, rfl, by decide +kernel⟩

/-- The round trips of an event with a previous hash and of one in another spelling. -/
theorem wire_roundTrip_sample :
    (serializeEvent Libs.printing { sampleEvent with hashPrev := some [1, 2, 3, 4] }).bind
        (deserializeEvent EventParsers.sample) =
      .ok { sampleEvent with hashPrev := some [1, 2, 3, 4] } ∧
    (serializeEvent Libs.printing sampleEvent).bind (deserializeEvent EventParsers.sample) =
      .ok sampleEvent :=
  ⟨(wire_roundTrip EventParsers.inverts_sample).1 _ (by decide) (by simp) rfl,
    (wire_roundTrip EventParsers.inverts_sample).2 foreignFields _
      (deserializeEvent_eq_ok.2 reads_foreignFields) (by decide) rfl⟩

end AxonTask
