import AxonTask.Lib.Rfc3339
import AxonTask.Lib.Sha256

/-!
# Values shared by all crates, and the third-party functions

Identifiers, instants and JSON values, and the functions of `sha2`, `serde_json` and
`chrono` that the event log calls.  The latter are not part of the repository; they are a
parameter `Libs` of the model, and what a result relies on is a hypothesis on it.
-/

namespace AxonTask

open Lib

/-- `uuid::Uuid`: 128 bits. -/
abbrev Uuid := BitVec 128

instance : LawfulBEq Uuid := inferInstance

/-- `chrono::DateTime<Utc>`: an instant, in nanoseconds since the Unix epoch. -/
abbrev DateTime := ℤ

/-- `serde_json::Number`. -/
inductive Number
  | posInt (n : UInt64)
  | negInt (n : Int64)
  /-- A finite `f64`, by its bits. -/
  | float (bits : UInt64)
deriving DecidableEq, Repr

/-- `serde_json::Value`. -/
inductive JsonValue
  | null
  | bool (b : Bool)
  | number (n : Number)
  | string (s : String)
  | array (elems : List JsonValue)
  | object (fields : List (String × JsonValue))

/-- Whether a text contains the character U+0000, which Postgres does not store. -/
def hasNul (s : String) : Bool := s.toList.contains (Char.ofNat 0)

mutual
/-- Whether some string or key of a JSON value contains the character U+0000. -/
def JsonValue.hasNul : JsonValue → Bool
  | .string s => AxonTask.hasNul s
  | .array elems => hasNulElems elems
  | .object fields => hasNulFields fields
  | _ => false

/-- `JsonValue.hasNul` for some element of an array. -/
def hasNulElems : List JsonValue → Bool
  | [] => false
  | v :: l => v.hasNul || hasNulElems l

/-- `JsonValue.hasNul` for some field of an object. -/
def hasNulFields : List (String × JsonValue) → Bool
  | [] => false
  | (k, v) :: l => AxonTask.hasNul k || v.hasNul || hasNulFields l
end

/-! ### Results -/

lemma map_eq_ok {ε α β : Type*} {x : Except ε α} {f : α → β} {b : β} (h : x.map f = .ok b) :
    ∃ a, x = .ok a ∧ f a = b := by
  cases x with
  | error e => cases h
  | ok a =>
    cases h
    exact ⟨a, rfl, rfl⟩

lemma mapError_eq_ok {ε ε' α : Type*} {f : ε → ε'} {x : Except ε α} {a : α} :
    x.mapError f = .ok a ↔ x = .ok a := by
  cases x <;> simp [Except.mapError]

/-! ### Third-party functions -/

/-- The third-party functions that the event log calls. -/
structure Libs where
  /-- `sha2::Sha256`: the digest of the concatenation of all updates. -/
  sha256 : Bytes → Bytes
  /-- `serde_json::to_string`; `none` is an error. -/
  serdeToString : JsonValue → Option String
  /-- `DateTime::<Utc>::to_rfc3339`. -/
  toRfc3339 : DateTime → String

/-- The third-party functions that read what `Libs` prints. -/
structure Parsers where
  /-- `serde_json::from_str`, with the fields of an object as they stand in the text; `none`
  is an error. -/
  serdeFromStr : String → Option JsonValue

namespace Libs

variable (L : Libs)

/-- `serde_json::to_vec`, which writes the bytes of `to_string`. -/
def serdeToVec (v : JsonValue) : Option Bytes := (L.serdeToString v).map utf8

/-- 2025-01-04T12:00:00Z. -/
def sampleTime : DateTime := 1735992000 * 10 ^ 9

/-- SHA-256, with the printers as they are on the empty object and at `sampleTime`. -/
def sample : Libs where
  sha256 := Sha256.sha256
  serdeToString _ := some "{}"
  toRfc3339 _ := "2025-01-04T12:00:00+00:00"

/-- The same, with the printer of timestamps as it is on all four-digit years. -/
def printing : Libs := { sample with toRfc3339 := Rfc3339.print }

lemma toRfc3339_printing (t : DateTime) : printing.toRfc3339 t = Rfc3339.print t := rfl

end Libs

end AxonTask
