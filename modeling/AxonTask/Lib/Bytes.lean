import Mathlib.Algebra.Group.Int.Defs
import Mathlib.Algebra.Group.Nat.Defs
import Mathlib.Data.List.Infix
import Mathlib.Tactic.Common

/-!
# Byte strings: encodings that can be read back

Concatenated fields can be told apart when their widths agree or when the first field
ranges over a prefix-free code.  The encodings used by hash inputs are collected here: the
little-endian bytes of a number and the UTF-8 bytes of a string.
-/

namespace AxonTask.Lib

/-- Strings of bytes. -/
abbrev Bytes := List UInt8

/-! ### Prefix-free codes -/

/-- No code word is a proper prefix of another. -/
def PrefixFree {α : Type*} (S : List (List α)) : Prop := ∀ u ∈ S, ∀ v ∈ S, u <+: v → u = v

instance {α : Type*} [DecidableEq α] (S : List (List α)) : Decidable (PrefixFree S) :=
  inferInstanceAs (Decidable (∀ u ∈ S, ∀ v ∈ S, u <+: v → u = v))

/-- A code word of a prefix-free code is read back from the front of a string. -/
lemma PrefixFree.append_inj {α : Type*} {S : List (List α)} (hS : PrefixFree S) {u v x y : List α}
    (hu : u ∈ S) (hv : v ∈ S) (h : u ++ x = v ++ y) : u = v ∧ x = y := by
  have huv : u = v := by
    rcases List.prefix_or_prefix_of_prefix (List.prefix_append u x)
        (h ▸ List.prefix_append v y) with hp | hp
    · exact hS u hu v hv hp
    · exact (hS v hv u hu hp).symm
  subst huv
  exact ⟨rfl, List.append_cancel_left h⟩

/-! ### Optional fields -/

/-- Optional fields of one width that are both there or both absent are equally long. -/
lemma length_getD_eq {p p' : Option Bytes} {w : ℕ} (hp : p.isSome = p'.isSome)
    (hw : ∀ b, p = some b → b.length = w) (hw' : ∀ b, p' = some b → b.length = w) :
    (p.getD []).length = (p'.getD []).length := by
  cases p with
  | none =>
    cases p' with
    | none => rfl
    | some b' => simp at hp
  | some b =>
    cases p' with
    | none => simp at hp
    | some b' => simp [hw b rfl, hw' b' rfl]

/-- An optional field is what its bytes say when one knows whether it is there. -/
lemma eq_of_getD_eq {p p' : Option Bytes} (hp : p.isSome = p'.isSome)
    (h : p.getD [] = p'.getD []) : p = p' := by
  cases p <;> cases p' <;> simp_all

/-! ### Numbers -/

/-- The `n` low bytes of a number, least significant first. -/
def leBytes : ℕ → ℕ → Bytes
  | 0, _ => []
  | n + 1, v => UInt8.ofNat v :: leBytes n (v / 256)

@[simp] lemma length_leBytes (n v : ℕ) : (leBytes n v).length = n := by
  induction n generalizing v with
  | zero => rfl
  | succ n ih => simp [leBytes, ih]

lemma leBytes_inj {n v w : ℕ} (hv : v < 256 ^ n) (hw : w < 256 ^ n)
    (h : leBytes n v = leBytes n w) : v = w := by
  induction n generalizing v w with
  | zero => simp at hv hw; omega
  | succ n ih =>
    simp only [leBytes, List.cons.injEq] at h
    obtain ⟨hlow, hrest⟩ := h
    -- the numbers agree in the low byte, and by induction in what is above it
    have hlow' : v % 256 = w % 256 := by simpa using congrArg UInt8.toNat hlow
    have hdiv : v / 256 = w / 256 := by
      refine ih ?_ ?_ hrest <;> rw [Nat.pow_succ] at hv hw <;> omega
    omega

/-- `i64::to_le_bytes`. -/
def i64LeBytes (x : Int64) : Bytes := leBytes 8 x.toUInt64.toNat

@[simp] lemma length_i64LeBytes (x : Int64) : (i64LeBytes x).length = 8 := by simp [i64LeBytes]

lemma i64LeBytes_injective : Function.Injective i64LeBytes := by
  intro x y h
  have hlt : ∀ z : Int64, z.toUInt64.toNat < 256 ^ 8 := fun z => z.toUInt64.toNat_lt
  have hnat := leBytes_inj (hlt x) (hlt y) h
  simpa using congrArg UInt64.toInt64 (UInt64.toNat_inj.1 hnat)

/-! ### Strings -/

/-- The UTF-8 bytes of a string. -/
def utf8 (s : String) : Bytes := s.toUTF8.data.toList

lemma utf8_injective : Function.Injective utf8 := by
  intro s t h
  have harr : s.toUTF8.data = t.toUTF8.data := Array.toList_inj.1 h
  exact String.toByteArray_inj.1 (ByteArray.ext harr)

lemma utf8_append (s t : String) : utf8 (s ++ t) = utf8 s ++ utf8 t := by
  simp [utf8]

lemma utf8_ne_nil {s : String} (h : s ≠ "") : utf8 s ≠ [] := fun hnil =>
  h (utf8_injective (hnil.trans (by decide : [] = utf8 "")))

/-- A string is encoded character by character. -/
lemma utf8_eq_flatMap (s : String) : utf8 s = s.toList.flatMap String.utf8EncodeChar := by
  have hencode : (s.toList.flatMap String.utf8EncodeChar).toByteArray = s.toByteArray :=
    String.utf8Encode_toList
  rw [utf8, String.toUTF8_eq_toByteArray, ← hencode, List.data_toByteArray]

/-- ASCII characters are single bytes. -/
lemma length_flatMap_utf8EncodeChar {l : List Char} (h : ∀ c ∈ l, c.toNat < 128) :
    (l.flatMap String.utf8EncodeChar).length = l.length := by
  induction l with
  | nil => rfl
  | cons c l ih =>
    have hsize : c.utf8Size = 1 :=
      Char.utf8Size_eq_one_iff.2 (Nat.le_of_lt_succ (h c List.mem_cons_self))
    rw [List.flatMap_cons, List.length_append, String.length_utf8EncodeChar, hsize,
      ih fun d hd => h d (List.mem_cons_of_mem c hd), List.length_cons, Nat.add_comm]

lemma length_utf8_of_ascii {s : String} (h : ∀ c ∈ s.toList, c.toNat < 128) :
    (utf8 s).length = s.toList.length := by
  rw [utf8_eq_flatMap, length_flatMap_utf8EncodeChar h]

/-- `String::from_utf8`. -/
def fromUtf8 (b : Bytes) : Option String := String.fromUTF8? ⟨b.toArray⟩

lemma fromUtf8_utf8 (s : String) : fromUtf8 (utf8 s) = some s := by
  have hbytes : (⟨(utf8 s).toArray⟩ : ByteArray) = s.toByteArray := by
    simp [utf8]
  rw [fromUtf8, hbytes, String.fromUTF8?, dif_pos s.isValidUTF8]
  rfl

lemma fromUtf8_eq_some {b : Bytes} {s : String} : fromUtf8 b = some s ↔ b = utf8 s := by
  constructor
  · intro h
    rw [fromUtf8, String.fromUTF8?] at h
    split at h
    · cases h
      rfl
    · cases h
  · rintro rfl
    exact fromUtf8_utf8 s

end AxonTask.Lib
