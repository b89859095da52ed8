import AxonTask.Lib.Bytes
import Mathlib.Data.Set.Function

/-!
# Keyed digests (HMAC)

The digest of a message under a key, made of a hash function by two nested calls whose inputs
start with the key under two different masks.  A key shorter than a block is filled up with
zeros, so keys can be told apart by their digests only among keys of one length.
-/

namespace AxonTask.Lib

namespace Hmac

variable (H : Bytes → Bytes) (size : ℕ)

/-- The key, brought to the length of a block. -/
def block (key : Bytes) : Bytes :=
  let key := if key.length ≤ size then key else H key
  key ++ List.replicate (size - key.length) 0

/-- The block under a mask. -/
def pad (mask : UInt8) (key : Bytes) : Bytes := (block H size key).map fun b => b ^^^ mask

/-- The input of the inner call. -/
def inner (key msg : Bytes) : Bytes := pad H size 0x36 key ++ msg

/-- The input of the outer call. -/
def outer (key msg : Bytes) : Bytes := pad H size 0x5c key ++ H (inner H size key msg)

/-- The digest of a message under a key. -/
def mac (key msg : Bytes) : Bytes := H (outer H size key msg)

/-- The byte strings that are hashed for a message. -/
def inputs (key msg : Bytes) : Set Bytes := {inner H size key msg, outer H size key msg}

variable {H} {size : ℕ} {key key' msg msg' : Bytes}

lemma block_of_length_le (h : key.length ≤ size) :
    block H size key = key ++ List.replicate (size - key.length) 0 := by
  simp only [block, if_pos h]

lemma length_pad (mask : UInt8) (h : key.length ≤ size) : (pad H size mask key).length = size := by
  rw [pad, List.length_map, block_of_length_le h, List.length_append, List.length_replicate]
  omega

lemma xor_injective (mask : UInt8) : Function.Injective fun b : UInt8 => b ^^^ mask := by
  intro a b hab
  have hcancel : ∀ c : UInt8, c ^^^ mask ^^^ mask = c := by
    intro c
    rw [UInt8.xor_assoc, UInt8.xor_self, UInt8.xor_zero]
  rw [← hcancel a, ← hcancel b]
  exact congrArg (· ^^^ mask) hab

/-- Among the keys of one length a mask hides none. -/
lemma eq_of_pad_eq {mask : UInt8} (h : key.length ≤ size) (hlen : key'.length = key.length)
    (hpad : pad H size mask key = pad H size mask key') : key = key' := by
  have hblock := List.map_injective_iff.2 (xor_injective mask) hpad
  rw [block_of_length_le h, block_of_length_le (hlen ▸ h)] at hblock
  exact (List.append_inj hblock hlen.symm).1

/-- **A digest commits to the key and the message**, as far as the hash function does to its
inputs. -/
theorem mac_eq_mac_iff (h : key.length ≤ size) (hlen : key'.length = key.length)
    (hcf : Set.InjOn H (inputs H size key msg ∪ inputs H size key' msg')) :
    mac H size key msg = mac H size key' msg' ↔ key = key' ∧ msg = msg' := by
  constructor
  · intro hmac
    have houter : outer H size key msg = outer H size key' msg' :=
      hcf (Or.inl (Or.inr rfl)) (Or.inr (Or.inr rfl)) hmac
    have hpads := List.append_inj houter
      ((length_pad _ h).trans (length_pad _ (hlen ▸ h)).symm)
    obtain rfl := eq_of_pad_eq h hlen hpads.1
    have hinner : inner H size key msg = inner H size key msg' :=
      hcf (Or.inl (Or.inl rfl)) (Or.inr (Or.inl rfl)) hpads.2
    exact ⟨rfl, (List.append_inj hinner rfl).2⟩
  · rintro ⟨rfl, rfl⟩
    rfl

end Hmac

end AxonTask.Lib
