import AxonTask.Lib.Accumulator
import AxonTask.Shared.KeyFormat

/-!
# Verifying API keys (`auth/api_key.rs` of `axontask-shared`)

`verify_api_key` hashes a key and compares the hash with the stored one by
`constant_time_compare`, whose loop goes through all bytes, whatever they are.
-/

namespace AxonTask.KeyVerification

open Lib KeyFormat

/-! ### The comparison -/

/-- One round of the loop: `result |= a_bytes[i] ^ b_bytes[i]`; `none` is a panic. -/
def compareRound (aBytes bBytes : Bytes) (i : ℕ) (result : UInt8) : Option UInt8 :=
  aBytes[i]?.bind fun x => bBytes[i]?.map fun y => result ||| (x ^^^ y)

/-- `constant_time_compare`; `none` is a panic. -/
def constantTimeCompare (a b : String) : Option Bool :=
  if (utf8 a).length ≠ (utf8 b).length then some false
  else
    let aBytes := utf8 a
    let bBytes := utf8 b
    (Accumulator.forRange (compareRound aBytes bBytes) aBytes.length 0).map fun result =>
      decide (result = 0)

/-- `verify_api_key`. -/
def verifyApiKey (L : Libs) (key storedHash : String) : Option Bool :=
  let computedHash := hashApiKey L key
  constantTimeCompare computedHash storedHash

/-! ### What it decides -/

/-- Bytes differ by their exclusive or, and the bits of all differences are collected. -/
def orXor : Accumulator.Differences UInt8 UInt8 where
  zero := 0
  diff x y := x ^^^ y
  join r d := r ||| d
  diff_eq_zero_iff _ _ := UInt8.xor_eq_zero_iff
  join_eq_zero_iff _ _ := UInt8.or_eq_zero_iff

/-- The loop over the bytes of texts of the same length does not panic, and no bit of its result
is set if and only if they are the same bytes. -/
lemma forRange_compareRound {aBytes bBytes : Bytes} (hlen : aBytes.length = bBytes.length) :
    ∃ result, Accumulator.forRange (compareRound aBytes bBytes) aBytes.length 0 = some result ∧
      (result = 0 ↔ aBytes = bBytes) :=
  orXor.forRange_round hlen

/-- **Spec of the comparison**: it does not panic, and it decides equality. -/
lemma constantTimeCompare_eq (a b : String) :
    constantTimeCompare a b = some (decide (a = b)) := by
  rw [constantTimeCompare]
  by_cases hlen : (utf8 a).length = (utf8 b).length
  · obtain ⟨result, hloop, hresult⟩ := forRange_compareRound hlen
    have hzero : result = 0 ↔ a = b := hresult.trans utf8_injective.eq_iff
    rw [if_neg (not_not.2 hlen)]
    simp only [hloop, Option.map_some, hzero]
  · have hne : a ≠ b := by
      rintro rfl
      exact hlen rfl
    rw [if_pos hlen, decide_eq_false hne]

/-- **Spec of the verification.** -/
lemma verifyApiKey_eq (L : Libs) (key storedHash : String) :
    verifyApiKey L key storedHash = some (decide (storedHash = hashApiKey L key)) := by
  rw [verifyApiKey, constantTimeCompare_eq]
  simp only [eq_comm]

/-- **Verification of keys**: the comparison decides equality, a key is accepted for its own hash
and for no other text, and whatever the generator makes is accepted. -/
theorem verification_exact (L : Libs) :
    (∀ a b, constantTimeCompare a b = some (decide (a = b))) ∧
    (∀ key storedHash,
      verifyApiKey L key storedHash = some (decide (storedHash = hashApiKey L key))) ∧
    ∀ draws, verifyApiKey L (generateApiKey L draws).1 (generateApiKey L draws).2 = some true := by
  refine ⟨constantTimeCompare_eq, verifyApiKey_eq L, ?_⟩
  intro draws
  rw [verifyApiKey_eq]
  exact congrArg some (decide_eq_true rfl)

/-! ### Whose hashes are accepted -/

/-- A key is accepted for the hash of another one when SHA-256 does not tell them apart. -/
theorem verifyApiKey_hashApiKey_iff {L : Libs} {key key' : String} :
    verifyApiKey L key (hashApiKey L key') = some true ↔
      L.sha256 (utf8 key') = L.sha256 (utf8 key) := by
  rw [verifyApiKey_eq, Option.some.injEq, decide_eq_true_eq]
  exact hexEncode_injective.eq_iff

/-- The row that is created for a key has a hash for which the key is accepted. -/
theorem verifyApiKey_of_create {L : Libs} {T T' : ApiKeyTable} {tenantExists : Bool}
    {data : CreateApiKey} {key key' : String} {id : Uuid} {now : DateTime} {row : ApiKey}
    (h : ApiKey.create L T tenantExists data key id now = .ok ((row, key'), T')) :
    verifyApiKey L key' row.keyHash = some true := by
  obtain ⟨rfl, rfl, -⟩ := ApiKey.create_eq_ok h
  rw [verifyApiKey_eq]
  exact congrArg some (decide_eq_true rfl)

end AxonTask.KeyVerification
