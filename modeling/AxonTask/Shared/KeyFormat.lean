import AxonTask.Shared.ApiKeyLifecycle

/-!
# The format of API keys (`auth/api_key.rs`, `models/api_key.rs` of `axontask-shared`)

Keys are generated in two places and checked in one.  The check counts bytes and asks for
characters that are alphanumeric in Unicode, for any string; `validateApiKeyFormat` is what is
left of it for the texts of headers.
-/

namespace AxonTask.KeyFormat

open Lib

/-- The Unicode tables of the standard library.  That ASCII characters are alphanumeric as they
are in ASCII is all that is known of them. -/
structure CharTables where
  /-- `char::is_alphanumeric`. -/
  isAlphanumeric : Char → Bool
  ascii : ∀ c, c.toNat < 128 → isAlphanumeric c = c.isAlphanum

/-! ### The check -/

/-- `KEY_PREFIX`. -/
def keyPrefix : String := "axon_"

/-- `KEY_RANDOM_LENGTH`. -/
def keyRandomLength : ℕ := 32

/-- `API_KEY_LENGTH`. -/
def apiKeyLength : ℕ := (utf8 keyPrefix).length + keyRandomLength

/-- `&s[n..]`; `none` is a panic, which is what happens when the byte `n` is not the first one of a
character. -/
def sliceFrom (s : String) (n : ℕ) : Option String :=
  if n ≤ (utf8 s).length then fromUtf8 ((utf8 s).drop n) else none

/-- `validate_api_key_format`; `none` is a panic. -/
def validateApiKeyFormat (C : CharTables) (key : String) : Option Bool :=
  if (utf8 key).length ≠ apiKeyLength then some false
  else if !keyPrefix.toList.isPrefixOf key.toList then some false
  else
    (sliceFrom key (utf8 keyPrefix).length).map fun randomPart =>
      randomPart.toList.all C.isAlphanumeric

/-! ### The generators -/

/-- `CHARSET` of `generate_random_string`. -/
def charset : List Char :=
  "ABCDEFGHIJKLMNOPQRSTUVWXYZabcdefghijklmnopqrstuvwxyz0123456789".toList

/-- `generate_random_string`, for what `gen_range` returns. -/
def generateRandomString (draws : ℕ → Fin charset.length) (length : ℕ) : String :=
  String.ofList ((List.range length).map fun i => charset.get (draws i))

/-- `hash_api_key`. -/
def hashApiKey (L : Libs) (key : String) : String := hexEncode (L.sha256 (utf8 key))

/-- `generate_api_key`: the key and its hash. -/
def generateApiKey (L : Libs) (draws : ℕ → Fin charset.length) : String × String :=
  let randomPart := generateRandomString draws keyRandomLength
  let key := keyPrefix ++ randomPart
  (key, hashApiKey L key)

/-- `CHARSET` of `ApiKey::generate_key`. -/
def modelCharset : List Char :=
  "abcdefghijklmnopqrstuvwxyzABCDEFGHIJKLMNOPQRSTUVWXYZ0123456789".toList

/-- `ApiKey::generate_key`. -/
def generateKey (draws : ℕ → Fin modelCharset.length) : String :=
  "axon_" ++ String.ofList ((List.range 32).map fun i => modelCharset.get (draws i))

/-! ### What the check accepts -/

section Check

variable (C : CharTables) {key : String}

/-- The key as it is documented: the prefix and 32 characters from A-Z, a-z and 0-9. -/
def IsKey (key : String) : Prop :=
  ∃ randomPart : List Char, key = keyPrefix ++ String.ofList randomPart ∧
    randomPart.length = keyRandomLength ∧ ∀ c ∈ randomPart, c.isAlphanum = true

/-- The prefix and alphanumeric characters, which have 32 bytes in all. -/
structure IsByteKey (key randomPart : String) : Prop where
  eq : key = keyPrefix ++ randomPart
  bytes : (utf8 randomPart).length = keyRandomLength
  alphanumeric : ∀ c ∈ randomPart.toList, C.isAlphanumeric c = true

lemma sliceFrom_append (s t : String) : sliceFrom (s ++ t) (utf8 s).length = some t := by
  rw [sliceFrom, utf8_append, List.drop_left, fromUtf8_utf8, if_pos]
  rw [List.length_append]
  omega

/-- The check of a string that starts with the prefix. -/
lemma validateApiKeyFormat_append (randomPart : String) :
    validateApiKeyFormat C (keyPrefix ++ randomPart) =
      some (decide ((utf8 randomPart).length = keyRandomLength) &&
        randomPart.toList.all C.isAlphanumeric) := by
  have hbytes : (utf8 (keyPrefix ++ randomPart)).length = apiKeyLength ↔
      (utf8 randomPart).length = keyRandomLength := by
    rw [utf8_append, List.length_append, apiKeyLength]
    omega
  have hpre : keyPrefix.toList.isPrefixOf (keyPrefix ++ randomPart).toList = true := by
    rw [List.isPrefixOf_iff_prefix, String.toList_append]
    exact List.prefix_append _ _
  simp only [validateApiKeyFormat, sliceFrom_append, hpre, Option.map_some]
  by_cases hlen : (utf8 randomPart).length = keyRandomLength
  · simp [hbytes.2 hlen, hlen]
  · simp [mt hbytes.1 hlen, hlen]

/-- A string without the prefix is not accepted. -/
lemma validateApiKeyFormat_of_unprefixed (h : ¬ keyPrefix.toList <+: key.toList) :
    validateApiKeyFormat C key = some false := by
  have hpre : keyPrefix.toList.isPrefixOf key.toList = false := by
    rw [← Bool.not_eq_true, List.isPrefixOf_iff_prefix]
    exact h
  simp only [validateApiKeyFormat, hpre, Bool.not_false, if_true, ite_self]

lemma exists_eq_append (h : keyPrefix.toList <+: key.toList) : ∃ t, key = keyPrefix ++ t := by
  obtain ⟨l, hl⟩ := h
  refine ⟨String.ofList l, ?_⟩
  rw [← String.toList_inj, String.toList_append, String.toList_ofList]
  exact hl.symm

/-- The slice begins at a character. -/
lemma validateApiKeyFormat_ne_none : validateApiKeyFormat C key ≠ none := by
  by_cases hpre : keyPrefix.toList <+: key.toList
  · obtain ⟨t, rfl⟩ := exists_eq_append hpre
    simp [validateApiKeyFormat_append]
  · simp [validateApiKeyFormat_of_unprefixed C hpre]

/-- **Spec of the check.** -/
lemma validateApiKeyFormat_eq_true_iff :
    validateApiKeyFormat C key = some true ↔ ∃ randomPart, IsByteKey C key randomPart := by
  constructor
  · intro h
    by_cases hpre : keyPrefix.toList <+: key.toList
    · obtain ⟨t, rfl⟩ := exists_eq_append hpre
      rw [validateApiKeyFormat_append, Option.some.injEq, Bool.and_eq_true, decide_eq_true_eq,
        List.all_eq_true] at h
      exact ⟨t, rfl, h.1, h.2⟩
    · rw [validateApiKeyFormat_of_unprefixed C hpre] at h
      cases h
  · rintro ⟨t, rfl, hbytes, halnum⟩
    rw [validateApiKeyFormat_append, Option.some.injEq, Bool.and_eq_true, decide_eq_true_eq,
      List.all_eq_true]
    exact ⟨hbytes, halnum⟩

omit C in
lemma toNat_lt_of_isAlphanum {c : Char} (h : c.isAlphanum = true) : c.toNat < 128 := by
  have hranges : ((decide (65 ≤ c.val ∧ c.val ≤ 90) ||
      (decide (97 ≤ c.val) && decide (c.val ≤ 122))) ||
        (decide (48 ≤ c.val) && decide (c.val ≤ 57))) = true := h
  simp only [Bool.or_eq_true, Bool.and_eq_true, decide_eq_true_eq, UInt32.le_iff_toNat_le]
    at hranges
  show c.val.toNat < 128
  rcases hranges with (⟨-, h⟩ | ⟨-, h⟩) | ⟨-, h⟩
  · exact h.trans_lt (by decide)
  · exact h.trans_lt (by decide)
  · exact h.trans_lt (by decide)

/-- The documented keys are those of ASCII characters. -/
lemma isKey_iff :
    IsKey key ↔ ∃ randomPart, IsByteKey C key randomPart ∧
      ∀ c ∈ randomPart.toList, c.toNat < 128 := by
  constructor
  · rintro ⟨l, rfl, hlen, halnum⟩
    have hascii : ∀ c ∈ (String.ofList l).toList, c.toNat < 128 := by
      intro c hc
      exact toNat_lt_of_isAlphanum (halnum c (by simpa using hc))
    refine ⟨String.ofList l, ⟨rfl, ?_, ?_⟩, hascii⟩
    · rw [length_utf8_of_ascii hascii, String.toList_ofList, hlen]
    · intro c hc
      rw [C.ascii c (hascii c hc)]
      exact halnum c (by simpa using hc)
  · rintro ⟨t, ⟨rfl, hbytes, halnum⟩, hascii⟩
    refine ⟨t.toList, by rw [String.ofList_toList], ?_, ?_⟩
    · rw [← length_utf8_of_ascii hascii, hbytes]
    · intro c hc
      rw [← C.ascii c (hascii c hc)]
      exact halnum c hc

/-- A key can be taken apart in one way only. -/
lemma IsByteKey.unique {C : CharTables} {t t' : String} (h : IsByteKey C key t)
    (h' : IsByteKey C key t') : t = t' := by
  have happend : keyPrefix ++ t = keyPrefix ++ t' := h.eq.symm.trans h'.eq
  rw [← String.toList_inj, String.toList_append, String.toList_append] at happend
  exact String.toList_inj.1 (List.append_cancel_left happend)

end Check

/-- For ASCII strings, which the texts of headers are, the tables do not matter. -/
lemma validateApiKeyFormat_of_ascii (C : CharTables) {key : String}
    (h : ∀ c ∈ key.toList, c.toNat < 128) :
    validateApiKeyFormat C key = some (AxonTask.validateApiKeyFormat key) := by
  by_cases hpre : keyPrefix.toList <+: key.toList
  · obtain ⟨t, rfl⟩ := exists_eq_append hpre
    have hbytes : (utf8 (keyPrefix ++ t)).length = 37 ↔ (utf8 t).length = keyRandomLength := by
      have hprefix : (utf8 keyPrefix).length = 5 := by decide
      rw [utf8_append, List.length_append, hprefix, keyRandomLength]
      omega
    have hdrop : (keyPrefix ++ t).toList.drop 5 = t.toList := by
      have hlen : keyPrefix.toList.length = 5 := by decide
      rw [String.toList_append, ← hlen, List.drop_left]
    have halnum : t.toList.all C.isAlphanumeric = t.toList.all Char.isAlphanum := by
      rw [Bool.eq_iff_iff, List.all_eq_true, List.all_eq_true]
      refine forall₂_congr ?_
      intro c hc
      rw [C.ascii c (h c (by simp [hc]))]
    have htrue : "axon_".toList.isPrefixOf (keyPrefix ++ t).toList = true :=
      List.isPrefixOf_iff_prefix.2 hpre
    rw [validateApiKeyFormat_append, AxonTask.validateApiKeyFormat, hdrop, halnum, htrue,
      Bool.and_true]
    simp only [hbytes]
  · rw [validateApiKeyFormat_of_unprefixed C hpre, AxonTask.validateApiKeyFormat]
    have hfalse : "axon_".toList.isPrefixOf key.toList = false := by
      rw [← Bool.not_eq_true, List.isPrefixOf_iff_prefix]
      exact hpre
    rw [hfalse, Bool.and_false, Bool.false_and]

/-! ### What the generators make -/

/-- The check accepts the prefix with 32 letters and digits. -/
lemma validateApiKeyFormat_of_isKey (C : CharTables) {key : String} (h : IsKey key) :
    validateApiKeyFormat C key = some true := by
  obtain ⟨randomPart, hkey, -⟩ := (isKey_iff C).1 h
  exact (validateApiKeyFormat_eq_true_iff C).2 ⟨randomPart, hkey⟩

/-- Characters that are drawn from letters and digits. -/
lemma isAlphanum_of_mem_draws {chars : List Char} (hchars : chars.all Char.isAlphanum = true)
    (draws : ℕ → Fin chars.length) (n : ℕ) :
    ∀ c ∈ (List.range n).map fun i => chars.get (draws i), c.isAlphanum = true := by
  intro c hc
  obtain ⟨i, -, rfl⟩ := List.mem_map.1 hc
  exact List.all_eq_true.1 hchars _ (List.get_mem _ _)

lemma isKey_generateApiKey (L : Libs) (draws : ℕ → Fin charset.length) :
    IsKey (generateApiKey L draws).1 :=
  ⟨_, rfl, by simp [keyRandomLength], isAlphanum_of_mem_draws (by decide +kernel) draws _⟩

lemma isKey_generateKey (draws : ℕ → Fin modelCharset.length) : IsKey (generateKey draws) :=
  ⟨_, rfl, by simp [keyRandomLength], isAlphanum_of_mem_draws (by decide +kernel) draws _⟩

/-- **The format of keys**: the check accepts exactly the documented keys, unless a key has an
alphanumeric character that is not ASCII; it never panics; and it accepts whatever the generators
make. -/
theorem keyFormat_iff (C : CharTables) (key : String) :
    ((validateApiKeyFormat C key = some true ↔ IsKey key) ↔
      ¬ ∃ randomPart, IsByteKey C key randomPart ∧ ∃ c ∈ randomPart.toList, 128 ≤ c.toNat) ∧
    validateApiKeyFormat C key ≠ none ∧
    (∀ L draws, validateApiKeyFormat C (generateApiKey L draws).1 = some true) ∧
    ∀ draws, validateApiKeyFormat C (generateKey draws) = some true := by
  refine ⟨?_, validateApiKeyFormat_ne_none C, ?_, ?_⟩
  · rw [validateApiKeyFormat_eq_true_iff, isKey_iff C]
    constructor
    · rintro h ⟨t, hkey, c, hc, hle⟩
      obtain ⟨t', hkey', hascii⟩ := h.1 ⟨t, hkey⟩
      obtain rfl := hkey.unique hkey'
      exact absurd (hascii c hc) (by omega)
    · intro h
      constructor
      · rintro ⟨t, hkey⟩
        refine ⟨t, hkey, ?_⟩
        intro c hc
        by_contra hle
        exact h ⟨t, hkey, c, hc, by omega⟩
      · rintro ⟨t, hkey, -⟩
        exact ⟨t, hkey⟩
  · intro L draws
    exact validateApiKeyFormat_of_isKey C (isKey_generateApiKey L draws)
  · intro draws
    exact validateApiKeyFormat_of_isKey C (isKey_generateKey draws)

/-- The tables up to U+00FF. -/
def latin1 : CharTables where
  isAlphanumeric c :=
    let n := c.toNat
    c.isAlphanum || [0xaa, 0xb2, 0xb3, 0xb5, 0xb9, 0xba, 0xbc, 0xbd, 0xbe].contains n ||
      decide (0xc0 ≤ n ∧ n ≤ 0xff ∧ n ≠ 0xd7 ∧ n ≠ 0xf7)
  ascii c hc := by
    have hlist :
        [0xaa, 0xb2, 0xb3, 0xb5, 0xb9, 0xba, 0xbc, 0xbd, 0xbe].contains c.toNat = false := by
      simp
      omega
    have hletter : ¬ (0xc0 ≤ c.toNat ∧ c.toNat ≤ 0xff ∧ c.toNat ≠ 0xd7 ∧ c.toNat ≠ 0xf7) := by omega
    simp only [hlist, hletter, decide_false, Bool.or_false]

/-- Thirty-one characters of thirty-two bytes are accepted. -/
theorem not_exact_latin1 :
    validateApiKeyFormat latin1 "axon_aaaaaaaaaaaaaaaaaaaaaaaaaaaaaaé" = some true ∧
      ¬ IsKey "axon_aaaaaaaaaaaaaaaaaaaaaaaaaaaaaaé" := by
  refine ⟨by decide +kernel, ?_⟩
  rintro ⟨l, hkey, hlen, -⟩
  have hlength := congrArg (fun s => s.toList.length) hkey
  simp only [String.toList_append, String.toList_ofList, List.length_append, hlen] at hlength
  exact absurd hlength (by decide)

end AxonTask.KeyFormat
