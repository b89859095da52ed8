import AxonTask.Shared.Credentials

/-!
# Two answers about the expiry of a token (`axontask-shared/src/auth/jwt.rs`)

`Claims::is_expired` and `Claims::time_until_expiration` compare the clock with `exp`.
`validate_token` leaves the comparison to the library, whose leeway it does not set: the
library goes on accepting a token for 60 seconds after `exp`.  So in these 61 seconds, and in
no others, a token is valid that has expired.
-/

namespace AxonTask

namespace Claims

/-- `Claims::with_expiration`, with a duration in nanoseconds. -/
def withExpiration (userId tenantId : Uuid) (tokenType : TokenType) (expiresIn : ℤ)
    (now : DateTime) : Claims where
  sub := userId
  iss := "axontask"
  iat := timestamp now
  exp := timestamp (now + expiresIn)
  nbf := timestamp now
  tenantId := tenantId
  tokenType := tokenType

lemma new_eq_withExpiration (userId tenantId : Uuid) (tokenType : TokenType) (now : DateTime) :
    Claims.new userId tenantId tokenType now =
      withExpiration userId tenantId tokenType (tokenType.defaultExpiration * 10 ^ 9) now := rfl

/-- `Claims::is_expired`. -/
def isExpired (claims : Claims) (now : DateTime) : Bool := decide (claims.exp ≤ timestamp now)

/-- `Claims::time_until_expiration`, in seconds. -/
def timeUntilExpiration (claims : Claims) (now : DateTime) : Option ℤ :=
  if timestamp now < claims.exp then some (claims.exp - timestamp now) else none

variable {claims : Claims} {now : DateTime}

lemma isExpired_eq_false_iff : claims.isExpired now = false ↔ timestamp now < claims.exp := by
  simp [isExpired]

/-- The two comparisons of the claims are one. -/
lemma timeUntilExpiration_isSome_iff :
    (claims.timeUntilExpiration now).isSome = true ↔ claims.isExpired now = false := by
  rw [isExpired_eq_false_iff, timeUntilExpiration]
  split <;> simp [*]

end Claims

/-- The default leeway of `jsonwebtoken`: a token of the issuer is accepted from 60 seconds
before its `nbf` until 60 seconds after its `exp`. -/
def JwtLib.DefaultLeeway (J : JwtLib) : Prop :=
  ∀ {claims : Claims} {secret token : String} {now : ℤ}, J.encode claims secret = .ok token →
    claims.iss = "axontask" →
      ((∃ claims', J.decode token secret now = .ok claims') ↔
        now ≤ claims.exp + 60 ∧ claims.nbf ≤ now + 60)

/-- A token that is valid has not expired. -/
def ExpiryAgrees (J : JwtLib) (claims : Claims) (token secret : String) (now : DateTime) : Prop :=
  ∀ claims', validateToken J token secret now = .ok claims' →
    claims.isExpired now = false ∧ (claims.timeUntilExpiration now).isSome = true

/-- The time is outside of the leeway: before the end of the token's life, or more than 60
seconds after it, or more than 60 seconds before its beginning. -/
def OutsideLeeway (made : DateTime) (expiresIn : ℤ) (now : DateTime) : Prop :=
  timestamp now < timestamp (made + expiresIn) ∨ timestamp (made + expiresIn) + 60 < timestamp now ∨
    timestamp now + 60 < timestamp made

section Agreement

variable {J : JwtLib} {claims : Claims} {token secret : String} {now : DateTime}

/-- When the token of these claims is valid. -/
lemma exists_validateToken_iff (hleeway : J.DefaultLeeway) (hiss : claims.iss = "axontask")
    (hcreate : createToken J claims secret = .ok token) :
    (∃ claims', validateToken J token secret now = .ok claims') ↔
      timestamp now ≤ claims.exp + 60 ∧ claims.nbf ≤ timestamp now + 60 := by
  rw [← hleeway (createToken_eq_ok hcreate) hiss]
  exact exists_congr fun claims' => mapError_eq_ok

lemma expiryAgrees_of_valid : ExpiryAgrees J claims token secret now ↔
    ((∃ claims', validateToken J token secret now = .ok claims') →
      claims.isExpired now = false) := by
  rw [forall_exists_index]
  simp only [ExpiryAgrees, Claims.timeUntilExpiration_isSome_iff, and_self]

lemma expiryAgrees_withExpiration_iff (hleeway : J.DefaultLeeway) {userId tenantId : Uuid}
    {tokenType : TokenType} {expiresIn : ℤ} {made : DateTime}
    (hcreate : createToken J (.withExpiration userId tenantId tokenType expiresIn made) secret =
      .ok token) :
    ExpiryAgrees J (.withExpiration userId tenantId tokenType expiresIn made) token secret now ↔
      OutsideLeeway made expiresIn now := by
  rw [expiryAgrees_of_valid, exists_validateToken_iff hleeway rfl hcreate, OutsideLeeway,
    Claims.isExpired_eq_false_iff]
  simp only [Claims.withExpiration]
  omega

/-- **A valid token has not expired exactly outside of the leeway**, whether its claims have
the default lifetime or another. -/
theorem expiryAgrees_iff (hleeway : J.DefaultLeeway) (userId tenantId : Uuid)
    (tokenType : TokenType) (made now : DateTime) (token secret : String) :
    (createToken J (.new userId tenantId tokenType made) secret = .ok token →
      (ExpiryAgrees J (.new userId tenantId tokenType made) token secret now ↔
        OutsideLeeway made (tokenType.defaultExpiration * 10 ^ 9) now)) ∧
    ∀ expiresIn,
      createToken J (.withExpiration userId tenantId tokenType expiresIn made) secret = .ok token →
        (ExpiryAgrees J (.withExpiration userId tenantId tokenType expiresIn made) token secret
            now ↔ OutsideLeeway made expiresIn now) := by
  refine ⟨?_, fun expiresIn hcreate => expiryAgrees_withExpiration_iff hleeway hcreate⟩
  rw [Claims.new_eq_withExpiration]
  exact fun hcreate => expiryAgrees_withExpiration_iff hleeway hcreate

end Agreement

/-! ### A library with this leeway -/

lemma JwtLib.defaultLeeway_ofTokens (secret : String) {tokens : List (Claims × String)}
    (h : (tokens.map Prod.snd).Nodup) : (ofTokens secret tokens).DefaultLeeway := by
  intro claims s token now hencode hiss
  simp only [ofTokens] at hencode ⊢
  split at hencode
  · rename_i p hp
    cases hencode
    obtain ⟨hpc, hs⟩ : p.1 = claims ∧ s = secret := by simpa using List.find?_some hp
    have hmem := List.mem_of_find?_eq_some hp
    -- the token stands for these claims only
    cases hfind : tokens.find? fun q => decide (q.2 = p.2) && decide (s = secret) with
    | none =>
      have hnone := List.find?_eq_none.1 hfind p hmem
      simp [hs] at hnone
    | some q =>
      obtain ⟨htoken, -⟩ : q.2 = p.2 ∧ s = secret := by simpa using List.find?_some hfind
      obtain rfl := List.inj_on_of_nodup_map h (List.mem_of_find?_eq_some hfind) hmem htoken
      subst hpc
      simp only
      split
      · simp only [reduceCtorEq, exists_false, false_iff]
        omega
      · split
        · simp only [reduceCtorEq, exists_false, false_iff]
          omega
        · simp only [Except.ok.injEq, exists_eq', true_iff]
          omega
  · cases hencode

lemma JwtLib.defaultLeeway_sample : JwtLib.sample.DefaultLeeway :=
  defaultLeeway_ofTokens sampleSecret (by decide +kernel)

/-- Half a minute after the access token has expired. -/
def halfMinuteLate : DateTime := Libs.sampleTime + (24 * 3600 + 30) * 10 ^ 9

/-- At the beginning of its life the access token is valid and has not expired. -/
theorem expiryAgrees_iff_sample :
    ExpiryAgrees JwtLib.sample (.new 1 2 .access Libs.sampleTime) sampleAccess sampleSecret
        Libs.sampleTime ↔
      OutsideLeeway Libs.sampleTime (24 * 3600 * 10 ^ 9) Libs.sampleTime :=
  (expiryAgrees_iff JwtLib.defaultLeeway_sample 1 2 .access Libs.sampleTime Libs.sampleTime
    sampleAccess sampleSecret).1 (by decide +kernel)

/-- Half a minute after it has expired the access token is valid. -/
theorem not_expiryAgrees_halfMinuteLate :
    createToken JwtLib.sample (.new 1 2 .access Libs.sampleTime) sampleSecret = .ok sampleAccess ∧
      validateToken JwtLib.sample sampleAccess sampleSecret halfMinuteLate =
        .ok (.new 1 2 .access Libs.sampleTime) ∧
      ¬ ExpiryAgrees JwtLib.sample (.new 1 2 .access Libs.sampleTime) sampleAccess sampleSecret
        halfMinuteLate := by
  have hvalid : validateToken JwtLib.sample sampleAccess sampleSecret halfMinuteLate =
      .ok (.new 1 2 .access Libs.sampleTime) := by decide +kernel
  refine ⟨by decide +kernel, hvalid, ?_⟩
  intro h
  have hexpired : (Claims.new 1 2 .access Libs.sampleTime).isExpired halfMinuteLate = true := by
    decide +kernel
  rw [(h _ hvalid).1] at hexpired
  cases hexpired

end AxonTask
