import AxonTask.Shared.Basic
import Mathlib.Data.List.Nodup

/-!
# Passwords and tokens (`axontask-shared/src/auth/password.rs` and `jwt.rs`)

The functions of `argon2` and `jsonwebtoken`, and the character classes of Rust, are
parameters of the model.
-/

namespace AxonTask

/-! ### Passwords -/

/-- `PasswordError`. -/
inductive PasswordError
  | hashError (msg : String)
  | verifyError (msg : String)
  | invalidHash (msg : String)
deriving DecidableEq, Repr

/-- The message of a `PasswordError`. -/
def PasswordError.display : PasswordError → String
  | hashError msg => "Failed to hash password: " ++ msg
  | verifyError msg => "Failed to verify password: " ++ msg
  | invalidHash msg => "Invalid password hash format: " ++ msg

/-- What `password.rs` takes from elsewhere. -/
structure PasswordLib where
  /-- `hash_password`, for the generated salt. -/
  hashPassword : String → String → Except PasswordError String
  /-- `verify_password`. -/
  verifyPassword : String → String → Except PasswordError Bool
  /-- `char::is_uppercase`. -/
  isUppercase : Char → Bool
  /-- `char::is_lowercase`. -/
  isLowercase : Char → Bool
  /-- `char::is_numeric`. -/
  isNumeric : Char → Bool
  /-- `char::is_alphanumeric`. -/
  isAlphanumeric : Char → Bool

/-- `validate_password_strength`. -/
def validatePasswordStrength (P : PasswordLib) (password : String) : Except String Unit :=
  if password.utf8ByteSize < 8 then .error "Password must be at least 8 characters long"
  else if !password.toList.any P.isUppercase then
    .error "Password must contain at least one uppercase letter"
  else if !password.toList.any P.isLowercase then
    .error "Password must contain at least one lowercase letter"
  else if !password.toList.any P.isNumeric then
    .error "Password must contain at least one digit"
  else if !password.toList.any fun c => !P.isAlphanumeric c then
    .error "Password must contain at least one special character"
  else .ok ()

/-! ### Claims -/

/-- `TokenType`. -/
inductive TokenType
  | access | refresh
deriving DecidableEq, Repr

/-- `TokenType::default_expiration`, in seconds. -/
def TokenType.defaultExpiration : TokenType → ℤ
  | access => 24 * 3600
  | refresh => 30 * 24 * 3600

/-- `DateTime::timestamp`: the whole seconds since the Unix epoch. -/
def timestamp (now : DateTime) : ℤ := now / 10 ^ 9

/-- `Claims`. -/
structure Claims where
  sub : Uuid
  iss : String
  iat : ℤ
  exp : ℤ
  nbf : ℤ
  tenantId : Uuid
  tokenType : TokenType
deriving DecidableEq, Repr

/-- `Claims::new`. -/
def Claims.new (userId tenantId : Uuid) (tokenType : TokenType) (now : DateTime) : Claims where
  sub := userId
  iss := "axontask"
  iat := timestamp now
  exp := timestamp (now + tokenType.defaultExpiration * 10 ^ 9)
  nbf := timestamp now
  tenantId := tenantId
  tokenType := tokenType

lemma timestamp_add (now : DateTime) (s : ℤ) : timestamp (now + s * 10 ^ 9) = timestamp now + s :=
  Int.add_mul_ediv_right now s (by decide)

lemma timestamp_mono {t u : DateTime} (h : t ≤ u) : timestamp t ≤ timestamp u :=
  Int.ediv_le_ediv (by decide) h

/-! ### Tokens -/

/-- `JwtError`. -/
inductive JwtError
  | createError (msg : String)
  | validationError (msg : String)
  | expired
  | invalidFormat (msg : String)
  | invalidIssuer (expected actual : String)
deriving DecidableEq, Repr

/-- The message of a `JwtError`. -/
def JwtError.display : JwtError → String
  | createError msg => "Failed to create token: " ++ msg
  | validationError msg => "Failed to validate token: " ++ msg
  | expired => "Token has expired"
  | invalidFormat msg => "Invalid token format: " ++ msg
  | invalidIssuer expected actual =>
    "Invalid issuer: expected " ++ expected ++ ", got " ++ actual

/-- The kinds of errors of `jsonwebtoken::decode` that are told apart. -/
inductive DecodeError
  | expiredSignature
  | invalidIssuer
  | other (msg : String)
deriving DecidableEq, Repr

/-- `jsonwebtoken`, with the algorithm HS256. -/
structure JwtLib where
  /-- `encode` of claims with a secret. -/
  encode : Claims → String → Except String String
  /-- `decode` of a token with a secret at a time, with the issuer `axontask` and the checks of
  `exp` and `nbf`. -/
  decode : String → String → ℤ → Except DecodeError Claims

/-- What is relied on: a token stands for the claims that it was made from, and it is accepted
for at most 60 seconds after its expiration. -/
structure JwtLib.Documented (J : JwtLib) : Prop where
  roundTrip : ∀ {claims claims' : Claims} {secret token : String} {now : ℤ},
    J.encode claims secret = .ok token → J.decode token secret now = .ok claims' →
      claims' = claims
  leeway : ∀ {claims : Claims} {secret token : String} {now : ℤ},
    J.decode token secret now = .ok claims → now ≤ claims.exp + 60

section Tokens

variable (J : JwtLib)

/-- `create_token`. -/
def createToken (claims : Claims) (secret : String) : Except JwtError String :=
  (J.encode claims secret).mapError fun e => .createError ("Token encoding failed: " ++ e)

/-- `validate_token`, at the time `now`. -/
def validateToken (token secret : String) (now : DateTime) : Except JwtError Claims :=
  (J.decode token secret (timestamp now)).mapError fun
    | .expiredSignature => .expired
    | .invalidIssuer => .invalidIssuer "axontask" "unknown"
    | .other e => .validationError ("Token validation failed: " ++ e)

/-- `validate_access_token`. -/
def validateAccessToken (token secret : String) (now : DateTime) : Except JwtError Claims :=
  match validateToken J token secret now with
  | .error e => .error e
  | .ok claims =>
    if claims.tokenType = .access then .ok claims
    else .error (.validationError "Expected access token, got refresh token")

/-- `validate_refresh_token`. -/
def validateRefreshToken (token secret : String) (now : DateTime) : Except JwtError Claims :=
  match validateToken J token secret now with
  | .error e => .error e
  | .ok claims =>
    if claims.tokenType = .refresh then .ok claims
    else .error (.validationError "Expected refresh token, got access token")

/-- `refresh_access_token`: the token is validated at the time `now`, and the new claims are
made at the time `later`. -/
def refreshAccessToken (refreshToken secret : String) (now later : DateTime) :
    Except JwtError String :=
  match validateRefreshToken J refreshToken secret now with
  | .error e => .error e
  | .ok refreshClaims =>
    createToken J (.new refreshClaims.sub refreshClaims.tenantId .access later) secret

end Tokens

/-! ### What succeeds -/

section Inversion

variable {J : JwtLib} {token secret : String} {now later : DateTime} {claims : Claims}

lemma createToken_eq_ok (h : createToken J claims secret = .ok token) :
    J.encode claims secret = .ok token := mapError_eq_ok.1 h

lemma validateToken_eq_ok (h : validateToken J token secret now = .ok claims) :
    J.decode token secret (timestamp now) = .ok claims := mapError_eq_ok.1 h

/-- A token that is validated and has the expected type. -/
lemma eq_ok_of_expected {tokenType : TokenType} {msg : String}
    (h : (match validateToken J token secret now with
      | .error e => .error e
      | .ok claims =>
        if claims.tokenType = tokenType then .ok claims
        else .error (.validationError msg) : Except JwtError Claims) = .ok claims) :
    J.decode token secret (timestamp now) = .ok claims ∧ claims.tokenType = tokenType := by
  split at h
  · cases h
  · rename_i c hvalid
    split at h
    · rename_i htype
      cases h
      exact ⟨validateToken_eq_ok hvalid, htype⟩
    · cases h

lemma validateAccessToken_eq_ok (h : validateAccessToken J token secret now = .ok claims) :
    J.decode token secret (timestamp now) = .ok claims ∧ claims.tokenType = .access :=
  eq_ok_of_expected h

lemma validateRefreshToken_eq_ok (h : validateRefreshToken J token secret now = .ok claims) :
    J.decode token secret (timestamp now) = .ok claims ∧ claims.tokenType = .refresh :=
  eq_ok_of_expected h

/-- **Inversion of a refresh.** -/
lemma refreshAccessToken_eq_ok {refreshToken : String}
    (h : refreshAccessToken J refreshToken secret now later = .ok token) :
    ∃ refreshClaims, J.decode refreshToken secret (timestamp now) = .ok refreshClaims ∧
      refreshClaims.tokenType = .refresh ∧
      J.encode (.new refreshClaims.sub refreshClaims.tenantId .access later) secret =
        .ok token := by
  unfold refreshAccessToken at h
  split at h
  · cases h
  · rename_i c hvalid
    obtain ⟨hdecode, htype⟩ := validateRefreshToken_eq_ok hvalid
    exact ⟨c, hdecode, htype, createToken_eq_ok h⟩

end Inversion

/-! ### Three tokens -/

/-- The library for some tokens that were made with a secret. -/
def JwtLib.ofTokens (secret : String) (tokens : List (Claims × String)) : JwtLib where
  encode claims s :=
    match tokens.find? fun p => decide (p.1 = claims) && decide (s = secret) with
    | some p => .ok p.2
    | none => .error "no such token"
  decode token s now :=
    match tokens.find? fun p => decide (p.2 = token) && decide (s = secret) with
    | some (claims, _) =>
      if claims.exp < now - 60 then .error .expiredSignature
      else if now + 60 < claims.nbf then .error (.other "ImmatureSignature")
      else .ok claims
    | none => .error (.other "InvalidSignature")

lemma JwtLib.documented_ofTokens (secret : String) {tokens : List (Claims × String)}
    (h : (tokens.map Prod.snd).Nodup) : (ofTokens secret tokens).Documented where
  roundTrip := by
    intro claims claims' s token now hencode hdecode
    simp only [ofTokens] at hencode hdecode
    split at hencode
    · rename_i p hp
      cases hencode
      split at hdecode
      · rename_i c t hc
        obtain ⟨hpc, -⟩ : p.1 = claims ∧ s = secret := by simpa using List.find?_some hp
        obtain ⟨htoken, -⟩ : t = p.2 ∧ s = secret := by simpa using List.find?_some hc
        have hsame := List.inj_on_of_nodup_map h (List.mem_of_find?_eq_some hc)
          (List.mem_of_find?_eq_some hp) htoken
        split at hdecode
        · cases hdecode
        · split at hdecode
          · cases hdecode
          · cases hdecode
            rw [← hpc, ← hsame]
      · cases hdecode
    · cases hencode
  leeway := by
    intro claims s token now hdecode
    simp only [ofTokens] at hdecode
    split at hdecode
    · split at hdecode
      · cases hdecode
      · split at hdecode
        · cases hdecode
        · cases hdecode
          omega
    · cases hdecode

/-- The secret of the examples. -/
def sampleSecret : String := "your-secret-key-at-least-32-bytes"

/-- A minute and a second after the refresh token has expired. -/
def sampleLater : DateTime := Libs.sampleTime + (30 * 24 * 3600 + 61) * 10 ^ 9

/-- The beginning of the tokens of the user 1. -/
def sampleHead : String :=
  "eyJ0eXAiOiJKV1QiLCJhbGciOiJIUzI1NiJ9.eyJzdWIi" ++
    "OiIwMDAwMDAwMC0wMDAwLTAwMDAtMDAwMC0wMDAwMDAwM" ++
    "DAwMDEiLCJpc3MiOiJheG9udGFzayIsImlhdCI6MTcz"

/-- An access token. -/
def sampleAccess : String :=
  sampleHead ++
    "NTk5MjAwMCwiZXhwIjoxNzM2MDc4NDAwLCJuYmYiOjE3MzU5OT" ++
    "IwMDAsInRlbmFudF9pZCI6IjAwMDAwMDAwLTAwMDAtMDAwMC0w" ++
    "MDAwLTAwMDAwMDAwMDAwMiIsInRva2VuX3R5cGUiOiJhY2Nlc3" ++
    "MifQ.F-3D8aTik0627VAt92-DyOi7VBWNKowA7O7749Fxm5Y"

/-- A refresh token. -/
def sampleRefresh : String :=
  sampleHead ++
    "NTk5MjAwMCwiZXhwIjoxNzM4NTg0MDAwLCJuYmYiOjE3MzU5OT" ++
    "IwMDAsInRlbmFudF9pZCI6IjAwMDAwMDAwLTAwMDAtMDAwMC0w" ++
    "MDAwLTAwMDAwMDAwMDAwMiIsInRva2VuX3R5cGUiOiJyZWZyZX" ++
    "NoIn0.iq5G1NUOc2UOIv7y3th56Y8JXpAfGUwT25c2FHq7nIQ"

/-- An access token that is made later. -/
def sampleAccessLater : String :=
  sampleHead ++
    "ODU4NDA2MSwiZXhwIjoxNzM4NjcwNDYxLCJuYmYiOjE3Mzg1OD" ++
    "QwNjEsInRlbmFudF9pZCI6IjAwMDAwMDAwLTAwMDAtMDAwMC0w" ++
    "MDAwLTAwMDAwMDAwMDAwMiIsInRva2VuX3R5cGUiOiJhY2Nlc3" ++
    "MifQ.zVa6DNABWy8WK4c4kckbF4PdBLSjVFIboyvXIygCEcw"

/-- The tokens of the user 1 in the tenant 2, with their claims. -/
def sampleTokens : List (Claims × String) :=
  [(.new 1 2 .access Libs.sampleTime, sampleAccess),
    (.new 1 2 .refresh Libs.sampleTime, sampleRefresh),
    (.new 1 2 .access sampleLater, sampleAccessLater)]

/-- The library for these tokens. -/
def JwtLib.sample : JwtLib := ofTokens sampleSecret sampleTokens

lemma JwtLib.documented_sample : JwtLib.sample.Documented :=
  documented_ofTokens sampleSecret (by decide +kernel)

end AxonTask
