import AxonTask.Api.Endpoints
import AxonTask.Lib.Action
import AxonTask.Shared.Accounts
import AxonTask.Shared.ApiKeyLifecycle
import AxonTask.Shared.Credentials

/-!
# Registration, login and refresh (`axontask-api/src/routes/auth.rs`, `app.rs`)

The three public handlers as sequences of actions on the accounts, and the layer that admits
requests with an access token.  Every statement is a transaction of its own: what a handler
has stored stays stored when a later step fails.
-/

namespace AxonTask.Api

open Lib

/-- What the handlers take from other crates and from the database. -/
structure AuthLibs where
  password : PasswordLib
  jwt : JwtLib
  /-- The check `email` of `validator`. -/
  validateEmail : String → Bool
  /-- `lower`, by which CITEXT values are compared. -/
  lower : String → String

/-- `impl From<PasswordError> for ApiError`. -/
def ApiError.ofPasswordError (e : PasswordError) : ApiError :=
  .internalError ("Password operation failed: " ++ e.display)

/-- `impl From<JwtError> for ApiError`. -/
def ApiError.ofJwtError : JwtError → ApiError
  | .expired => .unauthorized "Token expired"
  | .invalidIssuer _ _ => .unauthorized "Invalid token issuer"
  | e => .unauthorized ("Invalid token: " ++ e.display)

/-- How the call of a statement goes. -/
inductive DbCall
  | answered
  /-- The statement is not executed. -/
  | notRun (error : String)
  /-- The statement is executed, and its reply does not arrive. -/
  | replyLost (error : String)
deriving DecidableEq, Repr

/-- A statement, and the conversion of its error. -/
def statement {α : Type} (call : DbCall) (stmt : Accounts → Except DbError (α × Accounts)) :
    Action Accounts ApiError α := fun db =>
  match call, stmt db with
  | .answered, .ok (a, db') => (.ok a, db')
  | .answered, .error e => (.error (.ofDbError e), db)
  | .notRun e, _ => (.error (.ofDbError (.other e)), db)
  | .replyLost e, .ok (_, db') => (.error (.ofDbError (.other e)), db')
  | .replyLost e, .error _ => (.error (.ofDbError (.other e)), db)

/-- A statement that only reads. -/
def query {α : Type} (call : DbCall) (read : Accounts → Except DbError α) :
    Action Accounts ApiError α :=
  statement call fun db => (read db).map fun a => (a, db)

/-- The check of a request with the derived `validate`. -/
def checkValid (errors : List ValidationErrorDetail) : Except ApiError Unit :=
  if errors.isEmpty then .ok () else .error (.validationError errors)

/-- `ok_or_else`. -/
def okOrElse {α : Type} (o : Option α) (e : ApiError) : Except ApiError α :=
  match o with
  | some a => .ok a
  | none => .error e

/-- `RegisterResponse` and `LoginResponse`, in which the ids are printed. -/
structure Session where
  userId : Uuid
  tenantId : Uuid
  accessToken : String
  refreshToken : String
deriving DecidableEq, Repr

section Handlers

variable (A : AuthLibs) (secret : String)

/-- The end of `register` and `login`: the two tokens, made one after the other. -/
def generateTokens (userId tenantId : Uuid) (accessAt refreshAt : DateTime) :
    Except ApiError Session := do
  let accessToken ← (createToken A.jwt (.new userId tenantId .access accessAt) secret).mapError
    ApiError.ofJwtError
  let refreshToken ← (createToken A.jwt (.new userId tenantId .refresh refreshAt) secret).mapError
    ApiError.ofJwtError
  .ok { userId, tenantId, accessToken, refreshToken }

/-! ### Registration -/

/-- `RegisterRequest`. -/
structure RegisterRequest where
  email : String
  password : String
  name : Option String
  tenantName : Option String

/-- `RegisterRequest::validate`. -/
def RegisterRequest.validate (r : RegisterRequest) : List ValidationErrorDetail :=
  (if A.validateEmail r.email then [] else [⟨"email", "Invalid email format"⟩]) ++
    (if 8 ≤ r.password.length then []
      else [⟨"password", "Password must be at least 8 characters"⟩]) ++
    (if r.name.all fun s => decide (s.length ≤ 100) then []
      else [⟨"name", "Name must be at most 100 characters"⟩]) ++
    if r.tenantName.all fun s => decide (s.length ≤ 100) then []
      else [⟨"tenant_name", "Tenant name must be at most 100 characters"⟩]

/-- The name of the personal tenant. -/
def RegisterRequest.personalTenant (r : RegisterRequest) : String :=
  r.tenantName.getD (r.name.getD "User" ++ "'s Workspace")

/-- What a call of `register` takes from its surroundings. -/
structure RegisterEnv where
  /-- The salt of the password. -/
  salt : String
  userId : Uuid
  tenantId : Uuid
  userCall : DbCall
  tenantCall : DbCall
  membershipCall : DbCall
  /-- The times of the three statements. -/
  userAt : DateTime
  tenantAt : DateTime
  membershipAt : DateTime
  /-- The times at which the claims are made. -/
  accessAt : DateTime
  refreshAt : DateTime

/-- The steps of `register` before the first statement. -/
def hashPassword (env : RegisterEnv) (req : RegisterRequest) : Except ApiError String := do
  checkValid (req.validate A)
  (validatePasswordStrength A.password req.password).mapError fun e =>
    ApiError.validationError [⟨"password", e⟩]
  (A.password.hashPassword req.password env.salt).mapError ApiError.ofPasswordError

/-- The insertion of the user. -/
def createUser (env : RegisterEnv) (req : RegisterRequest) (passwordHash : String)
    (db : Accounts) : Except DbError (User × Accounts) :=
  User.create db A.lower { email := req.email, passwordHash, name := req.name, avatarUrl := none }
    env.userId env.userAt

/-- The steps of `register` after the insertion of the user. -/
def createTenant (env : RegisterEnv) (req : RegisterRequest) (user : User) :
    Action Accounts ApiError Session := do
  let tenant ← statement env.tenantCall fun db =>
    Tenant.create db { name := req.personalTenant, plan := .trial } env.tenantId env.tenantAt
  let _ ← statement env.membershipCall fun db =>
    Membership.create db { tenantId := tenant.id, userId := user.id, role := .owner }
      env.membershipAt
  Action.ofExcept (generateTokens A secret user.id tenant.id env.accessAt env.refreshAt)

/-- `register`. -/
def register (env : RegisterEnv) (req : RegisterRequest) : Action Accounts ApiError Session := do
  let passwordHash ← Action.ofExcept (hashPassword A env req)
  let user ← statement env.userCall (createUser A env req passwordHash)
  createTenant A secret env req user

/-! ### Login -/

/-- `LoginRequest`. -/
structure LoginRequest where
  email : String
  password : String

/-- `LoginRequest::validate`. -/
def LoginRequest.validate (r : LoginRequest) : List ValidationErrorDetail :=
  if A.validateEmail r.email then [] else [⟨"email", "Invalid email format"⟩]

/-- What a call of `login` takes from its surroundings. -/
structure LoginEnv where
  findCall : DbCall
  listCall : DbCall
  touchCall : DbCall
  /-- The order of memberships that were created at the same time. -/
  ties : List Membership
  touchAt : DateTime
  /-- The times at which the claims are made. -/
  accessAt : DateTime
  refreshAt : DateTime

/-- The error of a wrong email or password. -/
def invalidLogin : ApiError := .unauthorized "Invalid email or password"

/-- The error of a user without memberships. -/
def noMembership : ApiError := .internalError "User has no tenant membership"

/-- The check of the password. -/
def checkPassword (password : String) (user : User) : Except ApiError Unit :=
  match A.password.verifyPassword password user.passwordHash with
  | .error e => .error (.ofPasswordError e)
  | .ok valid => if valid then .ok () else .error invalidLogin

/-- `login`. -/
def login (env : LoginEnv) (req : LoginRequest) : Action Accounts ApiError Session := do
  Action.ofExcept (checkValid (req.validate A))
  let found ← query env.findCall fun db => User.findByEmail db req.email
  let user ← Action.ofExcept (okOrElse found invalidLogin)
  Action.ofExcept (checkPassword A req.password user)
  let memberships ← query env.listCall fun db => .ok (Membership.listByUser db user.id env.ties)
  let membership ← Action.ofExcept (okOrElse memberships.head? noMembership)
  let _ ← statement env.touchCall fun db => User.updateLastLogin db user.id env.touchAt
  Action.ofExcept (generateTokens A secret user.id membership.tenantId env.accessAt env.refreshAt)

/-! ### Refresh, and the layer -/

/-- `refresh`: the token is validated at the time `now`, and the claims are made at `later`. -/
def refresh (refreshToken : String) (now later : DateTime) : Except ApiError String :=
  (refreshAccessToken A.jwt refreshToken secret now later).mapError ApiError.ofJwtError

/-- `str::strip_prefix`. -/
def stripPrefix (s : String) (start : String) : Option String :=
  if start.toList.isPrefixOf s.toList then some (String.ofList (s.toList.drop start.length))
  else none

/-- The token in an `Authorization` header. -/
def bearerToken (header : Option Bytes) : Except ApiError String :=
  match header.bind headerToStr with
  | none => .error (.unauthorized "Missing authorization header")
  | some authHeader =>
    match stripPrefix authHeader "Bearer " with
    | none => .error (.badRequest "Expected Bearer token")
    | some token => .ok token

/-- `jwt_auth_layer`, with the context that it attaches to the request. -/
def jwtAuthLayer (header : Option Bytes) (now : DateTime) : Except ApiError AuthContext :=
  match bearerToken header with
  | .error e => .error e
  | .ok token =>
    match validateAccessToken A.jwt token secret now with
    | .error e => .error (.ofJwtError e)
    | .ok claims => .ok (.fromJwt claims.sub claims.tenantId)

end Handlers

/-! ### The header of a client -/

/-- The header that carries a token. -/
def bearer (token : String) : Option Bytes :=
  some (("Bearer " ++ token).toList.map fun c => UInt8.ofNat c.toNat)

/-- The text has visible ASCII characters and spaces only. -/
def Visible (s : String) : Prop := ∀ c ∈ s.toList, 32 ≤ c.toNat ∧ c.toNat < 127

instance (s : String) : Decidable (Visible s) :=
  List.decidableBAll (fun c : Char => 32 ≤ c.toNat ∧ c.toNat < 127) s.toList

lemma Visible.append {s t : String} (hs : Visible s) (ht : Visible t) : Visible (s ++ t) := by
  rw [Visible, String.toList_append, List.forall_mem_append]
  exact ⟨hs, ht⟩

lemma stripPrefix_append (start s : String) : stripPrefix (start ++ s) start = some s := by
  have hprefix : start.toList.isPrefixOf (start ++ s).toList = true := by
    rw [List.isPrefixOf_iff_prefix, String.toList_append]
    exact List.prefix_append _ _
  rw [stripPrefix, if_pos hprefix, String.toList_append, ← String.length_toList,
    List.drop_left, String.ofList_toList]

/-- The header is read back. -/
lemma headerToStr_map {s : String} (h : Visible s) :
    headerToStr (s.toList.map fun c => UInt8.ofNat c.toNat) = some s := by
  have hbyte : ∀ c ∈ s.toList, (UInt8.ofNat c.toNat).toNat = c.toNat := by
    intro c hc
    have hlt := (h c hc).2
    rw [UInt8.toNat_ofNat', Nat.mod_eq_of_lt (by omega)]
  have hvisible : (s.toList.map fun c => UInt8.ofNat c.toNat).all
      (fun b => decide (b = 9) || decide (32 ≤ b.toNat ∧ b.toNat < 127)) = true := by
    rw [List.all_map, List.all_eq_true]
    intro c hc
    simp only [Function.comp, Bool.or_eq_true, decide_eq_true_eq, hbyte c hc]
    exact Or.inr (h c hc)
  have hback : (s.toList.map fun c => UInt8.ofNat c.toNat).map (fun b => Char.ofNat b.toNat) =
      s.toList := by
    rw [List.map_map]
    refine (List.map_congr_left fun c hc => ?_).trans (List.map_id _)
    rw [Function.comp, hbyte c hc, Char.ofNat_toNat, id]
  rw [headerToStr, if_pos hvisible, hback, String.ofList_toList]

lemma bearerToken_bearer {token : String} (h : Visible token) :
    bearerToken (bearer token) = .ok token := by
  have hheader : headerToStr (("Bearer " ++ token).toList.map fun c => UInt8.ofNat c.toNat) =
      some ("Bearer " ++ token) :=
    headerToStr_map (Visible.append (by decide) h)
  simp only [bearerToken, bearer, Option.bind_some, hheader, stripPrefix_append]

/-- A client with a valid access token is admitted. -/
lemma jwtAuthLayer_bearer {A : AuthLibs} {secret token : String} {now : DateTime} {claims : Claims}
    (h : Visible token) (hvalid : validateAccessToken A.jwt token secret now = .ok claims) :
    jwtAuthLayer A secret (bearer token) now = .ok (.fromJwt claims.sub claims.tenantId) := by
  unfold jwtAuthLayer
  rw [bearerToken_bearer h]
  simp only [hvalid]

end AxonTask.Api
