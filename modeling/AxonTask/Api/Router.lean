import AxonTask.Api.RateLimit
import AxonTask.Api.Sessions
import AxonTask.Api.TenantIsolation

/-!
# The router (`build_router` in `axontask-api/src/app.rs`)

The layers in front of the authenticated handlers, and the histories in which requests,
registrations, logins, refreshes and statements on the memberships come in any order.  The
layers look at the token and at the row of the tenant, and not at the memberships.
-/

namespace AxonTask.Api

open Lib

/-- `rate_limit_layer`, with the limit that it writes into the headers of the response; the
limit is not enforced yet. -/
def rateLimitLayer (db : Database) (auth : AuthContext) : Except ApiError RateLimit :=
  match db.tenants.row auth.tenantId with
  | none => .error (.unauthorized "Tenant not found")
  | some tenant => .ok (RateLimit.forPlan (tenant.getPlan.getD .trial))

/-- The route of the request is one of `/v1/mcp`; the others are those of `/v1/api-keys`. -/
def ApiRequest.isMcp : ApiRequest → Bool
  | .startTask _ | .getTaskStatus _ | .cancelTask _ | .streamTask _ _ | .resumeTask _ _ => true
  | .createApiKey _ | .listApiKeys | .revokeApiKey _ => false

/-- The handler of the request changes the database. -/
def ApiRequest.isWrite : ApiRequest → Bool
  | .startTask _ | .cancelTask _ | .createApiKey _ | .revokeApiKey _ => true
  | .getTaskStatus _ | .streamTask _ _ | .resumeTask _ _ | .listApiKeys => false

/-- An authenticated request: the rate limit, where it applies, and the handler. -/
def serve (L : Libs) (env : Surroundings) (auth : AuthContext) (req : ApiRequest) (db : Database) :
    Option (Except ApiError ApiResponse × Database) :=
  if req.isMcp then
    match rateLimitLayer db auth with
    | .error e => some (.error e, db)
    | .ok _ => handle L env auth db req
  else handle L env auth db req

/-- A request to an authenticated route. -/
def route (A : AuthLibs) (secret : String) (L : Libs) (env : Surroundings) (now : DateTime)
    (header : Option Bytes) (req : ApiRequest) (db : Database) :
    Option (Except ApiError ApiResponse × Database) :=
  match jwtAuthLayer A secret header now with
  | .error e => some (.error e, db)
  | .ok auth => serve L env auth req db

/-! ### What the handlers leave alone -/

section Handlers

variable {L : Libs} {env : Surroundings} {auth : AuthContext} {db db' : Database}
  {r : Except ApiError ApiResponse}

/-- The users and the tenants are the same. -/
def SameAccounts (db db' : Database) : Prop := db'.users = db.users ∧ db'.tenants = db.tenants

lemma sameAccounts_startTask {req : StartTaskRequest} {resp : StartTaskResponse}
    (h : startTask env auth req db = .ok (resp, db')) : SameAccounts db db' := by
  unfold startTask at h
  split at h
  · split at h
    · cases h
    · split at h
      · cases h
      · split at h
        · obtain ⟨a, -, heq⟩ := map_eq_ok h
          cases heq
          exact ⟨rfl, rfl⟩
        · cases h
  · cases h

lemma sameAccounts_cancelTask {taskId : Uuid} {resp : CancelTaskResponse}
    (h : cancelTask env auth taskId db = .ok (resp, db')) : SameAccounts db db' := by
  unfold cancelTask at h
  split at h
  · cases h
  · cases h
    exact ⟨rfl, rfl⟩
  · split at h
    · cases h
      exact ⟨rfl, rfl⟩
    · cases h

lemma sameAccounts_createApiKey {req : CreateApiKeyRequest} {resp : CreateApiKeyResponse}
    (h : createApiKey L env auth req db = .ok (resp, db')) : SameAccounts db db' := by
  simp only [createApiKey] at h
  split at h
  · split at h
    · cases h
    · split at h
      · cases h
      · cases h
        exact ⟨rfl, rfl⟩
  · cases h

lemma sameAccounts_revokeApiKey {id : Uuid} {revoked : Bool}
    (h : revokeApiKey env auth id db = .ok (revoked, db')) : SameAccounts db db' := by
  unfold revokeApiKey at h
  split at h
  · cases h
  · cases h
  · cases h
    exact ⟨rfl, rfl⟩

/-- A handler that reads a task. -/
lemma eq_of_findTask {α : Type} {taskId : Uuid} {f : Task → α} {a : α}
    (h : ((findTask db taskId auth).map fun task => (f task, db)) = .ok (a, db')) : db' = db := by
  obtain ⟨task, -, heq⟩ := map_eq_ok h
  cases heq
  rfl

/-- The outcome of a handler. -/
lemma outcome_cases {α : Type} {response : α → ApiResponse}
    {o : Except ApiError (α × Database)} (h : some (outcome response db o) = some (r, db')) :
    db' = db ∨ ∃ a, o = .ok (a, db') := by
  cases o with
  | error e =>
    cases h
    exact Or.inl rfl
  | ok result =>
    cases h
    exact Or.inr ⟨_, rfl⟩

/-- A request that changes the database is one of the four, and it changes neither the users
nor the tenants. -/
lemma handle_cases {req : ApiRequest} (h : handle L env auth db req = some (r, db')) :
    db' = db ∨ req.isWrite = true ∧ SameAccounts db db' := by
  cases req with
  | startTask req =>
    refine (outcome_cases h).imp_right ?_
    rintro ⟨a, ho⟩
    exact ⟨rfl, sameAccounts_startTask ho⟩
  | getTaskStatus taskId =>
    rcases outcome_cases h with heq | ⟨a, ho⟩
    · exact Or.inl heq
    · exact Or.inl (eq_of_findTask ho)
  | cancelTask taskId =>
    refine (outcome_cases h).imp_right ?_
    rintro ⟨a, ho⟩
    exact ⟨rfl, sameAccounts_cancelTask ho⟩
  | streamTask taskId sinceSeq =>
    rcases outcome_cases h with heq | ⟨a, ho⟩
    · exact Or.inl heq
    · exact Or.inl (eq_of_findTask ho)
  | resumeTask taskId lastSeq =>
    rcases outcome_cases h with heq | ⟨a, ho⟩
    · exact Or.inl heq
    · exact Or.inl (eq_of_findTask ho)
  | createApiKey req =>
    refine (outcome_cases h).imp_right ?_
    rintro ⟨a, ho⟩
    exact ⟨rfl, sameAccounts_createApiKey ho⟩
  | listApiKeys =>
    simp only [handle, listApiKeys] at h
    split at h
    · cases h
      exact Or.inl rfl
    · cases h
  | revokeApiKey id =>
    refine (outcome_cases h).imp_right ?_
    rintro ⟨a, ho⟩
    exact ⟨rfl, sameAccounts_revokeApiKey ho⟩

lemma serve_cases {req : ApiRequest} (h : serve L env auth req db = some (r, db')) :
    db' = db ∨ req.isWrite = true ∧ SameAccounts db db' := by
  unfold serve at h
  split at h
  · split at h
    · cases h
      exact Or.inl rfl
    · exact handle_cases h
  · exact handle_cases h

/-- **Inversion of a request that changes the database.** -/
lemma route_cases {A : AuthLibs} {secret : String} {now : DateTime} {header : Option Bytes}
    {req : ApiRequest} (h : route A secret L env now header req db = some (r, db')) :
    db' = db ∨ (∃ auth, jwtAuthLayer A secret header now = .ok auth) ∧ req.isWrite = true ∧
      SameAccounts db db' := by
  unfold route at h
  split at h
  · cases h
    exact Or.inl rfl
  · rename_i auth hauth
    exact (serve_cases h).imp_right fun hwrite => ⟨⟨auth, hauth⟩, hwrite⟩

lemma route_of_admitted {A : AuthLibs} {secret : String} {now : DateTime} {header : Option Bytes}
    (h : jwtAuthLayer A secret header now = .ok auth) (req : ApiRequest) :
    route A secret L env now header req db = serve L env auth req db := by
  simp only [route, h]

end Handlers

/-! ### Histories -/

namespace Router

open Sessions

/-- The state of the authentication, and the tables `tasks` and `api_keys`. -/
structure World where
  auth : AuthState
  tasks : TaskTable
  apiKeys : ApiKeyTable

/-- The database as the authenticated handlers see it. -/
def World.database (w : World) : Database where
  users := w.auth.accounts.users.rows.map User.id
  tenants := w.auth.accounts.tenants
  tasks := w.tasks
  apiKeys := w.apiKeys

/-- A step of the authentication, a request to an authenticated route, or the passing of time. -/
inductive WorldOp
  | auth (op : AuthOp)
  | request (env : Surroundings) (now : DateTime) (header : Option Bytes) (req : ApiRequest)
  | wait (now : DateTime)

/-- One step. -/
def step (A : AuthLibs) (secret : String) (L : Libs) (w : World) : WorldOp → Option World
  | .auth op => (Sessions.step A secret w.auth op).map fun auth => { w with auth }
  | .request env now header req =>
    (route A secret L env now header req w.database).map fun (_, db) =>
      { auth := { w.auth with now }, tasks := db.tasks, apiKeys := db.apiKeys }
  | .wait now => some { w with auth := { w.auth with now } }

/-- Any history, from any database and without tokens. -/
def machine (A : AuthLibs) (secret : String) (L : Libs) : Machine World WorldOp where
  Init w := (Sessions.machine A secret).Init w.auth
  step := step A secret L

/-- The steps of the authentication are honest, and the clock does not go back. -/
def Honest (A : AuthLibs) (secret : String) (w : World) : WorldOp → Prop
  | .auth op => Sessions.Honest A secret w.auth op
  | .request _ now _ _ | .wait now => w.auth.now ≤ now

instance (A : AuthLibs) (secret : String) (w : World) : ∀ op, Decidable (Honest A secret w op)
  | .auth op => inferInstanceAs (Decidable (Sessions.Honest A secret w.auth op))
  | .request _ now _ _ | .wait now => inferInstanceAs (Decidable (w.auth.now ≤ now))

variable {A : AuthLibs} {secret : String} {L : Libs} {w w' : World}

/-- All tokens are traced, whatever requests come in between. -/
lemma invariant_of_reachable (hJ : A.jwt.Documented)
    (h : (machine A secret L).Reachable (Honest A secret) w) :
    Sessions.Invariant A secret w.auth := by
  refine h.invariant (P := fun w => Sessions.Invariant A secret w.auth) ?_ ?_
  · intro w hinit
    exact Sessions.invariant_of_reachable hJ (Machine.Reachable.init hinit)
  · intro w op w' hC hi hstep
    cases op with
    | auth op =>
      obtain ⟨auth, hauth, rfl⟩ := Option.map_eq_some_iff.1 hstep
      exact Sessions.invariant_of_step hJ hi hC hauth
    | request env now header req =>
      obtain ⟨⟨r, db⟩, -, rfl⟩ := Option.map_eq_some_iff.1 hstep
      exact hi
    | wait now =>
      cases hstep
      exact hi

/-- The request was authorized by the token in its header: a call returned it, and it descends
from a registration or a login for the same user and tenant, at which the user was a member
of the tenant. -/
def Authorized (w : World) (header : Option Bytes) (auth : AuthContext) : Prop :=
  ∃ i ∈ w.auth.issued, ∃ o ∈ w.auth.issued, bearerToken header = .ok i.token ∧ Descends i o ∧
    auth = .fromJwt o.claims.sub o.claims.tenantId ∧
    ∃ m, o.membership = some m ∧ m.userId = o.claims.sub ∧ m.tenantId = o.claims.tenantId

/-- **Authority comes from the token.**  A request changes the database only when it starts or
cancels a task or creates or revokes a key, and a registration or a login has authorized its
token; the role that the user has in the meantime, and whether the user is still a member,
are not asked for. -/
theorem authority (hJ : A.jwt.Documented)
    (h : (machine A secret L).Reachable (Honest A secret) w) {env : Surroundings}
    {now : DateTime} {header : Option Bytes} {req : ApiRequest} {r : Except ApiError ApiResponse}
    {db : Database} (hgenuine : ∀ token, bearerToken header = .ok token →
      Genuine A secret w.auth token now)
    (hroute : route A secret L env now header req w.database = some (r, db))
    (hchange : db ≠ w.database) :
    req.isWrite = true ∧ ∃ auth, jwtAuthLayer A secret header now = .ok auth ∧
      Authorized w header auth := by
  have hi := invariant_of_reachable hJ h
  rcases route_cases hroute with heq | ⟨⟨auth, hadmit⟩, hwrite, -⟩
  · exact absurd heq hchange
  · obtain ⟨i, hmem, htoken, htype, rfl, -⟩ :=
      exists_issued_of_jwtAuthLayer hJ hi hgenuine hadmit
    obtain ⟨o, ho, hdescends, -⟩ := exists_descends hi hmem htype
    refine ⟨hwrite, _, hadmit, i, hmem, o, ho, htoken, hdescends, ?_,
      (hi o ho).session hdescends.session⟩
    rw [hdescends.sub, hdescends.tenantId]

/-! ### A member who is removed -/

/-- Nothing has been registered. -/
def start : World := ⟨Sessions.start, Table.empty Task.schema, Table.empty ApiKey.schema⟩

/-- A registration, of which the first token is used. -/
def registration : WorldOp := .auth (.register Registration.sampleEnv Registration.sampleRegister)

/-- What the requests take from their surroundings. -/
def requestSurroundings : Surroundings := ⟨fun _ => Libs.sampleTime, 9, "axon_example", []⟩

/-- A request for a key. -/
def sampleKeyRequest : CreateApiKeyRequest := ⟨"ci", "tasks:write", none⟩

lemma jwtAuthLayer_sampleAccess :
    jwtAuthLayer Registration.sampleAuth sampleSecret (bearer sampleAccess) Libs.sampleTime =
      .ok (.fromJwt 1 2) := by
  have hvalid : validateAccessToken Registration.sampleAuth.jwt sampleAccess sampleSecret
      Libs.sampleTime = .ok (.new 1 2 .access Libs.sampleTime) := by decide +kernel
  exact jwtAuthLayer_bearer visible_sampleAccess hvalid

/-- The registration has returned the token. -/
lemma genuine_sampleAccess {w : World} (h : w.auth.issued.map Issued.token =
    [sampleAccess, sampleRefresh]) {token : String}
    (htoken : bearerToken (bearer sampleAccess) = .ok token) :
    Genuine Registration.sampleAuth sampleSecret w.auth token Libs.sampleTime := by
  intro _
  rw [bearerToken_bearer visible_sampleAccess] at htoken
  cases htoken
  have hmem : sampleAccess ∈ w.auth.issued.map Issued.token := by
    rw [h]
    exact .head _
  obtain ⟨i, hi, htoken⟩ := List.mem_map.1 hmem
  exact ⟨i, hi, htoken⟩

/-- The numbers of tasks and of keys that a request leaves. -/
def rowsAfter (w : World) (req : ApiRequest) : Option (ℕ × ℕ) :=
  (serve .sample requestSurroundings (.fromJwt 1 2) req w.database).map fun (_, db) =>
    (db.tasks.rows.length, db.apiKeys.rows.length)

/-- What is observed of a world. -/
structure Observed where
  now : DateTime
  memberships : List Membership
  tokens : List String
  tasks : ℕ
  apiKeys : ℕ
  afterStart : Option (ℕ × ℕ)
  afterCreate : Option (ℕ × ℕ)
deriving DecidableEq

/-- The observation of a world. -/
def observe (w : World) : Observed where
  now := w.auth.now
  memberships := w.auth.accounts.memberships.rows
  tokens := w.auth.issued.map Issued.token
  tasks := w.tasks.rows.length
  apiKeys := w.apiKeys.rows.length
  afterStart := rowsAfter w (.startTask QuotaRace.sampleRequest)
  afterCreate := rowsAfter w (.createApiKey sampleKeyRequest)

/-- A request that adds a row changes the database. -/
lemma exists_route_of_rowsAfter {w : World} {req : ApiRequest} {n k : ℕ}
    (h : rowsAfter w req = some (n, k)) : ∃ r db,
      route Registration.sampleAuth sampleSecret .sample requestSurroundings Libs.sampleTime
        (bearer sampleAccess) req w.database = some (r, db) ∧ db.tasks.rows.length = n ∧
        db.apiKeys.rows.length = k := by
  obtain ⟨⟨r, db⟩, hserve, hrows⟩ := Option.map_eq_some_iff.1 h
  rw [Prod.mk.injEq] at hrows
  exact ⟨r, db, by rw [route_of_admitted jwtAuthLayer_sampleAccess, hserve], hrows⟩

/-- The first user, not even a member any more, starts a task with the token of the
registration. -/
theorem authority_removedMember : ∃ w,
    (machine Registration.sampleAuth sampleSecret .sample).exec
        (Honest Registration.sampleAuth sampleSecret) start
        [registration, .auth (.deleteMembership 2 1)] = some w ∧
      w.auth.accounts.memberships.rows = [] ∧
      ∃ auth, jwtAuthLayer Registration.sampleAuth sampleSecret (bearer sampleAccess)
          Libs.sampleTime = .ok auth ∧ Authorized w (bearer sampleAccess) auth := by
  have hrun : ((machine Registration.sampleAuth sampleSecret .sample).exec
      (Honest Registration.sampleAuth sampleSecret) start
      [registration, .auth (.deleteMembership 2 1)]).map observe =
      some ⟨Libs.sampleTime, [], [sampleAccess, sampleRefresh], 0, 0, some (1, 0),
        some (0, 1)⟩ := by decide +kernel
  obtain ⟨w, hw, hobs⟩ := Option.map_eq_some_iff.1 hrun
  simp only [observe, Observed.mk.injEq] at hobs
  obtain ⟨-, hmemberships, htokens, htasks, hkeys, hstart, hcreate⟩ := hobs
  obtain ⟨r, db, hroute, hrows, -⟩ := exists_route_of_rowsAfter hstart
  refine ⟨w, hw, hmemberships, ?_⟩
  refine (authority (A := Registration.sampleAuth) JwtLib.documented_sample
    ⟨start, _, rfl, Machine.run_of_exec hw⟩ (fun token => genuine_sampleAccess htokens) hroute ?_).2
  rintro rfl
  rw [show w.database.tasks = w.tasks from rfl, htasks] at hrows
  cases hrows

end Router

end AxonTask.Api
