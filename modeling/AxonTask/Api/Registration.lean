import AxonTask.Api.Auth
import AxonTask.Lib.Machine

/-!
# Registration (`register` in `axontask-api/src/routes/auth.rs`)

`register` stores a user, a tenant and a membership with three statements and then makes two
tokens.  It is atomic up to the insertion of the user, so it leaves the tables alone when it
fails exactly if nothing fails after that insertion.
-/

namespace AxonTask.Api

open Lib Action

/-! ### Statements -/

section Statements

variable {α : Type} {call : DbCall} {stmt : Accounts → Except DbError (α × Accounts)}
  {db db' : Accounts} {a : α}

/-- The statement is executed. -/
def DbCall.isRun : DbCall → Bool
  | notRun _ => false
  | _ => true

lemma statement_answered (h : stmt db = .ok (a, db')) :
    statement .answered stmt db = (.ok a, db') := by
  simp only [statement, h]

/-- A statement that is not executed or not accepted. -/
lemma statement_of_not_stores (h : ∀ a db', stmt db = .ok (a, db') → call.isRun = false) :
    ∃ e, statement call stmt db = (.error e, db) := by
  unfold statement
  cases hstmt : stmt db with
  | error e => cases call <;> exact ⟨_, rfl⟩
  | ok result =>
    obtain ⟨a, db'⟩ := result
    have hcall := h a db' hstmt
    cases call with
    | answered => cases hcall
    | notRun e => exact ⟨_, rfl⟩
    | replyLost e => cases hcall

/-- **Inversion of a statement that succeeds.** -/
lemma statement_eq_ok (h : statement call stmt db = (.ok a, db')) :
    call = .answered ∧ stmt db = .ok (a, db') := by
  unfold statement at h
  cases call with
  | answered =>
    cases hstmt : stmt db with
    | error e => rw [hstmt] at h; cases h
    | ok result => rw [hstmt] at h; cases h; exact ⟨rfl, rfl⟩
  | notRun e => cases h
  | replyLost e =>
    cases hstmt : stmt db with
    | error e => rw [hstmt] at h; cases h
    | ok result => rw [hstmt] at h; cases h

lemma within_statement {R : Accounts → Accounts → Prop} (hrefl : ∀ db, R db db)
    (h : ∀ db a db', stmt db = .ok (a, db') → R db db') : Within R (statement call stmt) := by
  intro db
  unfold statement
  cases hstmt : stmt db with
  | error e => cases call <;> exact hrefl db
  | ok result =>
    have hresult := h db result.1 result.2 hstmt
    cases call with
    | answered => exact hresult
    | notRun e => exact hrefl db
    | replyLost e => exact hresult

lemma keeps_statement {γ : Sort*} {g : Accounts → γ}
    (h : ∀ db a db', stmt db = .ok (a, db') → g db' = g db) : Keeps g (statement call stmt) :=
  within_statement (R := fun s s' => g s' = g s) (fun _ => rfl) h

end Statements

namespace Registration

variable {A : AuthLibs} {secret : String} {env : RegisterEnv} {req : RegisterRequest}
  {db db' : Accounts} {user : User}

/-! ### The condition -/

/-- The values of the user fit their columns, and the id and the email are free. -/
def acceptsUser (A : AuthLibs) (env : RegisterEnv) (req : RegisterRequest) (hash : String)
    (db : Accounts) : Bool :=
  User.schema.check (.new ⟨req.email, hash, req.name, none⟩ env.userId env.userAt) &&
    (db.users.row env.userId).isNone &&
    db.users.rows.all fun u => decide (A.lower u.email ≠ A.lower req.email)

/-- The request passes its checks, and the insertion of the user is executed and accepted. -/
def storesUser (A : AuthLibs) (env : RegisterEnv) (req : RegisterRequest) (db : Accounts) : Bool :=
  (hashPassword A env req).toOption.any fun hash =>
    env.userCall.isRun && acceptsUser A env req hash db

/-- The token of a user in a tenant can be made. -/
def encodes (A : AuthLibs) (secret : String) (env : RegisterEnv) (tokenType : TokenType)
    (now : DateTime) : Bool :=
  (A.jwt.encode (.new env.userId env.tenantId tokenType now) secret).isOk

/-- No step after the insertion of the user fails. -/
def Completes (A : AuthLibs) (secret : String) (env : RegisterEnv) (req : RegisterRequest)
    (db : Accounts) : Prop :=
  env.userCall = .answered ∧
    (env.tenantCall = .answered ∧ hasNul req.personalTenant = false ∧
      db.tenants.row env.tenantId = none) ∧
    env.membershipCall = .answered ∧
    encodes A secret env .access env.accessAt = true ∧
    encodes A secret env .refresh env.refreshAt = true

instance : Decidable (Completes A secret env req db) := inferInstanceAs (Decidable (_ ∧ _))

/-- When the user is stored, nothing fails afterwards. -/
def NoFailureAfterUser (A : AuthLibs) (secret : String) (env : RegisterEnv)
    (req : RegisterRequest) (db : Accounts) : Prop :=
  storesUser A env req db = true → Completes A secret env req db

instance : Decidable (NoFailureAfterUser A secret env req db) :=
  inferInstanceAs (Decidable (_ → _))

lemma isOk_iff {ε α : Type} {x : Except ε α} : x.isOk = true ↔ ∃ a, x = .ok a := by
  cases x <;> simp [Except.isOk, Except.toBool]

/-! ### The steps after the insertion of the user -/

/-- The request has passed its checks. -/
lemma validate_of_hashPassword {hash : String} (h : hashPassword A env req = .ok hash) :
    req.validate A = [] := by
  unfold hashPassword at h
  cases hcheck : checkValid (req.validate A) with
  | error e => rw [hcheck] at h; cases h
  | ok u =>
    unfold checkValid at hcheck
    split at hcheck
    · rename_i hempty
      exact List.isEmpty_iff.1 hempty
    · cases hcheck

/-- The name of the personal tenant fits its column. -/
lemma length_personalTenant (h : req.validate A = []) : req.personalTenant.length ≤ 255 := by
  simp only [RegisterRequest.validate, List.append_eq_nil_iff] at h
  obtain ⟨⟨-, hname⟩, htenant⟩ := h
  unfold RegisterRequest.personalTenant
  cases hreq : req.tenantName with
  | some s =>
    have hs : s.length ≤ 100 := by simpa [hreq] using htenant
    simp only [Option.getD_some]
    omega
  | none =>
    have hs : (req.name.getD "User").length ≤ 100 := by
      cases hn : req.name with
      | none => decide
      | some s => simpa [hn] using hname
    have hsuffix : "'s Workspace".length = 12 := by decide
    rw [Option.getD_none, String.length_append, hsuffix]
    omega

/-- The tenant is accepted. -/
lemma exists_createTenant_iff (hlength : req.personalTenant.length ≤ 255) :
    (∃ tenant db', Tenant.create db ⟨req.personalTenant, .trial⟩ env.tenantId env.tenantAt =
        .ok (tenant, db')) ↔
      hasNul req.personalTenant = false ∧ db.tenants.row env.tenantId = none := by
  have hcheck : Tenant.schema.check (.new ⟨req.personalTenant, .trial⟩ env.tenantId env.tenantAt) =
      !hasNul req.personalTenant := by
    simp [Tenant.schema, Tenant.new, Tenant.plans, TenantPlan.asStr, Tenant.varchar, hlength,
      JsonValue.hasNul, hasNulFields]
  rw [Tenant.exists_create_iff, hcheck, Bool.not_eq_true']

/-- The tokens are made. -/
lemma exists_generateTokens_iff {userId tenantId : Uuid} {accessAt refreshAt : DateTime} :
    (∃ session, generateTokens A secret userId tenantId accessAt refreshAt = .ok session) ↔
      (∃ t, A.jwt.encode (.new userId tenantId .access accessAt) secret = .ok t) ∧
        ∃ t, A.jwt.encode (.new userId tenantId .refresh refreshAt) secret = .ok t := by
  unfold generateTokens createToken
  cases A.jwt.encode (.new userId tenantId .access accessAt) secret with
  | error e => simp [Except.mapError, bind, Except.bind]
  | ok accessToken =>
    cases A.jwt.encode (.new userId tenantId .refresh refreshAt) secret with
    | error e => simp [Except.mapError, bind, Except.bind]
    | ok refreshToken => simp [Except.mapError, bind, Except.bind]

/-- **The steps after the insertion of the user.**  They succeed when none of them fails. -/
lemma exists_createTenant (hlength : req.personalTenant.length ≤ 255)
    (huser : (db.users.row env.userId).isSome = true) (hid : user.id = env.userId) :
    (∃ session db', createTenant A secret env req user db = (.ok session, db')) ↔
      (env.tenantCall = .answered ∧ hasNul req.personalTenant = false ∧
        db.tenants.row env.tenantId = none) ∧
      env.membershipCall = .answered ∧
      encodes A secret env .access env.accessAt = true ∧
      encodes A secret env .refresh env.refreshAt = true := by
  unfold encodes
  rw [isOk_iff, isOk_iff, ← exists_createTenant_iff hlength, ← exists_generateTokens_iff]
  constructor
  · rintro ⟨session, db', h⟩
    obtain ⟨tenant, db₁, htenant, h⟩ := Action.bind_eq_ok h
    obtain ⟨hcall, hcreate⟩ := statement_eq_ok htenant
    obtain ⟨m, db₂, hmembership, h⟩ := Action.bind_eq_ok h
    obtain ⟨hcall', -⟩ := statement_eq_ok hmembership
    obtain ⟨htokens, -⟩ := ofExcept_eq_ok h
    obtain ⟨rfl, -⟩ := Tenant.create_eq_ok hcreate
    rw [hid] at htokens
    exact ⟨⟨hcall, _, _, hcreate⟩, hcall', session, htokens⟩
  · rintro ⟨⟨hcall, tenant, db₁, hcreate⟩, hcall', session, htokens⟩
    obtain ⟨rfl, hfree, hrows, husers, hmemberships⟩ := Tenant.create_eq_ok hcreate
    have hnew : Tenant.new ⟨req.personalTenant, .trial⟩ env.tenantId env.tenantAt ∈
        db₁.tenants.rows := by
      rw [hrows]
      exact List.mem_concat_self
    have hrow : (db₁.tenants.row env.tenantId).isSome = true :=
      Option.isSome_iff_exists.2 ⟨_, Table.row_key_of_mem hnew⟩
    -- no membership refers to the new tenant
    have hunused : ∀ m ∈ db₁.memberships.rows, m.tenantId ≠ env.tenantId := by
      intro m hm heq
      rw [hmemberships] at hm
      have hrefers := (db.refer m hm).2
      rw [heq, hfree] at hrefers
      cases hrefers
    obtain ⟨m, db₂, hmembership⟩ : ∃ m db₂, Membership.create db₁
        ⟨env.tenantId, env.userId, .owner⟩ env.membershipAt = .ok (m, db₂) :=
      Membership.exists_create (by rw [husers]; exact huser) hrow hunused
    refine ⟨session, db₂, ?_⟩
    unfold createTenant
    rw [hcall, hcall', hid, bind_ok (statement_answered hcreate),
      bind_ok (statement_answered hmembership)]
    exact congrArg (·, db₂) htokens

/-- They leave the users alone. -/
lemma keeps_users_createTenant :
    Keeps (fun db => db.users) (createTenant A secret env req user) := by
  refine Keeps.bind (keeps_statement fun db tenant db' h => (Tenant.create_eq_ok h).2.2.2.1) ?_
  intro tenant
  refine Keeps.bind (keeps_statement fun db m db' h => (Membership.create_eq_ok h).2.2.1) ?_
  exact fun m => keeps_ofExcept _ _

/-! ### Atomicity -/

/-- The row of the user is new. -/
lemma createUser_eq_ok {hash : String} (h : createUser A env req hash db = .ok (user, db')) :
    user.id = env.userId ∧ db.users.row env.userId = none ∧
      db'.users.rows = db.users.rows ++ [user] ∧ db'.tenants = db.tenants ∧
      db'.memberships = db.memberships := by
  obtain ⟨rfl, hfresh, hrows, htenants, hmemberships⟩ := User.create_eq_ok h
  exact ⟨rfl, hfresh, hrows, htenants, hmemberships⟩

lemma isOk_createUser {hash : String} :
    (createUser A env req hash db).isOk = acceptsUser A env req hash db := by
  rw [Bool.eq_iff_iff, isOk_iff]
  simp only [Prod.exists, createUser, User.exists_create_iff, acceptsUser, Bool.and_eq_true,
    Option.isNone_iff_eq_none, List.all_eq_true, decide_eq_true_eq, and_assoc]

lemma storesUser_of {hash : String} (hhash : hashPassword A env req = .ok hash) :
    storesUser A env req db = (env.userCall.isRun && (createUser A env req hash db).isOk) := by
  simp [storesUser, hhash, Except.toOption, isOk_createUser]

/-- **Registration is atomic exactly when nothing fails after the insertion of the user.** -/
lemma atomicAt_register_iff :
    AtomicAt (register A secret env req) db ↔ NoFailureAfterUser A secret env req db := by
  unfold register NoFailureAfterUser
  rw [atomicAt_ofExcept_bind]
  cases hhash : hashPassword A env req with
  | error e => simp [storesUser, hhash, Except.toOption]
  | ok hash =>
    rw [storesUser_of hhash]
    simp only [Except.ok.injEq, forall_eq']
    cases hcreate : createUser A env req hash db with
    | error e =>
      -- the user is not accepted
      obtain ⟨e', he'⟩ : ∃ e', statement env.userCall (createUser A env req hash) db =
          (.error e', db) :=
        statement_of_not_stores fun a db' h => by rw [hcreate] at h; cases h
      simp [atomicAt_bind_of_error he', Except.isOk, Except.toBool]
    | ok result =>
      obtain ⟨user, db'⟩ := result
      obtain ⟨hid, hfresh, hrows, htenants, hmemberships⟩ := createUser_eq_ok hcreate
      have hchange : db'.users ≠ db.users := by
        intro heq
        have hlength := congrArg (fun T : UserTable => T.rows.length) heq
        simp [hrows] at hlength
      have hstored : (db'.users.row env.userId).isSome = true := by
        refine Option.isSome_iff_exists.2 ⟨user, Table.row_eq_some_iff.2 ⟨?_, hid⟩⟩
        rw [hrows]
        exact List.mem_concat_self
      have hlength := length_personalTenant (validate_of_hashPassword hhash)
      cases hcall : env.userCall with
      | answered =>
        rw [atomicAt_bind_iff (statement_answered hcreate) hchange keeps_users_createTenant,
          exists_createTenant hlength hstored hid, htenants]
        simp [Completes, hcall, DbCall.isRun, Except.isOk, Except.toBool]
      | notRun e =>
        have hnot : statement (.notRun e) (createUser A env req hash) db = (.error _, db) := rfl
        simp [atomicAt_bind_of_error hnot, DbCall.isRun]
      | replyLost e =>
        have hlost : statement (.replyLost e) (createUser A env req hash) db =
            (.error (.ofDbError (.other e)), db') := by
          simp only [statement, hcreate]
        have hne : db' ≠ db := fun heq => hchange (congrArg Accounts.users heq)
        simp [atomicAt_bind_of_error hlost, Completes, hcall, DbCall.isRun, Except.isOk,
          Except.toBool, hne]

/-! ### Histories of registrations -/

/-- **Inversion of a registration that succeeds.** -/
lemma register_eq_ok {session : Session} (h : register A secret env req db = (.ok session, db')) :
    (∃ user : User, user.id = env.userId ∧ db'.users.rows = db.users.rows ++ [user]) ∧
      db'.memberships.rows = db.memberships.rows ++
        [⟨env.tenantId, env.userId, .owner, env.membershipAt⟩] ∧
      generateTokens A secret env.userId env.tenantId env.accessAt env.refreshAt =
        .ok session := by
  obtain ⟨hash, -, h₀⟩ := ofExcept_bind_eq_ok h
  obtain ⟨user, db₁, huser, h₁⟩ := Action.bind_eq_ok h₀
  obtain ⟨tenant, db₂, htenant, h₂⟩ := Action.bind_eq_ok h₁
  obtain ⟨m, db₃, hmembership, h₃⟩ := Action.bind_eq_ok h₂
  obtain ⟨htokens, rfl⟩ := ofExcept_eq_ok h₃
  obtain ⟨hid, -, hrows, -, hmemberships⟩ := createUser_eq_ok (statement_eq_ok huser).2
  obtain ⟨rfl, -, -, husers', hmemberships'⟩ := Tenant.create_eq_ok (statement_eq_ok htenant).2
  obtain ⟨rfl, hadded, husers'', -⟩ := Membership.create_eq_ok (statement_eq_ok hmembership).2
  rw [hid] at htokens
  refine ⟨⟨user, hid, by rw [husers'', husers', hrows]⟩, ?_, htokens⟩
  rw [hadded, hmemberships', hmemberships, ← hid]
  rfl

/-- The calls of `register`, one after the other, from any state of the database. -/
def machine (A : AuthLibs) (secret : String) :
    Machine Accounts (RegisterEnv × RegisterRequest) where
  Init _ := True
  step db call := some (register A secret call.1 call.2 db).2

/-- Nothing fails after the insertion of a user. -/
def Condition (A : AuthLibs) (secret : String) (db : Accounts)
    (call : RegisterEnv × RegisterRequest) : Prop :=
  NoFailureAfterUser A secret call.1 call.2 db

instance (call : RegisterEnv × RegisterRequest) : Decidable (Condition A secret db call) :=
  inferInstanceAs (Decidable (NoFailureAfterUser A secret call.1 call.2 db))

/-- The users that are not in `db₀` have memberships. -/
def NewUsersAreMembers (db₀ db : Accounts) : Prop :=
  ∀ u ∈ db.users.rows, db₀.users.row u.id = none → ∃ m ∈ db.memberships.rows, m.userId = u.id

/-- **Step lemma.** -/
lemma newUsersAreMembers_register {db₀ : Accounts} (hC : NoFailureAfterUser A secret env req db)
    (h : NewUsersAreMembers db₀ db) :
    NewUsersAreMembers db₀ (register A secret env req db).2 := by
  rcases hresult : register A secret env req db with ⟨e | session, db'⟩
  · obtain rfl := atomicAt_register_iff.2 hC e db' hresult
    exact h
  · obtain ⟨⟨user, hid, husers⟩, hmemberships, -⟩ := register_eq_ok hresult
    intro u hu hnew
    simp only [husers, List.mem_append, List.mem_singleton] at hu
    simp only [hmemberships, List.mem_append, List.mem_singleton]
    rcases hu with hu | rfl
    · obtain ⟨m, hm, hmu⟩ := h u hu hnew
      exact ⟨m, Or.inl hm, hmu⟩
    · exact ⟨_, Or.inr rfl, hid.symm⟩

/-- **Run lemma.** -/
lemma newUsersAreMembers_of_run {db₀ : Accounts} {calls : List (RegisterEnv × RegisterRequest)}
    (h : (machine A secret).Run (Condition A secret) db₀ calls db) : NewUsersAreMembers db₀ db := by
  refine h.preserves (P := NewUsersAreMembers db₀) ?_ ?_
  · intro s call s' hC hs hstep
    cases hstep
    exact newUsersAreMembers_register hC hs
  · intro u hu hnew
    rw [← User.schema_key, Table.row_key_of_mem hu] at hnew
    cases hnew

/-! ### Logins -/

/-- The other internal errors begin otherwise. -/
lemma internalError_append_ne_noMembership {text rest : String} {c : Char} {l : List Char}
    (htext : text.toList = c :: l) (hc : c ≠ 'U') :
    ApiError.internalError (text ++ rest) ≠ noMembership := by
  intro h
  have hhead := congrArg (fun s : String => s.toList.head?) (ApiError.internalError.inj h)
  simp only [String.toList_append, htext] at hhead
  exact hc (Option.some.inj hhead)

lemma ofDbError_ne_noMembership (e : DbError) : ApiError.ofDbError e ≠ noMembership := by
  cases e with
  | constraint name =>
    intro h
    delta ApiError.ofDbError at h
    dsimp only at h
    split at h <;> cases h
  | other message => exact internalError_append_ne_noMembership (c := 'D') rfl (by decide)

/-- No statement fails with this error. -/
lemma statement_ne_noMembership {α : Type} {call : DbCall}
    {stmt : Accounts → Except DbError (α × Accounts)} :
    statement call stmt db ≠ (.error noMembership, db') := by
  intro h
  unfold statement at h
  split at h
  · cases h
  all_goals
    injection h with herror _
    injection herror with herror
    exact ofDbError_ne_noMembership _ herror

/-- The password check does not fail with it. -/
lemma checkPassword_ne_noMembership {password : String} :
    checkPassword A password user ≠ .error noMembership := by
  unfold checkPassword
  split
  · rename_i e _
    intro h
    injection h with h
    exact internalError_append_ne_noMembership (c := 'P') rfl (by decide) h
  · split <;> simp [invalidLogin, noMembership]

lemma ofJwtError_ne_noMembership (e : JwtError) : ApiError.ofJwtError e ≠ noMembership := by
  cases e <;> simp [ApiError.ofJwtError, noMembership]

lemma generateTokens_ne_noMembership {userId tenantId : Uuid} {accessAt refreshAt : DateTime} :
    generateTokens A secret userId tenantId accessAt refreshAt ≠ .error noMembership := by
  unfold generateTokens
  cases createToken A.jwt (.new userId tenantId .access accessAt) secret with
  | error e => simpa [Except.mapError, bind, Except.bind] using ofJwtError_ne_noMembership e
  | ok accessToken =>
    cases createToken A.jwt (.new userId tenantId .refresh refreshAt) secret with
    | error e => simpa [Except.mapError, bind, Except.bind] using ofJwtError_ne_noMembership e
    | ok refreshToken => simp [Except.mapError, bind, Except.bind]

lemma query_eq_ok {α : Type} {call : DbCall} {read : Accounts → Except DbError α} {a : α}
    (h : query call read db = (.ok a, db')) : read db = .ok a ∧ db' = db := by
  obtain ⟨a', hread, heq⟩ := map_eq_ok (statement_eq_ok h).2
  cases heq
  exact ⟨hread, rfl⟩

lemma okOrElse_eq_ok {α : Type} {o : Option α} {e : ApiError} {a : α} (h : okOrElse o e = .ok a) :
    o = some a := by
  cases o with
  | none => cases h
  | some b => cases h; rfl

/-- **A login that fails for want of a membership** has found a user without memberships. -/
lemma login_noMembership {lenv : LoginEnv} {lreq : LoginRequest}
    (h : login A secret lenv lreq db = (.error noMembership, db')) :
    ∃ user, User.findByEmail db lreq.email = .ok (some user) ∧
      ∀ m ∈ db.memberships.rows, m.userId ≠ user.id := by
  rcases ofExcept_bind_eq_error h with hcheck | ⟨_, -, h₀⟩
  · unfold checkValid at hcheck
    split at hcheck <;> cases hcheck
  rcases bind_eq_error h₀ with h₀ | ⟨found, db₁, hfind, h₁⟩
  · exact absurd h₀ statement_ne_noMembership
  obtain ⟨hfound, rfl⟩ := query_eq_ok hfind
  rcases ofExcept_bind_eq_error h₁ with hnone | ⟨user, hsome, h₂⟩
  · cases found <;> cases hnone
  obtain rfl := okOrElse_eq_ok hsome
  rcases ofExcept_bind_eq_error h₂ with hpassword | ⟨_, -, h₃⟩
  · exact absurd hpassword checkPassword_ne_noMembership
  rcases bind_eq_error h₃ with h₃ | ⟨memberships, db₂, hlist, h₄⟩
  · exact absurd h₃ statement_ne_noMembership
  obtain ⟨hmemberships, rfl⟩ := query_eq_ok hlist
  refine ⟨user, hfound, fun m hm hmu => ?_⟩
  -- the list is not empty, so the error has another reason
  rcases ofExcept_bind_eq_error h₄ with hempty | ⟨membership, -, h₅⟩
  · cases memberships with
    | nil =>
      have hmem : m ∈ Membership.listByUser db₂ user.id lenv.ties :=
        (Membership.mem_listByUser _).2 ⟨hm, hmu⟩
      rw [Except.ok.inj hmemberships] at hmem
      cases hmem
    | cons first rest => cases hempty
  rcases bind_eq_error h₅ with h₅ | ⟨_, db₃, -, h₆⟩
  · exact statement_ne_noMembership h₅
  · exact generateTokens_ne_noMembership (ofExcept_eq_error h₆)

/-- **Registration.**  A call that fails leaves the tables as they were exactly when nothing
fails after the insertion of the user; in every history of such calls each new user has a
membership, and a login of this user does not fail for want of one. -/
theorem register_atomic (A : AuthLibs) (secret : String) :
    (∀ env req db, AtomicAt (register A secret env req) db ↔
      NoFailureAfterUser A secret env req db) ∧
      ∀ db₀ calls db, (machine A secret).Run (Condition A secret) db₀ calls db →
        ∀ u ∈ db.users.rows, db₀.users.row u.id = none →
          (∃ m ∈ db.memberships.rows, m.userId = u.id) ∧
            ∀ lenv lreq, User.findByEmail db lreq.email = .ok (some u) →
              (login A secret lenv lreq db).1 ≠ .error noMembership := by
  refine ⟨fun env req db => atomicAt_register_iff, ?_⟩
  intro db₀ calls db hrun u hu hnew
  obtain ⟨m, hm, hmu⟩ := newUsersAreMembers_of_run hrun u hu hnew
  refine ⟨⟨m, hm, hmu⟩, fun lenv lreq hfind hlogin => ?_⟩
  have hcall : login A secret lenv lreq db =
      (.error noMembership, (login A secret lenv lreq db).2) := Prod.ext hlogin rfl
  obtain ⟨user, hfound, hnone⟩ := login_noMembership hcall
  obtain rfl : u = user := by
    rw [hfind] at hfound
    exact Option.some.inj (Except.ok.inj hfound)
  exact hnone m hm hmu

/-! ### Three requests -/

/-- A hash as `argon2` writes it. -/
def sampleHash : String :=
  "$argon2id$v=19$m=65536,t=3,p=4$c2FsdHNhbHRzYWx0$Zm9yIHRoZSBwYXNzd29yZCBvZiBhZGE"

/-- The functions on the texts of the samples. -/
def sampleAuth : AuthLibs where
  password :=
    { hashPassword := fun _ _ => .ok sampleHash
      verifyPassword := fun password _ => .ok (decide (password = "S3cure-password"))
      isUppercase := Char.isUpper
      isLowercase := Char.isLower
      isNumeric := Char.isDigit
      isAlphanumeric := Char.isAlphanum }
  jwt := .sample
  validateEmail email := email.toList.contains '@'
  lower email := String.ofList (email.toList.map Char.toLower)

/-- Everything is answered. -/
def sampleEnv : RegisterEnv where
  salt := "c2FsdHNhbHRzYWx0"
  userId := 1
  tenantId := 2
  userCall := .answered
  tenantCall := .answered
  membershipCall := .answered
  userAt := Libs.sampleTime
  tenantAt := Libs.sampleTime
  membershipAt := Libs.sampleTime
  accessAt := Libs.sampleTime
  refreshAt := Libs.sampleTime

/-- A registration. -/
def sampleRegister : RegisterRequest := ⟨"ada@example.com", "S3cure-password", some "Ada", none⟩

/-- A valid registration whose tenant name Postgres does not store. -/
def nulRegister : RegisterRequest :=
  { sampleRegister with tenantName := some (String.ofList ['A', Char.ofNat 0]) }

/-- The database without rows. -/
def noAccounts : Accounts where
  users := Table.empty User.schema
  tenants := Table.empty Tenant.schema
  memberships := Table.empty Membership.schema
  refer := by simp [Table.empty]

/-- A login with the password of the registration. -/
def sampleLogin : LoginRequest := ⟨"ada@example.com", "S3cure-password"⟩

/-- Its surroundings. -/
def sampleLoginEnv : LoginEnv where
  findCall := .answered
  listCall := .answered
  touchCall := .answered
  ties := []
  touchAt := Libs.sampleTime
  accessAt := Libs.sampleTime
  refreshAt := Libs.sampleTime

/-- The tenant's name is rejected after the user has been stored, who then can neither log in
nor register again. -/
theorem not_atomicAt_nulRegister :
    nulRegister.validate sampleAuth = [] ∧
      ¬ AtomicAt (register sampleAuth sampleSecret sampleEnv nulRegister) noAccounts ∧
      ∃ db, register sampleAuth sampleSecret sampleEnv nulRegister noAccounts =
          (.error (.internalError
            "Database error: invalid byte sequence for encoding \"UTF8\": 0x00"), db) ∧
        db.users.rows.map User.email = ["ada@example.com"] ∧ db.memberships.rows = [] ∧
        (login sampleAuth sampleSecret sampleLoginEnv sampleLogin db).1 = .error noMembership ∧
        (register sampleAuth sampleSecret { sampleEnv with userId := 3 } sampleRegister db).1 =
          .error (.conflict "Email already exists") := by
  have hresult : register sampleAuth sampleSecret sampleEnv nulRegister noAccounts =
      (.error (.internalError
        "Database error: invalid byte sequence for encoding \"UTF8\": 0x00"),
        (register sampleAuth sampleSecret sampleEnv nulRegister noAccounts).2) :=
    Prod.ext (by decide +kernel) rfl
  have husers : (register sampleAuth sampleSecret sampleEnv nulRegister noAccounts).2.users.rows.map
      User.email = ["ada@example.com"] := by decide +kernel
  refine ⟨by decide +kernel, ?_, _, hresult, husers, by decide +kernel, by decide +kernel,
    by decide +kernel⟩
  intro hatomic
  have hsame := congrArg (fun db => db.users.rows.map User.email) (hatomic _ _ hresult)
  rw [husers] at hsame
  cases hsame

/-- A registration that nothing fails in. -/
theorem register_atomic_sample : ∃ db,
    (machine sampleAuth sampleSecret).exec (Condition sampleAuth sampleSecret) noAccounts
        [(sampleEnv, sampleRegister)] = some db ∧
      ∀ u ∈ db.users.rows, ∃ m ∈ db.memberships.rows, m.userId = u.id := by
  have hrun : ((machine sampleAuth sampleSecret).exec (Condition sampleAuth sampleSecret) noAccounts
      [(sampleEnv, sampleRegister)]).isSome = true := by decide +kernel
  obtain ⟨db, hdb⟩ := Option.isSome_iff_exists.1 hrun
  refine ⟨db, hdb, fun u hu => ?_⟩
  exact ((register_atomic sampleAuth sampleSecret).2 noAccounts _ db (Machine.run_of_exec hdb) u hu
    rfl).1

end Registration

end AxonTask.Api
