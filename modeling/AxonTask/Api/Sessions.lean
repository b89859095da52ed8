import AxonTask.Api.Registration

/-!
# Sessions

The tokens that `register`, `login` and `refresh` return over time.  A refresh token comes from
a registration or a login only, and a refresh does not return another one; so an access token
descends through at most one refresh from a registration or a login, and the two lifetimes
bound the time at which it is accepted.
-/

namespace AxonTask.Api

open Lib Action

namespace Sessions

/-! ### The machine -/

/-- Where a token comes from. -/
inductive Source
  /-- A registration or a login. -/
  | session
  /-- A refresh, for which a token was validated at a time. -/
  | renewal (refreshToken : String) (validatedAt : DateTime)
deriving DecidableEq, Repr

/-- A token that a call has returned. -/
structure Issued where
  token : String
  claims : Claims
  /-- The time at which the claims were made. -/
  issuedAt : DateTime
  source : Source
  /-- The membership of the user in the tenant, as it is stored at the end of the call. -/
  membership : Option Membership
deriving DecidableEq, Repr

/-- The accounts, the tokens so far and the last reading of the clock. -/
structure AuthState where
  accounts : Accounts
  issued : List Issued
  now : DateTime

/-- A call of a public endpoint, or a statement on the memberships. -/
inductive AuthOp
  | register (env : RegisterEnv) (req : RegisterRequest)
  | login (env : LoginEnv) (req : LoginRequest)
  | refresh (refreshToken : String) (validatedAt issuedAt : DateTime)
  | createMembership (data : CreateMembership) (createdAt : DateTime)
  | updateRole (tenantId userId : Uuid) (role : MembershipRole)
  | deleteMembership (tenantId userId : Uuid)

/-- The token of a user in a tenant. -/
def issue (db : Accounts) (token : String) (claims : Claims) (issuedAt : DateTime)
    (source : Source) : Issued :=
  ⟨token, claims, issuedAt, source, db.memberships.row (claims.tenantId, claims.sub)⟩

/-- The state after a registration or a login. -/
def openSession (s : AuthState) (accessAt refreshAt : DateTime) :
    Except ApiError Session × Accounts → AuthState
  | (.ok session, accounts) =>
    { accounts
      issued := s.issued ++
        [issue accounts session.accessToken
            (.new session.userId session.tenantId .access accessAt) accessAt .session,
          issue accounts session.refreshToken
            (.new session.userId session.tenantId .refresh refreshAt) refreshAt .session]
      now := refreshAt }
  | (.error _, accounts) => { s with accounts, now := refreshAt }

/-- The access token that a refresh returns. -/
def renew (A : AuthLibs) (secret : String) (db : Accounts) (refreshToken : String)
    (validatedAt issuedAt : DateTime) : List Issued :=
  match validateRefreshToken A.jwt refreshToken secret validatedAt,
    refresh A secret refreshToken validatedAt issuedAt with
  | .ok refreshClaims, .ok token =>
    [issue db token (.new refreshClaims.sub refreshClaims.tenantId .access issuedAt) issuedAt
      (.renewal refreshToken validatedAt)]
  | _, _ => []

/-- One call or statement. -/
def step (A : AuthLibs) (secret : String) (s : AuthState) : AuthOp → Option AuthState
  | .register env req =>
    some (openSession s env.accessAt env.refreshAt (register A secret env req s.accounts))
  | .login env req =>
    some (openSession s env.accessAt env.refreshAt (login A secret env req s.accounts))
  | .refresh refreshToken validatedAt issuedAt =>
    some
      { s with
        issued := s.issued ++ renew A secret s.accounts refreshToken validatedAt issuedAt
        now := issuedAt }
  | .createMembership data createdAt =>
    match Membership.create s.accounts data createdAt with
    | .ok (_, accounts) => some { s with accounts }
    | .error _ => some s
  | .updateRole tenantId userId role =>
    match Membership.updateRole s.accounts tenantId userId role with
    | .ok (_, accounts) => some { s with accounts }
    | .error _ => some s
  | .deleteMembership tenantId userId =>
    some { s with accounts := (Membership.delete s.accounts tenantId userId).2 }

/-- Any history, from any accounts and without tokens. -/
def machine (A : AuthLibs) (secret : String) : Machine AuthState AuthOp where
  Init s := s.issued = []
  step := step A secret

/-- A token that is accepted was returned by a call. -/
def Genuine (A : AuthLibs) (secret : String) (s : AuthState) (token : String) (now : DateTime) :
    Prop :=
  (A.jwt.decode token secret (timestamp now)).isOk = true → ∃ i ∈ s.issued, i.token = token

/-- The clock does not go back, and no token is forged. -/
def Honest (A : AuthLibs) (secret : String) (s : AuthState) : AuthOp → Prop
  | .register env _ => s.now ≤ env.accessAt ∧ env.accessAt ≤ env.refreshAt
  | .login env _ => s.now ≤ env.accessAt ∧ env.accessAt ≤ env.refreshAt
  | .refresh refreshToken validatedAt issuedAt =>
    (s.now ≤ validatedAt ∧ validatedAt ≤ issuedAt) ∧
      Genuine A secret s refreshToken validatedAt
  | _ => True

instance (A : AuthLibs) (secret : String) (s : AuthState) (token : String) (now : DateTime) :
    Decidable (Genuine A secret s token now) := inferInstanceAs (Decidable (_ → _))

instance (A : AuthLibs) (secret : String) (s : AuthState) :
    ∀ op, Decidable (Honest A secret s op)
  | .register env _ | .login env _ =>
    inferInstanceAs (Decidable (s.now ≤ env.accessAt ∧ env.accessAt ≤ env.refreshAt))
  | .refresh refreshToken validatedAt issuedAt =>
    inferInstanceAs (Decidable ((s.now ≤ validatedAt ∧ validatedAt ≤ issuedAt) ∧
      Genuine A secret s refreshToken validatedAt))
  | .createMembership _ _ | .updateRole _ _ _ | .deleteMembership _ _ => isTrue trivial

variable {A : AuthLibs} {secret : String} {s s' : AuthState}

/-! ### What a login returns -/

lemma generateTokens_eq_ok {userId tenantId : Uuid} {accessAt refreshAt : DateTime}
    {session : Session}
    (h : generateTokens A secret userId tenantId accessAt refreshAt = .ok session) :
    session.userId = userId ∧ session.tenantId = tenantId ∧
      A.jwt.encode (.new userId tenantId .access accessAt) secret = .ok session.accessToken ∧
      A.jwt.encode (.new userId tenantId .refresh refreshAt) secret = .ok session.refreshToken := by
  unfold generateTokens at h
  obtain ⟨accessToken, haccess, h⟩ := bind_eq_ok.1 h
  obtain ⟨refreshToken, hrefresh, h⟩ := bind_eq_ok.1 h
  cases h
  exact ⟨rfl, rfl, createToken_eq_ok (mapError_eq_ok.1 haccess),
    createToken_eq_ok (mapError_eq_ok.1 hrefresh)⟩

/-- Whoever has registered is the owner of the new tenant. -/
lemma row_of_register {env : RegisterEnv} {req : RegisterRequest} {db db' : Accounts}
    {session : Session} (h : register A secret env req db = (.ok session, db')) :
    db'.memberships.row (session.tenantId, session.userId) =
      some ⟨env.tenantId, env.userId, .owner, env.membershipAt⟩ := by
  obtain ⟨-, hmemberships, htokens⟩ := Registration.register_eq_ok h
  obtain ⟨huser, htenant, -⟩ := generateTokens_eq_ok htokens
  rw [huser, htenant]
  refine Table.row_eq_some_iff.2 ⟨?_, rfl⟩
  rw [hmemberships]
  exact List.mem_concat_self

/-- **Inversion of a login that succeeds.** -/
lemma login_eq_ok {env : LoginEnv} {req : LoginRequest} {db db' : Accounts} {session : Session}
    (h : login A secret env req db = (.ok session, db')) :
    db'.memberships = db.memberships ∧
      (∃ m ∈ db.memberships.rows, m.userId = session.userId ∧ m.tenantId = session.tenantId) ∧
      generateTokens A secret session.userId session.tenantId env.accessAt env.refreshAt =
        .ok session := by
  obtain ⟨_, -, h₀⟩ := ofExcept_bind_eq_ok h
  obtain ⟨found, db₁, hfind, h₁⟩ := Action.bind_eq_ok h₀
  obtain ⟨-, rfl⟩ := Registration.query_eq_ok hfind
  obtain ⟨user, -, h₂⟩ := ofExcept_bind_eq_ok h₁
  obtain ⟨_, -, h₃⟩ := ofExcept_bind_eq_ok h₂
  obtain ⟨memberships, db₂, hlist, h₄⟩ := Action.bind_eq_ok h₃
  obtain ⟨hmemberships, rfl⟩ := Registration.query_eq_ok hlist
  obtain ⟨membership, hfirst, h₅⟩ := ofExcept_bind_eq_ok h₄
  obtain ⟨_, db₃, htouch, h₆⟩ := Action.bind_eq_ok h₅
  obtain ⟨htokens, rfl⟩ := ofExcept_eq_ok h₆
  have hmem : membership ∈ memberships := List.mem_of_head? (Registration.okOrElse_eq_ok hfirst)
  rw [← Except.ok.inj hmemberships, Membership.mem_listByUser] at hmem
  obtain ⟨huserId, htenantId, -⟩ := generateTokens_eq_ok htokens
  refine ⟨User.memberships_updateLastLogin (statement_eq_ok htouch).2, ⟨membership, hmem.1, ?_, ?_⟩,
    ?_⟩
  · rw [huserId, hmem.2]
  · rw [htenantId]
  · rwa [huserId, htenantId]

/-! ### Where the tokens come from -/

/-- What is known of a token, given the tokens that were returned before it. -/
structure Traced (A : AuthLibs) (secret : String) (issued : List Issued) (i : Issued) : Prop where
  encoded : A.jwt.encode i.claims secret = .ok i.token
  claims : i.claims = .new i.claims.sub i.claims.tenantId i.claims.tokenType i.issuedAt
  session : i.source = .session →
    ∃ m, i.membership = some m ∧ m.userId = i.claims.sub ∧ m.tenantId = i.claims.tenantId
  renewal : ∀ refreshToken validatedAt, i.source = .renewal refreshToken validatedAt →
    i.claims.tokenType = .access ∧
      ∃ o ∈ issued, o.token = refreshToken ∧ o.source = .session ∧
        o.claims.tokenType = .refresh ∧ o.claims.sub = i.claims.sub ∧
        o.claims.tenantId = i.claims.tenantId ∧ timestamp validatedAt ≤ o.claims.exp + 60

lemma Traced.mono {issued issued' : List Issued} {i : Issued} (h : Traced A secret issued i)
    (hsub : issued ⊆ issued') : Traced A secret issued' i where
  encoded := h.encoded
  claims := h.claims
  session := h.session
  renewal refreshToken validatedAt hsource := by
    obtain ⟨htype, o, ho, hrest⟩ := h.renewal refreshToken validatedAt hsource
    exact ⟨htype, o, hsub ho, hrest⟩

/-- All tokens are traced. -/
def Invariant (A : AuthLibs) (secret : String) (s : AuthState) : Prop :=
  ∀ i ∈ s.issued, Traced A secret s.issued i

/-- A registration or a login adds tokens of its own. -/
lemma traced_openSession {accessAt refreshAt : DateTime}
    {result : Except ApiError Session × Accounts}
    (h : ∀ session db, result = (.ok session, db) →
      generateTokens A secret session.userId session.tenantId accessAt refreshAt = .ok session ∧
        (db.memberships.row (session.tenantId, session.userId)).isSome = true) :
    ∃ new, (openSession s accessAt refreshAt result).issued = s.issued ++ new ∧
      ∀ i ∈ new, Traced A secret s.issued i := by
  obtain ⟨e | session, db⟩ := result
  · exact ⟨[], by simp [openSession], by simp⟩
  · obtain ⟨htokens, hmember⟩ := h session db rfl
    obtain ⟨-, -, haccess, hrefresh⟩ := generateTokens_eq_ok htokens
    obtain ⟨m, hm⟩ := Option.isSome_iff_exists.1 hmember
    have hkey := Table.key_of_row hm
    rw [Membership.schema_key, Prod.mk.injEq] at hkey
    refine ⟨_, rfl, ?_⟩
    intro i hi
    rcases List.mem_cons.1 hi with rfl | hi
    · exact ⟨haccess, rfl, fun _ => ⟨m, hm, hkey.2, hkey.1⟩, fun _ _ hsource => by cases hsource⟩
    · obtain rfl := List.mem_singleton.1 hi
      exact ⟨hrefresh, rfl, fun _ => ⟨m, hm, hkey.2, hkey.1⟩, fun _ _ hsource => by cases hsource⟩

/-- A refresh adds an access token for the user and the tenant of the refresh token. -/
lemma traced_renew (hJ : A.jwt.Documented) (hi : Invariant A secret s) {refreshToken : String}
    {validatedAt issuedAt : DateTime} (hgenuine : Genuine A secret s refreshToken validatedAt) :
    ∀ i ∈ renew A secret s.accounts refreshToken validatedAt issuedAt,
      Traced A secret s.issued i := by
  intro i hnew
  unfold renew at hnew
  split at hnew
  · rename_i refreshClaims token hvalid hrefresh
    obtain rfl := List.mem_singleton.1 hnew
    obtain ⟨hdecode, htype⟩ := validateRefreshToken_eq_ok hvalid
    obtain ⟨c, hdecode', -, hencode⟩ := refreshAccessToken_eq_ok (mapError_eq_ok.1 hrefresh)
    obtain rfl : refreshClaims = c := Except.ok.inj (hdecode.symm.trans hdecode')
    refine ⟨hencode, rfl, (fun hsource => by cases hsource), ?_⟩
    intro rt v hsource
    obtain ⟨rfl, rfl⟩ : refreshToken = rt ∧ validatedAt = v := Source.renewal.inj hsource
    obtain ⟨o, ho, htoken⟩ := hgenuine (by rw [hdecode]; rfl)
    have htraced := hi o ho
    have hclaims : refreshClaims = o.claims := hJ.roundTrip htraced.encoded (htoken ▸ hdecode)
    have hleeway := hJ.leeway hdecode
    refine ⟨rfl, o, ho, htoken, ?_, hclaims ▸ htype, hclaims ▸ rfl, hclaims ▸ rfl,
      hclaims ▸ hleeway⟩
    -- a refresh does not return refresh tokens
    cases horigin : o.source with
    | session => rfl
    | renewal rt v =>
      have haccess := (htraced.renewal rt v horigin).1
      rw [← hclaims, htype] at haccess
      cases haccess
  · cases hnew

/-- A call adds traced tokens. -/
lemma traced_of_step (hJ : A.jwt.Documented) (hi : Invariant A secret s) {op : AuthOp}
    (hC : Honest A secret s op) (h : step A secret s op = some s') :
    ∃ new, s'.issued = s.issued ++ new ∧ ∀ i ∈ new, Traced A secret s.issued i := by
  have hnone : ∃ new : List Issued, s.issued = s.issued ++ new ∧
      ∀ i ∈ new, Traced A secret s.issued i := ⟨[], by simp, by simp⟩
  cases op with
  | register env req =>
    cases h
    refine traced_openSession fun session db hresult => ?_
    obtain ⟨-, -, htokens⟩ := Registration.register_eq_ok hresult
    obtain ⟨huser, htenant, -, -⟩ := generateTokens_eq_ok htokens
    refine ⟨by rwa [huser, htenant], Option.isSome_iff_exists.2 ⟨_, row_of_register hresult⟩⟩
  | login env req =>
    cases h
    refine traced_openSession fun session db hresult => ?_
    obtain ⟨hmemberships, ⟨m, hm, huser, htenant⟩, htokens⟩ := login_eq_ok hresult
    refine ⟨htokens, Option.isSome_iff_exists.2 ⟨m, Table.row_eq_some_iff.2 ⟨?_, ?_⟩⟩⟩
    · rwa [hmemberships]
    · rw [Membership.schema_key, huser, htenant]
  | refresh refreshToken validatedAt issuedAt =>
    cases h
    exact ⟨_, rfl, traced_renew hJ hi hC.2⟩
  | createMembership data createdAt =>
    simp only [step] at h
    split at h <;> cases h <;> exact hnone
  | updateRole tenantId userId role =>
    simp only [step] at h
    split at h <;> cases h <;> exact hnone
  | deleteMembership tenantId userId =>
    cases h
    exact hnone

/-- **Step lemma.** -/
lemma invariant_of_step (hJ : A.jwt.Documented) (hi : Invariant A secret s) {op : AuthOp}
    (hC : Honest A secret s op) (h : step A secret s op = some s') : Invariant A secret s' := by
  obtain ⟨new, hissued, hnew⟩ := traced_of_step hJ hi hC h
  have hsub : s.issued ⊆ s'.issued := by
    rw [hissued]
    exact List.subset_append_left _ _
  intro i hmem
  rw [hissued] at hmem
  rcases List.mem_append.1 hmem with hold | hadded
  · exact (hi i hold).mono hsub
  · exact (hnew i hadded).mono hsub

/-- **Run lemma.** -/
lemma invariant_of_reachable (hJ : A.jwt.Documented)
    (h : (machine A secret).Reachable (Honest A secret) s) : Invariant A secret s := by
  refine h.invariant (P := Invariant A secret) ?_ fun s op s' hC hi hs =>
    invariant_of_step hJ hi hC hs
  intro s hinit i hmem
  rw [show s.issued = [] from hinit] at hmem
  cases hmem

/-! ### What an accepted token descends from -/

/-- The token `i` was returned by the registration or the login that returned `o`, or by a
refresh with the token `o` that this call returned. -/
structure Descends (i o : Issued) : Prop where
  session : o.source = .session
  sub : i.claims.sub = o.claims.sub
  tenantId : i.claims.tenantId = o.claims.tenantId
  through : i = o ∨ ∃ validatedAt, i.source = .renewal o.token validatedAt

/-- The time that passed in the refresh, in whole seconds, from the validation of the refresh
token to the making of the new claims. -/
def renewalGap (i : Issued) : ℤ :=
  match i.source with
  | .session => 0
  | .renewal _ validatedAt => timestamp i.issuedAt - timestamp validatedAt

/-- Thirty days, a day, and twice the leeway of a minute. -/
def sessionBound : ℤ := 30 * 24 * 3600 + 24 * 3600 + 120

lemma exp_eq {issued : List Issued} {i : Issued} (h : Traced A secret issued i) :
    i.claims.exp = timestamp i.issuedAt + i.claims.tokenType.defaultExpiration := by
  have hexp := congrArg Claims.exp h.claims
  simp only [Claims.new, timestamp_add] at hexp
  exact hexp

/-- A returned access token descends from a registration or a login, and it is accepted within
the bound. -/
lemma exists_descends (hi : Invariant A secret s) {i : Issued} (hmem : i ∈ s.issued)
    (htype : i.claims.tokenType = .access) : ∃ o ∈ s.issued, Descends i o ∧
      i.claims.exp + 60 ≤ timestamp o.issuedAt + sessionBound + renewalGap i := by
  have htraced := hi i hmem
  have hexp := exp_eq htraced
  rw [htype] at hexp
  unfold renewalGap sessionBound
  cases hsource : i.source with
  | session =>
    refine ⟨i, hmem, ⟨hsource, rfl, rfl, Or.inl rfl⟩, ?_⟩
    simp only [TokenType.defaultExpiration] at hexp ⊢
    omega
  | renewal refreshToken validatedAt =>
    obtain ⟨-, o, ho, rfl, hsession, hrefresh, hsub, htenant, hvalid⟩ :=
      htraced.renewal refreshToken validatedAt hsource
    have hexp' := exp_eq (hi o ho)
    rw [hrefresh] at hexp'
    refine ⟨o, ho, ⟨hsession, hsub.symm, htenant.symm, Or.inr ⟨_, hsource⟩⟩, ?_⟩
    simp only [TokenType.defaultExpiration] at hexp hexp' ⊢
    omega

/-- A request that the layer admits carries a returned access token. -/
lemma exists_issued_of_jwtAuthLayer (hJ : A.jwt.Documented) (hi : Invariant A secret s)
    {header : Option Bytes} {t : DateTime} {ctx : AuthContext}
    (hgenuine : ∀ token, bearerToken header = .ok token → Genuine A secret s token t)
    (h : jwtAuthLayer A secret header t = .ok ctx) :
    ∃ i ∈ s.issued, bearerToken header = .ok i.token ∧ i.claims.tokenType = .access ∧
      ctx = .fromJwt i.claims.sub i.claims.tenantId ∧ timestamp t ≤ i.claims.exp + 60 := by
  unfold jwtAuthLayer at h
  split at h
  · cases h
  · rename_i token htoken
    split at h
    · cases h
    · rename_i claims hvalid
      cases h
      obtain ⟨hdecode, htype⟩ := validateAccessToken_eq_ok hvalid
      obtain ⟨i, hmem, rfl⟩ := hgenuine token htoken (by rw [hdecode]; rfl)
      obtain rfl : claims = i.claims := hJ.roundTrip (hi i hmem).encoded hdecode
      exact ⟨i, hmem, htoken, htype, rfl, hJ.leeway hdecode⟩

/-- **The bound of a session.**  An access token that the layer accepts descends, through at
most one refresh, from a registration or a login for the same user and tenant, and it is
accepted at most 30 days, 24 hours and 120 seconds after that call issued its token, not
counting the time between the two readings of the clock in the refresh; and a refresh with an
access token fails. -/
theorem session_bound (hJ : A.jwt.Documented)
    (h : (machine A secret).Reachable (Honest A secret) s) :
    (∀ header t ctx, (∀ token, bearerToken header = .ok token → Genuine A secret s token t) →
      jwtAuthLayer A secret header t = .ok ctx →
        ∃ i ∈ s.issued, ∃ o ∈ s.issued, bearerToken header = .ok i.token ∧ Descends i o ∧
          ctx = .fromJwt o.claims.sub o.claims.tenantId ∧
          timestamp t ≤ timestamp o.issuedAt + sessionBound + renewalGap i) ∧
      ∀ i ∈ s.issued, i.claims.tokenType = .access →
        ∀ now later token, refresh A secret i.token now later ≠ .ok token := by
  have hi := invariant_of_reachable hJ h
  constructor
  · intro header t ctx hgenuine hadmit
    obtain ⟨i, hmem, htoken, htype, rfl, ht⟩ :=
      exists_issued_of_jwtAuthLayer hJ hi hgenuine hadmit
    obtain ⟨o, ho, hdescends, hbound⟩ := exists_descends hi hmem htype
    refine ⟨i, hmem, o, ho, htoken, hdescends, ?_, ht.trans hbound⟩
    rw [hdescends.sub, hdescends.tenantId]
  · intro i hmem htype now later token hrefresh
    obtain ⟨c, hdecode, hc, -⟩ := refreshAccessToken_eq_ok (mapError_eq_ok.1 hrefresh)
    obtain rfl : c = i.claims := hJ.roundTrip (hi i hmem).encoded hdecode
    rw [htype] at hc
    cases hc

/-! ### A long session -/

/-- Nothing has been registered. -/
def start : AuthState := ⟨Registration.noAccounts, [], Libs.sampleTime⟩

/-- A registration, and a refresh in the last second in which the token is accepted; the new
claims are made in the next second. -/
def longSession : List AuthOp :=
  [.register Registration.sampleEnv Registration.sampleRegister,
    .refresh sampleRefresh (sampleLater - 10 ^ 9) sampleLater]

/-- The last time at which the new access token is accepted. -/
def lastAccess : DateTime := sampleLater + (24 * 3600 + 60) * 10 ^ 9

lemma visible_sampleHead : Visible sampleHead :=
  (Visible.append (by decide +kernel) (by decide +kernel)).append (by decide +kernel)

lemma visible_sampleAccess : Visible sampleAccess :=
  (((visible_sampleHead.append (by decide +kernel)).append (by decide +kernel)).append
    (by decide +kernel)).append (by decide +kernel)

lemma visible_sampleAccessLater : Visible sampleAccessLater :=
  (((visible_sampleHead.append (by decide +kernel)).append (by decide +kernel)).append
    (by decide +kernel)).append (by decide +kernel)

/-- The tokens of this session. -/
def longSessionTokens : List Issued :=
  let membership : Option Membership := some ⟨2, 1, .owner, Libs.sampleTime⟩
  [⟨sampleAccess, .new 1 2 .access Libs.sampleTime, Libs.sampleTime, .session, membership⟩,
    ⟨sampleRefresh, .new 1 2 .refresh Libs.sampleTime, Libs.sampleTime, .session, membership⟩,
    ⟨sampleAccessLater, .new 1 2 .access sampleLater, sampleLater,
      .renewal sampleRefresh (sampleLater - 10 ^ 9), membership⟩]

/-- The session is run. -/
lemma exists_longSession : ∃ s,
    (machine Registration.sampleAuth sampleSecret).Reachable
        (Honest Registration.sampleAuth sampleSecret) s ∧ s.issued = longSessionTokens := by
  have hrun : ((machine Registration.sampleAuth sampleSecret).exec
      (Honest Registration.sampleAuth sampleSecret) start longSession).map AuthState.issued =
      some longSessionTokens := by decide +kernel
  obtain ⟨s, hs, hissued⟩ := Option.map_eq_some_iff.1 hrun
  exact ⟨s, ⟨start, _, rfl, Machine.run_of_exec hs⟩, hissued⟩

/-- The new access token is admitted for the last time. -/
lemma jwtAuthLayer_lastAccess :
    jwtAuthLayer Registration.sampleAuth sampleSecret (bearer sampleAccessLater) lastAccess =
      .ok (.fromJwt 1 2) := by
  have hvalid : validateAccessToken Registration.sampleAuth.jwt sampleAccessLater sampleSecret
      lastAccess = .ok (.new 1 2 .access sampleLater) := by decide +kernel
  exact jwtAuthLayer_bearer visible_sampleAccessLater hvalid

lemma genuine_longSession {s : AuthState} (h : s.issued = longSessionTokens) {token : String}
    (htoken : bearerToken (bearer sampleAccessLater) = .ok token) :
    Genuine Registration.sampleAuth sampleSecret s token lastAccess := by
  intro _
  rw [bearerToken_bearer visible_sampleAccessLater] at htoken
  cases htoken
  rw [h]
  exact ⟨_, .tail _ (.tail _ (.head _)), rfl⟩

/-- The access token is accepted a second after the lifetimes and leeways have passed. -/
theorem late_access_longSession : ∃ s,
    (machine Registration.sampleAuth sampleSecret).Reachable
        (Honest Registration.sampleAuth sampleSecret) s ∧
      (∀ token, bearerToken (bearer sampleAccessLater) = .ok token →
        Genuine Registration.sampleAuth sampleSecret s token lastAccess) ∧
      jwtAuthLayer Registration.sampleAuth sampleSecret (bearer sampleAccessLater) lastAccess =
        .ok (.fromJwt 1 2) ∧
      ∀ o ∈ s.issued, o.source = .session →
        timestamp o.issuedAt + sessionBound < timestamp lastAccess := by
  obtain ⟨s, hreach, hissued⟩ := exists_longSession
  refine ⟨s, hreach, fun token => genuine_longSession hissued, jwtAuthLayer_lastAccess, ?_⟩
  rw [hissued]
  intro o ho hsource
  simp only [longSessionTokens, List.mem_cons, List.not_mem_nil, or_false] at ho
  have hlate : timestamp Libs.sampleTime + sessionBound < timestamp lastAccess := by decide
  rcases ho with rfl | rfl | rfl
  · exact hlate
  · exact hlate
  · cases hsource

/-- Of this session, the second that passed in the refresh is to be counted. -/
theorem session_bound_longSession : ∃ s,
    (machine Registration.sampleAuth sampleSecret).Reachable
        (Honest Registration.sampleAuth sampleSecret) s ∧
      ∃ i ∈ s.issued, ∃ o ∈ s.issued,
        bearerToken (bearer sampleAccessLater) = .ok i.token ∧ Descends i o ∧
          AuthContext.fromJwt 1 2 = .fromJwt o.claims.sub o.claims.tenantId ∧
          timestamp lastAccess ≤ timestamp o.issuedAt + sessionBound + renewalGap i := by
  obtain ⟨s, hreach, hissued⟩ := exists_longSession
  exact ⟨s, hreach, (session_bound (A := Registration.sampleAuth) JwtLib.documented_sample hreach).1
    _ _ _ (fun token => genuine_longSession hissued) jwtAuthLayer_lastAccess⟩

end Sessions

end AxonTask.Api
