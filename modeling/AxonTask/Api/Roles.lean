import AxonTask.Api.Router

/-!
# Roles

The handlers behind the router do not look at the memberships.  The roles that a kind of request
asks for are enforced all the same as long as nobody with another role holds a token that can
be accepted.
-/

namespace AxonTask.Api

open Lib Action

/-- The role allows the request to change the database. -/
def ApiRequest.allowedTo (req : ApiRequest) (role : MembershipRole) : Bool :=
  match req with
  | .startTask _ | .cancelTask _ => role.canCreateTasks
  | .createApiKey _ | .revokeApiKey _ => role.canManageApiKeys
  | .getTaskStatus _ | .streamTask _ _ | .resumeTask _ _ | .listApiKeys => false

/-- An owner may do everything. -/
lemma ApiRequest.allowedTo_owner {req : ApiRequest} (h : req.isWrite = true) :
    req.allowedTo .owner = true := by
  cases req with
  | startTask _ | cancelTask _ | createApiKey _ | revokeApiKey _ => rfl
  | getTaskStatus _ | streamTask _ _ | resumeTask _ _ | listApiKeys => cases h

namespace Roles

open Sessions Router

variable {A : AuthLibs} {secret : String} {L : Libs} {allowed : MembershipRole → Bool}
  {s s' : AuthState} {w : World} {req : ApiRequest}

/-! ### The law -/

/-- The user of the request has a membership in its tenant, with a role that allows it. -/
def Permitted (w : World) (auth : AuthContext) (req : ApiRequest) : Prop :=
  ∃ userId m, auth.userId = some userId ∧
    w.auth.accounts.memberships.row (auth.tenantId, userId) = some m ∧ req.allowedTo m.role = true

/-- When the request changes the database, it is permitted at that moment. -/
def Enforced (A : AuthLibs) (secret : String) (L : Libs) (w : World) (req : ApiRequest) : Prop :=
  ∀ env now header r db, w.auth.now ≤ now →
    (∀ token, bearerToken header = .ok token → Genuine A secret w.auth token now) →
    route A secret L env now header req w.database = some (r, db) → db ≠ w.database →
    ∃ auth, jwtAuthLayer A secret header now = .ok auth ∧ Permitted w auth req

/-! ### The condition -/

/-- In the tenant the user has a role that is allowed. -/
def hasRole (allowed : MembershipRole → Bool) (db : Accounts) (tenantId userId : Uuid) : Bool :=
  (db.memberships.row (tenantId, userId)).any fun m => allowed m.role

/-- The token can still be accepted. -/
def Live (s : AuthState) (i : Issued) : Prop := timestamp s.now ≤ i.claims.exp + 60

/-- No token of the user in the tenant can be accepted any more. -/
def AllExpired (s : AuthState) (tenantId userId : Uuid) : Prop :=
  ∀ i ∈ s.issued, i.claims.tenantId = tenantId → i.claims.sub = userId → ¬ Live s i

/-- Sessions are opened for users with an allowed role, who keep such a role while they have
tokens. -/
def Respects (A : AuthLibs) (secret : String) (allowed : MembershipRole → Bool) (s : AuthState) :
    AuthOp → Prop
  | .login env req =>
    (login A secret env req s.accounts).1.toOption.all fun session =>
      hasRole allowed s.accounts session.tenantId session.userId
  | .updateRole tenantId userId role => allowed role = true ∨ AllExpired s tenantId userId
  | .deleteMembership tenantId userId => AllExpired s tenantId userId
  | .register _ _ | .refresh _ _ _ | .createMembership _ _ => True

/-- The condition on a step of a history. -/
def Condition (A : AuthLibs) (secret : String) (allowed : MembershipRole → Bool) (w : World)
    (op : WorldOp) : Prop :=
  Honest A secret w op ∧
    match op with
    | .auth op => Respects A secret allowed w.auth op
    | .request _ _ _ _ | .wait _ => True

instance (s : AuthState) (i : Issued) : Decidable (Live s i) :=
  inferInstanceAs (Decidable (_ ≤ _))

instance (s : AuthState) (tenantId userId : Uuid) : Decidable (AllExpired s tenantId userId) :=
  inferInstanceAs (Decidable (∀ i ∈ s.issued, _ → _ → ¬ Live s i))

instance (A : AuthLibs) (secret : String) (s : AuthState) :
    ∀ op, Decidable (Respects A secret allowed s op)
  | .login env req => inferInstanceAs (Decidable ((login A secret env req s.accounts).1.toOption.all
      (fun session => hasRole allowed s.accounts session.tenantId session.userId) = true))
  | .updateRole tenantId userId role =>
    inferInstanceAs (Decidable (allowed role = true ∨ AllExpired s tenantId userId))
  | .deleteMembership tenantId userId =>
    inferInstanceAs (Decidable (AllExpired s tenantId userId))
  | .register _ _ | .refresh _ _ _ | .createMembership _ _ => isTrue trivial

instance (A : AuthLibs) (secret : String) (w : World) :
    ∀ op, Decidable (Condition A secret allowed w op)
  | .auth op =>
    inferInstanceAs (Decidable (Honest A secret w (.auth op) ∧ Respects A secret allowed w.auth op))
  | .request env now header req =>
    inferInstanceAs (Decidable (Honest A secret w (.request env now header req) ∧ True))
  | .wait now => inferInstanceAs (Decidable (Honest A secret w (.wait now) ∧ True))

/-! ### What the calls do to the memberships -/

lemma hasRole_iff {db : Accounts} {tenantId userId : Uuid} :
    hasRole allowed db tenantId userId = true ↔
      ∃ m, db.memberships.row (tenantId, userId) = some m ∧ allowed m.role = true :=
  Option.any_eq_true _ _

/-- The memberships of the first database are among those of the second. -/
def KeepsMembers (db db' : Accounts) : Prop := db.memberships.rows ⊆ db'.memberships.rows

lemma KeepsMembers.of_eq {db db' : Accounts} (h : db'.memberships = db.memberships) :
    KeepsMembers db db' := by
  rw [KeepsMembers, h]
  exact List.Subset.refl _

lemma KeepsMembers.hasRole {db db' : Accounts} (h : KeepsMembers db db') {tenantId userId : Uuid}
    (hm : hasRole allowed db tenantId userId = true) :
    hasRole allowed db' tenantId userId = true := by
  obtain ⟨m, hrow, hrole⟩ := hasRole_iff.1 hm
  obtain ⟨hmem, hkey⟩ := Table.row_eq_some_iff.1 hrow
  exact hasRole_iff.2 ⟨m, Table.row_eq_some_iff.2 ⟨h hmem, hkey⟩, hrole⟩

/-- A registration keeps the memberships. -/
lemma keepsMembers_register (env : RegisterEnv) (req : RegisterRequest) :
    Within KeepsMembers (register A secret env req) := by
  have hrefl : ∀ db, KeepsMembers db db := fun db => List.Subset.refl _
  have htrans : ∀ db₁ db₂ db₃, KeepsMembers db₁ db₂ → KeepsMembers db₂ db₃ → KeepsMembers db₁ db₃ :=
    fun _ _ _ => List.Subset.trans
  refine Within.bind htrans (within_ofExcept hrefl _) fun hash => ?_
  refine Within.bind htrans (within_statement hrefl ?_) fun user => ?_
  · intro db user db' h
    exact .of_eq (Registration.createUser_eq_ok h).2.2.2.2
  refine Within.bind htrans (within_statement hrefl ?_) fun tenant => ?_
  · intro db tenant db' h
    exact .of_eq (Tenant.create_eq_ok h).2.2.2.2
  refine Within.bind htrans (within_statement hrefl ?_) fun m => within_ofExcept hrefl _
  intro db m db' h
  rw [KeepsMembers, (Membership.create_eq_ok h).2.1]
  exact List.subset_append_left _ _

/-- A login leaves them as they are. -/
lemma keeps_memberships_login (env : LoginEnv) (req : LoginRequest) :
    Keeps (fun db => db.memberships) (login A secret env req) := by
  have hquery {α : Type} (call : DbCall) (read : Accounts → Except DbError α) :
      Keeps (fun db => db.memberships) (query call read) := by
    refine keeps_statement fun db a db' h => ?_
    obtain ⟨a', -, heq⟩ := map_eq_ok h
    cases heq
    rfl
  refine Keeps.bind (keeps_ofExcept _ _) fun _ => ?_
  refine Keeps.bind (hquery _ _) fun found => ?_
  refine Keeps.bind (keeps_ofExcept _ _) fun user => ?_
  refine Keeps.bind (keeps_ofExcept _ _) fun _ => ?_
  refine Keeps.bind (hquery _ _) fun memberships => ?_
  refine Keeps.bind (keeps_ofExcept _ _) fun membership => ?_
  refine Keeps.bind (keeps_statement fun db u db' h => ?_) fun _ => keeps_ofExcept _ _
  exact User.memberships_updateLastLogin h

/-- The roles after a change of a role. -/
lemma hasRole_updateRole {db db' : Accounts} {tenantId userId t u : Uuid} {role : MembershipRole}
    {o : Option Membership} (h : Membership.updateRole db tenantId userId role = .ok (o, db')) :
    hasRole allowed db' t u =
      if t = tenantId ∧ u = userId then (db.memberships.row (t, u)).isSome && allowed role
      else hasRole allowed db t u := by
  unfold Membership.updateRole at h
  split at h
  · cases h
  · rename_i memberships hupdate
    cases h
    simp only [hasRole, Table.row_update (Table.update_of_updateKey hupdate)]
    cases hrow : db.memberships.row (t, u) with
    | none => simp
    | some m =>
      obtain ⟨rfl, rfl⟩ : m.tenantId = t ∧ m.userId = u := by simpa using Table.key_of_row hrow
      by_cases hnamed : m.tenantId = tenantId ∧ m.userId = userId <;> simp [hnamed]

/-- A change of a role is always accepted. -/
lemma exists_updateRole (db : Accounts) (tenantId userId : Uuid) (role : MembershipRole) :
    ∃ o db', Membership.updateRole db tenantId userId role = .ok (o, db') := by
  unfold Membership.updateRole
  split
  · rename_i v hrejected
    obtain ⟨m, -, -, hcheck⟩ := Table.updateKey_eq_error hrejected
    cases hcheck
  · exact ⟨_, _, rfl⟩

/-- The roles after a deletion. -/
lemma hasRole_delete {db : Accounts} {tenantId userId t u : Uuid} :
    hasRole allowed (Membership.delete db tenantId userId).2 t u =
      if t = tenantId ∧ u = userId then false else hasRole allowed db t u := by
  simp only [hasRole, Membership.delete, Table.row_delete]
  cases hrow : db.memberships.row (t, u) with
  | none => simp
  | some m =>
    obtain ⟨rfl, rfl⟩ : m.tenantId = t ∧ m.userId = u := by simpa using Table.key_of_row hrow
    by_cases hnamed : m.tenantId = tenantId ∧ m.userId = userId
    · simp [hnamed]
    · rw [if_neg hnamed, Option.filter_some, if_pos (by simpa [imp_iff_not_or] using hnamed)]

/-! ### The invariant -/

/-- Whoever has a token that can be accepted has an allowed role. -/
def HoldersAllowed (allowed : MembershipRole → Bool) (s : AuthState) : Prop :=
  ∀ i ∈ s.issued, Live s i → hasRole allowed s.accounts i.claims.tenantId i.claims.sub = true

/-- A registration or a login. -/
lemma holdersAllowed_openSession (hi : HoldersAllowed allowed s) {accessAt refreshAt : DateTime}
    (hnow : s.now ≤ refreshAt) {result : Except ApiError Session × Accounts}
    (hkept : ∀ t u, hasRole allowed s.accounts t u = true → hasRole allowed result.2 t u = true)
    (hnew : ∀ session, result.1 = .ok session →
      hasRole allowed result.2 session.tenantId session.userId = true) :
    HoldersAllowed allowed (openSession s accessAt refreshAt result) := by
  obtain ⟨e | session, db⟩ := result
  · intro i hmem hlive
    exact hkept _ _ (hi i hmem ((timestamp_mono hnow).trans hlive))
  · intro i hmem hlive
    rcases List.mem_append.1 hmem with hold | hadded
    · exact hkept _ _ (hi i hold ((timestamp_mono hnow).trans hlive))
    · rcases List.mem_cons.1 hadded with rfl | hadded
      · exact hnew session rfl
      · obtain rfl := List.mem_singleton.1 hadded
        exact hnew session rfl

/-- A refresh, whose token belongs to a user with an allowed role. -/
lemma holdersAllowed_renew (hJ : A.jwt.Documented) (htraced : Invariant A secret s)
    (hi : HoldersAllowed allowed s) {refreshToken : String} {validatedAt issuedAt : DateTime}
    (hnow : s.now ≤ validatedAt) (hgenuine : Genuine A secret s refreshToken validatedAt) :
    ∀ i ∈ renew A secret s.accounts refreshToken validatedAt issuedAt,
      hasRole allowed s.accounts i.claims.tenantId i.claims.sub = true := by
  intro i hnew
  have hsource : i.source = .renewal refreshToken validatedAt := by
    unfold renew at hnew
    split at hnew
    · obtain rfl := List.mem_singleton.1 hnew
      rfl
    · cases hnew
  obtain ⟨-, o, ho, -, -, -, hsub, htenant, hvalid⟩ :=
    (traced_renew hJ htraced hgenuine i hnew).renewal _ _ hsource
  rw [← hsub, ← htenant]
  exact hi o ho ((timestamp_mono hnow).trans hvalid)

/-- **Step lemma.** -/
lemma holdersAllowed_of_step (hJ : A.jwt.Documented) (howner : allowed .owner = true)
    (htraced : Invariant A secret s)
    (hi : HoldersAllowed allowed s) {op : AuthOp} (hC : Sessions.Honest A secret s op)
    (hR : Respects A secret allowed s op) (h : Sessions.step A secret s op = some s') :
    HoldersAllowed allowed s' := by
  cases op with
  | register env req =>
    cases h
    refine holdersAllowed_openSession hi (hC.1.trans hC.2)
      (fun t u => (keepsMembers_register env req s.accounts).hasRole) fun session hsession => ?_
    exact hasRole_iff.2 ⟨_, row_of_register (Prod.ext hsession rfl), howner⟩
  | login env req =>
    cases h
    have hsame : (login A secret env req s.accounts).2.memberships = s.accounts.memberships :=
      keeps_memberships_login env req s.accounts
    refine holdersAllowed_openSession hi (hC.1.trans hC.2)
      (fun t u => (KeepsMembers.of_eq hsame).hasRole) fun session hsession => ?_
    refine (KeepsMembers.of_eq hsame).hasRole ?_
    simpa [Respects, hsession, Except.toOption] using hR
  | refresh refreshToken validatedAt issuedAt =>
    cases h
    intro i hmem hlive
    rcases List.mem_append.1 hmem with hold | hadded
    · exact hi i hold ((timestamp_mono (hC.1.1.trans hC.1.2)).trans hlive)
    · exact holdersAllowed_renew hJ htraced hi hC.1.1 hC.2 i hadded
  | createMembership data createdAt =>
    simp only [Sessions.step] at h
    split at h
    · rename_i m accounts hcreate
      cases h
      intro i hmem hlive
      have hkept : KeepsMembers s.accounts accounts := by
        rw [KeepsMembers, (Membership.create_eq_ok hcreate).2.1]
        exact List.subset_append_left _ _
      exact hkept.hasRole (hi i hmem hlive)
    · cases h
      exact hi
  | updateRole tenantId userId role =>
    simp only [Sessions.step] at h
    split at h
    · rename_i m accounts hupdate
      cases h
      intro i hmem hlive
      have hheld := hi i hmem hlive
      rw [hasRole_updateRole hupdate]
      split
      · rename_i hnamed
        obtain ⟨m, hrow, -⟩ := hasRole_iff.1 hheld
        rw [hrow, hR.resolve_right fun hexpired => hexpired i hmem hnamed.1 hnamed.2 hlive]
        rfl
      · exact hheld
    · cases h
      exact hi
  | deleteMembership tenantId userId =>
    cases h
    intro i hmem hlive
    have hother : ¬(i.claims.tenantId = tenantId ∧ i.claims.sub = userId) := fun hnamed =>
      hR i hmem hnamed.1 hnamed.2 hlive
    rw [hasRole_delete, if_neg hother]
    exact hi i hmem hlive

/-- **Run lemma.** -/
lemma holdersAllowed_of_reachable (hJ : A.jwt.Documented) (howner : allowed .owner = true)
    (h : (machine A secret L).Reachable (Condition A secret allowed) w) :
    Invariant A secret w.auth ∧ HoldersAllowed allowed w.auth := by
  refine h.invariant (P := fun w => Invariant A secret w.auth ∧ HoldersAllowed allowed w.auth) ?_ ?_
  · intro w hinit
    refine ⟨Sessions.invariant_of_reachable hJ (Machine.Reachable.init hinit), ?_⟩
    intro i hmem
    rw [show w.auth.issued = [] from hinit] at hmem
    cases hmem
  · rintro w op w' ⟨hC, hR⟩ ⟨htraced, hi⟩ hstep
    cases op with
    | auth op =>
      obtain ⟨auth, hauth, rfl⟩ := Option.map_eq_some_iff.1 hstep
      exact ⟨invariant_of_step hJ htraced hC hauth,
        holdersAllowed_of_step hJ howner htraced hi hC hR hauth⟩
    | request env now header req =>
      obtain ⟨⟨r, db⟩, -, rfl⟩ := Option.map_eq_some_iff.1 hstep
      exact ⟨htraced, fun i hmem hlive => hi i hmem ((timestamp_mono hC).trans hlive)⟩
    | wait now =>
      cases hstep
      exact ⟨htraced, fun i hmem hlive => hi i hmem ((timestamp_mono hC).trans hlive)⟩

lemma not_allExpired_iff {tenantId userId : Uuid} :
    ¬ AllExpired s tenantId userId ↔ ∃ i ∈ s.issued, i.claims.tenantId = tenantId ∧
      i.claims.sub = userId ∧ Live s i := by
  simp only [AllExpired, not_forall, not_not, exists_prop]

/-- After a step that does not meet the condition, somebody without an allowed role has a token
that can be accepted. -/
lemma exists_live_of_not_respects {op : AuthOp} (hR : ¬ Respects A secret allowed s op)
    (h : Sessions.step A secret s op = some s') :
    ∃ i ∈ s'.issued, Live s' i ∧
      hasRole allowed s'.accounts i.claims.tenantId i.claims.sub = false := by
  cases op with
  | login env req =>
    cases h
    cases hlogin : login A secret env req s.accounts with
    | mk result db =>
      cases result with
      | error e => exact absurd (by simp [Respects, hlogin, Except.toOption]) hR
      | ok session =>
        have hsame : (login A secret env req s.accounts).2.memberships = s.accounts.memberships :=
          keeps_memberships_login env req s.accounts
        simp only [hlogin] at hsame
        refine ⟨_, List.mem_append_right _ (.tail _ (.head _)), ?_, ?_⟩
        · simp only [Live, openSession, issue, Claims.new, timestamp_add,
            TokenType.defaultExpiration]
          omega
        · simpa [Respects, hlogin, Except.toOption, hasRole, openSession, issue, Claims.new,
            hsame] using hR
  | updateRole tenantId userId role =>
    obtain ⟨hrole, hexpired⟩ := not_or.1 hR
    obtain ⟨i, hmem, htenant, huser, hlive⟩ := not_allExpired_iff.1 hexpired
    obtain ⟨o, db, hupdate⟩ := exists_updateRole s.accounts tenantId userId role
    simp only [Sessions.step, hupdate] at h
    cases h
    refine ⟨i, hmem, hlive, ?_⟩
    rw [hasRole_updateRole hupdate, if_pos ⟨htenant, huser⟩, Bool.eq_false_iff.2 hrole,
      Bool.and_false]
  | deleteMembership tenantId userId =>
    cases h
    obtain ⟨i, hmem, htenant, huser, hlive⟩ := not_allExpired_iff.1 hR
    exact ⟨i, hmem, hlive, by rw [hasRole_delete, if_pos ⟨htenant, huser⟩]⟩
  | register env req => exact absurd trivial hR
  | refresh refreshToken validatedAt issuedAt => exact absurd trivial hR
  | createMembership data createdAt => exact absurd trivial hR

/-! ### What somebody without an allowed role can do -/

/-- What is relied on besides: claims can be turned into a token, which can stand in a header and
is accepted from then until 60 seconds after its expiration; the times are read as unsigned. -/
structure Accepts (A : AuthLibs) (secret : String) : Prop where
  encode : ∀ claims, ∃ token, A.jwt.encode claims secret = .ok token
  visible : ∀ {claims token}, A.jwt.encode claims secret = .ok token → Visible token
  decode : ∀ {claims token} {now : ℤ}, A.jwt.encode claims secret = .ok token →
    claims.iss = "axontask" → 0 ≤ claims.nbf → claims.nbf ≤ claims.exp → claims.nbf ≤ now →
      now ≤ claims.exp + 60 → A.jwt.decode token secret now = .ok claims

/-- The tokens were made before the last reading of the clock. -/
def Past (s : AuthState) : Prop := ∀ i ∈ s.issued, i.issuedAt ≤ s.now

lemma past_openSession (hi : Past s) {accessAt refreshAt : DateTime} (haccess : s.now ≤ accessAt)
    (hrefresh : accessAt ≤ refreshAt) (result : Except ApiError Session × Accounts) :
    Past (openSession s accessAt refreshAt result) := by
  obtain ⟨e | session, db⟩ := result
  · exact fun i hmem => (hi i hmem).trans (haccess.trans hrefresh)
  · intro i hmem
    rcases List.mem_append.1 hmem with hold | hadded
    · exact (hi i hold).trans (haccess.trans hrefresh)
    · rcases List.mem_cons.1 hadded with rfl | hadded
      · exact hrefresh
      · obtain rfl := List.mem_singleton.1 hadded
        exact le_rfl

lemma past_of_step {op : AuthOp} (hi : Past s) (hC : Sessions.Honest A secret s op)
    (h : Sessions.step A secret s op = some s') : Past s' := by
  cases op with
  | register env req =>
    cases h
    exact past_openSession hi hC.1 hC.2 _
  | login env req =>
    cases h
    exact past_openSession hi hC.1 hC.2 _
  | refresh refreshToken validatedAt issuedAt =>
    cases h
    intro i hmem
    rcases List.mem_append.1 hmem with hold | hadded
    · exact (hi i hold).trans (hC.1.1.trans hC.1.2)
    · unfold renew at hadded
      split at hadded
      · obtain rfl := List.mem_singleton.1 hadded
        exact le_rfl
      · cases hadded
  | createMembership data createdAt =>
    simp only [Sessions.step] at h
    split at h <;> cases h <;> exact hi
  | updateRole tenantId userId role =>
    simp only [Sessions.step] at h
    split at h <;> cases h <;> exact hi
  | deleteMembership tenantId userId =>
    cases h
    exact hi

lemma past_of_reachable (h : (machine A secret L).Reachable (Honest A secret) w) : Past w.auth := by
  refine h.invariant (P := fun w => Past w.auth) ?_ ?_
  · intro w hinit i hmem
    rw [show w.auth.issued = [] from hinit] at hmem
    cases hmem
  · intro w op w' hC hi hstep
    cases op with
    | auth op =>
      obtain ⟨auth, hauth, rfl⟩ := Option.map_eq_some_iff.1 hstep
      exact past_of_step hi hC hauth
    | request env now header req =>
      obtain ⟨⟨r, db⟩, -, rfl⟩ := Option.map_eq_some_iff.1 hstep
      exact fun i hmem => (hi i hmem).trans hC
    | wait now =>
      cases hstep
      exact fun i hmem => (hi i hmem).trans hC

/-- A token that has just been made, or that can be accepted, is accepted. -/
lemma validateToken_of_live (hA : Accepts A secret) {userId tenantId : Uuid}
    {tokenType : TokenType} {issuedAt now : DateTime} {token : String}
    (hencode : A.jwt.encode (.new userId tenantId tokenType issuedAt) secret = .ok token)
    (hsince : 0 ≤ timestamp issuedAt) (hpast : issuedAt ≤ now)
    (hlive : timestamp now ≤ (Claims.new userId tenantId tokenType issuedAt).exp + 60) :
    validateToken A.jwt token secret now = .ok (.new userId tenantId tokenType issuedAt) := by
  have hexp : timestamp issuedAt ≤ (Claims.new userId tenantId tokenType issuedAt).exp := by
    simp only [Claims.new, timestamp_add]
    cases tokenType <;> simp only [TokenType.defaultExpiration] <;> omega
  have hdecode : A.jwt.decode token secret (timestamp now) =
      .ok (.new userId tenantId tokenType issuedAt) :=
    hA.decode hencode rfl hsince hexp (timestamp_mono hpast) hlive
  simp [validateToken, hdecode, Except.mapError]

/-- Who has a token that can be accepted has an access token, if necessary after a refresh. -/
lemma exists_access (hA : Accepts A secret) (htraced : Invariant A secret w.auth)
    (hpast : Past w.auth) {i : Issued} (hmem : i ∈ w.auth.issued)
    (hsince : 0 ≤ timestamp i.issuedAt) (hlive : Live w.auth i) :
    ∃ l w', (machine A secret L).Run (Honest A secret) w l w' ∧
      w'.auth.accounts = w.auth.accounts ∧
      ∃ token claims, validateAccessToken A.jwt token secret w'.auth.now = .ok claims ∧
        Visible token ∧ (∃ i' ∈ w'.auth.issued, i'.token = token) ∧
        claims.sub = i.claims.sub ∧ claims.tenantId = i.claims.tenantId := by
  obtain ⟨hencoded, hclaims, -, -⟩ := htraced i hmem
  have hvalid : validateToken A.jwt i.token secret w.auth.now = .ok i.claims := by
    rw [hclaims] at hencoded ⊢
    exact validateToken_of_live hA hencoded hsince (hpast i hmem) (hclaims ▸ hlive)
  cases htype : i.claims.tokenType with
  | access =>
    refine ⟨[], w, Machine.Run.nil w, rfl, i.token, i.claims, ?_, hA.visible hencoded,
      ⟨i, hmem, rfl⟩, rfl, rfl⟩
    simp [validateAccessToken, hvalid, htype]
  | refresh =>
    obtain ⟨token, hencode⟩ :=
      hA.encode (.new i.claims.sub i.claims.tenantId .access w.auth.now)
    have hrefresh : validateRefreshToken A.jwt i.token secret w.auth.now = .ok i.claims := by
      simp [validateRefreshToken, hvalid, htype]
    have hrenew : refresh A secret i.token w.auth.now w.auth.now = .ok token := by
      simp [refresh, refreshAccessToken, hrefresh, createToken, hencode, Except.mapError]
    have hstep : ∃ w', (machine A secret L).step w
        (.auth (.refresh i.token w.auth.now w.auth.now)) = some w' ∧
        w'.auth.accounts = w.auth.accounts ∧ w'.auth.now = w.auth.now ∧
        ∃ i' ∈ w'.auth.issued, i'.token = token := by
      refine ⟨_, rfl, rfl, rfl, issue w.auth.accounts token
        (.new i.claims.sub i.claims.tenantId .access w.auth.now) w.auth.now
        (.renewal i.token w.auth.now), List.mem_append_right _ ?_, rfl⟩
      simp [renew, hrefresh, hrenew]
    obtain ⟨w', hstep, haccounts, hnow, hissued⟩ := hstep
    have hhonest : Honest A secret w (.auth (.refresh i.token w.auth.now w.auth.now)) :=
      ⟨⟨le_rfl, le_rfl⟩, fun _ => ⟨i, hmem, rfl⟩⟩
    have hexp : timestamp w.auth.now ≤
        (Claims.new i.claims.sub i.claims.tenantId .access w.auth.now).exp + 60 := by
      simp only [Claims.new, timestamp_add, TokenType.defaultExpiration]
      omega
    have hnew := validateToken_of_live hA hencode
      (hsince.trans (timestamp_mono (hpast i hmem))) le_rfl hexp
    have hpass : validateAccessToken A.jwt token secret w'.auth.now =
        .ok (.new i.claims.sub i.claims.tenantId .access w.auth.now) := by
      rw [hnow, validateAccessToken, hnew]
      rfl
    exact ⟨_, w', Machine.Run.single hhonest hstep, haccounts, token, _, hpass, hA.visible hencode,
      hissued, rfl, rfl⟩

/-- After a step that does not meet the condition, somebody without an allowed role gets through
the layer. -/
lemma exists_unpermitted_of_not_respects (hJ : A.jwt.Documented) (hA : Accepts A secret)
    (h : (machine A secret L).Reachable (Honest A secret) w) {op : AuthOp} {w' : World}
    (hC : Honest A secret w (.auth op)) (hR : ¬ Respects A secret req.allowedTo w.auth op)
    (hstep : (machine A secret L).step w (.auth op) = some w')
    (hsince : ∀ i ∈ w'.auth.issued, 0 ≤ timestamp i.issuedAt) :
    ∃ l w'' header auth, (machine A secret L).Run (Honest A secret) w' l w'' ∧
      jwtAuthLayer A secret header w''.auth.now = .ok auth ∧ ¬ Permitted w'' auth req ∧
      ∀ env r db, route A secret L env w''.auth.now header req w''.database = some (r, db) →
        db ≠ w''.database → ¬ Enforced A secret L w'' req := by
  have hreach : (machine A secret L).Reachable (Honest A secret) w' :=
    h.run (Machine.Run.single (C := Router.Honest A secret) hC hstep)
  obtain ⟨auth, hauth, rfl⟩ := Option.map_eq_some_iff.1 hstep
  obtain ⟨i, hmem, hlive, hrole⟩ := exists_live_of_not_respects hR hauth
  obtain ⟨l, w'', hrun, haccounts, token, claims, hvalid, hvisible, hissued, hsub, htenant⟩ :=
    exists_access (L := L) hA (invariant_of_reachable hJ hreach) (past_of_reachable hreach) hmem
      (hsince i hmem) hlive
  have hpass := jwtAuthLayer_bearer hvisible hvalid
  have hnot : ¬ Permitted w'' (.fromJwt claims.sub claims.tenantId) req := by
    rintro ⟨userId, m, huser, hrow, hallowed⟩
    obtain rfl : claims.sub = userId := Option.some.inj huser
    have hheld : hasRole req.allowedTo w''.auth.accounts claims.tenantId claims.sub = true :=
      hasRole_iff.2 ⟨m, hrow, hallowed⟩
    rw [haccounts, hsub, htenant, hrole] at hheld
    cases hheld
  refine ⟨l, w'', bearer token, _, hrun, hpass, hnot, ?_⟩
  intro env r db hroute hchange henforced
  obtain ⟨auth', hpass', hpermitted⟩ := henforced env _ _ r db le_rfl
    (fun t ht _ => by
      rw [bearerToken_bearer hvisible] at ht
      cases ht
      exact hissued) hroute hchange
  rw [hpass] at hpass'
  obtain rfl := Except.ok.inj hpass'
  exact hnot hpermitted

/-- **The role that a request asks for is enforced while nobody with another role has a token
that can be accepted.**  A step that does not meet the condition puts one into such hands; who
has it gets through the layer, and breaks the law by every request that changes the database. -/
theorem enforced_of_respects (hJ : A.jwt.Documented) (req : ApiRequest) :
    (∀ w, (machine A secret L).Reachable (Condition A secret req.allowedTo) w →
      Enforced A secret L w req) ∧
      (∀ s op s', ¬ Respects A secret req.allowedTo s op → Sessions.step A secret s op = some s' →
        ∃ i ∈ s'.issued, Live s' i ∧
          hasRole req.allowedTo s'.accounts i.claims.tenantId i.claims.sub = false) ∧
      (Accepts A secret → ∀ w op w', (machine A secret L).Reachable (Honest A secret) w →
        Honest A secret w (.auth op) → ¬ Respects A secret req.allowedTo w.auth op →
        (machine A secret L).step w (.auth op) = some w' →
        (∀ i ∈ w'.auth.issued, 0 ≤ timestamp i.issuedAt) →
        ∃ l w'' header auth, (machine A secret L).Run (Honest A secret) w' l w'' ∧
          jwtAuthLayer A secret header w''.auth.now = .ok auth ∧ ¬ Permitted w'' auth req ∧
          ∀ env r db, route A secret L env w''.auth.now header req w''.database = some (r, db) →
            db ≠ w''.database → ¬ Enforced A secret L w'' req) := by
  refine ⟨fun w h => ?_, fun s op s' hR hstep => exists_live_of_not_respects hR hstep,
    fun hA w op w' h hC hR hstep hsince =>
      exists_unpermitted_of_not_respects hJ hA h hC hR hstep hsince⟩
  intro env now header r db hnow hgenuine hroute hchange
  rcases route_cases hroute with heq | ⟨⟨auth, hadmit⟩, hwrite, -⟩
  · exact absurd heq hchange
  · obtain ⟨htraced, hholders⟩ :=
      holdersAllowed_of_reachable hJ (ApiRequest.allowedTo_owner hwrite) h
    obtain ⟨i, hmem, -, -, rfl, hlive⟩ := exists_issued_of_jwtAuthLayer hJ htraced hgenuine hadmit
    obtain ⟨m, hrow, hrole⟩ := hasRole_iff.1 (hholders i hmem ((timestamp_mono hnow).trans hlive))
    exact ⟨_, hadmit, _, m, rfl, hrow, hrole⟩

/-! ### An owner, and a member who becomes a viewer -/

/-- A request of the first user that adds a row changes the database of an empty world. -/
lemma exists_route_changes {w : World} (htasks : w.tasks.rows = []) (hkeys : w.apiKeys.rows = [])
    {req : ApiRequest} {n k : ℕ} (h : rowsAfter w req = some (n, k)) (hadds : n + k = 1) :
    ∃ r db, route Registration.sampleAuth sampleSecret .sample requestSurroundings Libs.sampleTime
        (bearer sampleAccess) req w.database = some (r, db) ∧ db.tasks.rows.length = n ∧
      db.apiKeys.rows.length = k ∧ db ≠ w.database := by
  obtain ⟨r, db, hroute, hn, hk⟩ := exists_route_of_rowsAfter h
  refine ⟨r, db, hroute, hn, hk, ?_⟩
  rintro rfl
  rw [show w.database.tasks = w.tasks from rfl, htasks] at hn
  rw [show w.database.apiKeys = w.apiKeys from rfl, hkeys] at hk
  subst hn hk
  cases hadds

/-- The first user has become a viewer, who may neither start tasks nor manage keys, and does
both. -/
theorem viewer_starts_task : ∃ w,
    (machine Registration.sampleAuth sampleSecret .sample).Reachable
        (Honest Registration.sampleAuth sampleSecret) w ∧
      w.auth.accounts.memberships.rows = [⟨2, 1, .viewer, Libs.sampleTime⟩] ∧
      MembershipRole.viewer.canCreateTasks = false ∧
      MembershipRole.viewer.canManageApiKeys = false ∧
      ¬ Enforced Registration.sampleAuth sampleSecret .sample w
        (.startTask QuotaRace.sampleRequest) ∧
      ¬ Enforced Registration.sampleAuth sampleSecret .sample w (.createApiKey sampleKeyRequest) ∧
      w.tasks.rows = [] ∧ w.apiKeys.rows = [] ∧
      (∃ r db, route Registration.sampleAuth sampleSecret .sample requestSurroundings
          Libs.sampleTime (bearer sampleAccess) (.startTask QuotaRace.sampleRequest) w.database =
          some (r, db) ∧ db.tasks.rows.length = 1) ∧
      ∃ r db, route Registration.sampleAuth sampleSecret .sample requestSurroundings
          Libs.sampleTime (bearer sampleAccess) (.createApiKey sampleKeyRequest) w.database =
          some (r, db) ∧ db.apiKeys.rows.length = 1 := by
  have hrun : ((machine Registration.sampleAuth sampleSecret .sample).exec
      (Honest Registration.sampleAuth sampleSecret) Router.start
      [registration, .auth (.updateRole 2 1 .viewer)]).map observe =
      some ⟨Libs.sampleTime, [⟨2, 1, .viewer, Libs.sampleTime⟩], [sampleAccess, sampleRefresh], 0,
        0, some (1, 0), some (0, 1)⟩ := by decide +kernel
  obtain ⟨w, hw, hobs⟩ := Option.map_eq_some_iff.1 hrun
  simp only [observe, Observed.mk.injEq, List.length_eq_zero_iff] at hobs
  obtain ⟨hnow, hmemberships, htokens, htasks, hkeys, hstart, hcreate⟩ := hobs
  obtain ⟨r, db, hroute, hn, -, hchange⟩ := exists_route_changes htasks hkeys hstart rfl
  obtain ⟨r', db', hroute', -, hk, hchange'⟩ := exists_route_changes htasks hkeys hcreate rfl
  -- the only membership is that of a viewer
  have hviewer : ∀ auth req, jwtAuthLayer Registration.sampleAuth sampleSecret
      (bearer sampleAccess) Libs.sampleTime = .ok auth → Permitted w auth req →
      req.allowedTo .viewer = true := by
    rintro auth req - ⟨userId, m, -, hrow, hrole⟩
    have hmem := Table.mem_of_row hrow
    rw [hmemberships, List.mem_singleton] at hmem
    rwa [hmem] at hrole
  refine ⟨w, ⟨Router.start, _, rfl, Machine.run_of_exec hw⟩, hmemberships, rfl, rfl, ?_, ?_,
    htasks, hkeys, ⟨r, db, hroute, hn⟩, r', db', hroute', hk⟩
  · intro henforced
    obtain ⟨auth, hadmit, hpermitted⟩ := henforced _ _ _ r db hnow.le
      (fun token => genuine_sampleAccess htokens) hroute hchange
    cases hviewer auth _ hadmit hpermitted
  · intro henforced
    obtain ⟨auth, hadmit, hpermitted⟩ := henforced _ _ _ r' db' hnow.le
      (fun token => genuine_sampleAccess htokens) hroute' hchange'
    cases hviewer auth _ hadmit hpermitted

/-- The first user, an owner since the registration, starts a task. -/
theorem enforced_of_respects_owner : ∃ w,
    (machine Registration.sampleAuth sampleSecret .sample).exec
        (Condition Registration.sampleAuth sampleSecret MembershipRole.canCreateTasks) Router.start
        [registration] = some w ∧
      ∃ auth, jwtAuthLayer Registration.sampleAuth sampleSecret (bearer sampleAccess)
          Libs.sampleTime = .ok auth ∧ Permitted w auth (.startTask QuotaRace.sampleRequest) := by
  have hrun : ((machine Registration.sampleAuth sampleSecret .sample).exec
      (Condition Registration.sampleAuth sampleSecret MembershipRole.canCreateTasks) Router.start
      [registration]).map observe =
      some ⟨Libs.sampleTime, [⟨2, 1, .owner, Libs.sampleTime⟩], [sampleAccess, sampleRefresh], 0,
        0, some (1, 0), some (0, 1)⟩ := by decide +kernel
  obtain ⟨w, hw, hobs⟩ := Option.map_eq_some_iff.1 hrun
  simp only [observe, Observed.mk.injEq, List.length_eq_zero_iff] at hobs
  obtain ⟨hnow, -, htokens, htasks, hkeys, hstart, -⟩ := hobs
  obtain ⟨r, db, hroute, -, -, hchange⟩ := exists_route_changes htasks hkeys hstart rfl
  refine ⟨w, hw, ?_⟩
  exact (enforced_of_respects (A := Registration.sampleAuth) (L := .sample)
    JwtLib.documented_sample (.startTask QuotaRace.sampleRequest)).1 w
    ⟨Router.start, _, rfl, Machine.run_of_exec hw⟩ _ _ _ r db hnow.le
    (fun token => genuine_sampleAccess htokens) hroute hchange

end Roles

end AxonTask.Api
