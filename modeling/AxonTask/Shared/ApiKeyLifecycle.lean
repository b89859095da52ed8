import AxonTask.Lib.Machine
import AxonTask.Shared.ApiKey
import AxonTask.Shared.EventFields

/-!
# The life of an API key (`models/api_key.rs`, `auth/middleware.rs` of `axontask-shared`)

`ApiKey::validate` decides by one row whether a plaintext key is good; what it is good for is
a statement about the whole history of the key.  The machine of the calls on `api_keys`
keeps that history, and a key turns out to be good exactly when a call created it, no later
call deleted or revoked its row, and it has not expired.
-/

namespace AxonTask

open Lib

namespace ApiKey

/-- `ApiKey::is_expired`. -/
def isExpired (k : ApiKey) (now : DateTime) : Bool :=
  match k.expiresAt with
  | some expiresAt => decide (expiresAt < now)
  | none => false

/-- The WHERE clause of `ApiKey::validate`. -/
def isGood (keyHash : String) (now : DateTime) (k : ApiKey) : Bool :=
  decide (k.keyHash = keyHash) && !k.revoked && k.expiresAt.all fun t => decide (now < t)

/-- The SET list of `ApiKey::validate`. -/
def touch (now : DateTime) (k : ApiKey) : ApiKey := { k with lastUsedAt := some now }

/-- `ApiKey::validate`. -/
def validate (L : Libs) (T : ApiKeyTable) (plaintextKey : String) (now : DateTime) :
    Except Violation (Option ApiKey × ApiKeyTable) :=
  let isGood := isGood (hashKey L plaintextKey) now
  (T.update isGood (touch now) fun _ => rfl).map fun T' =>
    ((T.rows.find? isGood).map (touch now), T')

lemma validate_eq_ok {L : Libs} {T T' : ApiKeyTable} {k : String} {now : DateTime}
    {o : Option ApiKey} (h : validate L T k now = .ok (o, T')) :
    T.update (isGood (hashKey L k) now) (touch now) (fun _ => rfl) = .ok T' ∧
      o = (T.rows.find? (isGood (hashKey L k) now)).map (touch now) := by
  obtain ⟨T₁, hupdate, hT⟩ := map_eq_ok h
  cases hT
  exact ⟨hupdate, rfl⟩

lemma key_revoke (now : DateTime) (k : ApiKey) : schema.key (revoke now k) = schema.key k := rfl

/-- `ApiKey::revoke`. -/
def revokeById (T : ApiKeyTable) (id : Uuid) (now : DateTime) :
    Except Violation (Bool × ApiKeyTable) :=
  (T.updateKey id (fun _ => true) (revoke now) (key_revoke now)).map fun (k, T') => (k.isSome, T')

/-- `ApiKey::delete`. -/
def delete (T : ApiKeyTable) (id : Uuid) : Bool × ApiKeyTable :=
  ((T.row id).isSome, T.delete fun k => decide (k.id = id))

end ApiKey

/-! ### The middleware -/

/-- `AuthContext::from_api_key`. -/
def AuthContext.fromApiKey (apiKey : ApiKey) : AuthContext where
  userId := none
  tenantId := apiKey.tenantId
  method := .apiKey
  scopes := some apiKey.scopes
  apiKeyId := some apiKey.id

/-- `AuthError`. -/
inductive AuthError
  | missingCredentials
  | invalidFormat (msg : String)
  | invalidToken (msg : String)
  | invalidApiKey (msg : String)
  | databaseError (msg : String)
deriving DecidableEq, Repr

/-- `HeaderValue::to_str`: visible ASCII characters, spaces and tabs. -/
def headerToStr (value : Bytes) : Option String :=
  if value.all fun b => decide (b = 9) || decide (32 ≤ b.toNat ∧ b.toNat < 127) then
    some (String.ofList (value.map fun b => Char.ofNat b.toNat))
  else none

/-- `validate_api_key_format`, for the texts of headers. -/
def validateApiKeyFormat (key : String) : Bool :=
  decide ((utf8 key).length = 37) && "axon_".toList.isPrefixOf key.toList &&
    (key.toList.drop 5).all Char.isAlphanum

/-- `api_key_auth_middleware`, with the context that it attaches and the table it leaves.  The
statement is executed at `now`, unless it fails with the message `dbError`, and the second
check is made at `later`. -/
def apiKeyAuthMiddleware (L : Libs) (T : ApiKeyTable) (header : Option Bytes)
    (dbError : Option String) (now later : DateTime) : Except AuthError AuthContext × ApiKeyTable :=
  match header.bind headerToStr with
  | none => (.error .missingCredentials, T)
  | some apiKeyHeader =>
    if !validateApiKeyFormat apiKeyHeader then
      (.error (.invalidFormat "Invalid API key format"), T)
    else
      match dbError, ApiKey.validate L T apiKeyHeader now with
      | some e, _ => (.error (.databaseError ("Database error: " ++ e)), T)
      | none, .error _ => (.error (.databaseError "Database error: constraint violation"), T)
      | none, .ok (none, T') => (.error (.invalidApiKey "Invalid or revoked API key"), T')
      | none, .ok (some apiKey, T') =>
        if apiKey.isExpired later then (.error (.invalidApiKey "API key has expired"), T')
        else (.ok (AuthContext.fromApiKey apiKey), T')

/-! ### Histories of calls -/

namespace KeyLifecycle

/-- A call that has taken effect, or named a row. -/
inductive KeyEvent
  | created (row : ApiKey) (plaintextKey : String)
  | revoked (id : Uuid)
  | revokedWithTenant (id tenantId : Uuid)
  | deleted (id : Uuid)
deriving DecidableEq

namespace KeyEvent

/-- The event is a creation. -/
def isCreated : KeyEvent → Bool
  | created .. => true
  | _ => false

/-- The event revokes the row. -/
def revokes (row : ApiKey) : KeyEvent → Bool
  | revoked id => decide (id = row.id)
  | revokedWithTenant id tenantId => decide (id = row.id) && decide (tenantId = row.tenantId)
  | _ => false

/-- The event deletes the row with the identifier. -/
def deletes (id : Uuid) : KeyEvent → Bool
  | deleted id' => decide (id' = id)
  | _ => false

end KeyEvent

/-- The table, the time, the keys generated so far and the events so far. -/
structure KeyState where
  table : ApiKeyTable
  now : DateTime
  generated : List String
  log : List KeyEvent

/-- A call, or the passing of time. -/
inductive KeyOp
  | create (data : CreateApiKey) (plaintextKey : String) (id : Uuid) (tenantExists : Bool)
  | validate (plaintextKey : String)
  | revoke (id : Uuid)
  | revokeWithTenant (id tenantId : Uuid)
  | delete (id : Uuid)
  | wait (ns : ℕ)

/-- One call; a call that fails changes nothing. -/
def step (L : Libs) (s : KeyState) : KeyOp → Option KeyState
  | .create data plaintextKey id tenantExists =>
    let s := { s with generated := s.generated ++ [plaintextKey] }
    match ApiKey.create L s.table tenantExists data plaintextKey id s.now with
    | .ok ((row, plaintextKey), table) =>
      some { s with table, log := s.log ++ [.created row plaintextKey] }
    | .error _ => some s
  | .validate plaintextKey =>
    match ApiKey.validate L s.table plaintextKey s.now with
    | .ok (_, table) => some { s with table }
    | .error _ => some s
  | .revoke id =>
    match ApiKey.revokeById s.table id s.now with
    | .ok (_, table) => some { s with table, log := s.log ++ [.revoked id] }
    | .error _ => some s
  | .revokeWithTenant id tenantId =>
    match ApiKey.revokeWithTenant s.table id tenantId s.now with
    | .ok (_, table) => some { s with table, log := s.log ++ [.revokedWithTenant id tenantId] }
    | .error _ => some s
  | .delete id =>
    some { s with table := (ApiKey.delete s.table id).2, log := s.log ++ [.deleted id] }
  | .wait ns => some { s with now := s.now + ns }

/-- The calls in any order, from an empty table. -/
def machine (L : Libs) : Machine KeyState KeyOp where
  Init s := s.table = Table.empty ApiKey.schema ∧ s.generated = [] ∧ s.log = []
  step := step L

/-- The generated keys are distinct. -/
def Distinct (s : KeyState) : KeyOp → Prop
  | .create _ plaintextKey _ _ => plaintextKey ∉ s.generated
  | _ => True

instance (s : KeyState) : ∀ op, Decidable (Distinct s op)
  | .create _ plaintextKey _ _ => inferInstanceAs (Decidable (plaintextKey ∉ s.generated))
  | .validate _ | .revoke _ | .revokeWithTenant _ _ | .delete _ | .wait _ => isTrue trivial

/-! ### The log since a creation -/

/-- After the creation of the row the log goes on with `post`. -/
def Since (log : List KeyEvent) (row : ApiKey) (plaintextKey : String) (post : List KeyEvent) :
    Prop :=
  ∃ pre, log = pre ++ .created row plaintextKey :: post

lemma since_snoc {log post : List KeyEvent} {e : KeyEvent} {row : ApiKey} {k : String} :
    Since (log ++ [e]) row k post ↔
      (post = [] ∧ e = .created row k) ∨ ∃ post', post = post' ++ [e] ∧ Since log row k post' := by
  constructor
  · rintro ⟨pre, h⟩
    rcases List.eq_nil_or_concat post with rfl | ⟨post', e', rfl⟩
    · exact Or.inl ⟨rfl, (List.append_inj' h rfl).2 |> fun h => by simpa using h⟩
    · rw [List.concat_eq_append, ← List.cons_append, ← List.append_assoc] at h
      obtain ⟨hlog, he⟩ := List.append_inj' h rfl
      obtain rfl : e = e' := by simpa using he
      exact Or.inr ⟨post', by rw [List.concat_eq_append], pre, hlog⟩
  · rintro (⟨rfl, rfl⟩ | ⟨post', rfl, pre, rfl⟩)
    · exact ⟨log, rfl⟩
    · exact ⟨pre, by simp⟩

/-! ### What a call does to the rows -/

/-- The row `r` becomes `r'` when the event `e` is added to the log, or none is. -/
structure Moves (e : Option KeyEvent) (r r' : ApiKey) : Prop where
  same : r' =
    { r with lastUsedAt := r'.lastUsedAt, revoked := r'.revoked, revokedAt := r'.revokedAt }
  revoked : r'.revoked = (r.revoked || e.any (KeyEvent.revokes r))
  revokedAt : r'.revoked = false → r'.revokedAt = r.revokedAt

/-- The table `T` becomes `T'` when the event `e` is added to the log, or none is. -/
structure Change (e : Option KeyEvent) (T T' : ApiKeyTable) : Prop where
  deleted : ∀ id, e.any (KeyEvent.deletes id) = true → T'.row id = none
  absent : ∀ id, T.row id = none → T'.row id = none
  present : ∀ id r, e.any (KeyEvent.deletes id) = false → T.row id = some r →
    ∃ r', T'.row id = some r' ∧ Moves e r r'

lemma Change.refl (T : ApiKeyTable) : Change none T T where
  deleted := by simp
  absent _ h := h
  present _ r _ hr := ⟨r, hr, rfl, by simp, fun _ => rfl⟩

/-- An update of the rows that `p` selects. -/
lemma Change.of_update {e : Option KeyEvent} {T T' : ApiKeyTable} {p : ApiKey → Bool}
    {f : ApiKey → ApiKey} (hf : ∀ r, ApiKey.schema.key (f r) = ApiKey.schema.key r)
    (h : T.update p f hf = .ok T') (hdel : ∀ id, e.any (KeyEvent.deletes id) = false)
    (hmoves : ∀ r, Moves e r (if p r then f r else r)) : Change e T T' where
  deleted id hid := absurd hid (by simp [hdel id])
  absent id hid := by rw [Table.row_update h, hid, Option.map_none]
  present id r _ hr := ⟨_, by rw [Table.row_update h, hr, Option.map_some], hmoves r⟩

/-- The two ways of revoking by the identifier. -/
lemma moves_revoke {e : KeyEvent} {now : DateTime} {p : ApiKey → Bool}
    (hp : ∀ r, p r = e.revokes r) (r : ApiKey) :
    Moves (some e) r (if p r then ApiKey.revoke now r else r) := by
  have hany : (some e : Option KeyEvent).any (KeyEvent.revokes r) = p r := (hp r).symm
  refine ⟨?_, ?_, ?_⟩
  · split <;> rfl
  · rw [hany]
    split
    · rename_i hsel
      simp [ApiKey.revoke, hsel]
    · rename_i hsel
      simp [hsel]
  · split
    · intro hfalse
      cases hfalse
    · exact fun _ => rfl

lemma ApiKey.row_delete (T : ApiKeyTable) (id id' : Uuid) :
    (ApiKey.delete T id).2.row id' = if id' = id then none else T.row id' :=
  Table.row_delete_key T id id'

lemma Change.of_delete (T : ApiKeyTable) (id : Uuid) :
    Change (some (.deleted id)) T (ApiKey.delete T id).2 where
  deleted id' hid := by
    obtain rfl : id = id' := by simpa [KeyEvent.deletes] using hid
    rw [ApiKey.row_delete, if_pos rfl]
  absent id' hid := by
    rw [ApiKey.row_delete, hid, ite_self]
  present id' r hid hr := by
    have hne : id ≠ id' := by simpa [KeyEvent.deletes] using hid
    refine ⟨r, ?_, rfl, by simp [KeyEvent.revokes], fun _ => rfl⟩
    rw [ApiKey.row_delete, if_neg (Ne.symm hne), hr]

/-- A key is created, or the rows change with the event. -/
inductive Effect (L : Libs) (s s' : KeyState) : Prop
  | create (row : ApiKey) (plaintextKey : String)
      (fresh : s.table.row row.id = none)
      (rows : ∀ id, s'.table.row id = if row.id = id then some row else s.table.row id)
      (log : s'.log = s.log ++ [.created row plaintextKey])
      (generated : s'.generated = s.generated ++ [plaintextKey])
      (revoked : row.revoked = false) (keyHash : row.keyHash = ApiKey.hashKey L plaintextKey)
      (key : plaintextKey ∉ s.generated)
  | change (e : Option KeyEvent) (table : Change e s.table s'.table)
      (log : s'.log = s.log ++ e.toList) (creates : e.all fun e => !e.isCreated)
      (generated : s.generated ⊆ s'.generated)

variable {L : Libs} {s s' : KeyState}

/-- **Inversion of a step.** -/
lemma effect_of_step {op : KeyOp} (hC : Distinct s op) (h : step L s op = some s') :
    Effect L s s' := by
  cases op with
  | create data plaintextKey id tenantExists =>
    simp only [step] at h
    split at h
    · rename_i row key T' hcreate
      cases h
      obtain ⟨rfl, rfl, hinsert⟩ := ApiKey.create_eq_ok hcreate
      exact .create _ key (Table.insert_eq_ok hinsert).2.1 (Table.row_insert hinsert) rfl rfl rfl
        rfl hC
    · cases h
      exact .change none (Change.refl _) (by simp) rfl (List.subset_append_left _ _)
  | validate plaintextKey =>
    simp only [step] at h
    split at h
    · rename_i o T' hvalidate
      cases h
      refine .change none ?_ (by simp) rfl (List.Subset.refl _)
      refine Change.of_update _ (ApiKey.validate_eq_ok hvalidate).1 (by simp) ?_
      intro r
      refine ⟨?_, ?_, ?_⟩ <;> split <;> simp [ApiKey.touch]
    · cases h
      exact .change none (Change.refl _) (by simp) rfl (List.Subset.refl _)
  | revoke id =>
    simp only [step] at h
    split at h
    · rename_i o T' hrevoke
      cases h
      obtain ⟨⟨k, T₁⟩, hupdate, hT⟩ := map_eq_ok hrevoke
      cases hT
      refine .change (some (.revoked id)) ?_ rfl rfl (List.Subset.refl _)
      refine Change.of_update _ (Table.update_of_updateKey hupdate) (by simp [KeyEvent.deletes]) ?_
      refine moves_revoke fun r => ?_
      simp [KeyEvent.revokes, eq_comm]
    · cases h
      exact .change none (Change.refl _) (by simp) rfl (List.Subset.refl _)
  | revokeWithTenant id tenantId =>
    simp only [step] at h
    split at h
    · rename_i o T' hrevoke
      cases h
      obtain ⟨⟨k, T₁⟩, hupdate, hT⟩ := map_eq_ok hrevoke
      cases hT
      refine .change (some (.revokedWithTenant id tenantId)) ?_ rfl rfl (List.Subset.refl _)
      refine Change.of_update _ (Table.update_of_updateKey hupdate) (by simp [KeyEvent.deletes]) ?_
      refine moves_revoke fun r => ?_
      simp [KeyEvent.revokes, ApiKey.isOf, eq_comm]
    · cases h
      exact .change none (Change.refl _) (by simp) rfl (List.Subset.refl _)
  | delete id =>
    cases h
    exact .change (some (.deleted id)) (Change.of_delete s.table id) rfl rfl (List.Subset.refl _)
  | wait ns =>
    cases h
    exact .change none (Change.refl _) (by simp) rfl (List.Subset.refl _)

/-! ### The rows and the history -/

/-- The row `r` is the created row `r₀` after the events `post`. -/
structure Tracks (r₀ : ApiKey) (post : List KeyEvent) (r : ApiKey) : Prop where
  same : r = { r₀ with lastUsedAt := r.lastUsedAt, revoked := r.revoked, revokedAt := r.revokedAt }
  revoked : r.revoked = post.any (KeyEvent.revokes r₀)
  revokedAt : r.revoked = false → r.revokedAt = r₀.revokedAt

namespace Tracks

variable {r₀ r r' : ApiKey} {post : List KeyEvent} {e : Option KeyEvent}

lemma id_eq (h : Tracks r₀ post r) : r.id = r₀.id := by rw [h.same]

lemma tenantId_eq (h : Tracks r₀ post r) : r.tenantId = r₀.tenantId := by rw [h.same]

lemma keyHash_eq (h : Tracks r₀ post r) : r.keyHash = r₀.keyHash := by rw [h.same]

lemma expiresAt_eq (h : Tracks r₀ post r) : r.expiresAt = r₀.expiresAt := by
  rw [h.same]

/-- One more event. -/
lemma moves (h : Tracks r₀ post r) (hm : Moves e r r') : Tracks r₀ (post ++ e.toList) r' := by
  have hrevokes : KeyEvent.revokes r = KeyEvent.revokes r₀ := by
    funext e
    simp only [KeyEvent.revokes, h.id_eq, h.tenantId_eq]
  refine ⟨?_, ?_, ?_⟩
  · rw [hm.same, h.same]
  · rw [hm.revoked, h.revoked, hrevokes, List.any_append]
    cases e <;> simp
  · intro hfalse
    have hr : r.revoked = false := by
      have hor := hm.revoked
      rw [hfalse] at hor
      exact (Bool.or_eq_false_iff.1 hor.symm).1
    rw [hm.revokedAt hfalse, h.revokedAt hr]

end Tracks

/-- What the table and the log say of each other. -/
structure Invariant (L : Libs) (s : KeyState) : Prop where
  created : ∀ r₀ k post, Since s.log r₀ k post →
    r₀.revoked = false ∧ r₀.keyHash = ApiKey.hashKey L k ∧ k ∈ s.generated
  unique : ∀ r₀ r₁ k post post₁, Since s.log r₀ k post → Since s.log r₁ k post₁ →
    r₀ = r₁ ∧ post = post₁
  present : ∀ id r, s.table.row id = some r →
    ∃ r₀ k post, Since s.log r₀ k post ∧ post.any (KeyEvent.deletes r₀.id) = false ∧
      Tracks r₀ post r
  complete : ∀ r₀ k post, Since s.log r₀ k post → post.any (KeyEvent.deletes r₀.id) = false →
    ∃ r, s.table.row r₀.id = some r ∧ Tracks r₀ post r

/-- An event that creates nothing comes after all creations. -/
lemma since_append_toList {log post : List KeyEvent} {e : Option KeyEvent}
    (he : e.all (fun e => !e.isCreated) = true) {row : ApiKey} {k : String} :
    Since (log ++ e.toList) row k post ↔
      ∃ post', post = post' ++ e.toList ∧ Since log row k post' := by
  cases e with
  | none => simp
  | some e =>
    rw [Option.toList_some, since_snoc, or_iff_right]
    rintro ⟨-, rfl⟩
    simp [KeyEvent.isCreated] at he

/-- A new key keeps the invariant: its plaintext is new, so no other creation is of it. -/
lemma invariant_of_create {row : ApiKey} {key : String} (hi : Invariant L s)
    (fresh : s.table.row row.id = none)
    (rows : ∀ id, s'.table.row id = if row.id = id then some row else s.table.row id)
    (log : s'.log = s.log ++ [.created row key]) (generated : s'.generated = s.generated ++ [key])
    (revoked : row.revoked = false) (keyHash : row.keyHash = ApiKey.hashKey L key)
    (hkey : key ∉ s.generated) : Invariant L s' := by
  -- the key of the new row is new
  have hnew : ∀ r₀ post, ¬ Since s.log r₀ key post := fun r₀ post hs =>
    hkey (hi.created r₀ key post hs).2.2
  refine ⟨?_, ?_, ?_, ?_⟩
  · intro r₀ k post hs
    rw [log, since_snoc] at hs
    rw [generated]
    rcases hs with ⟨-, he⟩ | ⟨post', -, hs⟩
    · cases he
      exact ⟨revoked, keyHash, by simp⟩
    · obtain ⟨hr, hh, hk⟩ := hi.created r₀ k post' hs
      exact ⟨hr, hh, List.mem_append_left _ hk⟩
  · intro r₀ r₁ k post post₁ h₀ h₁
    rw [log, since_snoc] at h₀ h₁
    rcases h₀ with ⟨rfl, he⟩ | ⟨post', rfl, h₀⟩ <;> rcases h₁ with ⟨rfl, he₁⟩ | ⟨post₁', rfl, h₁⟩
    · cases he
      cases he₁
      exact ⟨rfl, rfl⟩
    · cases he
      exact absurd h₁ (hnew _ _)
    · cases he₁
      exact absurd h₀ (hnew _ _)
    · obtain ⟨rfl, rfl⟩ := hi.unique r₀ r₁ k post' post₁' h₀ h₁
      exact ⟨rfl, rfl⟩
  · intro id r hr
    rw [rows] at hr
    split at hr
    · cases hr
      exact ⟨row, key, [], by rw [log, since_snoc]; exact Or.inl ⟨rfl, rfl⟩, rfl, rfl,
        by simp [revoked], fun _ => rfl⟩
    · obtain ⟨r₀, k, post, hs, hdel, ht⟩ := hi.present id r hr
      refine ⟨r₀, k, post ++ [.created row key], ?_, by simp [hdel, KeyEvent.deletes],
        ht.same, by simp [ht.revoked, KeyEvent.revokes], ht.revokedAt⟩
      rw [log, since_snoc]
      exact Or.inr ⟨post, rfl, hs⟩
  · intro r₀ k post hs hdel
    rw [log, since_snoc] at hs
    rcases hs with ⟨rfl, he⟩ | ⟨post', rfl, hs⟩
    · cases he
      exact ⟨row, by rw [rows, if_pos rfl], rfl, by simp [revoked], fun _ => rfl⟩
    · rw [List.any_append, Bool.or_eq_false_iff] at hdel
      obtain ⟨r, hr, ht⟩ := hi.complete r₀ k post' hs hdel.1
      have hne : row.id ≠ r₀.id := by
        intro heq
        rw [heq, hr] at fresh
        cases fresh
      exact ⟨r, by rw [rows, if_neg hne, hr], ht.same,
        by simp [ht.revoked, KeyEvent.revokes], ht.revokedAt⟩

/-- A change of the rows keeps the invariant: every row moves with its history. -/
lemma invariant_of_change {e : Option KeyEvent} (hi : Invariant L s)
    (table : Change e s.table s'.table) (log : s'.log = s.log ++ e.toList)
    (creates : e.all fun e => !e.isCreated) (generated : s.generated ⊆ s'.generated) :
    Invariant L s' := by
  have hsince {post : List KeyEvent} {row : ApiKey} {k : String} :
      Since (s.log ++ e.toList) row k post ↔
        ∃ post', post = post' ++ e.toList ∧ Since s.log row k post' :=
    since_append_toList creates
  refine ⟨?_, ?_, ?_, ?_⟩
  · intro r₀ k post hs
    rw [log, hsince] at hs
    obtain ⟨post', -, hs⟩ := hs
    obtain ⟨hr, hh, hk⟩ := hi.created r₀ k post' hs
    exact ⟨hr, hh, generated hk⟩
  · intro r₀ r₁ k post post₁ h₀ h₁
    rw [log, hsince] at h₀ h₁
    obtain ⟨post', rfl, h₀⟩ := h₀
    obtain ⟨post₁', rfl, h₁⟩ := h₁
    obtain ⟨rfl, rfl⟩ := hi.unique r₀ r₁ k post' post₁' h₀ h₁
    exact ⟨rfl, rfl⟩
  · intro id r' hr'
    cases hdel : e.any (KeyEvent.deletes id) with
    | true => rw [table.deleted id hdel] at hr'; cases hr'
    | false =>
      cases hr : s.table.row id with
      | none => rw [table.absent id hr] at hr'; cases hr'
      | some r =>
        obtain ⟨r₀, k, post, hs, hpost, ht⟩ := hi.present id r hr
        obtain ⟨r'', hr'', hm⟩ := table.present id r hdel hr
        obtain rfl : r'' = r' := Option.some.inj (hr''.symm.trans hr')
        have hid : r₀.id = id := ht.id_eq.symm.trans (Table.key_of_row hr)
        have hs' : Since (s.log ++ e.toList) r₀ k (post ++ e.toList) := hsince.2 ⟨post, rfl, hs⟩
        refine ⟨r₀, k, post ++ e.toList, by rw [log]; exact hs', ?_, ht.moves hm⟩
        rw [List.any_append, hpost, hid, Bool.false_or]
        cases e with
        | none => rfl
        | some e => simpa using hdel
  · intro r₀ k post hs hdel
    rw [log, hsince] at hs
    obtain ⟨post', rfl, hs⟩ := hs
    rw [List.any_append, Bool.or_eq_false_iff] at hdel
    obtain ⟨r, hr, ht⟩ := hi.complete r₀ k post' hs hdel.1
    have hdel' : e.any (KeyEvent.deletes r₀.id) = false := by
      have hevent := hdel.2
      cases e with
      | none => rfl
      | some e => simpa using hevent
    obtain ⟨r', hr', hm⟩ := table.present r₀.id r hdel' hr
    exact ⟨r', hr', ht.moves hm⟩

lemma invariant_of_effect (hi : Invariant L s) (h : Effect L s s') : Invariant L s' := by
  cases h with
  | create row key fresh rows log generated revoked keyHash hkey =>
    exact invariant_of_create hi fresh rows log generated revoked keyHash hkey
  | change e table log creates generated =>
    exact invariant_of_change hi table log creates generated

lemma invariant_of_reachable (h : (machine L).Reachable Distinct s) : Invariant L s := by
  refine h.invariant (P := Invariant L) ?_ fun s op s' hC hi hs =>
    invariant_of_effect hi (effect_of_step hC hs)
  rintro s ⟨htable, -, hlog⟩
  have hnever : ∀ row k post, ¬ Since s.log row k post := by
    rintro row k post ⟨pre, hpre⟩
    simp [hlog] at hpre
  exact ⟨fun r₀ k post hs => absurd hs (hnever _ _ _),
    fun r₀ r₁ k post post₁ hs => absurd hs (hnever _ _ _),
    fun id r hr => by simp [htable] at hr, fun r₀ k post hs => absurd hs (hnever _ _ _)⟩

/-! ### What `validate` answers -/

/-- The byte strings that are hashed for the keys so far and for a presented key. -/
def hashed (s : KeyState) (k : String) : Set Bytes :=
  {b | b = utf8 k ∨ ∃ g ∈ s.generated, b = utf8 g}

lemma hashKey_inj {k g : String} (hcf : Set.InjOn L.sha256 (hashed s k)) (hg : g ∈ s.generated)
    (h : ApiKey.hashKey L g = ApiKey.hashKey L k) : g = k := by
  have hdigest : L.sha256 (utf8 g) = L.sha256 (utf8 k) := hexEncode_injective h
  exact utf8_injective (hcf (Or.inr ⟨g, hg, rfl⟩) (Or.inl rfl) hdigest)

/-- The key is good: its creation has been neither revoked nor deleted, and it has not
expired. -/
structure Good (s : KeyState) (k : String) (row : ApiKey) : Prop where
  since : ∃ post, Since s.log row k post ∧
    ∀ e ∈ post, e.deletes row.id = false ∧ e.revokes row = false
  expiresAt : ∀ t, row.expiresAt = some t → s.now < t

lemma isGood_iff {h : String} {now : DateTime} {r : ApiKey} : r.isGood h now = true ↔
    r.keyHash = h ∧ r.revoked = false ∧ ∀ t, r.expiresAt = some t → now < t := by
  cases hexp : r.expiresAt <;> simp [ApiKey.isGood, hexp, and_assoc]

/-- A row that `validate` finds is that of a good key. -/
lemma good_of_find {k : String} {r : ApiKey} (hi : Invariant L s)
    (hcf : Set.InjOn L.sha256 (hashed s k))
    (h : s.table.rows.find? (ApiKey.isGood (ApiKey.hashKey L k) s.now) = some r) :
    ∃ row, Good s k row ∧ r.touch s.now = { row with lastUsedAt := some s.now } := by
  obtain ⟨hhash, hrevoked, hexp⟩ := isGood_iff.1 (List.find?_some h)
  have hrow : s.table.row r.id = some r := Table.row_key_of_mem (List.mem_of_find?_eq_some h)
  obtain ⟨r₀, g, post, hs, hdel, ht⟩ := hi.present r.id r hrow
  obtain ⟨hr₀, hkey, hg⟩ := hi.created r₀ g post hs
  obtain rfl : g = k := hashKey_inj hcf hg (by rw [← hkey, ← ht.keyHash_eq, hhash])
  refine ⟨r₀, ⟨⟨post, hs, ?_⟩, ht.expiresAt_eq ▸ hexp⟩, ?_⟩
  · have hrev : post.any (KeyEvent.revokes r₀) = false := by rw [← ht.revoked, hrevoked]
    rw [List.any_eq_false] at hdel hrev
    exact fun e he => ⟨by simpa using hdel e he, by simpa using hrev e he⟩
  · rw [ApiKey.touch, ht.same, hrevoked, ht.revokedAt hrevoked, ← hr₀]

/-- **`validate` returns a row exactly for a good key**, and it is the created row. -/
lemma validate_eq_some_iff {k : String} (hi : Invariant L s)
    (hcf : Set.InjOn L.sha256 (hashed s k)) (row' : ApiKey) :
    (∃ T', ApiKey.validate L s.table k s.now = .ok (some row', T')) ↔
      ∃ row, Good s k row ∧ row' = { row with lastUsedAt := some s.now } := by
  constructor
  · rintro ⟨T', hvalidate⟩
    obtain ⟨r, hfind, rfl⟩ := Option.map_eq_some_iff.1 (ApiKey.validate_eq_ok hvalidate).2.symm
    exact good_of_find hi hcf hfind
  · rintro ⟨row, hgood, rfl⟩
    obtain ⟨post, hs, hpost⟩ := hgood.since
    obtain ⟨r, hr, ht⟩ := hi.complete row k post hs (by
      rw [List.any_eq_false]
      intro e he
      simp [(hpost e he).1])
    have hisGood : r.isGood (ApiKey.hashKey L k) s.now = true := by
      refine isGood_iff.2 ⟨?_, ?_, ht.expiresAt_eq ▸ hgood.expiresAt⟩
      · rw [ht.keyHash_eq, (hi.created row k post hs).2.1]
      · rw [ht.revoked, List.any_eq_false]
        intro e he
        simp [(hpost e he).2]
    obtain ⟨r', hfind⟩ : ∃ r', s.table.rows.find? (ApiKey.isGood (ApiKey.hashKey L k) s.now) =
        some r' := by
      rw [← Option.isSome_iff_exists, List.find?_isSome]
      exact ⟨r, Table.mem_of_row hr, hisGood⟩
    -- the row that is found is that of the same creation
    obtain ⟨row₁, hgood₁, htouch⟩ := good_of_find hi hcf hfind
    obtain ⟨post₁, hs₁, -⟩ := hgood₁.since
    obtain ⟨rfl, -⟩ := hi.unique row row₁ k post post₁ hs hs₁
    obtain ⟨T', hT'⟩ := Table.exists_update (T := s.table)
      (p := ApiKey.isGood (ApiKey.hashKey L k) s.now) (f := ApiKey.touch s.now) (fun _ => rfl)
      fun r hr _ => s.table.checked r hr
    exact ⟨T', by rw [ApiKey.validate, hT', Except.map, hfind, Option.map_some, htouch]⟩

/-- A tenant cannot revoke the key of another one. -/
lemma revokeWithTenant_of_ne {T : ApiKeyTable} {id tenantId : Uuid} (now : DateTime)
    (h : ∀ r, T.row id = some r → r.tenantId ≠ tenantId) :
    ApiKey.revokeWithTenant T id tenantId now = .ok (false, T) := by
  have hother : ∀ r, T.row id = some r → ApiKey.isOf tenantId r ≠ true := fun r hr hsel =>
    h r hr (by simpa [ApiKey.isOf] using hsel)
  unfold ApiKey.revokeWithTenant
  cases hupdate : T.updateKey id (ApiKey.isOf tenantId) (ApiKey.revoke now) fun _ => rfl with
  | error e =>
    obtain ⟨r, hr, hsel, -⟩ := Table.updateKey_eq_error hupdate
    exact absurd hsel (hother r hr)
  | ok result =>
    obtain ⟨o, T'⟩ := result
    rcases Table.updateKey_eq_ok hupdate with ⟨-, rfl, rfl⟩ | ⟨r, hr, hsel, -⟩
    · rfl
    · exact absurd hsel (hother r hr)

/-- **Inversion of an admission.** -/
lemma apiKeyAuthMiddleware_eq_ok {T T' : ApiKeyTable} {header : Option Bytes}
    {dbError : Option String} {now later : DateTime} {ctx : AuthContext}
    (h : apiKeyAuthMiddleware L T header dbError now later = (.ok ctx, T')) :
    ∃ k apiKey, header.bind headerToStr = some k ∧
      ApiKey.validate L T k now = .ok (some apiKey, T') ∧ ctx = AuthContext.fromApiKey apiKey := by
  unfold apiKeyAuthMiddleware at h
  split at h
  · cases h
  · rename_i k hheader
    split at h
    · cases h
    · split at h
      · cases h
      · cases h
      · cases h
      · rename_i apiKey T₁ hvalidate
        split at h
        · cases h
        · cases h
          exact ⟨k, apiKey, hheader, hvalidate, rfl⟩

/-- **The life of an API key.**  `validate` returns a row exactly for a key that some call
created, whose row has since been neither revoked (by a call that may revoke it) nor deleted,
and which has not expired, and it returns the created row; revoking the key of another tenant
changes nothing; and the middleware admits a request only when `validate` returns a row, for
the tenant and with the scopes of that row. -/
theorem key_lifecycle (h : (machine L).Reachable Distinct s) :
    (∀ k, Set.InjOn L.sha256 (hashed s k) → ∀ row',
      (∃ T', ApiKey.validate L s.table k s.now = .ok (some row', T')) ↔
        ∃ row, Good s k row ∧ row' = { row with lastUsedAt := some s.now }) ∧
      (∀ id tenantId, (∀ r, s.table.row id = some r → r.tenantId ≠ tenantId) →
        ApiKey.revokeWithTenant s.table id tenantId s.now = .ok (false, s.table)) ∧
      ∀ header dbError later ctx T',
        apiKeyAuthMiddleware L s.table header dbError s.now later = (.ok ctx, T') →
          ∃ k row, header.bind headerToStr = some k ∧
            ApiKey.validate L s.table k s.now = .ok (some row, T') ∧
            ctx.tenantId = row.tenantId ∧ ctx.scopes = some row.scopes := by
  have hi := invariant_of_reachable h
  refine ⟨fun k hcf row' => validate_eq_some_iff hi hcf row',
    fun id tenantId hother => revokeWithTenant_of_ne s.now hother, ?_⟩
  intro header dbError later ctx T' hadmit
  obtain ⟨k, row, hheader, hvalidate, rfl⟩ := apiKeyAuthMiddleware_eq_ok hadmit
  exact ⟨k, row, hheader, hvalidate, rfl, rfl⟩

/-- A key of the tenant 1. -/
def sampleKey : CreateApiKey where
  tenantId := 1
  name := "ci"
  scopes := ["write:task"]
  expiresAt := some 100

/-- A key is created and used; another tenant fails to revoke it. -/
theorem key_lifecycle_sample : ∃ s : KeyState,
    (machine Libs.sample).exec Distinct ⟨Table.empty ApiKey.schema, 0, [], []⟩
        [.create sampleKey "axon_0" 7 true, .wait 50, .revokeWithTenant 7 2] = some s ∧
      s.log.length = 2 ∧
      ∀ row', (∃ T', ApiKey.validate Libs.sample s.table "axon_0" s.now = .ok (some row', T')) ↔
        ∃ row, Good s "axon_0" row ∧ row' = { row with lastUsedAt := some s.now } := by
  have hrun : ((machine Libs.sample).exec Distinct ⟨Table.empty ApiKey.schema, 0, [], []⟩
      [.create sampleKey "axon_0" 7 true, .wait 50, .revokeWithTenant 7 2]).map
      (fun s => (s.log.length, s.generated)) = some (2, ["axon_0"]) := by decide +kernel
  obtain ⟨s, hs, hobs⟩ := Option.map_eq_some_iff.1 hrun
  simp only [Prod.mk.injEq] at hobs
  obtain ⟨hlog, hgenerated⟩ := hobs
  have hreach : (machine Libs.sample).Reachable Distinct s :=
    ⟨_, _, ⟨rfl, rfl, rfl⟩, Machine.run_of_exec hs⟩
  refine ⟨s, hs, hlog, (key_lifecycle hreach).1 "axon_0" ?_⟩
  -- only one text is hashed
  have hone : ∀ b ∈ hashed s "axon_0", b = utf8 "axon_0" := by
    rintro b (rfl | ⟨g, hg, rfl⟩)
    · rfl
    · rw [hgenerated] at hg
      rw [List.mem_singleton.1 hg]
  intro a ha b hb _
  rw [hone a ha, hone b hb]

end KeyLifecycle

end AxonTask
