import AxonTask.Lib.Table
import AxonTask.Shared.Tenant

/-!
# API keys (`axontask-shared/src/models/api_key.rs`)

`ApiKey` rows, the table `api_keys` with its constraints, and the statements of the key
endpoints on it.  The generated key, the id and `NOW()` are arguments, and so is the order in
which the database returns rows that its ORDER BY does not tell apart.
-/

namespace AxonTask

open Lib

/-- `ApiKey`. -/
structure ApiKey where
  id : Uuid
  tenantId : Uuid
  name : String
  keyPrefix : String
  keyHash : String
  scopes : List String
  createdAt : DateTime
  lastUsedAt : Option DateTime
  revoked : Bool
  revokedAt : Option DateTime
  expiresAt : Option DateTime
deriving DecidableEq, Repr

/-- `CreateApiKey`. -/
structure CreateApiKey where
  tenantId : Uuid
  name : String
  scopes : List String := ["read:task", "write:task"]
  expiresAt : Option DateTime

/-- A database error: a violated constraint, by its name, or another message. -/
inductive DbError
  | constraint (name : String)
  | other (message : String)
deriving DecidableEq, Repr

/-- `parse_scopes` trims by the Unicode property `White_Space`. -/
def isWhiteSpace (c : Char) : Bool :=
  let n := c.toNat
  (decide (9 ≤ n) && decide (n ≤ 13)) || (decide (0x2000 ≤ n) && decide (n ≤ 0x200a)) ||
    [0x20, 0x85, 0xa0, 0x1680, 0x2028, 0x2029, 0x202f, 0x205f, 0x3000].contains n

/-- `str::trim`. -/
def trim (s : List Char) : List Char :=
  ((s.dropWhile isWhiteSpace).reverse.dropWhile isWhiteSpace).reverse

/-- `parse_scopes` (`axontask-shared/src/auth/api_key.rs`). -/
def parseScopes (scopes : String) : List String :=
  (((scopes.toList.splitOn ',').map trim).filter fun s => !s.isEmpty).map String.ofList

example : parseScopes " tasks:read,, tasks:write " = ["tasks:read", "tasks:write"] := by
  decide +kernel

/-- The bytes in lower-case hexadecimal digits. -/
def hexEncode (b : Bytes) : String :=
  String.ofList <| b.flatMap fun x => [Nat.digitChar (x.toNat / 16), Nat.digitChar (x.toNat % 16)]

namespace ApiKey

/-- The table `api_keys`: its primary key and its column types. -/
def schema : Schema Uuid ApiKey where
  key := id
  check k :=
    Tenant.varchar 255 k.name && Tenant.varchar 10 k.keyPrefix && Tenant.varchar 64 k.keyHash &&
      k.scopes.all fun s => !hasNul s

@[simp] lemma schema_key (k : ApiKey) : schema.key k = k.id := rfl

/-- `ApiKey::hash_key`. -/
def hashKey (L : Libs) (key : String) : String := hexEncode (L.sha256 (utf8 key))

/-- `ApiKey::extract_prefix`. -/
def extractPrefix (key : String) : String := String.ofList (key.toList.take 10)

end ApiKey

/-- The rows of `api_keys`. -/
abbrev ApiKeyTable := Table ApiKey.schema

namespace ApiKey

/-- The row that `ApiKey::create` inserts, with the defaults of the table. -/
def new (L : Libs) (data : CreateApiKey) (key : String) (id : Uuid) (now : DateTime) : ApiKey where
  id := id
  tenantId := data.tenantId
  name := data.name
  keyPrefix := extractPrefix key
  keyHash := hashKey L key
  scopes := data.scopes
  createdAt := now
  lastUsedAt := none
  revoked := false
  revokedAt := none
  expiresAt := data.expiresAt

/-- `ApiKey::create` for the generated key, when the row of the tenant exists or not. -/
def create (L : Libs) (T : ApiKeyTable) (tenantExists : Bool) (data : CreateApiKey) (key : String)
    (id : Uuid) (now : DateTime) : Except DbError ((ApiKey × String) × ApiKeyTable) :=
  let apiKey := new L data key id now
  match T.insert apiKey with
  | .error .check => .error (.other "invalid byte sequence for encoding \"UTF8\": 0x00")
  | .error .unique => .error (.constraint "api_keys_pkey")
  | .ok T' =>
    if T.rows.any fun k => decide (k.keyHash = apiKey.keyHash) then
      .error (.constraint "api_keys_key_hash_key")
    else if !tenantExists then .error (.constraint "api_keys_tenant_id_fkey")
    else .ok ((apiKey, key), T')

/-- **Inversion of `ApiKey::create`**: the new row has been inserted. -/
lemma create_eq_ok {L : Libs} {T T' : ApiKeyTable} {tenantExists : Bool} {data : CreateApiKey}
    {key key' : String} {id : Uuid} {now : DateTime} {row : ApiKey}
    (h : create L T tenantExists data key id now = .ok ((row, key'), T')) :
    row = new L data key id now ∧ key' = key ∧ T.insert row = .ok T' := by
  simp only [create] at h
  split at h
  · cases h
  · cases h
  · rename_i T₁ hinsert
    split at h
    · cases h
    · split at h
      · cases h
      · cases h
        exact ⟨rfl, rfl, hinsert⟩

/-- **When `ApiKey::create` succeeds.** -/
lemma exists_create_iff {L : Libs} {T : ApiKeyTable} {tenantExists : Bool} {data : CreateApiKey}
    {key : String} {id : Uuid} {now : DateTime} :
    (∃ out, create L T tenantExists data key id now = .ok out) ↔
      schema.check (new L data key id now) = true ∧ T.row id = none ∧
        (∀ k ∈ T.rows, k.keyHash ≠ hashKey L key) ∧ tenantExists = true := by
  have hany : (T.rows.any fun k => decide (k.keyHash = (new L data key id now).keyHash)) = true ↔
      ¬ ∀ k ∈ T.rows, k.keyHash ≠ hashKey L key := by
    rw [List.any_eq_true]
    push Not
    exact exists_congr fun k => and_congr_right fun _ => decide_eq_true_iff
  constructor
  · rintro ⟨out, h⟩
    simp only [create] at h
    split at h
    · cases h
    · cases h
    · rename_i T₁ hinsert
      obtain ⟨hcheck, hrow, -⟩ := Table.insert_eq_ok hinsert
      split at h
      · cases h
      · rename_i hhash
        split at h
        · cases h
        · rename_i htenant
          exact ⟨hcheck, hrow, not_not.1 (mt hany.2 hhash), by simpa using htenant⟩
  · rintro ⟨hcheck, hrow, hhash, rfl⟩
    obtain ⟨T₁, hinsert⟩ := Table.exists_insert hcheck hrow
    refine ⟨((new L data key id now, key), T₁), ?_⟩
    simp only [create, hinsert]
    rw [if_neg (mt hany.1 (not_not.2 hhash))]
    rfl

/-- The key belongs to the tenant. -/
def isOf (tenantId : Uuid) (k : ApiKey) : Bool := decide (k.tenantId = tenantId)

/-- The SET list of `ApiKey::revoke` and `ApiKey::revoke_with_tenant`. -/
def revoke (now : DateTime) (k : ApiKey) : ApiKey :=
  { k with revoked := true, revokedAt := some now }

/-- `ApiKey::revoke_with_tenant`. -/
def revokeWithTenant (T : ApiKeyTable) (id tenantId : Uuid) (now : DateTime) :
    Except Violation (Bool × ApiKeyTable) :=
  (T.updateKey id (isOf tenantId) (revoke now) fun _ => rfl).map fun (k, T') => (k.isSome, T')

/-- `keys` is an answer to `ApiKey::list_by_tenant`: the keys of the tenant, the newest
first. -/
def isList (T : ApiKeyTable) (tenantId : Uuid) (keys : List ApiKey) : Bool :=
  decide (keys.Perm (T.rows.filter (isOf tenantId))) &&
    decide (keys.Pairwise fun a b => b.createdAt ≤ a.createdAt)

end ApiKey

end AxonTask
