import AxonTask.Api.TenantIsolation
import AxonTask.Lib.Delimited
import AxonTask.Shared.EventFields

/-!
# Lists of scopes (`auth/api_key.rs` of `axontask-shared`, `routes/api_keys.rs` of `axontask-api`)

`parse_scopes` reads a list of scopes that are separated by commas, and `create_api_key` stores
what it has read.
-/

namespace AxonTask.Api

open Lib

/-! ### Reading a list of scopes -/

/-- A scope as it stands in a list: it is not empty, has no comma, and has no white space at its
ends. -/
structure IsListedScope (s : String) : Prop where
  ne_empty : s ≠ ""
  no_comma : ',' ∉ s.toList
  head : ∀ c ∈ s.toList.head?, isWhiteSpace c = false
  last : ∀ c ∈ s.toList.getLast?, isWhiteSpace c = false

/-- The parts between the commas that are not blank. -/
def scopeParts (t : String) : List (List Char) :=
  (t.toList.splitOn ',').filter fun part => !part.all isWhiteSpace

/-- The part is the scope with white space around it. -/
def TrimsTo (part : List Char) (s : String) : Prop :=
  ∃ pre post, part = pre ++ s.toList ++ post ∧ (∀ c ∈ pre, isWhiteSpace c = true) ∧
    ∀ c ∈ post, isWhiteSpace c = true

lemma parseScopes_eq (t : String) :
    parseScopes t = (Delimited.fields isWhiteSpace ',' t.toList).map String.ofList := rfl

lemma parseScopes_eq_map (t : String) :
    parseScopes t =
      (scopeParts t).map fun part => String.ofList (Delimited.trim isWhiteSpace part) := by
  rw [parseScopes_eq, Delimited.fields_eq_map, List.map_map]
  rfl

lemma isListedScope_iff {s : String} :
    IsListedScope s ↔ Delimited.IsField isWhiteSpace ',' s.toList := by
  have hne : s ≠ "" ↔ s.toList ≠ [] := by simp
  constructor
  · rintro ⟨hs, hcomma, hhead, hlast⟩
    exact ⟨⟨hhead, hlast⟩, hne.1 hs, hcomma⟩
  · rintro ⟨⟨hhead, hlast⟩, hs, hcomma⟩
    exact ⟨hne.2 hs, hcomma, hhead, hlast⟩

lemma isListedScope_of_mem {t s : String} (h : s ∈ parseScopes t) : IsListedScope s := by
  rw [parseScopes_eq] at h
  obtain ⟨w, hw, rfl⟩ := List.mem_map.1 h
  rw [isListedScope_iff, String.toList_ofList]
  exact Delimited.isField_of_mem_fields hw

/-- Scopes that are joined by commas are read as they were. -/
lemma parseScopes_intercalate {l : List String} (h : ∀ s ∈ l, IsListedScope s) :
    parseScopes (",".intercalate l) = l := by
  have hfields : ∀ w ∈ l.map String.toList, Delimited.IsField isWhiteSpace ',' w := by
    intro w hw
    obtain ⟨s, hs, rfl⟩ := List.mem_map.1 hw
    exact isListedScope_iff.1 (h s hs)
  have hcomma : ",".toList = [','] := rfl
  rw [parseScopes_eq, String.toList_intercalate, hcomma, Delimited.fields_intercalate hfields,
    List.map_map]
  exact (List.map_congr_left fun s _ => String.ofList_toList).trans (List.map_id l)

lemma parseScopes_append (a b : String) :
    parseScopes (a ++ "," ++ b) = parseScopes a ++ parseScopes b := by
  have hlist : (a ++ "," ++ b).toList = a.toList ++ ',' :: b.toList := by simp
  rw [parseScopes_eq, hlist, Delimited.fields_append, List.map_append]
  rfl

/-- What is read are the parts, trimmed and in their order. -/
lemma forall₂_trimsTo (t : String) : List.Forall₂ TrimsTo (scopeParts t) (parseScopes t) := by
  rw [parseScopes_eq_map, List.forall₂_map_right_iff, List.forall₂_same]
  intro part _
  rw [TrimsTo, String.toList_ofList]
  exact Delimited.exists_eq_append_trim part

lemma parseScopes_eq_nil_iff {t : String} : parseScopes t = [] ↔ scopeParts t = [] := by
  rw [parseScopes_eq_map, List.map_eq_nil_iff]

/-! ### Creating a key -/

section CreateApiKey

variable (L : Libs) (env : Surroundings) (auth : AuthContext) (r : CreateApiKeyRequest)
  (db : Database)

/-- The name of the request is accepted. -/
def nameOk (r : CreateApiKeyRequest) : Bool := StartTask.lengthOk r.name 1 100

/-- `ApiKey::create` with the scopes that have been read. -/
def createRow : Except DbError ((ApiKey × String) × ApiKeyTable) :=
  ApiKey.create L db.apiKeys (db.tenants.row auth.tenantId).isSome
    { tenantId := auth.tenantId
      name := r.name
      scopes := parseScopes r.scopes
      expiresAt := r.expiresAt }
    env.key env.id (env.clock 0)

/-- What the database asks of the row: the tenant is there, the id and the hash of the key are
free, and the texts of the request have no character U+0000. -/
structure Storable : Prop where
  tenant : (db.tenants.row auth.tenantId).isSome = true
  id : db.apiKeys.row env.id = none
  keyHash : ∀ k ∈ db.apiKeys.rows, k.keyHash ≠ ApiKey.hashKey L env.key
  name : hasNul r.name = false
  scopes : ∀ s ∈ parseScopes r.scopes, hasNul s = false

/-- What `create_api_key` does with the list of scopes: it rejects the request because of a list
without scopes, and because of no other list, or it stores exactly the scopes of the list. -/
structure HandlesScopes : Prop where
  /-- Nothing is stored for a list without scopes, -/
  not_ok : scopeParts r.scopes = [] → ∀ out, createApiKey L env auth r db ≠ .ok out
  /-- and the error says so, when the name is accepted. -/
  rejects : nameOk r = true → scopeParts r.scopes = [] →
    createApiKey L env auth r db = .error (.validationError [noScopes])
  /-- No other list is rejected. -/
  rejects_only : ∀ details, createApiKey L env auth r db = .error (.validationError details) →
    noScopes ∈ details → scopeParts r.scopes = []
  /-- Another list is given to the database, and an error is the one of the database. -/
  creates : nameOk r = true → scopeParts r.scopes ≠ [] →
    (∃ e, createRow L env auth r db = .error e ∧
      createApiKey L env auth r db = .error (.ofDbError e)) ∨
        ∃ out, createApiKey L env auth r db = .ok out
  /-- With a digest of 32 bytes and a generated key without U+0000 the database takes the row
  exactly when it is storable, -/
  creates_iff : (∀ b, (L.sha256 b).length = 32) → hasNul env.key = false → nameOk r = true →
    scopeParts r.scopes ≠ [] →
      ((∃ out, createApiKey L env auth r db = .ok out) ↔ Storable L env auth r db)
  /-- and the row that it adds has the scopes of the list. -/
  stores : ∀ resp db', createApiKey L env auth r db = .ok (resp, db') → ∃ row,
    db'.apiKeys.rows = db.apiKeys.rows ++ [row] ∧ row.scopes = parseScopes r.scopes ∧
      resp.scopes = parseScopes r.scopes

variable {L env auth r db}

lemma validate_of_nameOk (h : nameOk r = true) :
    r.validate = if 1 ≤ r.scopes.length then [] else [noScopes] := by
  rw [nameOk] at h
  rw [CreateApiKeyRequest.validate, if_pos h, List.nil_append]

/-- The empty list has no scopes. -/
lemma scopeParts_of_length (h : ¬ 1 ≤ r.scopes.length) : scopeParts r.scopes = [] := by
  have hempty : r.scopes = "" := by
    rw [← String.length_eq_zero_iff]
    omega
  rw [hempty]
  rfl

/-- The error of the list of scopes is one of the validation only for the empty list. -/
lemma scopeParts_of_noScopes_mem (h : noScopes ∈ r.validate) : scopeParts r.scopes = [] := by
  by_cases hlen : 1 ≤ r.scopes.length
  · rw [CreateApiKeyRequest.validate, if_pos hlen, List.append_nil] at h
    split at h
    · cases h
    · exact absurd (List.mem_singleton.1 h) (by decide)
  · exact scopeParts_of_length hlen

lemma hasNul_eq_false_iff {s : String} : hasNul s = false ↔ Char.ofNat 0 ∉ s.toList := by
  rw [hasNul, ← Bool.not_eq_true, List.contains_iff_mem]

lemma hasNul_hexEncode (b : Bytes) : hasNul (hexEncode b) = false := by
  have hdigit : ∀ n < 16, Nat.digitChar n ≠ Char.ofNat 0 := by decide
  rw [hasNul_eq_false_iff, hexEncode, String.toList_ofList, List.mem_flatMap]
  rintro ⟨x, -, hx⟩
  have hlt : x.toNat < 256 := x.toNat_lt
  rcases List.mem_pair.1 hx with h | h
  · exact hdigit _ (by omega) h.symm
  · exact hdigit _ (by omega) h.symm

/-- The row of a request whose name is accepted fits into its columns when its texts have no
U+0000: a digest has 64 digits, and the prefix of a key 10 characters. -/
lemma check_new_iff_of_nameOk (hsha : ∀ b, (L.sha256 b).length = 32)
    (hkey : hasNul env.key = false) (hname : nameOk r = true) (tenantId id : Uuid)
    (now : DateTime) :
    ApiKey.schema.check (ApiKey.new L
        { tenantId
          name := r.name
          scopes := parseScopes r.scopes
          expiresAt := r.expiresAt } env.key id now) = true ↔
      hasNul r.name = false ∧ ∀ s ∈ parseScopes r.scopes, hasNul s = false := by
  have hlength : r.name.length ≤ 255 := by
    simp only [nameOk, StartTask.lengthOk, Bool.and_eq_true, decide_eq_true_eq] at hname
    omega
  have hprefix : Tenant.varchar 10 (ApiKey.extractPrefix env.key) = true := by
    have hnul : hasNul (ApiKey.extractPrefix env.key) = false := by
      rw [hasNul_eq_false_iff] at hkey ⊢
      rw [ApiKey.extractPrefix, String.toList_ofList]
      exact fun h => hkey (List.mem_of_mem_take h)
    rw [Tenant.varchar, hnul, ApiKey.extractPrefix, String.length_ofList]
    simp
  have hhash : Tenant.varchar 64 (ApiKey.hashKey L env.key) = true := by
    rw [Tenant.varchar, ApiKey.hashKey, hasNul_hexEncode, length_hexEncode, hsha]
    rfl
  simp only [ApiKey.schema, ApiKey.new, hprefix, hhash, Bool.and_true, Bool.and_eq_true,
    List.all_eq_true, Bool.not_eq_true']
  simp [Tenant.varchar, hlength]

/-- **When the row of a key is created.** -/
lemma exists_createRow_iff (hsha : ∀ b, (L.sha256 b).length = 32) (hkey : hasNul env.key = false)
    (hname : nameOk r = true) :
    (∃ out, createRow L env auth r db = .ok out) ↔ Storable L env auth r db := by
  rw [createRow, ApiKey.exists_create_iff, check_new_iff_of_nameOk hsha hkey hname]
  constructor
  · rintro ⟨⟨hnul, hscopes⟩, hid, hhash, htenant⟩
    exact ⟨htenant, hid, hhash, hnul, hscopes⟩
  · rintro ⟨htenant, hid, hhash, hnul, hscopes⟩
    exact ⟨⟨hnul, hscopes⟩, hid, hhash, htenant⟩

/-- A row that has been created has the scopes, and it is the last one of the table. -/
lemma rows_of_createRow {row : ApiKey} {key : String} {apiKeys : ApiKeyTable}
    (h : createRow L env auth r db = .ok ((row, key), apiKeys)) :
    apiKeys.rows = db.apiKeys.rows ++ [row] ∧ row.scopes = parseScopes r.scopes := by
  obtain ⟨rfl, -, hinsert⟩ := ApiKey.create_eq_ok h
  exact ⟨(Table.insert_eq_ok hinsert).2.2, rfl⟩

/-- **What `create_api_key` can do**: it rejects the request, it rejects the list of scopes, or it
does what the database does. -/
lemma createApiKey_cases :
    (r.validate.isEmpty = false ∧
        createApiKey L env auth r db = .error (.validationError r.validate)) ∨
      (r.validate.isEmpty = true ∧ scopeParts r.scopes = [] ∧
        createApiKey L env auth r db = .error (.validationError [noScopes])) ∨
      (scopeParts r.scopes ≠ [] ∧ ∃ e, createRow L env auth r db = .error e ∧
        createApiKey L env auth r db = .error (.ofDbError e)) ∨
      scopeParts r.scopes ≠ [] ∧ ∃ row key apiKeys resp,
        createRow L env auth r db = .ok ((row, key), apiKeys) ∧
          createApiKey L env auth r db = .ok (resp, { db with apiKeys }) ∧
            resp.scopes = row.scopes := by
  cases hvalid : r.validate.isEmpty with
  | false =>
    refine Or.inl ⟨rfl, ?_⟩
    simp only [createApiKey, hvalid, Bool.false_eq_true, if_false]
  | true =>
    by_cases hblank : scopeParts r.scopes = []
    · refine Or.inr (Or.inl ⟨rfl, hblank, ?_⟩)
      simp only [createApiKey, hvalid, parseScopes_eq_nil_iff.2 hblank, List.isEmpty_nil, if_true]
    · have hscopes : (parseScopes r.scopes).isEmpty = false := by
        rw [← Bool.not_eq_true, List.isEmpty_iff, parseScopes_eq_nil_iff]
        exact hblank
      cases hcreate : createRow L env auth r db with
      | error e =>
        refine Or.inr (Or.inr (Or.inl ⟨hblank, e, rfl, ?_⟩))
        rw [createRow] at hcreate
        simp only [createApiKey, hvalid, hscopes, hcreate, if_true, Bool.false_eq_true, if_false]
      | ok created =>
        obtain ⟨⟨row, key⟩, apiKeys⟩ := created
        let resp : CreateApiKeyResponse :=
          { id := Uuid.display row.id
            key := key
            name := row.name
            scopes := row.scopes
            createdAt := row.createdAt
            expiresAt := row.expiresAt }
        refine Or.inr (Or.inr (Or.inr ⟨hblank, row, key, apiKeys, resp, rfl, ?_, rfl⟩))
        rw [createRow] at hcreate
        simp only [createApiKey, hvalid, hscopes, hcreate, if_true, Bool.false_eq_true, if_false,
          resp]

/-- With a name that is accepted and scopes, the request succeeds when the row is created. -/
lemma exists_createApiKey_iff (hname : nameOk r = true) (hparts : scopeParts r.scopes ≠ []) :
    (∃ out, createApiKey L env auth r db = .ok out) ↔
      ∃ out, createRow L env auth r db = .ok out := by
  rcases @createApiKey_cases L env auth r db with
    ⟨hvalid, -⟩ | ⟨-, hblank, -⟩ | ⟨-, e, hcreate, hresult⟩ |
      ⟨-, row, key, apiKeys, resp, hcreate, hresult, -⟩
  · rw [validate_of_nameOk hname] at hvalid
    split at hvalid
    · cases hvalid
    · rename_i hlen
      exact absurd (scopeParts_of_length hlen) hparts
  · exact absurd hblank hparts
  · simp [hcreate, hresult]
  · exact iff_of_true ⟨_, hresult⟩ ⟨_, hcreate⟩

/-- An error of the database is none of the validation. -/
lemma ofDbError_ne_validationError (e : DbError) (details : List ValidationErrorDetail) :
    ApiError.ofDbError e ≠ .validationError details := by
  cases e with
  | constraint name =>
    rw [ApiError.ofDbError]
    split <;> simp
  | other message => simp [ApiError.ofDbError]

/-- **The list of scopes of a request is handled as it is meant to be.** -/
lemma handlesScopes (L : Libs) (env : Surroundings) (auth : AuthContext) (r : CreateApiKeyRequest)
    (db : Database) : HandlesScopes L env auth r db := by
  have hiff : (∀ b, (L.sha256 b).length = 32) → hasNul env.key = false → nameOk r = true →
      scopeParts r.scopes ≠ [] →
        ((∃ out, createApiKey L env auth r db = .ok out) ↔ Storable L env auth r db) := by
    intro hsha hkey hname hparts
    rw [exists_createApiKey_iff hname hparts, exists_createRow_iff hsha hkey hname]
  rcases @createApiKey_cases L env auth r db with
    ⟨hvalid, hresult⟩ | ⟨hvalid, hblank, hresult⟩ | ⟨hparts, e, hcreate, hresult⟩ |
      ⟨hparts, row, key, apiKeys, resp, hcreate, hresult, hscopes⟩
  · -- with a name that is accepted, it is the empty list that is rejected
    have hname : nameOk r = true → r.validate = [noScopes] := by
      intro hname
      rw [validate_of_nameOk hname] at hvalid ⊢
      split
      · rename_i hlen
        rw [if_pos hlen] at hvalid
        cases hvalid
      · rfl
    refine ⟨by simp [hresult], fun h _ => by rw [hresult, hname h], ?_, ?_, hiff,
      by simp [hresult]⟩
    · intro details hdetails hmem
      obtain rfl : r.validate = details := by simpa [hresult] using hdetails
      exact scopeParts_of_noScopes_mem hmem
    · intro h hparts
      refine absurd (scopeParts_of_noScopes_mem ?_) hparts
      rw [hname h]
      exact List.mem_singleton.2 rfl
  · exact ⟨by simp [hresult], fun _ _ => hresult, fun _ _ _ => hblank,
      fun _ hparts => absurd hblank hparts, hiff, by simp [hresult]⟩
  · refine ⟨fun h => absurd h hparts, fun _ h => absurd h hparts, ?_,
      fun _ _ => Or.inl ⟨e, hcreate, hresult⟩, hiff, by simp [hresult]⟩
    intro details hdetails
    rw [hresult, Except.error.injEq] at hdetails
    exact absurd hdetails (ofDbError_ne_validationError e details)
  · obtain ⟨hrows, hrow⟩ := rows_of_createRow hcreate
    refine ⟨fun h => absurd h hparts, fun _ h => absurd h hparts, by simp [hresult],
      fun _ _ => Or.inr ⟨_, hresult⟩, hiff, ?_⟩
    intro resp' db' hok
    rw [hresult] at hok
    cases hok
    exact ⟨row, hrows, hrow, hscopes.trans hrow⟩

end CreateApiKey

/-- **Lists of scopes**: what is read are scopes that can stand in a list, and such scopes are read
back from their list; a longer list is read piece by piece; what is read are the parts between the
commas that are not blank, trimmed and in their order; and `create_api_key` stores exactly them,
for every request. -/
theorem scopeList_exact :
    (∀ t, ∀ s ∈ parseScopes t, IsListedScope s) ∧
    (∀ t, parseScopes (",".intercalate (parseScopes t)) = parseScopes t) ∧
    (∀ l, (∀ s ∈ l, IsListedScope s) → parseScopes (",".intercalate l) = l) ∧
    (∀ a b, parseScopes (a ++ "," ++ b) = parseScopes a ++ parseScopes b) ∧
    (∀ t, List.Forall₂ TrimsTo (scopeParts t) (parseScopes t)) ∧
    ∀ L env auth r db, HandlesScopes L env auth r db := by
  refine ⟨fun t s hs => isListedScope_of_mem hs, ?_, fun l hl => parseScopes_intercalate hl,
    parseScopes_append, forall₂_trimsTo, handlesScopes⟩
  intro t
  exact parseScopes_intercalate fun s hs => isListedScope_of_mem hs

/-- A request for a key with two scopes, one of which has a blank inside. -/
def sampleKeyRequest : CreateApiKeyRequest := ⟨"ci", ",\t read: task ,*", none⟩

/-- The key is created with the two scopes, which are read back from their list. -/
theorem scopeList_exact_sampleKeyRequest :
    (∃ resp db', createApiKey .sample sampleSurroundings (.fromJwt 3 7) sampleKeyRequest
        (sampleDatabase sampleAlone) = .ok (resp, db') ∧
      db'.apiKeys.rows.map ApiKey.scopes = [["read: task", "*"]]) ∧
    IsListedScope "read: task" ∧
      parseScopes (",".intercalate ["read: task", "*"]) = ["read: task", "*"] := by
  have hparse : parseScopes sampleKeyRequest.scopes = ["read: task", "*"] := by decide +kernel
  have hlisted : ∀ s ∈ ["read: task", "*"], IsListedScope s := by
    rw [← hparse]
    exact scopeList_exact.1 sampleKeyRequest.scopes
  have hhandles := scopeList_exact.2.2.2.2.2 .sample sampleSurroundings (.fromJwt 3 7)
    sampleKeyRequest (sampleDatabase sampleAlone)
  have hparts : scopeParts sampleKeyRequest.scopes ≠ [] := by
    rw [ne_eq, ← parseScopes_eq_nil_iff, hparse]
    exact List.cons_ne_nil _ _
  have hstorable : Storable .sample sampleSurroundings (.fromJwt 3 7) sampleKeyRequest
      (sampleDatabase sampleAlone) := by
    refine ⟨by decide, rfl, fun k hk => absurd hk List.not_mem_nil, by decide, ?_⟩
    rw [hparse]
    decide
  obtain ⟨⟨resp, db'⟩, hok⟩ :=
    (hhandles.creates_iff Sha256.length_sha256 (by decide) (by decide) hparts).2 hstorable
  obtain ⟨row, hrows, hscopes, -⟩ := hhandles.stores resp db' hok
  refine ⟨⟨resp, db', hok, ?_⟩, hlisted _ (by simp), scopeList_exact.2.2.1 _ hlisted⟩
  rw [hrows, List.map_append, List.map_singleton, hscopes, hparse]
  rfl

end AxonTask.Api
