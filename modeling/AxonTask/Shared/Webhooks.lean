import AxonTask.Lib.Hmac
import AxonTask.Lib.Machine
import AxonTask.Shared.EventFields
import AxonTask.Shared.PartialUpdates

/-!
# Webhooks and their signatures (`axontask-shared/src/models/webhook.rs`)

The statements on `webhooks`, the signature of a payload, and the machine of the statements
in any order.  A receiver that holds the secret of a webhook checks a signature by computing
it; what an accepted signature then tells is where and since when its secret was in use.
-/

namespace AxonTask

open Lib

/-- `CreateWebhook`. -/
structure CreateWebhook where
  tenantId : Uuid
  url : String
  events : List String := ["task.succeeded", "task.failed"]

namespace Webhook

/-- The length of what `Webhook::generate_secret` returns. -/
def secretLength : ℕ := 32

/-- `Webhook::generate_signature`; a block of SHA-256 has 64 bytes. -/
def generateSignature (L : Libs) (w : Webhook) (payload : Bytes) : String :=
  hexEncode (Hmac.mac L.sha256 64 w.secret payload)

/-- The row that `Webhook::create` inserts, with the defaults of the table. -/
def new (data : CreateWebhook) (secret : Bytes) (id : Uuid) (now : DateTime) : Webhook where
  id := id
  tenantId := data.tenantId
  url := data.url
  secret := secret
  active := true
  events := data.events
  createdAt := now
  updatedAt := now

/-- The error for a row that does not satisfy the constraints of the table. -/
def rejectedRow (data : CreateWebhook) : DbError :=
  if hasNul data.url || data.events.any hasNul then
    .other "invalid byte sequence for encoding \"UTF8\": 0x00"
  else if Tenant.varchar 2048 data.url then .constraint "webhooks_url_check"
  else tooLong

/-- `Webhook::create`, with what `generate_secret` returns, when the row of the tenant exists
or not. -/
def create (T : WebhookTable) (tenantExists : Bool) (data : CreateWebhook) (secret : Bytes)
    (id : Uuid) (now : DateTime) : Except DbError (Webhook × WebhookTable) :=
  match T.insert (new data secret id now) with
  | .error .check => .error (rejectedRow data)
  | .error .unique => .error (.constraint "webhooks_pkey")
  | .ok T' =>
    if tenantExists then .ok (new data secret id now, T')
    else .error (.constraint "webhooks_tenant_id_fkey")

/-- The SET list of `Webhook::toggle_active`. -/
def setActive (active : Bool) (now : DateTime) (w : Webhook) : Webhook :=
  { w with active, updatedAt := now }

/-- `Webhook::toggle_active`. -/
def toggleActive (T : WebhookTable) (id : Uuid) (active : Bool) (now : DateTime) :
    Except Violation (Bool × WebhookTable) :=
  (T.updateKey id (fun _ => true) (setActive active now) fun _ => rfl).map fun (w, T') =>
    (w.isSome, T')

/-- `Webhook::delete`. -/
def delete (T : WebhookTable) (id : Uuid) : Bool × WebhookTable :=
  ((T.row id).isSome, T.delete fun w => decide (w.id = id))

@[simp] lemma schema_key (w : Webhook) : schema.key w = w.id := rfl

lemma create_eq_ok {T T' : WebhookTable} {tenantExists : Bool} {data : CreateWebhook}
    {secret : Bytes} {id : Uuid} {now : DateTime} {w : Webhook}
    (h : create T tenantExists data secret id now = .ok (w, T')) :
    w = new data secret id now ∧ T.insert w = .ok T' ∧ tenantExists = true := by
  unfold create at h
  split at h
  · cases h
  · cases h
  · rename_i T₁ hinsert
    split at h
    · rename_i htenant
      cases h
      exact ⟨rfl, hinsert, htenant⟩
    · cases h

end Webhook

/-! ### The statements in any order -/

/-- A statement on `webhooks`; the secrets are what `generate_secret` returns. -/
inductive WebhookOp
  | create (data : CreateWebhook) (secret : Bytes) (id : Uuid) (tenantExists : Bool)
  | update (id : Uuid) (data : UpdateWebhook) (secret : Bytes)
  | toggleActive (id : Uuid) (active : Bool)
  | delete (id : Uuid)

/-- The table, and what `generate_secret` has returned so far. -/
structure WebhookState where
  table : WebhookTable
  generated : List Bytes

/-- The secret that a statement generates. -/
def WebhookOp.secret : WebhookOp → Option Bytes
  | .create _ secret _ _ => some secret
  | .update _ data secret => if data.regenerateSecret then some secret else none
  | _ => none

/-- The row that a statement is about. -/
def WebhookOp.id : WebhookOp → Uuid
  | .create _ _ id _ | .update id _ _ | .toggleActive id _ | .delete id => id

namespace WebhookState

/-- The table after a statement; a rejected one leaves it. -/
def exec (T : WebhookTable) (now : DateTime) : WebhookOp → WebhookTable
  | .create data secret id tenantExists =>
    match Webhook.create T tenantExists data secret id now with
    | .ok (_, T') => T'
    | .error _ => T
  | .update id data secret => (Webhook.update T id data secret now).2
  | .toggleActive id active =>
    match Webhook.toggleActive T id active now with
    | .ok (_, T') => T'
    | .error _ => T
  | .delete id => (Webhook.delete T id).2

/-- A statement at the time `now`. -/
def step (s : WebhookState) : WebhookOp × DateTime → Option WebhookState
  | (op, now) => some ⟨exec s.table now op, s.generated ++ op.secret.toList⟩

/-- The statements in any order, from an empty table. -/
def machine : Machine WebhookState (WebhookOp × DateTime) where
  Init s := s = ⟨Table.empty Webhook.schema, []⟩
  step := step

/-- A generated secret has its length, and has not been generated before. -/
def Random (s : WebhookState) (a : WebhookOp × DateTime) : Prop :=
  ∀ secret ∈ a.1.secret, secret.length = Webhook.secretLength ∧ secret ∉ s.generated

instance (s : WebhookState) (a : WebhookOp × DateTime) : Decidable (Random s a) :=
  match h : a.1.secret with
  | none => isTrue fun secret hs => by rw [h] at hs; cases hs
  | some secret =>
    decidable_of_iff (secret.length = Webhook.secretLength ∧ secret ∉ s.generated) (by
      simp [Random, h])

/-! ### Where a secret comes from -/

/-- **Origin of a row.**  It had its secret before under its id, or the statement has generated
the secret. -/
lemma secret_of_exec {T : WebhookTable} {now : DateTime} {op : WebhookOp} {w' : Webhook}
    (hw' : w' ∈ (exec T now op).rows) :
    (∃ w ∈ T.rows, w.id = w'.id ∧ w.secret = w'.secret) ∨
      op.secret = some w'.secret ∧ op.id = w'.id := by
  have hkept : w' ∈ T.rows → ∃ w ∈ T.rows, w.id = w'.id ∧ w.secret = w'.secret := fun h =>
    ⟨w', h, rfl, rfl⟩
  cases op with
  | create data secret id tenantExists =>
    simp only [exec] at hw'
    split at hw'
    · rename_i w T' hcreate
      obtain ⟨rfl, hinsert, -⟩ := Webhook.create_eq_ok hcreate
      rcases (Table.mem_rows_insert hinsert).1 hw' with hmem | rfl
      · exact Or.inl (hkept hmem)
      · exact Or.inr ⟨rfl, rfl⟩
    · exact Or.inl (hkept hw')
  | update id data secret =>
    have hspec := Webhook.updatesRow_update T id data secret now
    simp only [exec] at hw'
    cases hout : (Webhook.update T id data secret now).1 with
    | error e =>
      rw [hspec.error e hout] at hw'
      exact Or.inl (hkept hw')
    | ok o =>
      cases o with
      | none =>
        rw [hspec.ok_none hout] at hw'
        exact Or.inl (hkept hw')
      | some new =>
        obtain ⟨⟨old, hold, hassigned⟩, hrow, hothers⟩ := hspec.ok_some new hout
        have hrow' := Table.row_key_of_mem hw'
        by_cases hid : Webhook.schema.key w' = id
        · rw [hid, hrow] at hrow'
          obtain rfl := Option.some.inj hrow'
          by_cases hregenerate : data.regenerateSecret = true
          · refine Or.inr ⟨?_, hid.symm⟩
            rw [hassigned]
            simp [WebhookOp.secret, hregenerate]
          · left
            refine ⟨old, Table.mem_of_row hold, ?_, ?_⟩
            · rw [hassigned]
            · rw [hassigned]
              simp [hregenerate]
        · rw [hothers _ hid] at hrow'
          exact Or.inl (hkept (Table.mem_of_row hrow'))
  | toggleActive id active =>
    simp only [exec] at hw'
    split at hw'
    · rename_i toggled T' htoggle
      obtain ⟨r, hupdate, hr⟩ := map_eq_ok htoggle
      cases hr
      rw [(Table.update_eq_ok (Table.update_of_updateKey hupdate)).2] at hw'
      obtain ⟨w, hw, rfl⟩ := Table.mem_updateRows hw'
      refine Or.inl ⟨w, hw, ?_⟩
      split <;> exact ⟨rfl, rfl⟩
    · exact Or.inl (hkept hw')
  | delete id => exact Or.inl (hkept (List.mem_of_mem_filter hw'))

variable {s s' : WebhookState} {a : WebhookOp × DateTime} {l : List (WebhookOp × DateTime)}

/-- **Inversion of a step.** -/
lemma step_eq_some (h : machine.step s a = some s') :
    s'.table = exec s.table a.2 a.1 ∧ s'.generated = s.generated ++ a.1.secret.toList := by
  cases h
  exact ⟨rfl, rfl⟩

/-- What has been generated stays so, and a row whose secret had been generated before a run
had this secret already at its start. -/
lemma secret_of_run (h : machine.Run Random s l s') :
    s.generated ⊆ s'.generated ∧ ∀ w' ∈ s'.table.rows, w'.secret ∈ s.generated →
      ∃ w ∈ s.table.rows, w.id = w'.id ∧ w.secret = w'.secret := by
  refine h.preserves (P := fun u => s.generated ⊆ u.generated ∧
    ∀ w' ∈ u.table.rows, w'.secret ∈ s.generated →
      ∃ w ∈ s.table.rows, w.id = w'.id ∧ w.secret = w'.secret) ?_
    ⟨List.Subset.refl _, fun w hw _ => ⟨w, hw, rfl, rfl⟩⟩
  rintro u a u' hrandom ⟨hsub, hrows⟩ hstep
  obtain ⟨htable, hgenerated⟩ := step_eq_some hstep
  refine ⟨?_, ?_⟩
  · rw [hgenerated]
    exact fun x hx => List.mem_append_left _ (hsub hx)
  · intro w' hw' hold
    rw [htable] at hw'
    rcases secret_of_exec hw' with ⟨w, hw, hid, hsecret⟩ | ⟨hnew, -⟩
    · obtain ⟨w₀, hw₀, hid₀, hsecret₀⟩ := hrows w hw (hsecret ▸ hold)
      exact ⟨w₀, hw₀, hid₀.trans hid, hsecret₀.trans hsecret⟩
    · -- a secret of this step is not an old one
      exact absurd (hsub hold) (hrandom _ hnew).2

/-- Every secret in use has been generated, and none is in use twice. -/
structure Inv (s : WebhookState) : Prop where
  generated : ∀ w ∈ s.table.rows, w.secret ∈ s.generated ∧ w.secret.length = Webhook.secretLength
  distinct : ∀ w ∈ s.table.rows, ∀ w' ∈ s.table.rows, w.secret = w'.secret → w.id = w'.id

lemma Inv.step (hi : Inv s) (hrandom : Random s a) (h : machine.step s a = some s') : Inv s' := by
  obtain ⟨htable, hgenerated⟩ := step_eq_some h
  refine ⟨?_, ?_⟩
  · intro w' hw'
    rw [htable] at hw'
    rw [hgenerated]
    rcases secret_of_exec hw' with ⟨w, hw, -, hsecret⟩ | ⟨hnew, -⟩
    · rw [← hsecret]
      exact ⟨List.mem_append_left _ (hi.generated w hw).1, (hi.generated w hw).2⟩
    · exact ⟨List.mem_append_right _ (by simp [hnew]), (hrandom _ hnew).1⟩
  · intro w₁ hw₁ w₂ hw₂ hsame
    rw [htable] at hw₁ hw₂
    rcases secret_of_exec hw₁ with ⟨v₁, hv₁, hid₁, hsecret₁⟩ | ⟨hnew₁, hid₁⟩
    · rcases secret_of_exec hw₂ with ⟨v₂, hv₂, hid₂, hsecret₂⟩ | ⟨hnew₂, -⟩
      · rw [← hid₁, ← hid₂]
        exact hi.distinct v₁ hv₁ v₂ hv₂ (hsecret₁.trans (hsame.trans hsecret₂.symm))
      · have hused := (hi.generated v₁ hv₁).1
        rw [hsecret₁, hsame] at hused
        exact absurd hused (hrandom _ hnew₂).2
    · rcases secret_of_exec hw₂ with ⟨v₂, hv₂, -, hsecret₂⟩ | ⟨-, hid₂⟩
      · have hused := (hi.generated v₂ hv₂).1
        rw [hsecret₂, ← hsame] at hused
        exact absurd hused (hrandom _ hnew₁).2
      · exact hid₁.symm.trans hid₂

lemma inv_of_reachable (h : machine.Reachable Random s) : Inv s := by
  refine h.invariant (P := Inv) ?_ fun _ _ _ hrandom hi hstep => hi.step hrandom hstep
  rintro _ rfl
  constructor <;> intro w hw <;> cases hw

/-- Signatures agree exactly for the same secret and the same payload. -/
lemma generateSignature_eq_iff {L : Libs} {w w' : Webhook} {payload payload' : Bytes}
    (hw : w.secret.length = Webhook.secretLength) (hw' : w'.secret.length = Webhook.secretLength)
    (hcf : Set.InjOn L.sha256
      (Hmac.inputs L.sha256 64 w.secret payload ∪ Hmac.inputs L.sha256 64 w'.secret payload')) :
    w.generateSignature L payload = w'.generateSignature L payload' ↔
      w.secret = w'.secret ∧ payload = payload' := by
  rw [Webhook.generateSignature, Webhook.generateSignature, hexEncode_injective.eq_iff]
  exact Hmac.mac_eq_mac_iff (by rw [hw, Webhook.secretLength]; omega) (hw'.trans hw.symm) hcf

/-- A step that regenerates the secret of a webhook. -/
def Regenerates (id : Uuid) (s : WebhookState) (a : WebhookOp × DateTime) : Prop :=
  ∃ data secret new, a.1 = .update id data secret ∧ data.regenerateSecret = true ∧
    (Webhook.update s.table id data secret a.2).1 = .ok (some new)

/-- After such a step the webhook has a secret that had not been generated before. -/
lemma fresh_of_regenerates {id : Uuid} (hreg : Regenerates id s a) (hrandom : Random s a)
    (h : machine.step s a = some s') {w' : Webhook} (hw' : w' ∈ s'.table.rows) (hid : w'.id = id) :
    w'.secret ∉ s.generated := by
  obtain ⟨data, secret, new, hop, hregenerate, hok⟩ := hreg
  obtain ⟨⟨old, -, hassigned⟩, hrow, -⟩ :=
    (Webhook.updatesRow_update s.table id data secret a.2).ok_some new hok
  have htable : s'.table = (Webhook.update s.table id data secret a.2).2 := by
    rw [(step_eq_some h).1, hop]
    rfl
  have hrow' := Table.row_key_of_mem hw'
  rw [Webhook.schema_key, hid, htable, hrow] at hrow'
  obtain rfl := Option.some.inj hrow'
  rw [hassigned]
  simp only [hregenerate, if_true]
  exact (hrandom secret (by simp [hop, WebhookOp.secret, hregenerate])).2

/-- **A signature tells the webhook, the payload and the time of the secret.**  Let `w` be
stored in a reachable state and `w'` in a later one.  Their signatures of two payloads agree
exactly when the payloads are the same and `w'` is `w` with the secret that it had.  Once the
secret of `w` has been regenerated, no webhook makes one of its old signatures again. -/
theorem signatures_authenticate {L : Libs} (hs : machine.Reachable Random s)
    (hrun : machine.Run Random s l s') {w w' : Webhook} (hw : w ∈ s.table.rows)
    (hw' : w' ∈ s'.table.rows) {payload payload' : Bytes}
    (hcf : Set.InjOn L.sha256
      (Hmac.inputs L.sha256 64 w.secret payload ∪ Hmac.inputs L.sha256 64 w'.secret payload')) :
    (w.generateSignature L payload = w'.generateSignature L payload' ↔
      w.id = w'.id ∧ w.secret = w'.secret ∧ payload = payload') ∧
    ∀ l₁ s₁ a s₂ l₂, machine.Run Random s l₁ s₁ → Regenerates w.id s₁ a → Random s₁ a →
      machine.step s₁ a = some s₂ → machine.Run Random s₂ l₂ s' →
      w.generateSignature L payload ≠ w'.generateSignature L payload' := by
  have hi := inv_of_reachable hs
  have hi' := inv_of_reachable (hs.run hrun)
  have hiff := generateSignature_eq_iff (hi.generated w hw).2 (hi'.generated w' hw').2 hcf
  -- a row with the secret of `w` is the row of `w`
  have hsame : w.secret = w'.secret → w.id = w'.id := by
    intro hsecret
    obtain ⟨v, hv, hid, hv'⟩ :=
      (secret_of_run hrun).2 w' hw' (hsecret ▸ (hi.generated w hw).1)
    rw [← hid]
    exact hi.distinct w hw v hv (hsecret.trans hv'.symm)
  refine ⟨?_, ?_⟩
  · rw [hiff]
    constructor
    · rintro ⟨hsecret, hpayload⟩
      exact ⟨hsame hsecret, hsecret, hpayload⟩
    · rintro ⟨-, h⟩
      exact h
  · intro l₁ s₁ a s₂ l₂ hrun₁ hreg hrandom hstep hrun₂ hsig
    obtain ⟨hsecret, -⟩ := hiff.1 hsig
    have hold := (secret_of_run hrun₁).1 (hi.generated w hw).1
    have hgenerated : w'.secret ∈ s₂.generated := by
      rw [← hsecret, (step_eq_some hstep).2]
      exact List.mem_append_left _ hold
    obtain ⟨v, hv, hid, hv'⟩ := (secret_of_run hrun₂).2 w' hw' hgenerated
    refine fresh_of_regenerates hreg hrandom hstep hv (hid.trans (hsame hsecret).symm) ?_
    rw [hv', ← hsecret]
    exact hold

/-- The creation of webhook 5, and the regeneration of its secret. -/
def rotation : (WebhookOp × DateTime) × (WebhookOp × DateTime) :=
  ((.create { tenantId := 7, url := "https://example.com/hook" } (List.replicate 32 1) 5 true, 0),
    (.update 5 { regenerateSecret := true } (List.replicate 32 2), 1))

/-- After the creation, and after both statements. -/
def rotated : Option (WebhookState × WebhookState) :=
  (machine.exec Random ⟨Table.empty Webhook.schema, []⟩ [rotation.1]).bind fun s =>
    (machine.exec Random s [rotation.2]).map fun s' => (s, s')

/-- The signature of the empty payload changes with the secret. -/
theorem signatures_authenticate_rotated : ∃ s s' w w', rotated = some (s, s') ∧
    s.table.row 5 = some w ∧ s'.table.row 5 = some w' ∧
    w.generateSignature Libs.sample [] ≠ w'.generateSignature Libs.sample [] := by
  have hobs : rotated.map (fun p => ((p.1.table.row 5).map Webhook.secret,
      (p.2.table.row 5).map Webhook.secret)) =
      some (some (List.replicate 32 1), some (List.replicate 32 2)) := by decide +kernel
  obtain ⟨⟨s, s'⟩, hs, hrows⟩ := Option.map_eq_some_iff.1 hobs
  obtain ⟨u, hu, hu'⟩ := Option.bind_eq_some_iff.1 hs
  obtain ⟨u', hexec, hpair⟩ := Option.map_eq_some_iff.1 hu'
  obtain ⟨rfl, rfl⟩ := Prod.mk.inj hpair
  obtain ⟨hrow, hrow'⟩ := Prod.mk.inj hrows
  obtain ⟨w, hw, hsecret⟩ := Option.map_eq_some_iff.1 hrow
  obtain ⟨w', hw', hsecret'⟩ := Option.map_eq_some_iff.1 hrow'
  have hreach : machine.Reachable Random u := ⟨_, _, rfl, Machine.run_of_exec hu⟩
  have hnodup : (([Hmac.inner Sha256.sha256 64 w.secret [], Hmac.outer Sha256.sha256 64 w.secret [],
      Hmac.inner Sha256.sha256 64 w'.secret [], Hmac.outer Sha256.sha256 64 w'.secret []] :
      List Bytes).map Sha256.sha256).Nodup := by
    rw [hsecret, hsecret']
    decide +kernel
  refine ⟨u, u', w, w', hs, hw, hw', ?_⟩
  intro hsig
  have hsame := ((signatures_authenticate hreach (Machine.run_of_exec hexec) (Table.mem_of_row hw)
    (Table.mem_of_row hw') ?_).1.1 hsig).2.1
  · rw [hsecret, hsecret'] at hsame
    exact absurd hsame (by decide)
  · have hinj := List.inj_on_of_nodup_map hnodup
    intro x hx y hy hxy
    refine hinj ?_ ?_ hxy
    · rcases hx with (rfl | rfl) | (rfl | rfl) <;> simp [Libs.sample]
    · rcases hy with (rfl | rfl) | (rfl | rfl) <;> simp [Libs.sample]

end WebhookState

end AxonTask
