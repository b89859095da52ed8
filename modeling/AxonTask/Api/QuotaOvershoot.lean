import AxonTask.Api.Insertable
import AxonTask.Api.QuotaRace

/-!
# How far the daily quota is exceeded (`start_task`)

The daily check holds nothing, so requests that overlap exceed the quota.  They exceed it by no
more than their number: while a request is between its check and its insertion, at most so many
others may be there.  The bound cannot be improved.
-/

namespace AxonTask

open Lib

/-- A tenant that uses less than the limit of its plan is within its quota. -/
lemma QuotaEnforcer.enforce_of_usage_lt {tenants : TenantTable} {T : TaskTable} {now : DateTime}
    {tenantId : Uuid} {q : QuotaType} (hsome : (tenants.row tenantId).isSome = true)
    (h : (usage T now tenantId q).toNat < limitOf tenants tenantId q) :
    enforce tenants T now tenantId q = .ok () := by
  obtain ⟨tenant, ht⟩ := Option.isSome_iff_exists.1 hsome
  rw [limitOf, ht, Option.bind_some] at h
  have hlt : ¬ (QuotaLimits.forPlan (tenant.getPlan.getD .trial)).get q ≤
      usage T now tenantId q := by
    rw [UInt32.le_iff_toNat_le]
    omega
  simp only [enforce, check, ht, if_neg hlt, QuotaCheckResult.ofAllowed, if_true]

namespace Api.QuotaRace

variable {tenants : TenantTable} {t : Uuid} {k : ℕ} {s s' : QuotaRace} {now : DateTime}

/-- A request of the tenant passes the daily check only while at most `k` others have passed it
and have not inserted their tasks yet. -/
def Overlapping (t : Uuid) (k : ℕ) (s : QuotaRace) : QuotaStep × DateTime → Prop
  | (.checkDaily i, _) => isCallOf t s i = true → inFlight t s ≤ k
  | _ => True

instance (s : QuotaRace) : ∀ a, Decidable (Overlapping t k s a)
  | (.checkDaily _, _) => inferInstanceAs (Decidable (_ = true → _ ≤ _))
  | (.request .., _) | (.checkConcurrent _, _) | (.insert .., _) | (.fail _, _)
  | (.other _, _) => isTrue trivial

/-! ### The bound -/

/-- A move under the condition keeps the load within the bound. -/
lemma load_le_of_move (hsmall : QuotaEnforcer.limitOf tenants t .dailyTasks + k < 2 ^ 32)
    {a : QuotaStep} (hrows : Lifecycle.RowsInv s.tasks) (hC : Overlapping t k s (a, s.clock))
    (hi : load t s ≤ QuotaEnforcer.limitOf tenants t .dailyTasks + k)
    (h : move tenants s.clock s a = some s') :
    load t s' ≤ QuotaEnforcer.limitOf tenants t .dailyTasks + k := by
  rcases load_of_move (t := t) hrows h with hload | ⟨hpasses, hload⟩
  · exact hload.trans hi
  · have hdaily : daily t s.clock s < 2 ^ 32 :=
      ((Nat.le_add_right _ _).trans hi).trans_lt hsmall
    have hroom := daily_lt_of_passes hdaily hpasses
    obtain ⟨i, c, rfl, hcall, ht, -⟩ := hpasses
    have hfew : inFlight t s ≤ k := hC (by simp [isCallOf, hcall, ht])
    rw [hload, load]
    omega

lemma load_le_of_reachable (hsmall : QuotaEnforcer.limitOf tenants t .dailyTasks + k < 2 ^ 32)
    (h : (machine tenants).Reachable (Overlapping t k) s) :
    load t s ≤ QuotaEnforcer.limitOf tenants t .dailyTasks + k := by
  refine h.invariant_of_reachable (P := fun s =>
    load t s ≤ QuotaEnforcer.limitOf tenants t .dailyTasks + k) ?_ ?_
  · rintro s ⟨hs, hcalls⟩
    simp [load, daily, inFlight, hs, hcalls, Table.count, Table.empty]
  · rintro s ⟨a, now⟩ s' hr hC hi hstep
    obtain ⟨hle, hmove⟩ := move_of_step hstep
    have hrows := Lifecycle.reachable_rowsInv (tasks_reachable hr)
    have htick : load t { s with clock := now } ≤ load t s :=
      Nat.add_le_add_right (daily_mono hle) _
    exact load_le_of_move (s := { s with clock := now }) hsmall hrows
      (by cases a <;> exact hC) (htick.trans hi) hmove

/-! ### The bound is reached -/

/-- `n` tasks of the tenant have just been created and none runs; `m` requests are on their way. -/
structure Crowd (t : Uuid) (n m : ℕ) (s : QuotaRace) : Prop where
  clock : s.clock = 0
  daily : daily t 0 s = n
  idle : s.tasks.count (QuotaEnforcer.isRunning t) = 0
  ids : ∀ r ∈ s.tasks.rows, r.id.toNat < n
  calls : ∀ c ∈ s.calls, c.auth = .fromJwt 3 t ∧ c.request = sampleRequest
  inFlight : inFlight t s = m

lemma crowd_start (t : Uuid) : Crowd t 0 0 start where
  clock := rfl
  daily := rfl
  idle := rfl
  ids := fun r hr => by cases hr
  calls := fun c hc => by cases hc
  inFlight := rfl

/-- One more call, made by a user of the tenant. -/
def withCall (t : Uuid) (s : QuotaRace) (pc : StartPc) : QuotaRace :=
  { s with calls := s.calls ++ [⟨.fromJwt 3 t, sampleRequest, pc⟩] }

lemma getElem?_withCall (pc : StartPc) :
    (withCall t s pc).calls[s.calls.length]? = some ⟨.fromJwt 3 t, sampleRequest, pc⟩ := by
  simp [withCall]

lemma goto_withCall (pc pc' : StartPc) :
    goto (withCall t s pc) s.calls.length ⟨.fromJwt 3 t, sampleRequest, pc⟩ pc' =
      withCall t s pc' := by
  simp [goto, withCall]

variable {n m : ℕ}

lemma Crowd.checkQuota_concurrent (h : Crowd t n m s) (hsome : (tenants.row t).isSome = true) :
    StartTask.checkQuota tenants s.tasks 0 (.fromJwt 3 t) .concurrentTasks = .ok () := by
  have husage : (QuotaEnforcer.usage s.tasks 0 t .concurrentTasks).toNat = 0 := by
    rw [QuotaEnforcer.usage, QuotaEnforcer.countConcurrentTasks, h.idle]
    rfl
  have hlimit : 0 < QuotaEnforcer.limitOf tenants t .concurrentTasks := by
    unfold QuotaEnforcer.limitOf
    cases ((tenants.row t).bind Tenant.getPlan).getD .trial <;> decide
  exact mapError_eq_ok.2 (QuotaEnforcer.enforce_of_usage_lt hsome (husage ▸ hlimit))

lemma Crowd.checkQuota_daily (h : Crowd t n m s) (hsome : (tenants.row t).isSome = true)
    (hn : n < QuotaEnforcer.limitOf tenants t .dailyTasks) :
    StartTask.checkQuota tenants s.tasks 0 (.fromJwt 3 t) .dailyTasks = .ok () := by
  have husage : (QuotaEnforcer.usage s.tasks 0 t .dailyTasks).toNat = n := by
    have hcount : s.tasks.count (QuotaEnforcer.isSince t (QuotaEnforcer.dayBefore 0)) = n := h.daily
    rw [QuotaEnforcer.usage, QuotaEnforcer.countDailyTasks, hcount,
      UInt32.toNat_ofNat_of_lt' (hn.trans (limitOf_lt t .dailyTasks))]
  exact mapError_eq_ok.2 (QuotaEnforcer.enforce_of_usage_lt hsome (husage ▸ hn))

lemma Crowd.withCall (h : Crowd t n m s) : Crowd t n (m + 1) (QuotaRace.withCall t s .dailyOk) where
  clock := h.clock
  daily := h.daily
  idle := h.idle
  ids := h.ids
  calls := by
    intro c hc
    rcases List.mem_append.1 hc with hold | hnew
    · exact h.calls c hold
    · obtain rfl := List.mem_singleton.1 hnew
      exact ⟨rfl, rfl⟩
  inFlight := by
    rw [QuotaRace.inFlight, QuotaRace.withCall, List.countP_append, ← h.inFlight]
    simp [QuotaRace.inFlight, isPending, StartPc.isPast, AuthContext.fromJwt]

lemma step_at_zero (h : s.clock = 0) (a : QuotaStep) :
    step tenants s (a, 0) = move tenants 0 s a := by
  obtain ⟨tasks, clock, calls⟩ := s
  obtain rfl : clock = 0 := h
  rfl

lemma move_checkConcurrent {i : ℕ} {auth : AuthContext} {r : StartTaskRequest}
    (hi : s.calls[i]? = some ⟨auth, r, .received⟩)
    (hcheck : StartTask.checkQuota tenants s.tasks now auth .concurrentTasks = .ok ()) :
    move tenants now s (.checkConcurrent i) =
      some (goto s i ⟨auth, r, .received⟩ .concurrentOk) := by
  simp only [move, hi, hcheck, afterCheck]

lemma move_checkDaily {i : ℕ} {auth : AuthContext} {r : StartTaskRequest}
    (hi : s.calls[i]? = some ⟨auth, r, .concurrentOk⟩)
    (hcheck : StartTask.checkQuota tenants s.tasks now auth .dailyTasks = .ok ()) :
    move tenants now s (.checkDaily i) = some (goto s i ⟨auth, r, .concurrentOk⟩ .dailyOk) := by
  simp only [move, hi, hcheck, afterCheck]

/-- A request that finds fewer tasks than the limit passes both checks. -/
lemma Crowd.enter (h : Crowd t n m s) (hsome : (tenants.row t).isSome = true)
    (hn : n < QuotaEnforcer.limitOf tenants t .dailyTasks) (hm : m ≤ k) :
    ∃ l, (machine tenants).Run (Overlapping t k) s l (QuotaRace.withCall t s .dailyOk) := by
  have hrequest : step tenants s (.request (.fromJwt 3 t) sampleRequest, 0) =
      some (QuotaRace.withCall t s .received) := step_at_zero h.clock _
  have hconcurrent : step tenants (QuotaRace.withCall t s .received)
      (.checkConcurrent s.calls.length, 0) = some (QuotaRace.withCall t s .concurrentOk) := by
    rw [step_at_zero (s := QuotaRace.withCall t s .received) h.clock,
      move_checkConcurrent (getElem?_withCall .received) (h.checkQuota_concurrent hsome),
      goto_withCall]
  have hdaily : step tenants (QuotaRace.withCall t s .concurrentOk)
      (.checkDaily s.calls.length, 0) = some (QuotaRace.withCall t s .dailyOk) := by
    rw [step_at_zero (s := QuotaRace.withCall t s .concurrentOk) h.clock,
      move_checkDaily (getElem?_withCall .concurrentOk) (h.checkQuota_daily hsome hn),
      goto_withCall]
  refine ⟨_, ((Machine.Run.single ?_ hrequest).snoc ?_ hconcurrent).snoc ?_ hdaily⟩
  · trivial
  · trivial
  · intro _
    have hsame : QuotaRace.inFlight t (QuotaRace.withCall t s .concurrentOk) = m := by
      rw [QuotaRace.inFlight, QuotaRace.withCall, List.countP_append, ← h.inFlight]
      simp [QuotaRace.inFlight, isPending, StartPc.isPast]
    exact hsame.trans_le hm

/-- A request on its way inserts its task. -/
lemma Crowd.leave (h : Crowd t n (m + 1) s) (hn : n < 2 ^ 32) :
    ∃ l s', (machine tenants).Run (Overlapping t k) s l s' ∧ Crowd t (n + 1) m s' := by
  have hpos : 0 < s.calls.countP (isPending t) := by
    have hin : s.calls.countP (isPending t) = m + 1 := h.inFlight
    omega
  obtain ⟨c, hc, hpending⟩ := List.countP_pos_iff.1 hpos
  obtain ⟨i, hi⟩ := List.mem_iff_getElem?.1 hc
  obtain ⟨hauth, hrequest⟩ := h.calls c hc
  obtain ⟨auth, r, pc⟩ := c
  obtain rfl : auth = .fromJwt 3 t := hauth
  obtain rfl : r = sampleRequest := hrequest
  have hpast : pc.isPast = true := (Bool.and_eq_true_iff.1 hpending).2
  obtain rfl : pc = .dailyOk := by
    cases pc <;> first | rfl | cases hpast
  have hid : (BitVec.ofNat 128 n).toNat = n := by
    rw [BitVec.toNat_ofNat]
    exact Nat.mod_eq_of_lt (hn.trans (by decide))
  have hfree : s.tasks.row (BitVec.ofNat 128 n) = none := by
    refine Table.row_eq_none_iff.2 ?_
    intro r hr hkey
    have hlt := h.ids r hr
    rw [show r.id = BitVec.ofNat 128 n from hkey, hid] at hlt
    exact lt_irrefl _ hlt
  obtain ⟨resp, T, hins⟩ : ∃ resp T, StartTask.insert s.tasks (.fromJwt 3 t) sampleRequest
      (BitVec.ofNat 128 n) 0 = .ok (resp, T) := by
    obtain ⟨T, hT⟩ := Table.exists_insert (T := s.tasks)
      (r := Task.new (StartTask.createTask (.fromJwt 3 t) sampleRequest) (BitVec.ofNat 128 n) 0)
      ((check_new_iff (by decide) _ _).2 ⟨by decide, by decide, by decide⟩) hfree
    exact ⟨_, T, by rw [StartTask.insert, Task.create, hT]; rfl⟩
  have hstep : step tenants s (.insert i (BitVec.ofNat 128 n), 0) = some
      { goto s i ⟨.fromJwt 3 t, sampleRequest, .dailyOk⟩ (.returned (.ok resp)) with
        tasks := T } := by
    rw [step_at_zero h.clock]
    simp only [move, hi, hins]
  refine ⟨_, _, Machine.Run.single ?_ hstep, ?_⟩
  · trivial
  have hgoto := inFlight_goto hi t (.returned (.ok resp))
  refine ⟨h.clock, ?_, ?_, ?_, ?_, ?_⟩
  · have hcount : s.tasks.count (QuotaEnforcer.isSince t (QuotaEnforcer.dayBefore 0)) = n := h.daily
    show T.count _ = n + 1
    have hsince : QuotaEnforcer.isSince t (QuotaEnforcer.dayBefore 0) (Task.new
        (StartTask.createTask (.fromJwt 3 t) sampleRequest) (BitVec.ofNat 128 n) 0) = true :=
      isSince_new.2 rfl
    rw [count_of_insert hins, hcount, if_pos hsince]
  · show T.count _ = 0
    rw [count_of_insert hins, h.idle, if_neg (by simp [QuotaEnforcer.isRunning, Task.new])]
  · intro r hr
    rcases (Table.mem_rows_insert (StartTask.insert_eq_ok hins).1).1 hr with hold | rfl
    · exact Nat.lt_succ_of_lt (h.ids r hold)
    · exact hid.trans_lt (Nat.lt_succ_self n)
  · intro c hc'
    rcases List.mem_or_eq_of_mem_set hc' with hold | rfl
    · exact h.calls c hold
    · exact ⟨rfl, rfl⟩
  · rw [if_pos hpending, if_neg (by simp [isPending, StartPc.isPast]), h.inFlight] at hgoto
    exact Nat.succ.inj hgoto

/-- Requests that come one after the other are let in up to the limit. -/
lemma exists_crowd (hsome : (tenants.row t).isSome = true)
    (hn : n ≤ QuotaEnforcer.limitOf tenants t .dailyTasks) :
    ∃ s, (machine tenants).Reachable (Overlapping t k) s ∧ Crowd t n 0 s := by
  induction n with
  | zero => exact ⟨start, Machine.Reachable.init ⟨rfl, rfl⟩, crowd_start t⟩
  | succ n ih =>
    obtain ⟨s, hs, hcrowd⟩ := ih (Nat.le_of_succ_le hn)
    obtain ⟨l, hrun⟩ := hcrowd.enter hsome hn (Nat.zero_le k)
    obtain ⟨l', s', hrun', hcrowd'⟩ := hcrowd.withCall.leave
      (Nat.lt_of_lt_of_le hn (limitOf_lt t .dailyTasks).le)
    exact ⟨s', (hs.run hrun).run hrun', hcrowd'⟩

/-- Requests that are checked together are all let in. -/
lemma Crowd.enter_all (h : Crowd t n 0 s) (hs : (machine tenants).Reachable (Overlapping t k) s)
    (hsome : (tenants.row t).isSome = true)
    (hn : n < QuotaEnforcer.limitOf tenants t .dailyTasks) (hm : m ≤ k + 1) :
    ∃ s', (machine tenants).Reachable (Overlapping t k) s' ∧ Crowd t n m s' := by
  induction m with
  | zero => exact ⟨s, hs, h⟩
  | succ m ih =>
    obtain ⟨s', hs', hcrowd⟩ := ih (Nat.le_of_succ_le hm)
    obtain ⟨l, hrun⟩ := hcrowd.enter hsome hn (Nat.le_of_succ_le_succ hm)
    exact ⟨_, hs'.run hrun, hcrowd.withCall⟩

/-- The requests on their way insert their tasks, one after the other. -/
lemma Crowd.leave_all (h : Crowd t n m s) (hs : (machine tenants).Reachable (Overlapping t k) s)
    (hn : n + m ≤ 2 ^ 32) :
    ∃ s', (machine tenants).Reachable (Overlapping t k) s' ∧ Crowd t (n + m) 0 s' := by
  induction m generalizing n s with
  | zero => exact ⟨s, hs, h⟩
  | succ m ih =>
    obtain ⟨l, s', hrun, hcrowd⟩ := h.leave (by omega)
    obtain ⟨s'', hs'', hcrowd'⟩ := ih hcrowd (hs.run hrun) (by omega)
    exact ⟨s'', hs'', by rwa [show n + (m + 1) = n + 1 + m by omega]⟩

/-- **How far the daily quota is exceeded.**  In every run in which a request of the tenant passes
the daily check only while at most `k` others are between this check and their insertions, the
tenant has at no time created more than `k` tasks above its limit within 24 hours; and for every
tenant there is such a run in which it has created so many. -/
theorem daily_overshoot (tenants : TenantTable) (t : Uuid) (k : ℕ)
    (hsmall : QuotaEnforcer.limitOf tenants t .dailyTasks + k < 2 ^ 32) :
    (∀ s, (machine tenants).Reachable (Overlapping t k) s →
      daily t s.clock s ≤ QuotaEnforcer.limitOf tenants t .dailyTasks + k) ∧
    ((tenants.row t).isSome = true → ∃ s, (machine tenants).Reachable (Overlapping t k) s ∧
      daily t s.clock s = QuotaEnforcer.limitOf tenants t .dailyTasks + k) := by
  constructor
  · intro s h
    exact (Nat.le_add_right _ _).trans (load_le_of_reachable hsmall h)
  · intro hsome
    have hpos : 0 < QuotaEnforcer.limitOf tenants t .dailyTasks := by
      unfold QuotaEnforcer.limitOf
      cases ((tenants.row t).bind Tenant.getPlan).getD .trial <;> decide
    -- one task less than the limit, and then the requests that overlap
    obtain ⟨s, hs, hcrowd⟩ := exists_crowd hsome
      (Nat.sub_le (QuotaEnforcer.limitOf tenants t .dailyTasks) 1)
    obtain ⟨s₁, hs₁, hcrowd₁⟩ := hcrowd.enter_all (m := k + 1) hs hsome (Nat.sub_lt hpos one_pos)
      le_rfl
    obtain ⟨s₂, hs₂, hcrowd₂⟩ := hcrowd₁.leave_all hs₁ (by omega)
    refine ⟨s₂, hs₂, ?_⟩
    have hdaily : daily t s₂.clock s₂ = _ := hcrowd₂.clock ▸ hcrowd₂.daily
    rw [hdaily]
    omega

/-- A tenant on the trial plan creates a hundred and three tasks at once. -/
theorem daily_overshoot_trial : QuotaEnforcer.limitOf sampleTenants 7 .dailyTasks = 100 ∧
    ∃ s, (machine sampleTenants).Reachable (Overlapping 7 3) s ∧ daily 7 s.clock s = 103 := by
  have hlimit : QuotaEnforcer.limitOf sampleTenants 7 .dailyTasks = 100 := by decide +kernel
  obtain ⟨s, hs, hdaily⟩ := (daily_overshoot sampleTenants 7 3
    (by rw [hlimit]; decide)).2 (by decide +kernel)
  exact ⟨hlimit, s, hs, by rw [hdaily, hlimit]⟩

end Api.QuotaRace

end AxonTask
