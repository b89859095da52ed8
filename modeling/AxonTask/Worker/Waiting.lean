import Mathlib.Data.List.Perm.Subperm
import AxonTask.Worker.ClaimRace

/-!
# How long a task waits

A claim that neither takes a pending task nor finds it blocked is full: it takes as many tasks
as it was asked for, and none of them is younger.  A task is handed out once, so the pending
tasks that are not younger bound what such claims can take, however the calls overlap.
-/

namespace AxonTask

open Lib

namespace ClaimRace

variable {κ : Type*} [DecidableEq κ] {s s' : ClaimRace κ}

/-! ### Where a pending task comes from -/

/-- A task that is pending after a step was so before it, or the step has created it. -/
lemma pending_before_of_step {a : ClaimStep κ} (hi : Inv s) (h : step s a = some s') {id : Uuid}
    {u' : Task} (hu' : s'.tasks.row id = some u') (hpending : u'.state = .pending) :
    (∃ u, s.tasks.row id = some u ∧ u.state = .pending ∧ u.createdAt = u'.createdAt) ∨
      ∃ data, a = .create data id u'.createdAt := by
  have hback : ∀ st now, Lifecycle.step s.tasks (st, now) = some s'.tasks →
      (∀ data, st ≠ .create data id) →
      ∃ u, s.tasks.row id = some u ∧ u.state = .pending ∧ u.createdAt = u'.createdAt := by
    intro st now hst hnew
    obtain ⟨u, hu, -, hage, -⟩ := Lifecycle.row_before_of_step hi.rows hst hnew hu'
    have hbefore : Task.rowState s.tasks id = some .pending := by
      by_contra hne
      exact Lifecycle.rowState_ne_pending_of_step hi.rows hst hnew hne
        (Task.rowState_eq_some_iff.2 ⟨u', hu', hpending⟩)
    obtain ⟨u₀, hu₀, hstate⟩ := Task.rowState_eq_some_iff.1 hbefore
    obtain rfl : u₀ = u := Option.some.inj (hu₀.symm.trans hu)
    exact ⟨u₀, hu, hstate, hage.symm⟩
  by_cases hcreate : ∃ data id' now, a = .create data id' now
  · obtain ⟨data, id', now, rfl⟩ := hcreate
    simp only [step] at h
    split at h
    · cases h
    · rename_i hnew
      obtain ⟨T, hT, rfl⟩ := Option.map_eq_some_iff.1 h
      by_cases hid : id' = id
      · subst hid
        rcases Lifecycle.row_cases hT id' with hsame | ⟨data', -, -, hrow⟩ | ⟨hdelete, -⟩ |
          ⟨_, u, -, hu, -⟩
        · exact Or.inl ⟨u', hsame ▸ hu', hpending, rfl⟩
        · obtain rfl : Task.new data' id' now = u' := Option.some.inj (hrow.symm.trans hu')
          exact Or.inr ⟨data, rfl⟩
        · cases hdelete
        · exact absurd (hi.ids id' u hu) hnew
      · exact Or.inl (hback _ now hT fun data' heq => hid (by cases heq; rfl))
  · refine Or.inl ?_
    cases effect_of_step hi h with
    | create hcall =>
      cases a with
      | create data id' now => exact absurd ⟨data, id', now, rfl⟩ hcreate
      | claim | scan | start | lock | commit | abort => cases hcall
    | proceed _ _ htasks _ _ => exact ⟨u', htasks ▸ hu', hpending, rfl⟩
    | commit _ _ hcommits =>
      obtain ⟨st, now, hst, -, hnew⟩ := hcommits.step
      exact hback st now hst fun data => hnew data id

/-- The same for a run. -/
lemma pending_before_of_run {l : List (ClaimStep κ)} (hi : Inv s)
    (h : (machine κ).Run Machine.anyStep s l s') {id : Uuid} {u' : Task}
    (hu' : s'.tasks.row id = some u') (hpending : u'.state = .pending) :
    (∃ u, s.tasks.row id = some u ∧ u.state = .pending ∧ u.createdAt = u'.createdAt) ∨
      ∃ data, .create data id u'.createdAt ∈ l := by
  induction h generalizing u' with
  | nil => exact Or.inl ⟨u', hu', hpending, rfl⟩
  | @snoc s₁ s₂ l a hrun _ hstep ih =>
    have hi₁ : Inv s₁ := hrun.preserves (fun _ _ _ _ hi => hi.step) hi
    rcases pending_before_of_step hi₁ hstep hu' hpending with ⟨u, hu, hstate, hage⟩ | ⟨data, rfl⟩
    · rw [← hage]
      exact (ih hu hstate).imp_right fun ⟨data, hmem⟩ => ⟨data, List.mem_append_left _ hmem⟩
    · exact Or.inr ⟨data, by simp⟩

/-! ### Claims that are full -/

/-- A claim that has returned has as many tasks as it was asked for, or it has visited its
whole snapshot. -/
def Full (snapshot : List Task) (limit : ℕ) (passed : Uuid → Prop) (c : Call) : Prop :=
  ∀ tasks, c = .returned tasks → limit ≤ tasks.length ∨
    ∀ t ∈ snapshot, t.id ∈ tasks.map Task.id ∨ passed t.id

/-- A call runs once. -/
lemma calls_of_done {a : ClaimStep κ} {k : κ} (hi : Inv s) (h : step s a = some s')
    (hidle : s.calls k ≠ .idle) (hdone : (s.calls k).inFlight = false) :
    s'.calls k = s.calls k := by
  refine calls_of_step hi h fun hcall => ?_
  have hnot : ∀ k', some k' = some k → (s.calls k').inFlight = false ∧ s.calls k' ≠ .idle := by
    rintro k' ⟨⟩
    exact ⟨hdone, hidle⟩
  cases a with
  | create => cases hcall
  | claim k' | scan k' | start k' | lock k' | commit k' | abort k' =>
    obtain ⟨hdone, hidle⟩ := hnot k' hcall
    cases hk : s.calls k' <;> simp_all [step, Call.inFlight]

/-- A scan that returns is at its end. -/
lemma returned_of_step {a : ClaimStep κ} {k : κ} {c : Scan} {tasks : List Task} (hi : Inv s)
    (hk : s.calls k = .scanning c) (h : step s a = some s') (hret : s'.calls k = .returned tasks) :
    (c.todo = [] ∨ c.limit ≤ c.locked.length) ∧ tasks.map Task.id = c.locked := by
  by_cases hcall : a.call = some k
  swap
  · rw [calls_of_step hi h hcall, hk] at hret
    cases hret
  have hvalid := hi.valid k
  cases a with
  | create => cases hcall
  | claim k' q limit order =>
    obtain rfl : k' = k := Option.some.inj hcall
    simp [step, hk] at h
  | start k' st id =>
    obtain rfl : k' = k := Option.some.inj hcall
    simp [step, hk] at h
  | lock k' =>
    obtain rfl : k' = k := Option.some.inj hcall
    simp [step, hk] at h
  | scan k' =>
    obtain rfl : k' = k := Option.some.inj hcall
    simp only [step] at h
    split at h
    · split at h
      · cases h
      · split at h <;> cases h <;> simp at hret
    · cases h
  | commit k' now =>
    obtain rfl : k' = k := Option.some.inj hcall
    rw [hk] at hvalid
    simp only [step, hk] at h
    split at h <;> cases h
    rename_i hend
    cases hclaim : TaskQueue.claimTasks s.tasks c.locked now with
    | error v =>
      rw [hclaim, ClaimRace.finish, calls_ret] at hret
      cases hret
    | ok r =>
      rw [hclaim, ClaimRace.finish, calls_ret] at hret
      obtain rfl : r.1 = tasks := by simpa using hret
      exact ⟨hend, (commits_claimTasks hi.rows hvalid.2.1.of_append_left hvalid.1 hclaim).2⟩
  | abort k' =>
    obtain rfl : k' = k := Option.some.inj hcall
    simp only [step] at h
    split at h <;> cases h
    rw [calls_ret] at hret
    cases hret

/-- **A claim is full.**  What it leaves of its snapshot, when it returns fewer tasks than it
was asked for, its scan has passed over. -/
lemma full_of_run {s₁ : ClaimRace κ} {l : List (ClaimStep κ)} {k : κ} {q : TaskQueue}
    {limit : Option UInt64} {order : List Uuid} (hi : Inv s)
    (hclaim : step s (.claim k q limit order) = some s₁)
    (h : (machine κ).Run Machine.anyStep s₁ l s') :
    Full (order.filterMap s.tasks.row) (q.limit limit).toInt.toNat (PassedOver s₁ l k)
      (s'.calls k) := by
  induction h with
  | nil =>
    intro tasks hret
    simp only [step] at hclaim
    split at hclaim
    · split at hclaim
      · split at hclaim <;> cases hclaim <;> simp at hret
      · cases hclaim
    · cases hclaim
  | @snoc s₂ s₃ l a hrun _ hstep ih =>
    intro tasks hret
    have hrun' : (machine κ).Run Machine.anyStep s (.claim k q limit order :: l) s₂ :=
      Machine.Run.cons trivial hclaim hrun
    have hi₂ : Inv s₂ := hrun'.preserves (fun _ _ _ _ hi => hi.step) hi
    have hp := progress_of_run hi hclaim hrun
    have hmono : ∀ id, PassedOver s₁ l k id → PassedOver s₁ (l ++ [a]) k id :=
      fun id hid => hid.append [a]
    cases hk : s₂.calls k with
    | idle | waiting | holding =>
      rw [hk] at hp
      exact hp.elim
    | failed =>
      rw [calls_of_done hi₂ hstep (by simp [hk]) (by simp [hk, Call.inFlight]), hk] at hret
      cases hret
    | returned tasks' =>
      rw [calls_of_done hi₂ hstep (by simp [hk]) (by simp [hk, Call.inFlight])] at hret
      exact (ih tasks hret).imp_right fun hall t ht => (hall t ht).imp_right (hmono t.id)
    | scanning c =>
      rw [hk] at hp
      obtain ⟨hlimit, -, seen, hsplit, -, hseen⟩ := hp
      obtain ⟨hend, hids⟩ := returned_of_step hi₂ hk hstep hret
      rcases hend with hnil | hlen
      · refine Or.inr fun t ht => ?_
        rw [hsplit, hnil, List.append_nil] at ht
        rw [hids]
        exact (hseen t ht).imp_right (hmono t.id)
      · refine Or.inl ?_
        rwa [← hlimit, ← List.length_map, hids]

/-! ### Overtaking -/

/-- In the run `l` from `s` to `s'`, the call `k` claims while the task is pending, its scan does
not pass over the task, and it has returned without the task. -/
def Overtakes (s : ClaimRace κ) (l : List (ClaimStep κ)) (s' : ClaimRace κ) (id : Uuid) (k : κ)
    (q : TaskQueue) (limit : Option UInt64) : Prop :=
  ∃ l₁ order l₂ s₁ s₂, l = l₁ ++ .claim k q limit order :: l₂ ∧
    (machine κ).Run Machine.anyStep s l₁ s₁ ∧ Lifecycle.isPending s₁.tasks id = true ∧
    (machine κ).step s₁ (.claim k q limit order) = some s₂ ∧
    (machine κ).Run Machine.anyStep s₂ l₂ s' ∧ ¬s₂.PassedOver l₂ k id ∧
    ∃ tasks, s'.calls k = .returned tasks ∧ id ∉ tasks.map Task.id

/-- The tasks that are pending and not younger than `t`, without `t`. -/
def ahead (s : ClaimRace κ) (t : Task) : List Task :=
  s.tasks.rows.filter fun u =>
    decide (u.state = .pending) && decide (u.createdAt ≤ t.createdAt) && decide (u.id ≠ t.id)

variable {l : List (ClaimStep κ)} {t : Task} {k : κ} {q : TaskQueue} {limit : Option UInt64}

/-- What overtakes a task is full, and what it takes is ahead of the task. -/
lemma Overtakes.spec (hi : Inv s) (ht : s.tasks.row t.id = some t)
    (hclock : ∀ data id now, .create data id now ∈ l → t.createdAt < now)
    (h : s.Overtakes l s' t.id k q limit) :
    (s'.calls k).handed.length = (q.limit limit).toInt.toNat ∧
      ∀ u ∈ (s'.calls k).handed, u.id ∈ (s.ahead t).map Task.id := by
  obtain ⟨l₁, order, l₂, s₁, s₂, rfl, hrun₁, hpending, hclaim, hrun₂, hpassed, tasks, hret, hid⟩ :=
    h
  have hi₁ : Inv s₁ := hrun₁.preserves (fun _ _ _ _ hi => hi.step) hi
  obtain ⟨t₁, ht₁, hstate⟩ := Lifecycle.isPending_iff.1 hpending
  have hage₁ : t₁.createdAt = t.createdAt := createdAt_of_run hi hrun₁ ht ht₁
  have hid₁ : t₁.id = t.id := Table.key_of_row ht₁
  have horder := pendingOrder_of_claim hclaim
  have hmem : t₁ ∈ order.filterMap s₁.tasks.row :=
    horder.mem_snapshot (Table.mem_of_row ht₁) hstate
  have hp := progress_of_run hi₁ hclaim hrun₂
  have hfull := full_of_run hi₁ hclaim hrun₂ tasks hret
  rw [hret] at hp ⊢
  obtain ⟨⟨todo, hlen, seen, hsplit, hsub, hseen⟩, hage⟩ := hp
  -- the task is in the part of the snapshot that has not been visited
  have hnot : ¬(t₁.id ∈ tasks.map Task.id ∨ PassedOver s₂ l₂ k t₁.id) := by
    rw [hid₁]
    exact not_or.2 ⟨hid, hpassed⟩
  have htodo : t₁ ∈ todo := by
    rw [hsplit] at hmem
    exact (List.mem_append.1 hmem).resolve_left fun hmem => hnot (hseen t₁ hmem)
  refine ⟨?_, ?_⟩
  · rw [List.length_map] at hlen
    exact le_antisymm hlen (hfull.resolve_right fun hall => hnot (hall t₁ hmem))
  · intro u hu
    obtain ⟨u₁, hu₁, huid⟩ := List.mem_map.1 (hsub u.id (List.mem_map_of_mem hu))
    have hle : u₁.createdAt ≤ t.createdAt := by
      have hsorted := horder.2
      rw [hsplit] at hsorted
      rw [← hage₁]
      exact (List.pairwise_append.1 hsorted).2.2 u₁ hu₁ t₁ htodo
    have hsnap : u₁ ∈ order.filterMap s₁.tasks.row := hsplit ▸ List.mem_append_left _ hu₁
    obtain ⟨id, hidorder, hrow⟩ := List.mem_filterMap.1 hsnap
    obtain rfl : u₁.id = id := Table.key_of_row hrow
    obtain ⟨u₂, hu₂, hstate₂⟩ := horder.mem_iff.1 hidorder
    obtain rfl : u₂ = u₁ := Option.some.inj (hu₂.symm.trans hrow)
    rcases pending_before_of_run hi hrun₁ hrow hstate₂ with ⟨u₀, hu₀, hstate₀, hage₀⟩ |
      ⟨data, hcreate⟩
    · have hid₀ : u₀.id = u₂.id := Table.key_of_row hu₀
      have hne : u₀.id ≠ t.id := by
        rw [hid₀, huid]
        rintro heq
        exact hid (heq ▸ List.mem_map_of_mem hu)
      refine List.mem_map.2 ⟨u₀, List.mem_filter.2 ⟨Table.mem_of_row hu₀, ?_⟩, hid₀.trans huid⟩
      rw [← hage₀] at hle
      simp [hstate₀, hle, hne]
    · have hlt := hclock data u₂.id u₂.createdAt (List.mem_append_left _ hcreate)
      exact absurd hlt (not_lt.2 hle)

/-- **Bounded waiting.**  While a task is pending, whatever calls overlap and whatever tasks are
created later: a claim that returns without the task, though its scan has not passed over it,
has as many tasks as it was asked for; and all claims of this kind together have no more tasks
than were pending and not younger at the start. -/
theorem bounded_waiting (h : (machine κ).Reachable Machine.anyStep s)
    (ht : t ∈ s.tasks.rows) (hrun : (machine κ).Run Machine.anyStep s l s')
    (hclock : ∀ data id now, .create data id now ∈ l → t.createdAt < now) :
    (∀ k q limit, s.Overtakes l s' t.id k q limit →
      (s'.calls k).handed.length = (q.limit limit).toInt.toNat) ∧
    ∀ ks : List κ, ks.Nodup → (∀ k ∈ ks, ∃ q limit, s.Overtakes l s' t.id k q limit) →
      (ks.map fun k => (s'.calls k).handed.length).sum ≤ (s.ahead t).length := by
  have hi := reachable_inv h
  have hi' : Inv s' := hrun.preserves (fun _ _ _ _ hi => hi.step) hi
  have hrow : s.tasks.row t.id = some t := Table.row_key_of_mem ht
  refine ⟨fun k q limit hover => (hover.spec hi hrow hclock).1, ?_⟩
  intro ks hks hover
  have hnodup : (ks.flatMap fun k => (s'.calls k).handed.map Task.id).Nodup := by
    refine List.nodup_flatMap.2 ⟨fun k _ => hi'.nodup k, hks.imp ?_⟩
    intro k k' hne id hid hid'
    obtain ⟨u, hu, rfl⟩ := List.mem_map.1 hid
    obtain ⟨u', hu', heq⟩ := List.mem_map.1 hid'
    exact hne (hi'.exclusive k k' u u' hu hu' heq.symm)
  have hsub : (ks.flatMap fun k => (s'.calls k).handed.map Task.id) ⊆ (s.ahead t).map Task.id := by
    intro id hid
    obtain ⟨k, hk, hid⟩ := List.mem_flatMap.1 hid
    obtain ⟨u, hu, rfl⟩ := List.mem_map.1 hid
    obtain ⟨q, limit, hover⟩ := hover k hk
    exact (hover.spec hi hrow hclock).2 u hu
  have hle := (List.subperm_of_subset hnodup hsub).length_le
  simpa [List.length_flatMap] using hle

/-- A claim for one task visits the older of two tasks. -/
theorem bounded_waiting_twoTasks : ∃ (s s' : ClaimRace ℕ) (t : Task),
    (machine ℕ).exec Machine.anyStep (start ℕ)
      [.create Lifecycle.sampleTask 1 0, .create Lifecycle.sampleTask 2 1] = some s ∧
    (machine ℕ).Run Machine.anyStep s [.claim 0 {} (some 1) [1, 2], .scan 0, .commit 0 2] s' ∧
    t ∈ s.tasks.rows ∧ t.id = 2 ∧ ([0].map fun k => (s'.calls k).handed.length).sum = 1 ∧
      1 ≤ (s.ahead t).length := by
  have hrun : (((machine ℕ).exec Machine.anyStep (start ℕ)
      [.create Lifecycle.sampleTask 1 0, .create Lifecycle.sampleTask 2 1]).bind fun s =>
      ((machine ℕ).step s (.claim 0 {} (some 1) [1, 2])).bind fun s₁ =>
        ((machine ℕ).exec Machine.anyStep s₁ [.scan 0, .commit 0 2]).map fun s' =>
          ((s.tasks.row 2).map Task.createdAt, Lifecycle.isPending s.tasks 2, s₁.next 0,
            (s'.calls 0).handed.map Task.id)) =
      some (some 1, true, some 1, [1]) := by decide +kernel
  obtain ⟨s, hs, hrun⟩ := Option.bind_eq_some_iff.1 hrun
  obtain ⟨s₁, hclaim, hrun⟩ := Option.bind_eq_some_iff.1 hrun
  obtain ⟨s', hs', hobs⟩ := Option.map_eq_some_iff.1 hrun
  simp only [Prod.mk.injEq] at hobs
  obtain ⟨hrow, hpending, hnext, hhanded⟩ := hobs
  obtain ⟨t, ht, hage⟩ := Option.map_eq_some_iff.1 hrow
  have hid : t.id = 2 := Table.key_of_row ht
  have hall := Machine.Run.cons trivial hclaim (Machine.run_of_exec hs')
  -- the first row that the scan visits is the other one, and it visits no second one
  have hpassed : ¬s₁.PassedOver [.scan 0, .commit 0 2] 0 2 := by
    rintro ⟨l₁, l₂, s₂, hsplit, hrun₂, hnext₂, -⟩
    have hnil : l₁ = [] := by
      match l₁, hsplit with
      | [], _ => rfl
      | [_], hsplit => simp at hsplit
      | [_, _], hsplit => simp at hsplit
    cases hrun₂ with
    | nil => simp [hnext] at hnext₂
    | snoc => simp at hnil
  have hmem : t ∈ s.tasks.rows := Table.mem_of_row ht
  have hover : s.Overtakes [.claim 0 {} (some 1) [1, 2], .scan 0, .commit 0 2] s' t.id 0 {}
      (some 1) := by
    obtain ⟨tasks, hret⟩ : ∃ tasks, s'.calls 0 = .returned tasks := by
      cases hk : s'.calls 0 with
      | returned tasks => exact ⟨tasks, rfl⟩
      | _ => simp [hk, Call.handed] at hhanded
    rw [hret] at hhanded
    refine ⟨[], [1, 2], _, s, s₁, rfl, Machine.Run.nil s, hid ▸ hpending, hclaim,
      Machine.run_of_exec hs', hid ▸ hpassed, tasks, hret, ?_⟩
    rw [hid, show tasks.map Task.id = [1] from hhanded]
    decide
  have hbound := (bounded_waiting ⟨_, _, rfl, Machine.run_of_exec hs⟩ hmem hall (by simp)).2 [0]
    (by simp) (by simpa using ⟨{}, some 1, hover⟩)
  have hone : ([0].map fun k => (s'.calls k).handed.length).sum = 1 := by
    simpa using congrArg List.length hhanded
  exact ⟨s, s', t, hs, hall, hmem, hid, hone, hone ▸ hbound⟩

end ClaimRace

end AxonTask
