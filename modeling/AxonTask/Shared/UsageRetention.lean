import AxonTask.Shared.Usage

/-!
# The history of the usage counters and its retention (`axontask-shared/src/models/usage.rs`)

`reset_period` and `delete_before` take rows away between the increments of any number of
clients.  A row then holds what has been counted since it was last taken away, and
`get_history` lists these rows; a retention that ends before the first day asked for does not
change what it returns.
-/

namespace AxonTask

open Lib

namespace UsageCounter

/-- `UsageCounter::get_for_period`. -/
def getForPeriod (T : UsageTable) (tenantId : Uuid) (period : NaiveDate) : Option UsageCounter :=
  T.row (tenantId, period)

/-- `date - integer`; a DATE lies between 4713 BC and 5874897 AD. -/
def dateMinus (date : NaiveDate) (days : Int32) : Except DbError NaiveDate :=
  if -2440588 ≤ date - days.toInt ∧ date - days.toInt < 2145042906 then .ok (date - days.toInt)
  else .error (.other "date out of range")

/-- The rows `WHERE tenant_id = $1 AND period >= first`. -/
def isSince (tenantId : Uuid) (first : NaiveDate) (r : UsageCounter) : Bool :=
  decide (r.tenantId = tenantId) && decide (first ≤ r.period)

/-- `ORDER BY period DESC`. -/
def orderByPeriodDesc (rows : List UsageCounter) : List UsageCounter :=
  rows.mergeSort fun a b => decide (b.period ≤ a.period)

/-- `UsageCounter::get_history`. -/
def getHistory (T : UsageTable) (currentDate : NaiveDate) (tenantId : Uuid) (days : Int32) :
    Except DbError (List UsageCounter) :=
  (dateMinus currentDate days).map fun first =>
    orderByPeriodDesc (T.rows.filter (isSince tenantId first))

/-- `UsageCounter::reset_period`. -/
def resetPeriod (T : UsageTable) (tenantId : Uuid) (period : NaiveDate) : Bool × UsageTable :=
  ((T.row (tenantId, period)).isSome,
    T.delete fun r => decide (r.tenantId = tenantId) && decide (r.period = period))

/-- `UsageCounter::delete_before`. -/
def deleteBefore (T : UsageTable) (beforeDate : NaiveDate) : ℕ × UsageTable :=
  (T.count fun r => decide (r.period < beforeDate),
    T.delete fun r => decide (r.period < beforeDate))

/-! ### Histories of statements -/

/-- A statement that changes the table. -/
inductive UsageOp
  | call (call : Call)
  | resetPeriod (tenantId : Uuid) (period : NaiveDate)
  | deleteBefore (beforeDate : NaiveDate)

/-- What has been counted, and which rows have been taken away. -/
inductive UsageEntry
  | counted (call : Call)
  | cleared (p : Uuid × NaiveDate → Bool)

/-- The table, and the statements that took effect. -/
structure RetentionState where
  table : UsageTable
  log : List UsageEntry

namespace RetentionState

/-- A statement of any client. -/
def step (tenants : Uuid → Bool) (s : RetentionState) : UsageOp → Option RetentionState
  | .call call =>
    match call.exec tenants s.table with
    | (.ok _, table) => some ⟨table, s.log ++ [.counted call]⟩
    | (.error _, table) => some ⟨table, s.log⟩
  | .resetPeriod tenantId period =>
    some ⟨(UsageCounter.resetPeriod s.table tenantId period).2,
      s.log ++ [.cleared fun k => decide (k = (tenantId, period))]⟩
  | .deleteBefore beforeDate =>
    some ⟨(UsageCounter.deleteBefore s.table beforeDate).2,
      s.log ++ [.cleared fun k => decide (k.2 < beforeDate)]⟩

/-- The statements in any order, from an empty table. -/
def machine (tenants : Uuid → Bool) : Machine RetentionState UsageOp where
  Init s := s = ⟨Table.empty schema, []⟩
  step := step tenants

end RetentionState

/-- The calls that have been counted since the row of a key was last taken away. -/
def live (k : Uuid × NaiveDate) (log : List UsageEntry) : List Call :=
  log.foldl (fun calls e =>
    match e with
    | .counted call => calls ++ [call]
    | .cleared p => if p k then [] else calls) []

lemma live_counted (k : Uuid × NaiveDate) (log : List UsageEntry) (call : Call) :
    live k (log ++ [.counted call]) = live k log ++ [call] := by
  rw [live, List.foldl_append]
  rfl

lemma live_cleared (k : Uuid × NaiveDate) (log : List UsageEntry) (p : Uuid × NaiveDate → Bool) :
    live k (log ++ [.cleared p]) = if p k then [] else live k log := by
  rw [live, List.foldl_append]
  rfl

/-! ### What the statements do -/

/-- The row of a key, after the rows of some keys have been taken away. -/
lemma row_delete_keys {T : UsageTable} {q : UsageCounter → Bool} {p : Uuid × NaiveDate → Bool}
    (hq : ∀ r, q r = p (schema.key r)) (k : Uuid × NaiveDate) :
    (T.delete q).row k = if p k then none else T.row k := by
  rw [Table.row_delete]
  cases hr : T.row k with
  | none => simp
  | some r =>
    rw [Option.filter_some, hq, Table.key_of_row hr]
    by_cases hp : p k = true <;> simp [hp]

lemma row_resetPeriod (T : UsageTable) (tenantId : Uuid) (period : NaiveDate)
    (k : Uuid × NaiveDate) :
    (resetPeriod T tenantId period).2.row k = if k = (tenantId, period) then none else T.row k := by
  have hrow := row_delete_keys (T := T) (p := fun k => decide (k = (tenantId, period)))
    (q := fun r => decide (r.tenantId = tenantId) && decide (r.period = period)) (fun r => by
      rw [← Bool.decide_and]
      exact decide_eq_decide.2 Prod.mk_inj.symm) k
  simpa [resetPeriod] using hrow

lemma row_deleteBefore (T : UsageTable) (beforeDate : NaiveDate) (k : Uuid × NaiveDate) :
    (deleteBefore T beforeDate).2.row k = if k.2 < beforeDate then none else T.row k := by
  have hrow := row_delete_keys (T := T) (p := fun k => decide (k.2 < beforeDate))
    (q := fun r => decide (r.period < beforeDate)) (fun r => rfl) k
  simpa [deleteBefore] using hrow

/-- What the table says about a key is what has been counted for it. -/
def Accounted (s : RetentionState) : Prop :=
  ∀ k, ((s.table.row k).isSome = true ↔ ∃ call ∈ live k s.log, call.key = k) ∧
    ∀ c, value s.table k c = total (live k s.log) k c

lemma Accounted.cleared {s s' : RetentionState} (h : Accounted s) {p : Uuid × NaiveDate → Bool}
    (hrow : ∀ k, s'.table.row k = if p k then none else s.table.row k)
    (hlog : s'.log = s.log ++ [.cleared p]) : Accounted s' := by
  intro k
  rw [hlog, live_cleared]
  unfold value
  rw [hrow]
  by_cases hp : p k = true
  · simp [hp, total]
  · rw [if_neg hp, if_neg hp]
    exact h k

/-- **A statement keeps the accounts.** -/
lemma Accounted.step {tenants : Uuid → Bool} {s s' : RetentionState} {op : UsageOp}
    (h : Accounted s)
    (hstep : (RetentionState.machine tenants).step s op = some s') : Accounted s' := by
  cases op with
  | call call =>
    simp only [RetentionState.machine, RetentionState.step] at hstep
    split at hstep
    · rename_i r table hexec
      cases hstep
      intro k
      obtain ⟨-, hrows, -⟩ := Call.exec_ok hexec
      refine ⟨?_, ?_⟩
      · rw [hrows, live_counted]
        by_cases hk : call.key = k
        · rw [if_pos hk]
          simp [hk]
        · rw [if_neg hk, (h k).1]
          simp [hk]
      · intro c
        rw [Call.value_exec hexec, live_counted, total_snoc, (h k).2]
    · rename_i e table hexec
      cases hstep
      have herror : (call.exec tenants s.table).1 = .error e := by rw [hexec]
      have hsame := Call.exec_error herror
      rw [hexec] at hsame
      obtain rfl : table = s.table := hsame
      exact h
  | resetPeriod tenantId period =>
    cases hstep
    refine h.cleared (p := fun k => decide (k = (tenantId, period))) ?_ rfl
    intro k
    simpa using row_resetPeriod s.table tenantId period k
  | deleteBefore beforeDate =>
    cases hstep
    refine h.cleared (p := fun k => decide (k.2 < beforeDate)) ?_ rfl
    intro k
    simpa using row_deleteBefore s.table beforeDate k

lemma accounted_of_reachable {tenants : Uuid → Bool} {s : RetentionState}
    (h : (RetentionState.machine tenants).Reachable Machine.anyStep s) : Accounted s := by
  refine h.invariant (P := Accounted) ?_ fun _ _ _ _ hi hstep => hi.step hstep
  rintro _ rfl k
  exact ⟨by simp [live], fun c => rfl⟩

/-! ### The history that is returned -/

section History

variable {T T' : UsageTable} {currentDate first : NaiveDate} {tenantId : Uuid} {days : Int32}

lemma mem_orderByPeriodDesc {r : UsageCounter} {rows : List UsageCounter} :
    r ∈ orderByPeriodDesc rows ↔ r ∈ rows :=
  List.mem_mergeSort

/-- The latest day comes first, and no day comes twice. -/
lemma pairwise_orderByPeriodDesc (T : UsageTable) (tenantId : Uuid) (first : NaiveDate) :
    (orderByPeriodDesc (T.rows.filter (isSince tenantId first))).Pairwise
      fun a b => b.period < a.period := by
  have hsorted :=
    @List.pairwise_mergeSort _ (fun a b : UsageCounter => decide (b.period ≤ a.period))
    (fun a b c hab hbc => by
      simp only [decide_eq_true_eq] at hab hbc ⊢
      exact hbc.trans hab)
    (fun a b => by
      simp only [Bool.or_eq_true, decide_eq_true_eq]
      exact le_total _ _) (T.rows.filter (isSince tenantId first))
  have hnodup : (orderByPeriodDesc (T.rows.filter (isSince tenantId first))).Pairwise
      fun a b => schema.key a ≠ schema.key b := by
    rw [← List.pairwise_map]
    exact (((List.mergeSort_perm _ _).map schema.key).nodup_iff).2
      (T.keys_nodup.sublist (List.filter_sublist.map _))
  refine (hsorted.and hnodup).imp_of_mem ?_
  rintro a b ha hb ⟨hle, hne⟩
  have hmem : ∀ r ∈ orderByPeriodDesc (T.rows.filter (isSince tenantId first)),
      r.tenantId = tenantId := by
    intro r hr
    have hsel := (List.mem_filter.1 (mem_orderByPeriodDesc.1 hr)).2
    simp only [isSince, Bool.and_eq_true, decide_eq_true_eq] at hsel
    exact hsel.1
  have hperiod : a.period ≠ b.period := by
    intro hsame
    exact hne (Prod.ext ((hmem a ha).trans (hmem b hb).symm) hsame)
  simp only [decide_eq_true_eq] at hle
  exact lt_of_le_of_ne hle (Ne.symm hperiod)

/-- The rows that `get_history` lists are those of the days from the first one on. -/
lemma mem_getHistory {rows : List UsageCounter}
    (h : getHistory T currentDate tenantId days = .ok rows) {r : UsageCounter} :
    r ∈ rows ↔ getForPeriod T tenantId r.period = some r ∧ currentDate - days.toInt ≤ r.period := by
  obtain ⟨first, hfirst, rfl⟩ := map_eq_ok h
  have hdate : first = currentDate - days.toInt := by
    unfold dateMinus at hfirst
    split at hfirst
    · cases hfirst
      rfl
    · cases hfirst
  rw [mem_orderByPeriodDesc, List.mem_filter, isSince, Bool.and_eq_true, decide_eq_true_eq,
    decide_eq_true_eq, hdate, getForPeriod, Table.row_eq_some_iff, and_assoc]
  refine and_congr_right fun _ => and_congr_left fun _ => ?_
  exact ⟨fun h => by rw [← h]; rfl, fun h => congrArg Prod.fst h⟩

/-- A retention that ends before the first day does not show. -/
lemma getHistory_deleteBefore {beforeDate : NaiveDate}
    (hbefore : beforeDate ≤ currentDate - days.toInt) :
    getHistory (deleteBefore T beforeDate).2 currentDate tenantId days =
      getHistory T currentDate tenantId days := by
  unfold getHistory
  cases hfirst : dateMinus currentDate days with
  | error e => rfl
  | ok first =>
    have hdate : first = currentDate - days.toInt := by
      unfold dateMinus at hfirst
      split at hfirst
      · cases hfirst
        rfl
      · cases hfirst
    have hrows : (deleteBefore T beforeDate).2.rows.filter (isSince tenantId first) =
        T.rows.filter (isSince tenantId first) := by
      rw [deleteBefore, Table.delete, List.filter_filter]
      refine List.filter_congr ?_
      intro r _
      by_cases hr : first ≤ r.period
      · have hnot : ¬ r.period < beforeDate := not_lt.2 (hbefore.trans (hdate ▸ hr))
        simp [isSince, hnot]
      · simp [isSince, hr]
    simp only [Except.map, hrows]

end History

/-- **Retention and history.**  In every interleaving of increments, resets and retentions,
`get_history` lists the days of its range for which something has been counted since they were
last taken away, each once and the latest first, as `get_for_period` finds them, with the sums
of the amounts counted since then; retentions that end before the range, in any number, do not
change the answer. -/
theorem history_accounted {tenants : Uuid → Bool} {s : RetentionState}
    (h : (RetentionState.machine tenants).Reachable Machine.anyStep s) (currentDate : NaiveDate)
    (tenantId : Uuid) (days : Int32) :
    (∀ rows, getHistory s.table currentDate tenantId days = .ok rows →
      rows.Pairwise (fun a b => b.period < a.period) ∧
      (∀ p, (∃ r ∈ rows, r.period = p) ↔
        currentDate - days.toInt ≤ p ∧
          ∃ call ∈ live (tenantId, p) s.log, call.key = (tenantId, p)) ∧
      ∀ r ∈ rows, getForPeriod s.table tenantId r.period = some r ∧
        ∀ c, r.get c = total (live (tenantId, r.period) s.log) (tenantId, r.period) c) ∧
    ∀ l s', (RetentionState.machine tenants).Run Machine.anyStep s l s' →
      (∀ op ∈ l, ∃ d ≤ currentDate - days.toInt, op = .deleteBefore d) →
      getHistory s'.table currentDate tenantId days =
        getHistory s.table currentDate tenantId days := by
  have hi := accounted_of_reachable h
  refine ⟨?_, ?_⟩
  · intro rows hrows
    refine ⟨?_, ?_, ?_⟩
    · obtain ⟨first, -, rfl⟩ := map_eq_ok hrows
      exact pairwise_orderByPeriodDesc s.table tenantId first
    · intro p
      rw [← (hi (tenantId, p)).1]
      constructor
      · rintro ⟨r, hr, rfl⟩
        obtain ⟨hrow, hfirst⟩ := (mem_getHistory hrows).1 hr
        exact ⟨hfirst, Option.isSome_iff_exists.2 ⟨r, hrow⟩⟩
      · rintro ⟨hfirst, hsome⟩
        obtain ⟨r, hr⟩ := Option.isSome_iff_exists.1 hsome
        have hperiod : r.period = p := congrArg Prod.snd (Table.key_of_row hr)
        exact ⟨r, (mem_getHistory hrows).2 ⟨hperiod ▸ hr, hperiod ▸ hfirst⟩, hperiod⟩
    · intro r hr
      have hrow := ((mem_getHistory hrows).1 hr).1
      refine ⟨hrow, ?_⟩
      intro c
      rw [← (hi (tenantId, r.period)).2 c, value,
        show s.table.row (tenantId, r.period) = _ from hrow, Option.elim_some]
  · intro l s' hrun hops
    refine (hrun.of_forall_label hops).preserves (P := fun u =>
      getHistory u.table currentDate tenantId days =
        getHistory s.table currentDate tenantId days) ?_ rfl
    rintro u op u' ⟨-, d, hd, rfl⟩ hu hstep
    cases hstep
    rw [← hu]
    exact getHistory_deleteBefore hd

/-- A day that is reset and counted again, and a later one. -/
def resetSteps : List UsageOp :=
  [.call (.incrementTaskMinutes 0 1 5), .resetPeriod 1 0, .call (.incrementTaskMinutes 0 1 3),
    .call (.incrementStreams (2 * 86400000000000) 1), .deleteBefore 0]

/-- The first day has what has been counted after its reset. -/
theorem history_accounted_reset : ∃ s rows,
    (RetentionState.machine fun _ => true).exec Machine.anyStep ⟨Table.empty schema, []⟩
      resetSteps = some s ∧
      getHistory s.table 2 1 2 = .ok rows ∧ ∃ r ∈ rows, r.period = 0 ∧ r.get .taskMinutes = 3 := by
  have hrun : ((RetentionState.machine fun _ => true).exec Machine.anyStep ⟨Table.empty schema, []⟩
      resetSteps).map (fun s => live (1, 0) s.log) =
      some [.incrementTaskMinutes 0 1 3, .incrementStreams (2 * 86400000000000) 1] := by
    decide +kernel
  obtain ⟨s, hs, hlive⟩ := Option.map_eq_some_iff.1 hrun
  have hreach : (RetentionState.machine fun _ => true).Reachable Machine.anyStep s :=
    ⟨_, _, rfl, Machine.run_of_exec hs⟩
  obtain ⟨-, hdays, hsums⟩ := (history_accounted hreach 2 1 2).1 _ rfl
  obtain ⟨r, hr, hperiod⟩ := (hdays 0).2 ⟨by decide, by rw [hlive]; decide⟩
  refine ⟨s, _, hs, rfl, r, hr, hperiod, ?_⟩
  rw [(hsums r hr).2, hperiod, hlive]
  decide

end UsageCounter

end AxonTask
