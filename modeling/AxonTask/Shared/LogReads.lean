import AxonTask.Shared.AppendRace

/-!
# Reading the event log while it grows (`axontask-shared/src/models/task_event.rs`)

`query_range`, `get_latest` and `count` read the log of a task while other processes append
to it.  Since the log carries the numbers `0, 1, …` and only grows at its end, a range that
has been written never changes, and a reader that asks for what follows the last number it
has seen gets every later event once.
-/

namespace AxonTask

open Lib

namespace TaskEvent

/-- `TaskEvent::get_latest`. -/
def getLatest (T : EventTable) (taskId : Uuid) : Option TaskEvent :=
  ((T.rows.filter fun e => decide (e.taskId = taskId)).mergeSort
    fun a b => decide (b.seq ≤ a.seq)).head?

/-- `TaskEvent::count`. -/
def count (T : EventTable) (taskId : Uuid) : ℕ := Table.count T fun e => decide (e.taskId = taskId)

lemma count_eq (T : EventTable) (taskId : Uuid) : count T taskId = (rowsOf T taskId).length :=
  List.countP_eq_length_filter

/-! ### What the reads of a numbered log say -/

section Reads

variable {T : EventTable} {t : Uuid}

lemma getLatest_eq (h : Numbered seq (rowsOf T t)) : getLatest T t = (rowsOf T t).getLast? := by
  have hsort : getLatest T t =
      ((rowsOf T t).mergeSort fun a b => decide (b.seq ≤ a.seq)).head? := rfl
  rw [hsort, h.mergeSort_desc_eq, List.head?_reverse]

lemma orderBySeq_sublist (h : Numbered seq (rowsOf T t)) {l : List TaskEvent}
    (hl : l.Sublist (rowsOf T t)) : orderBySeq l = l :=
  mergeSort_eq_of_pairwise_lt (h.pairwise_lt.sublist hl) (List.Perm.refl l)

/-- A bounded range is a stretch of the log. -/
lemma queryRange_some (h : Numbered seq (rowsOf T t)) (start stop : Int64) :
    queryRange T t start (some stop) =
      ((rowsOf T t).take (stop.toInt + 1).toNat).drop start.toInt.toNat := by
  have hsel : (T.rows.filter fun e => decide (e.taskId = t) && decide (start ≤ e.seq) &&
      (some stop).all fun m => decide (e.seq ≤ m)) =
      (rowsOf T t).filter fun e =>
        decide (start.toInt ≤ e.seq.toInt) && decide (e.seq.toInt < stop.toInt + 1) := by
    rw [rowsOf, List.filter_filter]
    refine List.filter_congr ?_
    intro e _
    simp only [Option.all_some, Int64.le_iff_toInt_le, Int.lt_add_one_iff]
    rw [Bool.and_assoc, Bool.and_comm]
  rw [queryRange, hsel, orderBySeq_sublist h List.filter_sublist, h.filter_range]

/-- An unbounded range is the rest of the log. -/
lemma queryRange_none (h : Numbered seq (rowsOf T t)) (start : Int64) :
    queryRange T t start none = (rowsOf T t).drop start.toInt.toNat := by
  have hsel : (T.rows.filter fun e => decide (e.taskId = t) && decide (start ≤ e.seq) &&
      (none : Option Int64).all fun m => decide (e.seq ≤ m)) =
      (rowsOf T t).filter fun e => decide (start.toInt ≤ e.seq.toInt) &&
        decide (e.seq.toInt < ((rowsOf T t).length : ℤ)) := by
    rw [rowsOf, List.filter_filter]
    refine List.filter_congr ?_
    intro e he
    by_cases ht : e.taskId = t
    · have hmem : e ∈ rowsOf T t := by simp [rowsOf, he, ht]
      obtain ⟨i, hi⟩ := List.mem_iff_getElem?.1 hmem
      have hlt : e.seq.toInt < ((rowsOf T t).length : ℤ) := by
        rw [h.toInt_eq hi]
        exact_mod_cast (List.getElem?_eq_some_iff.1 hi).1
      simpa [ht, Int64.le_iff_toInt_le, rowsOf] using fun _ => hlt
    · simp [ht]
  rw [queryRange, hsel, orderBySeq_sublist h List.filter_sublist, h.filter_range]
  simp

end Reads

/-! ### Reads along a run -/

namespace AppendRace

variable {κ : Type*} [DecidableEq κ] {L : Libs} {s s' : AppendRace κ}

lemma numbered_of_reachable (h : (machine κ L).Reachable Machine.anyStep s) (t : Uuid) :
    Numbered seq (rowsOf s.events t) :=
  (h.invariant (P := Inv L) (fun _ => Inv.init) fun _ _ _ _ hi => hi.step).numbered t

lemma rowsOf_prefix_of_step {a : AppendStep κ} (h : step L s a = some s') (t : Uuid) :
    rowsOf s.events t <+: rowsOf s'.events t := by
  rcases step_cases h with ⟨-, -, hevents, -⟩ | ⟨n, ts, -, hins, -⟩ | ⟨-, hevents, -⟩
  · rw [hevents]
  · rw [rowsOf, rowsOf, (Table.insert_eq_ok hins).2.2, List.filter_append]
    exact List.prefix_append _ _
  · rw [hevents]

/-- The log of a task only grows at its end. -/
lemma rowsOf_prefix_of_run {l : List (AppendStep κ)} (h : (machine κ L).Run Machine.anyStep s l s')
    (t : Uuid) : rowsOf s.events t <+: rowsOf s'.events t := by
  refine h.preserves (P := fun u => rowsOf s.events t <+: rowsOf u.events t) ?_ List.prefix_rfl
  intro u a u' _ hu hstep
  exact hu.trans (rowsOf_prefix_of_step hstep t)

/-- **Reads compose.**  Between two states of a run of concurrent appends, a range whose last
number has been written does not change, and what a reader has read up to that number goes
on with the range after it: no event is missed, and none is read twice.  The latest event is
the last one of the full range, and its number is one less than the count. -/
theorem reads_compose (hs : (machine κ L).Reachable Machine.anyStep s) {l : List (AppendStep κ)}
    (hrun : (machine κ L).Run Machine.anyStep s l s') (t : Uuid) :
    (∀ start stop : Int64, stop.toInt < count s.events t →
      queryRange s'.events t start (some stop) = queryRange s.events t start (some stop)) ∧
    (∀ start stop : Int64, stop.toInt < count s.events t → stop < Int64.maxValue →
      start.toInt ≤ stop.toInt + 1 →
      queryRange s'.events t start none =
        queryRange s.events t start (some stop) ++ queryRange s'.events t (stop + 1) none) ∧
    getLatest s.events t = (queryRange s.events t 0 none).getLast? ∧
    ∀ e, getLatest s.events t = some e → e.seq.toInt + 1 = count s.events t := by
  have hnum := numbered_of_reachable hs t
  have hnum' := numbered_of_reachable (hs.run hrun) t
  obtain ⟨rest, hrest⟩ := rowsOf_prefix_of_run hrun t
  have hstable : ∀ start stop : Int64, stop.toInt < count s.events t →
      queryRange s'.events t start (some stop) = queryRange s.events t start (some stop) := by
    intro start stop hstop
    rw [count_eq] at hstop
    rw [queryRange_some hnum, queryRange_some hnum', ← hrest,
      List.take_append_of_le_length (by omega)]
  refine ⟨hstable, ?_, ?_, ?_⟩
  · intro start stop hstop hmax hstart
    rw [← hstable start stop hstop, queryRange_some hnum', queryRange_none hnum',
      queryRange_none hnum']
    have hnext : (stop + 1).toInt = stop.toInt + 1 := by
      have hlt := Int64.lt_iff_toInt_lt.1 hmax
      rw [Int64.toInt_maxValue] at hlt
      have hge := Int64.le_toInt stop
      rw [Int64.toInt_add, Int64.toInt_one]
      exact Int.bmod_eq_of_le (by omega) (by omega)
    rw [hnext]
    -- the log splits behind the last number that was read
    have hsplit := List.take_append_drop (stop.toInt + 1).toNat (rowsOf s'.events t)
    conv_lhs => rw [← hsplit]
    rw [count_eq] at hstop
    have hlen : (rowsOf s.events t).length ≤ (rowsOf s'.events t).length := by
      rw [← hrest, List.length_append]
      omega
    rw [List.drop_append_of_le_length (by rw [List.length_take]; omega)]
  · rw [getLatest_eq hnum, queryRange_eq_rowsOf hnum]
  · intro e he
    rw [getLatest_eq hnum, List.getLast?_eq_getElem?] at he
    rw [hnum.toInt_eq he, count_eq]
    have hpos : 0 < (rowsOf s.events t).length := by
      by_contra hzero
      simp [List.eq_nil_of_length_eq_zero (by omega : (rowsOf s.events t).length = 0)] at he
    omega

/-- One append to task 1, and a second one after it. -/
def grownSteps : List (AppendStep Bool) × List (AppendStep Bool) :=
  ([.read false ⟨1, .started, .object []⟩, .insert false Libs.sampleTime],
    [.read true ⟨1, .progress, .object []⟩, .insert true Libs.sampleTime])

/-- The states after the first append and after both. -/
def grown : Option (AppendRace Bool × AppendRace Bool) :=
  ((machine Bool Libs.sample).exec Machine.anyStep (start Bool) grownSteps.1).bind fun s =>
    ((machine Bool Libs.sample).exec Machine.anyStep s grownSteps.2).map fun s' => (s, s')

/-- A reader that has the first event gets the second one by the range after it. -/
theorem reads_compose_grown : ∃ s s', grown = some (s, s') ∧
    (queryRange s'.events 1 1 none).length = 1 ∧
    queryRange s'.events 1 0 none =
      queryRange s.events 1 0 (some 0) ++ queryRange s'.events 1 1 none := by
  have hrun : grown.isSome = true := by decide +kernel
  obtain ⟨⟨s, s'⟩, hs⟩ := Option.isSome_iff_exists.1 hrun
  obtain ⟨u, hu, hu'⟩ := Option.bind_eq_some_iff.1 hs
  obtain ⟨u', hexec, hpair⟩ := Option.map_eq_some_iff.1 hu'
  obtain ⟨rfl, rfl⟩ := Prod.mk.inj hpair
  have hcount : grown.map (fun p => (count p.1.events 1, (queryRange p.2.events 1 1 none).length)) =
      some (1, 1) := by decide +kernel
  rw [hs, Option.map_some, Option.some.injEq, Prod.mk.injEq] at hcount
  have hreach : (machine Bool Libs.sample).Reachable Machine.anyStep u :=
    ⟨start Bool, _, rfl, Machine.run_of_exec hu⟩
  refine ⟨u, u', hs, hcount.2, ?_⟩
  exact (reads_compose hreach (Machine.run_of_exec hexec) 1).2.1 0 0
    (by rw [hcount.1]; decide) (by decide) (by decide)

end AppendRace

end TaskEvent

end AxonTask
