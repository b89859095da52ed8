import AxonTask.Lib.Machine
import AxonTask.Lib.Numbering
import AxonTask.Shared.TaskEvent
import Mathlib.Logic.Function.Basic

/-!
# Racing appends (`TaskEvent::append`)

An append reads the last row of its task and inserts the next one in a separate statement,
so between the two the log may have grown.  The machine below runs any number of appends on
any tasks and interleaves their statements.  What keeps the log a sealed chain is the
primary key: a row computed from a prefix of the log can only be inserted if the prefix is
still the whole log.
-/

namespace AxonTask

open Lib

namespace TaskEvent

/-- The rows of a task, in the order of their insertion. -/
def rowsOf (T : EventTable) (taskId : Uuid) : List TaskEvent :=
  T.rows.filter fun e => decide (e.taskId = taskId)

/-- Why an append fails: a constraint, or anything else between the caller and the table. -/
inductive AppendError
  | violation (v : Violation)
  | other
deriving DecidableEq, Repr

/-- How far a call of `append` has come. -/
inductive AppendCall
  | idle
  /-- The first statement is done, and the row to insert has been computed. -/
  | read (n : NewEvent)
  | returned (r : Except AppendError TaskEvent)

/-- The error that a call has returned. -/
def AppendCall.failure : AppendCall → Option AppendError
  | .returned (.error e) => some e
  | _ => none

/-- The table and the calls of `append`. -/
structure AppendRace (κ : Type*) where
  events : EventTable
  calls : κ → AppendCall

/-- A step of a call of `append`. -/
inductive AppendStep (κ : Type*)
  | read (k : κ) (data : AppendEvent)
  /-- The insertion, at the time `ts`. -/
  | insert (k : κ) (ts : DateTime)
  /-- A failure that is not a constraint violation, before the server has stored the row.  An
  append whose row is stored has its reply. -/
  | fail (k : κ)

/-- The call that makes a step. -/
def AppendStep.call {κ : Type*} : AppendStep κ → κ
  | .read k _ | .insert k _ | .fail k => k

namespace AppendRace

variable (κ : Type*) [DecidableEq κ] (L : Libs)

variable {κ} in
/-- The call `k` returns, with the table `T`. -/
def ret (T : EventTable) (s : AppendRace κ) (k : κ) (r : Except AppendError TaskEvent) :
    AppendRace κ :=
  { events := T, calls := Function.update s.calls k (.returned r) }

variable {κ} in
/-- A step of the race.  A call runs once. -/
def step (s : AppendRace κ) : AppendStep κ → Option (AppendRace κ)
  | .read k data =>
    match s.calls k with
    | .idle =>
      some { s with calls := Function.update s.calls k (.read (appendRead L s.events data)) }
    | _ => none
  | .insert k ts =>
    match s.calls k with
    | .read n =>
      match appendInsert s.events n ts with
      | .ok (e, T) => some (s.ret T k (.ok e))
      | .error v => some (s.ret s.events k (.error (.violation v)))
    | _ => none
  | .fail k =>
    match s.calls k with
    | .returned _ => none
    | _ => some (s.ret s.events k (.error .other))

/-- The empty table, and no call made. -/
def start : AppendRace κ := { events := Table.empty schema, calls := fun _ => .idle }

/-- Appends racing on an empty table. -/
def machine : Machine (AppendRace κ) (AppendStep κ) where
  Init s := s = start κ
  step := step L

end AppendRace

variable {L : Libs}

/-! ### What a step does -/

lemma appendInsert_eq_ok {T T' : EventTable} {n : NewEvent} {ts : DateTime} {e : TaskEvent}
    (h : appendInsert T n ts = .ok (e, T')) : e = n.toEvent ts ∧ T.insert e = .ok T' := by
  unfold appendInsert at h
  cases hi : T.insert (n.toEvent ts) with
  | error v => rw [hi] at h; cases h
  | ok T₁ =>
    rw [hi] at h
    simp only [Except.map, Except.ok.injEq, Prod.mk.injEq] at h
    obtain ⟨rfl, rfl⟩ := h
    exact ⟨rfl, hi⟩

namespace AppendRace

variable {κ : Type*} [DecidableEq κ] {s s' : AppendRace κ}

/-- **Inversion of a step.**  A read computes the next row and leaves the table; a
successful insertion appends the computed row; every other return leaves the table. -/
lemma step_cases {a : AppendStep κ} (h : step L s a = some s') :
    (∃ data, s.calls a.call = .idle ∧ s'.events = s.events ∧
      s'.calls = Function.update s.calls a.call (.read (appendRead L s.events data))) ∨
    (∃ n ts, s.calls a.call = .read n ∧ s.events.insert (n.toEvent ts) = .ok s'.events ∧
      s'.calls = Function.update s.calls a.call (.returned (.ok (n.toEvent ts)))) ∨
    ∃ e, s'.events = s.events ∧
      s'.calls = Function.update s.calls a.call (.returned (.error e)) := by
  cases a with
  | read k data =>
    simp only [step] at h
    split at h
    · rename_i hk
      cases h
      exact Or.inl ⟨data, hk, rfl, rfl⟩
    · cases h
  | insert k ts =>
    simp only [step] at h
    split at h
    · rename_i n hk
      split at h
      · rename_i e T hins
        obtain ⟨rfl, hins⟩ := appendInsert_eq_ok hins
        cases h
        exact Or.inr (Or.inl ⟨n, ts, hk, hins, rfl⟩)
      · cases h
        exact Or.inr (Or.inr ⟨_, rfl, rfl⟩)
    · cases h
  | fail k =>
    simp only [step] at h
    split at h
    · cases h
    · cases h
      exact Or.inr (Or.inr ⟨_, rfl, rfl⟩)

/-! ### The invariant -/

/-- `n` is the row that an append computes from some prefix of the log `l`. -/
def ReadFrom (L : Libs) (l : List TaskEvent) (n : NewEvent) : Prop :=
  ∃ m ≤ l.length, n.seq.toInt = m ∧ n.hashPrev = links.tip none (l.take m) ∧
    n.hashCurr = computeHash L n.hashPrev n.seq n.kind n.payload

/-- The log of every task is numbered and sealed, and every row that is still to be
inserted was computed from a prefix of the log, unless its number has overflowed. -/
structure Inv (L : Libs) (s : AppendRace κ) : Prop where
  numbered : ∀ t, Numbered seq (rowsOf s.events t)
  isSealed : ∀ t, links.Sealed (digest L) none (rowsOf s.events t)
  calls : ∀ k n, s.calls k = .read n → 0 ≤ n.seq → ReadFrom L (rowsOf s.events n.taskId) n

lemma ReadFrom.append {l : List TaskEvent} {n : NewEvent} (h : ReadFrom L l n)
    (l' : List TaskEvent) : ReadFrom L (l ++ l') n := by
  obtain ⟨m, hm, hseq, hprev, hcurr⟩ := h
  refine ⟨m, by simp only [List.length_append]; omega, hseq, ?_, hcurr⟩
  rw [hprev, List.take_append_of_le_length hm]

/-- The first statement of `append` finds the last entry of a numbered log. -/
lemma lastEvent_eq {T : EventTable} {t : Uuid} (h : Numbered seq (rowsOf T t)) :
    lastEvent T t = (rowsOf T t).getLast?.map fun e => (e.seq, some e.hashCurr) := by
  unfold lastEvent
  rw [← rowsOf, h.mergeSort_desc_eq, List.head?_reverse]

/-- The row that an append computes from a numbered log is the next one. -/
lemma readFrom_appendRead {T : EventTable} {data : AppendEvent}
    (h : Numbered seq (rowsOf T data.taskId)) (hpos : 0 ≤ (appendRead L T data).seq) :
    ReadFrom L (rowsOf T data.taskId) (appendRead L T data) := by
  simp only [appendRead, lastEvent_eq h] at hpos ⊢
  generalize rowsOf T data.taskId = l at *
  refine ⟨l.length, le_rfl, ?_, ?_, rfl⟩
  · cases l using List.reverseRecOn with
    | nil => simp [nextLink]
    | append_singleton l e =>
      have hlast := (numbered_concat.1 h).2
      have hseq : 0 ≤ e.seq := h.nonneg (by simp)
      simp only [List.getLast?_append, List.getLast?_singleton, Option.some_or, Option.map_some,
        nextLink] at hpos ⊢
      rw [toInt_succ hseq hpos, hlast]
      simp
  · rw [List.take_length]
    cases l using List.reverseRecOn with
    | nil => simp [nextLink]
    | append_singleton l e => simp [nextLink]

lemma rowsOf_of_insert {T T' : EventTable} {e : TaskEvent} (h : T.insert e = .ok T') (t : Uuid) :
    rowsOf T' t = rowsOf T t ++ if e.taskId = t then [e] else [] := by
  obtain ⟨-, -, hrows⟩ := Table.insert_eq_ok h
  by_cases ht : e.taskId = t <;> simp [rowsOf, hrows, ht]

/-- The only prefix that can still be extended is the whole log. -/
lemma eq_length_of_insert {T T' : EventTable} {n : NewEvent} {ts : DateTime} {m : ℕ}
    (h : T.insert (n.toEvent ts) = .ok T') (hnum : Numbered seq (rowsOf T n.taskId))
    (hm : m ≤ (rowsOf T n.taskId).length) (hseq : n.seq.toInt = m) :
    m = (rowsOf T n.taskId).length := by
  obtain ⟨-, hnone, -⟩ := Table.insert_eq_ok h
  by_contra hne
  have hget := List.getElem?_eq_getElem (show m < (rowsOf T n.taskId).length by omega)
  generalize (rowsOf T n.taskId)[m] = e at hget
  have hmem := List.mem_filter.1 (List.mem_of_getElem? hget)
  refine Table.row_eq_none_iff.1 hnone e hmem.1 ?_
  have hs : e.seq = n.seq := Int64.toInt_inj.1 ((hnum.toInt_eq hget).trans hseq.symm)
  have ht : e.taskId = n.taskId := by simpa using hmem.2
  simp [schema, NewEvent.toEvent, hs, ht]

lemma nonneg_of_insert {T T' : EventTable} {n : NewEvent} {ts : DateTime}
    (h : T.insert (n.toEvent ts) = .ok T') : 0 ≤ n.seq := by
  obtain ⟨hcheck, -, -⟩ := Table.insert_eq_ok h
  simp only [schema, NewEvent.toEvent, Bool.and_eq_true, decide_eq_true_eq] at hcheck
  exact hcheck.1.1.2

/-- A step keeps the invariant. -/
lemma Inv.step {a : AppendStep κ} (hi : Inv L s) (h : step L s a = some s') : Inv L s' := by
  rcases step_cases h with ⟨data, hk, hevents, hcalls⟩ | ⟨n, ts, hk, hins, hcalls⟩ |
    ⟨e, hevents, hcalls⟩
  · refine ⟨hevents ▸ hi.numbered, hevents ▸ hi.isSealed, ?_⟩
    intro j n hj hpos
    rw [hcalls] at hj
    rw [hevents]
    by_cases hjk : j = a.call
    · subst hjk
      simp only [Function.update_self, AppendCall.read.injEq] at hj
      subst hj
      exact readFrom_appendRead (hi.numbered _) hpos
    · rw [Function.update_of_ne hjk] at hj
      exact hi.calls j n hj hpos
  · -- the inserted row was computed from the whole log
    obtain ⟨m, hm, hseq, hprev, hcurr⟩ := hi.calls _ n hk (nonneg_of_insert hins)
    have hlen := eq_length_of_insert hins (hi.numbered _) hm hseq
    subst hlen
    rw [List.take_length] at hprev
    refine ⟨?_, ?_, ?_⟩
    · intro t
      rw [rowsOf_of_insert hins]
      by_cases ht : n.taskId = t
      · subst ht
        simp only [NewEvent.toEvent, if_true]
        exact numbered_concat.2 ⟨hi.numbered _, hseq⟩
      · simpa [NewEvent.toEvent, ht] using hi.numbered t
    · intro t
      rw [rowsOf_of_insert hins]
      by_cases ht : n.taskId = t
      · subst ht
        simp only [NewEvent.toEvent, if_true]
        exact Links.sealed_concat.2 ⟨hi.isSealed _, hprev, by rw [← hprev]; exact hcurr⟩
      · simpa [NewEvent.toEvent, ht] using hi.isSealed t
    · intro j n' hj hpos
      rw [hcalls] at hj
      rw [rowsOf_of_insert hins]
      by_cases hjk : j = a.call
      · subst hjk
        simp at hj
      · rw [Function.update_of_ne hjk] at hj
        exact (hi.calls j n' hj hpos).append _
  · refine ⟨hevents ▸ hi.numbered, hevents ▸ hi.isSealed, ?_⟩
    intro j n hj hpos
    rw [hcalls] at hj
    rw [hevents]
    by_cases hjk : j = a.call
    · subst hjk
      simp at hj
    · rw [Function.update_of_ne hjk] at hj
      exact hi.calls j n hj hpos

lemma Inv.init (h : (machine κ L).Init s) : Inv L s := by
  obtain rfl : s = start κ := h
  have hrows : ∀ t, rowsOf (start κ).events t = [] := fun t => rfl
  exact ⟨fun t => by simp [hrows], fun t => by simp [hrows, Links.Sealed],
    fun k n hk => by cases hk⟩

/-- The verifier reads the log of a task as it was inserted. -/
lemma queryRange_eq_rowsOf {T : EventTable} {t : Uuid} (h : Numbered seq (rowsOf T t)) :
    queryRange T t 0 none = rowsOf T t := by
  have hsel : (T.rows.filter fun e => decide (e.taskId = t) && decide (0 ≤ e.seq) &&
      (none : Option Int64).all fun m => decide (e.seq ≤ m)) = rowsOf T t := by
    refine List.filter_congr ?_
    intro e he
    by_cases ht : e.taskId = t
    · have hmem : e ∈ rowsOf T t := by simp [rowsOf, he, ht]
      simp [ht, h.nonneg hmem]
    · simp [ht]
  rw [queryRange, hsel]
  exact h.mergeSort_eq

/-- **Append-only chain.**  Whatever the order of the statements of any number of appends,
in every reachable state the log of every task carries the numbers `0, 1, …, n-1`, it is
what `verify_chain` reads, and `verify_chain` accepts it.  A step of an append leaves the
table as it is, unless the append returns success by this step; then the row it returns has
become the last one. -/
theorem reachable_log (h : (machine κ L).Reachable Machine.anyStep s) :
    (∀ t, Numbered seq (rowsOf s.events t) ∧ queryRange s.events t 0 none = rowsOf s.events t ∧
      verifyChain L s.events t = true) ∧
    ∀ a s', (machine κ L).step s a = some s' → s'.events = s.events ∨
      ∃ e, s'.calls a.call = .returned (.ok e) ∧ s'.events.rows = s.events.rows ++ [e] := by
  have hi : Inv L s := h.invariant (fun _ => Inv.init) fun _ _ _ _ hi => hi.step
  constructor
  · intro t
    have hq := queryRange_eq_rowsOf (hi.numbered t)
    refine ⟨hi.numbered t, hq, ?_⟩
    rw [verifyChain_iff, hq]
    exact hi.isSealed t
  · intro a s' hs
    rcases step_cases hs with ⟨_, _, hevents, _⟩ | ⟨n, ts, _, hins, hcalls⟩ | ⟨_, hevents, _⟩
    · exact Or.inl hevents
    · exact Or.inr ⟨n.toEvent ts, by simp [hcalls], (Table.insert_eq_ok hins).2.2⟩
    · exact Or.inl hevents

/-- Two appends read the empty log, and both insert the first row. -/
def raceSteps : List (AppendStep Bool) :=
  [.read false ⟨1, .started, .object []⟩, .read true ⟨1, .progress, .object []⟩,
    .insert false Libs.sampleTime, .insert true Libs.sampleTime]

/-- The race on the empty table. -/
def raced : Option (AppendRace Bool) :=
  (machine Bool Libs.sample).exec Machine.anyStep (start Bool) raceSteps

/-- The second of two racing insertions is rejected, and the log is accepted. -/
theorem reachable_log_raced :
    raced.map (fun s => ((s.calls true).failure, s.events.rows.length)) =
        some (some (.violation .unique), 1) ∧
      raced.map (fun s => verifyChain Libs.sample s.events 1) = some true := by
  have hrun : raced.isSome = true := by decide +kernel
  obtain ⟨s, hs⟩ := Option.isSome_iff_exists.1 hrun
  have hreach : (machine Bool Libs.sample).Reachable Machine.anyStep s :=
    ⟨start Bool, raceSteps, rfl, Machine.run_of_exec hs⟩
  refine ⟨by decide +kernel, ?_⟩
  rw [hs, Option.map_some, ((reachable_log hreach).1 1).2.2]

end AppendRace

end TaskEvent

end AxonTask
