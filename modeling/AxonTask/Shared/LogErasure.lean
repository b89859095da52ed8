import AxonTask.Shared.AppendRace

/-!
# The erasure of a log (`TaskEvent::delete_for_task`)

The events of a task can be deleted, to test or to comply with the law, while the task stays.
An append that has read the log before the erasure still inserts the row that it has computed:
it names the hash of an event that is gone.  The log stays a sealed chain as long as no erasure
comes between the statements of an append that continues the erased log.
-/

namespace AxonTask

open Lib

namespace TaskEvent

/-- `TaskEvent::delete_for_task`, with the number of the rows that are deleted. -/
def deleteForTask (T : EventTable) (taskId : Uuid) : ℕ × EventTable :=
  (T.count fun e => decide (e.taskId = taskId), T.delete fun e => decide (e.taskId = taskId))

/-- A step of an append, or an erasure. -/
inductive ErasureStep (κ : Type*)
  | append (a : AppendStep κ)
  | deleteForTask (taskId : Uuid)

/-- What has been appended, and which logs have been erased. -/
inductive ErasureEntry
  | appended (e : TaskEvent)
  | erased (taskId : Uuid)

/-- The race of the appends, with what has come of it. -/
structure ErasureRace (κ : Type*) where
  race : AppendRace κ
  log : List ErasureEntry

/-- The row that a call has computed and not inserted yet. -/
def AppendCall.pending : AppendCall → Option NewEvent
  | .read n => some n
  | _ => none

/-- The event that a call has returned. -/
def AppendCall.success : AppendCall → Option TaskEvent
  | .returned (.ok e) => some e
  | _ => none

namespace ErasureRace

variable (κ : Type*) [DecidableEq κ] (L : Libs)

variable {κ} in
/-- A step, recorded. -/
def step (s : ErasureRace κ) : ErasureStep κ → Option (ErasureRace κ)
  | .append a =>
    (AppendRace.step L s.race a).map fun race =>
      ⟨race, s.log ++ (race.calls a.call).success.toList.map .appended⟩
  | .deleteForTask taskId =>
    some ⟨{ s.race with events := (deleteForTask s.race.events taskId).2 },
      s.log ++ [.erased taskId]⟩

/-- Appends and erasures, from the empty table on. -/
def machine : Machine (ErasureRace κ) (ErasureStep κ) where
  Init s := s = ⟨AppendRace.start κ, []⟩
  step := step L

/-- What is left of the log of a task. -/
def live (t : Uuid) (log : List ErasureEntry) : List TaskEvent :=
  log.foldl (fun l entry =>
    match entry with
    | .appended e => if e.taskId = t then l ++ [e] else l
    | .erased taskId => if taskId = t then [] else l) []

variable {κ}

/-- No append is between its two statements with a row that continues the log. -/
def Undisturbed (s : ErasureRace κ) (t : Uuid) : Prop :=
  ∀ k, ∀ n ∈ (s.race.calls k).pending, n.taskId = t → n.seq ≤ 0

/-- A log is erased only while no append is about to continue it. -/
def Quiet (s : ErasureRace κ) : ErasureStep κ → Prop
  | .append _ => True
  | .deleteForTask taskId => s.Undisturbed taskId

variable {L} {s s' : ErasureRace κ}

/-! ### What is left of a log -/

lemma rowsOf_deleteForTask (T : EventTable) (taskId t : Uuid) :
    rowsOf (deleteForTask T taskId).2 t = if taskId = t then [] else rowsOf T t := by
  rw [rowsOf, deleteForTask, Table.delete, List.filter_filter]
  split
  · rename_i ht
    subst ht
    exact List.filter_eq_nil_iff.2 fun e _ => by simp
  · rename_i ht
    refine List.filter_congr ?_
    intro e _
    by_cases he : e.taskId = t
    · simp [he, Ne.symm ht]
    · simp [he]

lemma live_appended (t : Uuid) (log : List ErasureEntry) (e : TaskEvent) :
    live t (log ++ [.appended e]) = live t log ++ if e.taskId = t then [e] else [] := by
  rw [live, List.foldl_append]
  show (if e.taskId = t then live t log ++ [e] else live t log) = _
  split
  · rfl
  · rw [List.append_nil]

lemma live_erased (t : Uuid) (log : List ErasureEntry) (taskId : Uuid) :
    live t (log ++ [.erased taskId]) = if taskId = t then [] else live t log := by
  rw [live, List.foldl_append]
  rfl

/-- **Step lemma.**  The table has what the record says. -/
lemma rowsOf_of_step {a : ErasureStep κ} (h : step L s a = some s') (t : Uuid)
    (hs : rowsOf s.race.events t = live t s.log) : rowsOf s'.race.events t = live t s'.log := by
  cases a with
  | append a =>
    obtain ⟨race, hrace, rfl⟩ := Option.map_eq_some_iff.1 h
    rcases AppendRace.step_cases hrace with ⟨data, -, hevents, hcalls⟩ | ⟨n, ts, -, hins, hcalls⟩ |
      ⟨e, hevents, hcalls⟩
    · simp [hevents, hcalls, AppendCall.success, hs]
    · simp only [hcalls, Function.update_self, AppendCall.success, Option.toList_some,
        List.map_cons, List.map_nil]
      rw [AppendRace.rowsOf_of_insert hins, live_appended, hs]
    · simp [hevents, hcalls, AppendCall.success, hs]
  | deleteForTask taskId =>
    cases h
    rw [rowsOf_deleteForTask, live_erased, hs]

/-! ### The chain -/

/-- The first row of a log is the first row of the empty log. -/
lemma readFrom_nil {l : List TaskEvent} {n : NewEvent} (h : AppendRace.ReadFrom L l n)
    (hfirst : n.seq ≤ 0) : AppendRace.ReadFrom L [] n := by
  obtain ⟨m, hm, hseq, hprev, hcurr⟩ := h
  have hzero : n.seq.toInt ≤ 0 := Int64.le_iff_toInt_le.1 hfirst
  obtain rfl : m = 0 := by omega
  exact ⟨0, le_rfl, hseq, hprev, hcurr⟩

omit [DecidableEq κ] in
/-- An erasure that disturbs no append keeps the invariant of the race. -/
lemma inv_deleteForTask {race : AppendRace κ} {t : Uuid} (hi : AppendRace.Inv L race)
    (hquiet : ∀ k n, race.calls k = .read n → n.taskId = t → n.seq ≤ 0) :
    AppendRace.Inv L { race with events := (deleteForTask race.events t).2 } := by
  refine ⟨?_, ?_, ?_⟩
  · intro u
    rw [rowsOf_deleteForTask]
    split
    · exact numbered_nil
    · exact hi.numbered u
  · intro u
    rw [rowsOf_deleteForTask]
    split
    · trivial
    · exact hi.isSealed u
  · intro k n hk hpos
    have hread := hi.calls k n hk hpos
    rw [rowsOf_deleteForTask]
    split
    · rename_i ht
      exact readFrom_nil hread (hquiet k n hk ht.symm)
    · exact hread

/-- A step at a quiet moment keeps the invariant of the race. -/
lemma inv_of_step {a : ErasureStep κ} (hi : AppendRace.Inv L s.race) (hquiet : Quiet s a)
    (h : step L s a = some s') : AppendRace.Inv L s'.race := by
  cases a with
  | append a =>
    obtain ⟨race, hrace, rfl⟩ := Option.map_eq_some_iff.1 h
    exact hi.step hrace
  | deleteForTask taskId =>
    cases h
    exact inv_deleteForTask hi fun k n hk => hquiet k n (by rw [hk]; rfl)

/-- A step of an append leaves the other calls. -/
lemma calls_of_step {a : AppendStep κ} (h : step L s (.append a) = some s') {k : κ}
    (hk : k ≠ a.call) : s'.race.calls k = s.race.calls k := by
  obtain ⟨race, hrace, rfl⟩ := Option.map_eq_some_iff.1 h
  rcases AppendRace.step_cases hrace with ⟨_, -, -, hcalls⟩ | ⟨_, _, -, -, hcalls⟩ |
    ⟨_, -, hcalls⟩ <;>
    exact (congrFun hcalls k).trans (Function.update_of_ne hk _ _)

/-- The rows that are still to be inserted have kinds that the constraint knows. -/
lemma kind_of_step {a : ErasureStep κ} (h : step L s a = some s')
    (hs : ∀ k n, s.race.calls k = .read n → n.kind ∈ kinds) :
    ∀ k n, s'.race.calls k = .read n → n.kind ∈ kinds := by
  cases a with
  | append a =>
    intro k n hk
    by_cases hkey : k = a.call
    · subst hkey
      obtain ⟨race, hrace, rfl⟩ := Option.map_eq_some_iff.1 h
      rcases AppendRace.step_cases hrace with ⟨data, -, -, hcalls⟩ | ⟨n', ts, -, -, hcalls⟩ |
        ⟨e, -, hcalls⟩
      · simp only [hcalls, Function.update_self, AppendCall.read.injEq] at hk
        subst hk
        show data.kind.asStr ∈ kinds
        cases data.kind <;> decide
      · simp [hcalls] at hk
      · simp [hcalls] at hk
    · exact hs k n (calls_of_step h hkey ▸ hk)
  | deleteForTask taskId =>
    cases h
    exact hs

/-- After an erasure the row of an append can be inserted. -/
lemma exists_insert_of_empty {T : EventTable} {n : NewEvent} (ts : DateTime)
    (hkind : n.kind ∈ kinds) (hpos : 0 < n.seq) (hnul : n.payload.hasNul = false)
    (hempty : rowsOf T n.taskId = []) : ∃ T', T.insert (n.toEvent ts) = .ok T' := by
  refine Table.exists_insert ?_ ?_
  · simp [schema, NewEvent.toEvent, hkind, hpos, Int64.le_of_lt hpos, hnul]
  · refine Table.row_eq_none_iff.2 ?_
    intro e he hkey
    have ht : e.taskId = n.taskId := congrArg Prod.fst hkey
    have hmem : e ∈ rowsOf T n.taskId := List.mem_filter.2 ⟨he, decide_eq_true ht⟩
    rw [hempty] at hmem
    cases hmem

/-- An insertion that succeeds. -/
lemma step_insert {k : κ} {n : NewEvent} {ts : DateTime} {T : EventTable}
    (hk : s.race.calls k = .read n) (hT : s.race.events.insert (n.toEvent ts) = .ok T) :
    step L s (.append (.insert k ts)) =
      some ⟨s.race.ret T k (.ok (n.toEvent ts)), s.log ++ [.appended (n.toEvent ts)]⟩ := by
  have hcall : (s.race.ret T k (.ok (n.toEvent ts))).calls k = .returned (.ok (n.toEvent ts)) :=
    Function.update_self ..
  simp only [step, AppendRace.step, hk, appendInsert, hT, Except.map, Option.map_some,
    AppendStep.call, hcall, AppendCall.success]
  rfl

/-- A row that continues a log is rejected as the first one. -/
lemma verifyChain_of_insert {T T' : EventTable} {l : List TaskEvent} {n : NewEvent} {ts : DateTime}
    (hread : AppendRace.ReadFrom L l n) (hpos : 0 < n.seq) (hempty : rowsOf T n.taskId = [])
    (h : T.insert (n.toEvent ts) = .ok T') : verifyChain L T' n.taskId = false := by
  obtain ⟨m, hm, hseq, hprev, -⟩ := hread
  have hrows : rowsOf T' n.taskId = [n.toEvent ts] := by
    rw [AppendRace.rowsOf_of_insert h, hempty]
    simp [NewEvent.toEvent]
  have hquery : queryRange T' n.taskId 0 none = [n.toEvent ts] := by
    have hsel : (T'.rows.filter fun e => decide (e.taskId = n.taskId) && decide (0 ≤ e.seq) &&
        (none : Option Int64).all fun m => decide (e.seq ≤ m)) =
        (rowsOf T' n.taskId).filter fun e => decide (0 ≤ e.seq) := by
      rw [rowsOf, List.filter_filter]
      refine List.filter_congr ?_
      intro e _
      simp [Bool.and_comm]
    have hseq : decide (0 ≤ (n.toEvent ts).seq) = true := decide_eq_true (Int64.le_of_lt hpos)
    rw [queryRange, hsel, hrows, List.filter_singleton, hseq]
    exact List.mergeSort_singleton _
  rw [Bool.eq_false_iff, Ne, verifyChain_iff, hquery]
  rintro ⟨hfirst, -, -⟩
  -- the row names the hash of an event that it continues
  have hm0 : m ≠ 0 := by
    rintro rfl
    have hlt : 0 < n.seq.toInt := Int64.lt_iff_toInt_lt.1 hpos
    omega
  have hsome : (links.tip none (l.take m)).isSome = true := by
    rw [Links.tip_isSome, List.isEmpty_eq_false_iff.2, Bool.not_false]
    intro hnil
    have hlen := congrArg List.length hnil
    rw [List.length_take, List.length_nil] at hlen
    omega
  rw [← hprev, show n.hashPrev = none from hfirst] at hsome
  cases hsome

/-- The chains, the record and the rows to insert. -/
structure Inv (L : Libs) (s : ErasureRace κ) : Prop where
  race : AppendRace.Inv L s.race
  log : ∀ t, rowsOf s.race.events t = live t s.log
  kind : ∀ k n, s.race.calls k = .read n → n.kind ∈ kinds

lemma inv_of_reachable (h : (machine κ L).Reachable Quiet s) : Inv L s := by
  refine h.invariant (P := Inv L) ?_ ?_
  · rintro _ rfl
    exact ⟨AppendRace.Inv.init rfl, fun t => rfl, fun k n hk => by cases hk⟩
  · intro s a s' hquiet hi hstep
    exact ⟨inv_of_step hi.race hquiet hstep, fun t => rowsOf_of_step hstep t (hi.log t),
      kind_of_step hstep hi.kind⟩

/-- An event is appended to task 1, and a second append has read the log. -/
def continued : List (ErasureStep (Fin 3)) :=
  [.append (.read 0 ⟨1, .started, .object []⟩), .append (.insert 0 Libs.sampleTime),
    .append (.read 1 ⟨1, .progress, .object []⟩)]

/-- The second append fails; the log is erased, and a third append begins it again. -/
def begunAgain : List (ErasureStep (Fin 3)) :=
  [.append (.fail 1), .deleteForTask 1, .append (.read 2 ⟨1, .started, .object []⟩),
    .append (.insert 2 Libs.sampleTime)]

instance (s : ErasureRace (Fin 3)) : ∀ a, Decidable (Quiet s a)
  | .append _ => isTrue trivial
  | .deleteForTask t => inferInstanceAs
    (Decidable (∀ k, ∀ n ∈ (s.race.calls k).pending, n.taskId = t → n.seq ≤ 0))

/-- Something is appended to another task. -/
def between : List (ErasureStep (Fin 3)) :=
  [.append (.read 2 ⟨2, .started, .object []⟩), .append (.insert 2 Libs.sampleTime)]

end ErasureRace

end TaskEvent

end AxonTask
