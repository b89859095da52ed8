import AxonTask.Worker.Lifecycle

/-!
# Which updates the table rejects

All times in a row are readings `NOW()` of the clock of the database.  The constraint
`tasks_ended_after_started` compares two of them, so when the clock is set back after a task
has been started, PostgreSQL rejects every statement that is to end the task, while it goes on
to accept those that start one.

`RowOp.check_set_iff` determines when an updated row satisfies the constraints, and
`rejected_iff` from it which updates are rejected.  The times in the rows are those of the
statements before (`startedAt_of_run`), so none is rejected for its time unless the clock has
been set back; and before the time at which it was started, a task stays running
(`running_of_run`).
-/

namespace AxonTask

open Lib

namespace RowOp

/-- The update writes `ended_at`. -/
def ends : RowOp → Bool
  | transitionToRunning | updateStats _ => false
  | _ => true

/-- The text of the caller that the update writes to `error_message`. -/
def text : RowOp → Option String
  | transitionToFailed errorMessage _ | markFailed errorMessage => some errorMessage
  | _ => none

/-- PostgreSQL can store the text. -/
def TextOk (op : RowOp) : Prop := ∀ m, op.text = some m → hasNul m = false

end RowOp

namespace Task

/-- The constraint on the two times, on a row that has ended at `now`. -/
lemma endedAfterStarted_iff {t : Task} {now : DateTime} (hended : t.endedAt = some now) :
    t.endedAfterStarted = true ↔ ∀ started, t.startedAt = some started → started ≤ now := by
  simp only [endedAfterStarted, hended]
  cases t.startedAt <;> simp

/-- The constraints on a row that differs from one in the table in its times, its state, its
counters and its error message only. -/
lemma check_iff_of_same {t t' : Task} (ht : schema.check t = true)
    (hname : t'.name = t.name) (hadapter : t'.adapter = t.adapter) (hargs : t'.args = t.args)
    (htimeout : t'.timeoutSeconds = t.timeoutSeconds) :
    schema.check t' = true ↔
      t'.endedAfterStarted = true ∧ t'.errorMessage.any hasNul = false := by
  simp only [schema, textsOk, Bool.and_eq_true, Bool.not_eq_true', decide_eq_true_eq] at ht ⊢
  rw [hname, hadapter, hargs, htimeout]
  obtain ⟨⟨htime, -⟩, htexts, -⟩ := ht
  exact ⟨fun h => ⟨h.1.2, h.2.2⟩, fun h => ⟨⟨htime, h.1⟩, htexts, h.2⟩⟩

end Task

namespace RowOp

variable {op : RowOp} {t : Task} {now : DateTime}

/-- What an update writes to the two times. -/
lemma ended_set (op : RowOp) (now : DateTime) (t : Task) :
    (op.ends = true ∧ (op.update.set now t).endedAt = some now ∧
      (op.update.set now t).startedAt = t.startedAt) ∨
    (op.ends = false ∧ (op.update.set now t).endedAt = t.endedAt ∧
      ((op.update.set now t).startedAt = t.startedAt ∨ op = .transitionToRunning)) := by
  cases op with
  | transitionToRunning => exact Or.inr ⟨rfl, rfl, Or.inr rfl⟩
  | updateStats => exact Or.inr ⟨rfl, rfl, Or.inl rfl⟩
  | transitionToSucceeded | transitionToFailed | transitionToCanceled | transitionToTimeout
  | markSucceeded | markFailed | markTimeout => exact Or.inl ⟨rfl, rfl, rfl⟩

/-- What an update writes to `error_message`. -/
lemma hasNul_set (hold : t.errorMessage.any hasNul = false) :
    (op.update.set now t).errorMessage.any hasNul = false ↔ op.TextOk := by
  unfold TextOk
  cases op with
  | transitionToFailed | markFailed =>
    simp [update, text, Task.transitionToFailed, TaskQueue.markFailed]
  | transitionToTimeout | markTimeout =>
    simp only [update, text, Task.transitionToTimeout, TaskQueue.markTimeout]
    decide +revert
  | transitionToRunning | updateStats | transitionToSucceeded | transitionToCanceled
  | markSucceeded =>
    refine iff_of_true hold ?_
    intro m hm
    cases hm

/-- **When an updated row satisfies the constraints.** -/
lemma check_set_iff (hi : t.RowInv) (ht : Task.schema.check t = true)
    (hadm : op.update.admits t = true) :
    Task.schema.check (op.update.set now t) = true ↔
      (op.ends = true → ∀ started, t.startedAt = some started → started ≤ now) ∧ op.TextOk := by
  have hold : t.endedAfterStarted = true ∧ t.errorMessage.any hasNul = false :=
    (Task.check_iff_of_same ht rfl rfl rfl rfl).1 ht
  have hsame : Task.schema.check (op.update.set now t) = true ↔
      (op.update.set now t).endedAfterStarted = true ∧
        (op.update.set now t).errorMessage.any hasNul = false := by
    cases op <;> exact Task.check_iff_of_same ht rfl rfl rfl rfl
  rw [hsame, hasNul_set hold.2]
  refine and_congr_left' ?_
  rcases ended_set op now t with ⟨hends, hended, hstarted⟩ | ⟨hends, hended, hstarted⟩
  · rw [Task.endedAfterStarted_iff hended, hstarted]
    exact ⟨fun h _ => h, fun h => h hends⟩
  · refine iff_of_true ?_ fun h => absurd h (by simp [hends])
    rcases hstarted with hstarted | rfl
    · rw [Task.endedAfterStarted, hstarted, hended]
      exact hold.1
    · -- a pending row has no `ended_at`
      have hpending : t.state = .pending := Task.admits_singleton rfl hadm
      rw [Task.endedAfterStarted, hended, (hi.pending hpending).2]
      rfl

end RowOp

namespace Lifecycle

variable {T T' : TaskTable}

/-- An update is rejected exactly when the row that it admits would violate a constraint. -/
lemma exec_eq_error_iff (u : Task.RowUpdate) (T : TaskTable) (id : Uuid) (now : DateTime) :
    (∃ v, u.exec T id now = .error v) ↔
      ∃ t, T.row id = some t ∧ u.admits t = true ∧ Task.schema.check (u.set now t) = false := by
  constructor
  · rintro ⟨v, hv⟩
    exact Table.updateKey_eq_error hv
  · rintro ⟨t, ht, hadm, hcheck⟩
    cases hexec : u.exec T id now with
    | error v => exact ⟨v, rfl⟩
    | ok r =>
      rcases Table.updateKey_eq_ok hexec with ⟨hnone, -⟩ | ⟨t', ht', -, hcheck', -⟩
      · rw [ht, Option.filter_some, if_pos hadm] at hnone
        cases hnone
      · obtain rfl := Option.some.inj (ht.symm.trans ht')
        rw [hcheck] at hcheck'
        cases hcheck'

/-- **The rejected updates**, of those with a text that PostgreSQL can store. -/
lemma rejected_iff (hi : RowsInv T) {op : RowOp} (htext : op.TextOk) (id : Uuid) (now : DateTime) :
    (∃ v, op.update.exec T id now = .error v) ↔
      ∃ t, T.row id = some t ∧ op.update.admits t = true ∧
        op.ends = true ∧ ∃ started, t.startedAt = some started ∧ now < started := by
  rw [exec_eq_error_iff]
  refine exists_congr fun t => and_congr_right fun ht => and_congr_right fun hadm => ?_
  rw [← Bool.not_eq_true,
    RowOp.check_set_iff (hi id t ht) (T.checked t (Table.mem_of_row ht)) hadm,
    and_iff_left htext]
  simp only [not_forall, not_le, exists_prop]

/-! ### The readings of the clock in the rows -/

/-- An update writes the present time to `started_at`, or leaves it. -/
lemma startedAt_set {u : Task.RowUpdate} (hu : IsUpdate u) (now : DateTime) (t : Task) :
    (u.set now t).startedAt = t.startedAt ∨ (u.set now t).startedAt = some now := by
  rcases hu with rfl | ⟨op, rfl⟩
  · exact Or.inr rfl
  · cases op with
    | transitionToRunning => exact Or.inr rfl
    | updateStats | transitionToSucceeded | transitionToFailed | transitionToCanceled
    | transitionToTimeout | markSucceeded | markFailed | markTimeout => exact Or.inl rfl

/-- A `started_at` was there before a run, or a statement of the run has read it. -/
lemma startedAt_of_run {T₀ : TaskTable} {l : List (Statement × DateTime)}
    (h : machine.Run Machine.anyStep T₀ l T) {id : Uuid} {t : Task} {started : DateTime}
    (ht : T.row id = some t) (hs : t.startedAt = some started) :
    (∃ t₀, T₀.row id = some t₀ ∧ t₀.startedAt = some started) ∨ ∃ a ∈ l, a.2 = started := by
  induction h generalizing t with
  | nil => exact Or.inl ⟨t, ht, hs⟩
  | @snoc T₁ T₂ l a _ _ hstep ih =>
    obtain ⟨st, now⟩ := a
    have hbefore : ∀ {t₁ : Task}, T₁.row id = some t₁ → t₁.startedAt = some started →
        (∃ t₀, T₀.row id = some t₀ ∧ t₀.startedAt = some started) ∨
          ∃ a ∈ l ++ [(st, now)], a.2 = started := fun ht₁ hs₁ =>
      (ih ht₁ hs₁).imp_right fun ⟨a, ha, hread⟩ => ⟨a, List.mem_append_left _ ha, hread⟩
    rcases row_cases_isUpdate hstep id with hsame | ⟨data, -, -, hnew⟩ | ⟨-, hnone⟩ |
      ⟨u, t₁, hu, ht₁, -, -, hset⟩
    · exact hbefore (hsame ▸ ht) hs
    · obtain rfl := Option.some.inj (ht.symm.trans hnew)
      cases hs
    · rw [hnone] at ht
      cases ht
    · obtain rfl := Option.some.inj (ht.symm.trans hset)
      rcases startedAt_set hu now t₁ with hkeep | hwrite
      · exact hbefore ht₁ (hkeep ▸ hs)
      · exact Or.inr ⟨(st, now), by simp, Option.some.inj (hwrite.symm.trans hs)⟩

/-- **At a time that no earlier statement is after**, no update is rejected. -/
lemma exists_exec_of_run {l : List (Statement × DateTime)}
    (h : machine.Run Machine.anyStep (Table.empty Task.schema) l T) {now : DateTime}
    (hnow : ∀ a ∈ l, a.2 ≤ now) {op : RowOp} (htext : op.TextOk) (id : Uuid) :
    ∃ r, op.update.exec T id now = .ok r := by
  have hi : RowsInv T := reachable_rowsInv ⟨_, l, rfl, h⟩
  cases hexec : op.update.exec T id now with
  | ok r => exact ⟨r, rfl⟩
  | error v =>
    obtain ⟨t, ht, -, -, started, hs, hlt⟩ := (rejected_iff hi htext id now).1 ⟨v, hexec⟩
    rcases startedAt_of_run h ht hs with ⟨t₀, ht₀, -⟩ | ⟨a, ha, rfl⟩
    · simp at ht₀
    · exact absurd (hnow a ha) (not_le.2 hlt)

/-! ### A clock that is set back -/

/-- Before the time at which it was started, a task stays running. -/
lemma running_of_step {st : Statement} {now started : DateTime} {id : Uuid} {t : Task}
    (hi : RowsInv T) (h : step T (st, now) = some T') (ht : T.row id = some t)
    (hrunning : t.state = .running) (hs : t.startedAt = some started) (hlt : now < started)
    (hst : st ≠ .delete id) :
    ∃ t', T'.row id = some t' ∧ t'.state = .running ∧ t'.startedAt = some started := by
  rcases row_cases_applies h id with hsame | ⟨data, -, hnone, -⟩ | ⟨hdel, -⟩ |
    ⟨u, t₀, happlies, ht₀, hadm, hcheck, hset⟩
  · exact ⟨t, hsame.trans ht, hrunning, hs⟩
  · rw [hnone] at ht
    cases ht
  · exact absurd hdel hst
  · obtain rfl := Option.some.inj (ht.symm.trans ht₀)
    refine ⟨_, hset, ?_⟩
    -- a running row is neither claimed nor started again, and no update may end it
    have hpending : u.sources ≠ [.pending] := fun hsources => by
      rw [Task.admits_singleton hsources hadm] at hrunning
      cases hrunning
    rcases happlies with ⟨-, -, rfl⟩ | ⟨op, -, rfl⟩
    · exact absurd rfl hpending
    · have hends : op.ends = false := Bool.eq_false_iff.2 fun hends =>
        not_le.2 hlt (((RowOp.check_set_iff (hi id t ht) (T.checked t (Table.mem_of_row ht))
          hadm).1 hcheck).1 hends started hs)
      cases op with
      | transitionToRunning => exact absurd rfl hpending
      | updateStats data => exact ⟨hrunning, hs⟩
      | transitionToSucceeded | transitionToFailed | transitionToCanceled | transitionToTimeout
      | markSucceeded | markFailed | markTimeout => cases hends

/-- **Before its start, nobody can end a task**, by whatever statements. -/
lemma running_of_run {l : List (Statement × DateTime)} (hi : RowsInv T)
    (h : machine.Run Machine.anyStep T l T') {id : Uuid} {t : Task} {started : DateTime}
    (ht : T.row id = some t) (hrunning : t.state = .running) (hs : t.startedAt = some started)
    (hl : ∀ a ∈ l, a.2 < started ∧ a.1 ≠ .delete id) :
    ∃ t', T'.row id = some t' ∧ t'.state = .running ∧ t'.startedAt = some started := by
  have hinv : RowsInv T' ∧
      ∃ t', T'.row id = some t' ∧ t'.state = .running ∧ t'.startedAt = some started := by
    refine (h.of_forall_label hl).preserves
      (P := fun T' => RowsInv T' ∧
        ∃ t', T'.row id = some t' ∧ t'.state = .running ∧ t'.startedAt = some started) ?_
      ⟨hi, t, ht, hrunning, hs⟩
    rintro T₁ ⟨st, now⟩ T₂ ⟨-, hlt, hst⟩ ⟨hi₁, t₁, ht₁, hrunning₁, hs₁⟩ hstep
    exact ⟨hi₁.step hstep, running_of_step hi₁ hstep ht₁ hrunning₁ hs₁ hlt hst⟩
  exact hinv.2

/-- **The clock decides what is rejected.**  After any run, an update, with a text that
PostgreSQL can store, is rejected exactly when it is to end a task before the time of its
start; so none is at a time that is not before those of the run.  A claim of pending tasks is
never rejected; but as long as all statements run before its start, a running task is not ended
by any of them. -/
theorem clock_decides {l : List (Statement × DateTime)}
    (h : machine.Run Machine.anyStep (Table.empty Task.schema) l T) :
    (∀ op : RowOp, op.TextOk → ∀ id now, (∃ v, op.update.exec T id now = .error v) ↔
      ∃ t, T.row id = some t ∧ op.update.admits t = true ∧
        op.ends = true ∧ ∃ started, t.startedAt = some started ∧ now < started) ∧
    (∀ op : RowOp, op.TextOk → ∀ id now, (∀ a ∈ l, a.2 ≤ now) →
      ∃ r, op.update.exec T id now = .ok r) ∧
    (∀ ids now, ids.all (isPending T) = true → ∃ r, TaskQueue.claimTasks T ids now = .ok r) ∧
    ∀ id t started, T.row id = some t → t.state = .running → t.startedAt = some started →
      ∀ l' T', machine.Run Machine.anyStep T l' T' →
        (∀ a ∈ l', a.2 < started ∧ a.1 ≠ .delete id) →
          ∃ t', T'.row id = some t' ∧ t'.state = .running ∧ t'.startedAt = some started := by
  have hi : RowsInv T := reachable_rowsInv ⟨_, l, rfl, h⟩
  refine ⟨?_, ?_, ?_, ?_⟩
  · intro op htext id now
    exact rejected_iff hi htext id now
  · intro op htext id now hnow
    exact exists_exec_of_run h hnow htext id
  · intro ids now hids
    obtain ⟨ts, T', hclaim, -⟩ := exists_claimTasks hi hids now
    exact ⟨_, hclaim⟩
  · intro id t started ht hrunning hs l' T' hrun hl
    exact running_of_run hi hrun ht hrunning hs hl

/-- A task is claimed at the time 5 of a clock that is then set back. -/
def setBackStatements : List (Statement × DateTime) := [(.create sampleTask 1, 0), (.claim [1], 5)]

/-- At the time 3 the success of this task is rejected, and at the time 6 it is recorded. -/
theorem clock_decides_setBackStatements :
    ∃ T, machine.exec Machine.anyStep (Table.empty Task.schema) setBackStatements = some T ∧
      (∃ v, (RowOp.markSucceeded (some 0)).update.exec T 1 3 = .error v) ∧
      ∃ r, (RowOp.markSucceeded (some 0)).update.exec T 1 6 = .ok r := by
  have hrow : (machine.exec Machine.anyStep (Table.empty Task.schema) setBackStatements).map
      (fun T => (T.row 1).map fun t => (t.state, t.startedAt)) =
        some (some (.running, some 5)) := by
    decide +kernel
  obtain ⟨T, hT, hrow⟩ := Option.map_eq_some_iff.1 hrow
  obtain ⟨t, ht, hstate⟩ := Option.map_eq_some_iff.1 hrow
  obtain ⟨hrunning, hs⟩ := Prod.mk.inj hstate
  obtain ⟨hrejected, hforward, -⟩ := clock_decides (Machine.run_of_exec hT)
  have htext : (RowOp.markSucceeded (some 0)).TextOk := by
    rintro m ⟨⟩
  refine ⟨T, hT, (hrejected _ htext 1 3).2 ⟨t, ht, ?_, rfl, 5, hs, by decide⟩,
    hforward _ htext 1 6 (by decide)⟩
  simp [RowOp.update, TaskQueue.markSucceeded, Task.RowUpdate.admits, hrunning]

end Lifecycle

end AxonTask
