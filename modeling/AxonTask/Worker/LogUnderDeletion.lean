import AxonTask.Worker.Cascades

/-!
# The event log while tasks are deleted (`task_event.rs` with the foreign keys of the schema)

An append that has read the log of a task may find at its insertion that the task has been
deleted, with its log, or that others have appended.  The foreign key rejects the first, the
primary key the second; as the id of a deleted task is not given to another one, and as long as
no log is erased under an append that continues it, the log of every task stays one sealed chain.
It only grows, until it is erased or disappears as a whole with its task.
-/

namespace AxonTask

open Lib TaskEvent TaskEvent.AppendRace

namespace SchemaRace

variable {κ : Type*} [DecidableEq κ] {L : Libs} {lower : String → String} {s s' : SchemaRace κ}

/-- The log of every task is numbered and sealed; a row that is still to be inserted was
computed from a prefix of the log, or its task is gone for good. -/
structure LogInv (L : Libs) (s : SchemaRace κ) : Prop where
  numbered : ∀ t, Numbered seq (rowsOf s.db.events t)
  isSealed : ∀ t, links.Sealed (digest L) none (rowsOf s.db.events t)
  issued : ∀ t, (s.db.tasks.row t).isSome = true → t ∈ s.issued
  calls : ∀ k n, s.calls k = .read n → 0 ≤ n.seq → ReadFrom L (rowsOf s.db.events n.taskId) n ∨
    (n.taskId ∈ s.issued ∧ s.db.tasks.row n.taskId = none)

/-- An insertion of a row that was computed from a prefix of the log keeps all logs numbered
and sealed. -/
lemma chain_of_insert {T T' : EventTable} {n : NewEvent} {ts : DateTime}
    (hnum : ∀ t, Numbered seq (rowsOf T t))
    (hsealed : ∀ t, links.Sealed (digest L) none (rowsOf T t))
    (hread : ReadFrom L (rowsOf T n.taskId) n) (h : T.insert (n.toEvent ts) = .ok T') :
    (∀ t, Numbered seq (rowsOf T' t)) ∧ ∀ t, links.Sealed (digest L) none (rowsOf T' t) := by
  -- the insertion is a step of the race of appends that has this call only
  have hi : Inv L (⟨T, fun _ : Unit => .read n⟩ : AppendRace Unit) := by
    refine ⟨hnum, hsealed, ?_⟩
    rintro k n' hk -
    cases hk
    exact hread
  have hstep : AppendRace.step L (⟨T, fun _ : Unit => .read n⟩ : AppendRace Unit) (.insert () ts) =
      some (ret T' ⟨T, fun _ => .read n⟩ () (.ok (n.toEvent ts))) := by
    simp only [AppendRace.step, appendInsert, h, Except.map]
  exact ⟨(hi.step hstep).numbered, (hi.step hstep).isSealed⟩

omit [DecidableEq κ] in
/-- A statement keeps the invariant. -/
lemma LogInv.statement {st : SchemaStatement} {now : DateTime} (hi : LogInv L s)
    (hfresh : ∀ id ∈ st.newTask.toList, id ∉ s.issued)
    (herase : ∀ t ∈ st.erasedLog.toList, s.Undisturbed t)
    (hstep : s.db.step L lower (st, now) = some s'.db)
    (hcalls : s'.calls = s.calls) (hissued : s'.issued = s.issued ++ st.newTask.toList) :
    LogInv L s' := by
  have heffect := Tables.effect_of_step hstep
  have hissued' : ∀ t, (s'.db.tasks.row t).isSome = true → t ∈ s'.issued := by
    intro t ht
    rw [hissued]
    rcases heffect.tasks t ht with hold | hnew
    · exact List.mem_append_left _ (hi.issued t hold)
    · exact List.mem_append_right _ (by simp [hnew])
  refine ⟨?_, ?_, hissued', ?_⟩
  · intro t
    rw [heffect.events]
    split
    · exact hi.numbered t
    · exact numbered_nil
  · intro t
    rw [heffect.events]
    split
    · exact hi.isSealed t
    · trivial
  · intro k n hk hpos
    rw [hcalls] at hk
    rw [heffect.events]
    cases hrow : s'.db.tasks.row n.taskId with
    | none =>
      cases hrow₀ : s.db.tasks.row n.taskId with
      | none =>
        -- the task has not been there, so its log is as empty as before
        rcases hi.calls k n hk hpos with hread | ⟨hgone, -⟩
        · rw [s.db.rowsOf_events, hrow₀] at hread
          refine Or.inl ?_
          rw [if_neg (by simp)]
          exact hread
        · exact Or.inr ⟨by rw [hissued]; exact List.mem_append_left _ hgone, rfl⟩
      | some task =>
        have hold := hi.issued n.taskId (by rw [hrow₀]; rfl)
        exact Or.inr ⟨by rw [hissued]; exact List.mem_append_left _ hold, rfl⟩
    | some task =>
      rcases hi.calls k n hk hpos with hread | ⟨hgone, hnone⟩
      · refine Or.inl ?_
        split
        · exact hread
        · -- the log has been erased, so the row is a first one
          rename_i hlog
          have herased : st.erasedLog = some n.taskId := by simpa using hlog
          exact ErasureRace.readFrom_nil hread
            (herase n.taskId (by simp [herased]) k n (by rw [hk]; rfl) rfl)
      · -- a task that is gone does not come back
        rcases heffect.tasks n.taskId (by rw [hrow]; rfl) with hold | hnew
        · rw [hnone] at hold
          cases hold
        · exact absurd hgone (hfresh _ (by simp [hnew]))

/-- A step keeps the invariant. -/
lemma LogInv.step {a : SchemaStep κ} (hi : LogInv L s) (horder : Orderly s a)
    (h : (machine κ L lower).step s a = some s') : LogInv L s' := by
  rcases step_cases h with ⟨st, now, rfl, hstep, hcalls, hissued⟩ |
    ⟨k, data, hdb, hissued, hcalls⟩ | ⟨k, n, ts, hk, hins, htasks, -, hissued, hcalls⟩ |
    ⟨k, e, hdb, hissued, hcalls⟩
  · exact hi.statement horder.1 horder.2 hstep hcalls hissued
  · refine ⟨hdb ▸ hi.numbered, hdb ▸ hi.isSealed, hdb ▸ hissued ▸ hi.issued, ?_⟩
    intro j n hj hpos
    rw [hcalls] at hj
    rw [hdb, hissued]
    by_cases hjk : j = k
    · subst hjk
      simp only [Function.update_self, AppendCall.read.injEq] at hj
      subst hj
      exact Or.inl (readFrom_appendRead (hi.numbered _) hpos)
    · rw [Function.update_of_ne hjk] at hj
      exact hi.calls j n hj hpos
  · -- the foreign key has found the task of the inserted row
    have hpresent : (s'.db.tasks.row n.taskId).isSome = true := by
      refine Table.refers_iff.1 s'.db.events_task (n.toEvent ts) ?_ n.taskId rfl
      exact (Table.mem_rows_insert hins).2 (Or.inr rfl)
    have hread : ReadFrom L (rowsOf s.db.events n.taskId) n := by
      rcases hi.calls k n hk (nonneg_of_insert hins) with hread | ⟨-, hnone⟩
      · exact hread
      · rw [htasks, hnone] at hpresent
        cases hpresent
    obtain ⟨hnum, hsealed⟩ := chain_of_insert hi.numbered hi.isSealed hread hins
    refine ⟨hnum, hsealed, by rw [htasks, hissued]; exact hi.issued, ?_⟩
    intro j n' hj hpos
    rw [hcalls] at hj
    rw [htasks, hissued, rowsOf_of_insert hins]
    by_cases hjk : j = k
    · subst hjk
      simp at hj
    · rw [Function.update_of_ne hjk] at hj
      rcases hi.calls j n' hj hpos with hread' | hgone
      · exact Or.inl (hread'.append _)
      · exact Or.inr hgone
  · refine ⟨hdb ▸ hi.numbered, hdb ▸ hi.isSealed, hdb ▸ hissued ▸ hi.issued, ?_⟩
    intro j n hj hpos
    rw [hcalls] at hj
    rw [hdb, hissued]
    by_cases hjk : j = k
    · subst hjk
      simp at hj
    · rw [Function.update_of_ne hjk] at hj
      exact hi.calls j n hj hpos

lemma logInv_of_reachable (h : (machine κ L lower).Reachable Orderly s) : LogInv L s := by
  refine h.invariant (P := LogInv L) ?_ fun _ _ _ horder hi hstep => hi.step horder hstep
  rintro _ rfl
  have hrows : ∀ t, rowsOf Tables.empty.events t = [] := fun t => rfl
  refine ⟨fun t => by simp [hrows], fun t => by simp [hrows, Links.Sealed], ?_,
    fun k n hk => by cases hk⟩
  intro t ht
  cases ht

/-- The step erases the log of the task. -/
def ErasesLog (t : Uuid) : SchemaStep κ → Prop
  | .statement st _ => st.erasedLog = some t
  | .append _ => False

/-- While a task is there and its log is not erased, a step leaves the log or adds to its end;
and a task whose id has been given is not created again. -/
lemma prefix_of_step {a : SchemaStep κ} {t : Uuid} (horder : Orderly s a) (hkept : ¬ ErasesLog t a)
    (h : (machine κ L lower).step s a = some s') (ht : t ∈ s.issued) :
    t ∈ s'.issued ∧ ((s'.db.tasks.row t).isSome = true →
      (s.db.tasks.row t).isSome = true ∧ rowsOf s.db.events t <+: rowsOf s'.db.events t) := by
  rcases step_cases h with ⟨st, now, rfl, hstep, -, hissued⟩ | ⟨k, data, hdb, hissued, -⟩ |
    ⟨k, n, ts, -, hins, htasks, -, hissued, -⟩ | ⟨k, e, hdb, hissued, -⟩
  · have heffect := Tables.effect_of_step hstep
    refine ⟨by rw [hissued]; exact List.mem_append_left _ ht, ?_⟩
    intro hpresent
    rw [heffect.events, if_pos ⟨hpresent, hkept⟩]
    rcases heffect.tasks t hpresent with hold | hnew
    · exact ⟨hold, List.prefix_rfl⟩
    · exact absurd ht (horder.1 t (by simp [hnew]))
  · exact ⟨hissued ▸ ht, fun hpresent => ⟨hdb ▸ hpresent, by rw [hdb]⟩⟩
  · refine ⟨hissued ▸ ht, fun hpresent => ⟨htasks ▸ hpresent, ?_⟩⟩
    rw [rowsOf_of_insert hins]
    exact List.prefix_append _ _
  · exact ⟨hissued ▸ ht, fun hpresent => ⟨hdb ▸ hpresent, by rw [hdb]⟩⟩

/-- **The log under deletions.**  Let statements on all tables, deletions with their cascades
and erasures of logs among them, run between the two statements of any number of appends; let
no task get the id of another one, and no log be erased while an append is about to continue it.
Then in every state `verify_chain` accepts the log of every task, which carries the numbers
`0, 1, …, n-1`; and of a task that is gone no event is left.  From one state to a later one the
log of a task that is still there has only grown at its end, unless it has been erased
meanwhile. -/
theorem log_under_deletion (h : (machine κ L lower).Reachable Orderly s) (t : Uuid) :
    Numbered seq (rowsOf s.db.events t) ∧ verifyChain L s.db.events t = true ∧
      (s.db.tasks.row t = none → ∀ e ∈ s.db.events.rows, e.taskId ≠ t) ∧
      ∀ l s', (machine κ L lower).Run Orderly s l s' → (∀ a ∈ l, ¬ ErasesLog t a) →
        (s.db.tasks.row t).isSome = true → (s'.db.tasks.row t).isSome = true →
        rowsOf s.db.events t <+: rowsOf s'.db.events t := by
  have hi := logInv_of_reachable h
  refine ⟨hi.numbered t, ?_, ?_, ?_⟩
  · rw [verifyChain_iff, queryRange_eq_rowsOf (hi.numbered t)]
    exact hi.isSealed t
  · rintro hnone e he rfl
    have hsome := Table.refers_iff.1 s.db.events_task e he e.taskId rfl
    rw [hnone] at hsome
    cases hsome
  · intro l s' hrun hkept hpresent hpresent'
    have hrun' : t ∈ s'.issued ∧ ((s'.db.tasks.row t).isSome = true →
        rowsOf s.db.events t <+: rowsOf s'.db.events t) := by
      refine (hrun.of_forall_label hkept).preserves (P := fun u => t ∈ u.issued ∧
        ((u.db.tasks.row t).isSome = true → rowsOf s.db.events t <+: rowsOf u.db.events t)) ?_
        ⟨hi.issued t hpresent, fun _ => List.prefix_rfl⟩
      rintro u a u' ⟨horder, hnot⟩ ⟨hu, hgrows⟩ hstep
      obtain ⟨hu', hgrown⟩ := prefix_of_step horder hnot hstep hu
      refine ⟨hu', ?_⟩
      intro hsome
      obtain ⟨hsome₀, hprefix⟩ := hgrown hsome
      exact (hgrows hsome₀).trans hprefix
    exact hrun'.2 hpresent'

/-- A task with one event. -/
def loggedSteps : List (SchemaStep (Fin 4)) :=
  [.statement (.account (.createTenant ⟨"acme", .trial⟩ 1)) 0,
    .statement (.task (.create ⟨1, none, "job", "mock", .object [], 3600⟩ 5)) 0,
    .append (.read 0 ⟨5, .started, .object []⟩), .append (.insert 0 0)]

/-- The second event. -/
def grownSteps : List (SchemaStep (Fin 4)) :=
  [.append (.read 1 ⟨5, .progress, .object []⟩), .append (.insert 1 1)]

/-- The log is erased and begun again. -/
def erasedSteps : List (SchemaStep (Fin 4)) :=
  [.statement (.deleteForTask 5) 1, .append (.read 2 ⟨5, .started, .object []⟩),
    .append (.insert 2 2)]

/-- An append reads, and the task is deleted before its insertion. -/
def deletedSteps : List (SchemaStep (Fin 4)) :=
  [.append (.read 3 ⟨5, .progress, .object []⟩), .statement (.task (.delete 5)) 3,
    .append (.insert 3 4)]

/-- The states after the first event, the second, the erasure and the deletion. -/
def loggedDeleted : Option (SchemaRace (Fin 4) × SchemaRace (Fin 4) × SchemaRace (Fin 4) ×
    SchemaRace (Fin 4)) := do
  let M := machine (Fin 4) Libs.sample id
  let s₁ ← M.exec Orderly ⟨Tables.empty, fun _ => .idle, []⟩ loggedSteps
  let s₂ ← M.exec Orderly s₁ grownSteps
  let s₃ ← M.exec Orderly s₂ erasedSteps
  let s₄ ← M.exec Orderly s₃ deletedSteps
  pure (s₁, s₂, s₃, s₄)

/-- The log grows, is begun again after its erasure, and is gone with the task; the append that
was under way fails. -/
theorem log_under_deletion_deleted : ∃ s₁ s₂ s₃ s₄, loggedDeleted = some (s₁, s₂, s₃, s₄) ∧
    rowsOf s₁.db.events 5 <+: rowsOf s₂.db.events 5 ∧
    verifyChain Libs.sample s₂.db.events 5 = true ∧
    (rowsOf s₃.db.events 5).length = 1 ∧ verifyChain Libs.sample s₃.db.events 5 = true ∧
    (s₄.calls 3).failure = some .other ∧ ∀ e ∈ s₄.db.events.rows, e.taskId ≠ 5 := by
  have hobs : loggedDeleted.map (fun p => ((p.1.db.tasks.row 5).isSome,
      (p.2.1.db.tasks.row 5).isSome, (rowsOf p.2.2.1.db.events 5).length,
      (p.2.2.2.db.tasks.row 5).isSome, (p.2.2.2.calls 3).failure)) =
      some (true, true, 1, false, some .other) := by decide +kernel
  obtain ⟨⟨s₁, s₂, s₃, s₄⟩, hs, hvalues⟩ := Option.map_eq_some_iff.1 hobs
  obtain ⟨u₁, hrun₁, hs'⟩ := Option.bind_eq_some_iff.1 hs
  obtain ⟨u₂, hrun₂, hs'⟩ := Option.bind_eq_some_iff.1 hs'
  obtain ⟨u₃, hrun₃, hs'⟩ := Option.bind_eq_some_iff.1 hs'
  obtain ⟨u₄, hrun₄, hs'⟩ := Option.bind_eq_some_iff.1 hs'
  cases hs'
  simp only [Prod.mk.injEq] at hvalues
  obtain ⟨hpresent₁, hpresent₂, hlength, hgone, hfailure⟩ := hvalues
  have hreach₁ : (machine (Fin 4) Libs.sample id).Reachable Orderly s₁ :=
    ⟨_, _, rfl, Machine.run_of_exec hrun₁⟩
  have hreach₂ := hreach₁.run (Machine.run_of_exec hrun₂)
  have hreach₃ := hreach₂.run (Machine.run_of_exec hrun₃)
  have hreach₄ := hreach₃.run (Machine.run_of_exec hrun₄)
  refine ⟨s₁, s₂, s₃, s₄, hs, ?_, (log_under_deletion hreach₂ 5).2.1, hlength,
    (log_under_deletion hreach₃ 5).2.1, hfailure, ?_⟩
  · refine (log_under_deletion hreach₁ 5).2.2.2 _ _ (Machine.run_of_exec hrun₂) ?_ hpresent₁
      hpresent₂
    simp [grownSteps, ErasesLog]
  · exact (log_under_deletion hreach₄ 5).2.2.1 (by simpa using hgone)

end SchemaRace

end AxonTask
