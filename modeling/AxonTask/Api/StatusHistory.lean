import AxonTask.Api.Service
import Mathlib.Logic.Relation

/-!
# What the status of a task shows over time

Tenants ask for the status of tasks while other requests and the workers change them and others
delete them.  What a task has answered once bounds what it answers later: its state goes along
the allowed transitions, the time at which it has started stays, and once it has ended its
answers differ in the cursor and the bytes only.
-/

namespace AxonTask

open Lib

namespace TaskState

/-- A task in the first state can get into the second one. -/
def Leads : TaskState → TaskState → Prop :=
  Relation.ReflTransGen fun a b => a.canTransitionTo b = true

lemma Leads.ne_pending {a b : TaskState} (h : Leads a b) (ha : a ≠ .pending) : b ≠ .pending := by
  induction h with
  | refl => exact ha
  | tail _ hstep _ =>
    rintro rfl
    rw [canTransitionTo_pending] at hstep
    cases hstep

end TaskState

namespace Task

/-- The second row is what the first one may become. -/
structure Later (t t' : Task) : Prop where
  id : t'.id = t.id
  tenantId : t'.tenantId = t.tenantId
  name : t'.name = t.name
  createdAt : t'.createdAt = t.createdAt
  state : t.state.Leads t'.state
  startedAt : t.state ≠ .pending → t'.startedAt = t.startedAt
  ended : t.state.isTerminal = true →
    t'.state = t.state ∧ t'.endedAt = t.endedAt ∧ t'.errorMessage = t.errorMessage

lemma Later.refl (t : Task) : t.Later t :=
  ⟨rfl, rfl, rfl, rfl, .refl, fun _ => rfl, fun _ => ⟨rfl, rfl, rfl⟩⟩

lemma Later.trans {t t' t'' : Task} (h : t.Later t') (h' : t'.Later t'') : t.Later t'' where
  id := h'.id.trans h.id
  tenantId := h'.tenantId.trans h.tenantId
  name := h'.name.trans h.name
  createdAt := h'.createdAt.trans h.createdAt
  state := h.state.trans h'.state
  startedAt hne := (h'.startedAt (h.state.ne_pending hne)).trans (h.startedAt hne)
  ended hterm := by
    obtain ⟨hstate, hended, herror⟩ := h.ended hterm
    obtain ⟨hstate', hended', herror'⟩ := h'.ended (hstate ▸ hterm)
    exact ⟨hstate'.trans hstate, hended'.trans hended, herror'.trans herror⟩

/-- Only the statistics of a task that has ended are updated. -/
lemma ended_set {u : RowUpdate} (hu : Lifecycle.IsUpdate u) {t : Task} (hadm : u.admits t = true)
    (hterm : t.state.isTerminal = true) (now : DateTime) :
    (u.set now t).state = t.state ∧ (u.set now t).endedAt = t.endedAt ∧
      (u.set now t).errorMessage = t.errorMessage := by
  have hactive : ∀ st, st.isTerminal = false → t.state ≠ st := by
    rintro st hst heq
    rw [heq, hst] at hterm
    cases hterm
  rcases hu with rfl | ⟨op, rfl⟩
  · exact absurd (admits_singleton rfl hadm) (hactive .pending rfl)
  · cases op with
    | updateStats data => exact ⟨rfl, rfl, rfl⟩
    | transitionToRunning => exact absurd (admits_singleton rfl hadm) (hactive .pending rfl)
    | transitionToCanceled =>
      have hadm : t.state = .pending ∨ t.state = .running := by
        simpa [RowUpdate.admits, RowOp.update, transitionToCanceled] using hadm
      exact (hadm.elim (hactive .pending rfl) (hactive .running rfl)).elim
    | transitionToSucceeded | transitionToFailed | transitionToTimeout | markSucceeded
    | markFailed | markTimeout => exact absurd (admits_singleton rfl hadm) (hactive .running rfl)

/-- **Step lemma.** -/
lemma later_of_step {T T' : TaskTable} {st : Statement} {now : DateTime}
    (hi : Lifecycle.RowsInv T) (h : Lifecycle.step T (st, now) = some T') {id : Uuid} {t : Task}
    (ht : T.row id = some t) : T'.row id = none ∨ ∃ t', T'.row id = some t' ∧ t.Later t' := by
  rcases Lifecycle.row_cases_isUpdate h id with hsame | ⟨data, -, hnone, -⟩ | ⟨-, hgone⟩ |
    ⟨u, t₀, hu, ht₀, hadm, hcheck, hset⟩
  · exact Or.inr ⟨t, hsame.trans ht, .refl t⟩
  · simp [hnone] at ht
  · exact Or.inl hgone
  · obtain rfl := Option.some.inj (ht.symm.trans ht₀)
    have hchange := hu.lawful now t (hi id t ht) hadm hcheck
    refine Or.inr ⟨_, hset, ?_⟩
    exact
      { id := u.set_id now t
        tenantId := hu.tenantId now t
        name := by
          rcases hu with rfl | ⟨op, rfl⟩
          · rfl
          · cases op <;> rfl
        createdAt := hchange.createdAt
        state := hchange.state.elim (fun hsame => hsame ▸ .refl)
          fun hcan => Relation.ReflTransGen.single hcan
        startedAt := hchange.startedAt
        ended := fun hterm => ended_set hu hadm hterm now }

end Task

namespace Api

/-! ### Answers -/

namespace TaskStatusResponse

/-- The duration in the metrics. -/
def durationMs (r : TaskStatusResponse) : Option Int64 := r.metrics.bind TaskMetrics.durationMs

/-- The second answer may come after the first one. -/
structure Later (r r' : TaskStatusResponse) : Prop where
  name : r'.name = r.name
  createdAt : r'.createdAt = r.createdAt
  state : ∃ st st' : TaskState, r.state = st.asStr ∧ r'.state = st'.asStr ∧ st.Leads st'
  startedAt : r.startedAt.isSome = true → r'.startedAt = r.startedAt
  ended : r.endedAt.isSome = true → r'.state = r.state ∧ r'.startedAt = r.startedAt ∧
    r'.endedAt = r.endedAt ∧ r'.error = r.error ∧ r'.durationMs = r.durationMs

end TaskStatusResponse

lemma durationMs_statusOf (task : Task) (now : DateTime) :
    (statusOf task now).durationMs = durationMs task now := by
  unfold TaskStatusResponse.durationMs statusOf
  dsimp only
  split
  · rfl
  · rename_i hnone
    simp only [Bool.or_eq_true, not_or, Bool.not_eq_true, Option.isSome_eq_false_iff,
      Option.isNone_iff_eq_none] at hnone
    exact hnone.1.symm

/-- What a row may become is answered later. -/
lemma later_statusOf {t t' : Task} (hi : t.RowInv) (h : t.Later t') (now now' : DateTime) :
    (statusOf t now).Later (statusOf t' now') where
  name := h.name
  createdAt := h.createdAt
  state := ⟨t.state, t'.state, rfl, rfl, h.state⟩
  startedAt hsome := by
    refine h.startedAt fun hpending => ?_
    rw [show (statusOf t now).startedAt = t.startedAt from rfl, (hi.pending hpending).1] at hsome
    cases hsome
  ended hsome := by
    have hsome : t.endedAt.isSome = true := hsome
    have hactive : t.endedAt ≠ none := by
      intro hnone
      rw [hnone] at hsome
      cases hsome
    have hpending : t.state ≠ .pending := fun heq => hactive (hi.pending heq).2
    have hrunning : t.state ≠ .running := fun heq => hactive (hi.running heq).2
    have hterm : t.state.isTerminal = true := by
      cases hstate : t.state <;> simp_all [TaskState.isTerminal]
    obtain ⟨hstate, hended, herror⟩ := h.ended hterm
    have hstarted := h.startedAt hpending
    refine ⟨congrArg TaskState.asStr hstate, hstarted, hended, herror, ?_⟩
    obtain ⟨ended, hend⟩ := Option.isSome_iff_exists.1 hsome
    rw [durationMs_statusOf, durationMs_statusOf, durationMs, durationMs, hstarted, hended, hend]
    cases t.startedAt <;> rfl

namespace Service

variable {L : Libs} {s s' : Service}

/-- The status in an answer. -/
def statusIn (t : Uuid) : Except ApiError ApiResponse → Option (Uuid × TaskStatusResponse)
  | .ok (.taskStatus status) => some (t, status)
  | _ => none

/-- The statuses that have been answered, and to whom. -/
def statuses (s : Service) : List (Uuid × TaskStatusResponse) :=
  s.answers.filterMap fun a => statusIn a.1 a.2

lemma statuses_snoc (db : Database) (l : List (Uuid × Except ApiError ApiResponse)) (t : Uuid)
    (r : Except ApiError ApiResponse) :
    statuses ⟨db, l ++ [(t, r)]⟩ = statuses ⟨db, l⟩ ++ (statusIn t r).toList := by
  simp only [statuses, List.filterMap_append, List.filterMap_cons, List.filterMap_nil]
  cases statusIn t r <;> rfl

/-- The answer is behind the row of its task, if the task is still there. -/
def Behind (T : TaskTable) (a : Uuid × TaskStatusResponse) : Prop :=
  ∃ old now, a.2 = statusOf old now ∧ old.RowInv ∧ old.tenantId = a.1 ∧
    (T.row old.id = none ∨ ∃ task, T.row old.id = some task ∧ old.Later task)

/-- `gen_random_uuid()` gives no task the id of one whose status has been answered. -/
def NewIds (s : Service) (a : ServiceOp) : Prop :=
  ∀ id ∈ a.newTask.toList, ∀ b ∈ s.statuses, b.2.taskId ≠ id

instance (s : Service) (a : ServiceOp) : Decidable (NewIds s a) :=
  List.decidableBAll (fun id => ∀ b ∈ s.statuses, b.2.taskId ≠ id) a.newTask.toList

/-- The invariant of the answers. -/
structure HistoryInv (s : Service) : Prop where
  rows : Lifecycle.RowsInv s.db.tasks
  behind : ∀ a ∈ s.statuses, Behind s.db.tasks a
  pairwise : s.statuses.Pairwise fun a b => a.2.taskId = b.2.taskId → a.1 = b.1 ∧ a.2.Later b.2

/-- An operation leaves the answers behind the rows. -/
lemma Behind.step {T T' : TaskTable} {newTask : Option Uuid} {a : Uuid × TaskStatusResponse}
    (hi : Lifecycle.RowsInv T) (hT : OneStatement newTask T T') (hnew : newTask ≠ some a.2.taskId)
    (h : Behind T a) : Behind T' a := by
  obtain ⟨old, now, hstatus, hold, htenant, hrow⟩ := h
  refine ⟨old, now, hstatus, hold, htenant, ?_⟩
  rcases hT with rfl | ⟨st, now', hstep, hst⟩
  · exact hrow
  rcases hrow with hgone | ⟨task, hrow, hlater⟩
  · -- a task that is gone does not come back
    rcases Lifecycle.row_cases_isUpdate hstep old.id with hsame | ⟨data, rfl, -, -⟩ | ⟨-, hnone⟩ |
      ⟨u, t, -, ht, -⟩
    · exact Or.inl (hsame.trans hgone)
    · refine absurd (hst data old.id rfl) ?_
      rw [hstatus] at hnew
      exact hnew
    · exact Or.inl hnone
    · rw [hgone] at ht
      cases ht
  · rcases Task.later_of_step hi hstep hrow with hnone | ⟨task', hrow', hlater'⟩
    · exact Or.inl hnone
    · exact Or.inr ⟨task', hrow', hlater.trans hlater'⟩

/-- What an operation answers. -/
lemma statuses_of_step {a : ServiceOp} (h : Service.step L s a = some s') :
    s'.statuses = s.statuses ∨ ∃ t status, s'.statuses = s.statuses ++ [(t, status)] ∧
      s'.db = s.db ∧ ∃ task ∈ s.db.tasks.rows, ∃ now, task.tenantId = t ∧
        status = statusOf task now := by
  cases a with
  | claim ids now =>
    obtain ⟨T, -, rfl⟩ := Option.map_eq_some_iff.1 h
    exact Or.inl rfl
  | update op id now =>
    obtain ⟨T, -, rfl⟩ := Option.map_eq_some_iff.1 h
    exact Or.inl rfl
  | delete id =>
    cases h
    exact Or.inl rfl
  | request env auth req =>
    obtain ⟨⟨r, db⟩, hserve, rfl⟩ := Option.map_eq_some_iff.1 h
    have hsnoc := statuses_snoc db s.answers auth.tenantId r
    cases hstatus : statusIn auth.tenantId r with
    | none =>
      rw [hstatus, Option.toList_none, List.append_nil] at hsnoc
      exact Or.inl hsnoc
    | some a =>
      rw [hstatus] at hsnoc
      unfold statusIn at hstatus
      split at hstatus
      · rename_i status
        cases hstatus
        obtain ⟨rfl, task, htask, htenant, rfl⟩ := status_of_serve hserve
        exact Or.inr ⟨auth.tenantId, _, hsnoc, rfl, task, htask, _, htenant, rfl⟩
      · cases hstatus

/-- **Step lemma.** -/
lemma HistoryInv.step {a : ServiceOp} (hi : HistoryInv s) (hC : NewIds s a)
    (h : Service.step L s a = some s') : HistoryInv s' := by
  have hone := oneStatement_step h
  have hrows : Lifecycle.RowsInv s'.db.tasks := by
    rcases hone with heq | ⟨st, now, hstep, -⟩
    · rw [heq]
      exact hi.rows
    · exact hi.rows.step hstep
  have hbehind : ∀ b ∈ s.statuses, Behind s'.db.tasks b := by
    intro b hb
    refine (hi.behind b hb).step hi.rows hone ?_
    intro hnew
    exact hC b.2.taskId (by simp [hnew]) b hb rfl
  rcases statuses_of_step h with hsame | ⟨t, status, hnew, hdb, task, htask, now, rfl, rfl⟩
  · exact ⟨hrows, hsame ▸ hbehind, hsame ▸ hi.pairwise⟩
  · have hrow : s'.db.tasks.row task.id = some task := by
      rw [hdb]
      exact Table.row_key_of_mem htask
    refine ⟨hrows, ?_, ?_⟩
    · rw [hnew]
      intro a ha
      rcases List.mem_append.1 ha with ha | ha
      · exact hbehind a ha
      · obtain rfl := List.mem_singleton.1 ha
        exact ⟨task, now, rfl, hrows _ _ hrow, rfl, Or.inr ⟨task, hrow, .refl task⟩⟩
    · rw [hnew, List.pairwise_append]
      refine ⟨hi.pairwise, List.pairwise_singleton _ _, ?_⟩
      intro a ha b hb hid
      obtain rfl := List.mem_singleton.1 hb
      obtain ⟨old, now', hstatus, hold, htenant, hrow'⟩ := hbehind a ha
      rw [hstatus] at hid ⊢
      rw [show old.id = task.id from hid, hrow] at hrow'
      obtain ⟨task', heq, hlater⟩ := hrow'.resolve_left (by simp)
      obtain rfl := Option.some.inj heq
      exact ⟨htenant.symm.trans hlater.tenantId.symm, later_statusOf hold hlater now' now⟩

/-- **What the status of a task shows over time.**  In every run of the service in which no task
gets the id of another one, two answers about one task have gone to the same tenant, and the
second one may come after the first one: the state has moved along the allowed transitions, the
start is the same once there is one, and once there is an end, the state, the times, the duration
and the error are the same. -/
theorem status_history {l : List ServiceOp} (hi : Lifecycle.RowsInv s.db.tasks)
    (hnone : s.answers = []) (h : (machine L).Run NewIds s l s') :
    s'.statuses.Pairwise fun a b => a.2.taskId = b.2.taskId → a.1 = b.1 ∧ a.2.Later b.2 := by
  have hstatuses : s.statuses = [] := by rw [statuses, hnone, List.filterMap_nil]
  have hinit : HistoryInv s := ⟨hi, by simp [hstatuses], by simp [hstatuses]⟩
  exact (h.preserves (fun _ _ _ hC hi => hi.step hC) hinit).pairwise

/-- A tenant asks for the status of its task before and after it is claimed, after it is
recorded as succeeded, after the statistics have been updated, and after it has been deleted. -/
def statusOps : List ServiceOp :=
  let poll := .request sampleSurroundings (.fromJwt 3 7) (.getTaskStatus 1)
  [poll, .claim [1] 1, poll, .update (.markSucceeded (some 0)) 1 4, poll,
    .update (.updateStats { cursor := some 9 }) 1 5, poll, .delete 1, poll]

/-- The answers to this tenant; the last one is not a status. -/
theorem status_history_statusOps : ∃ s,
    (machine .sample).exec NewIds ⟨sampleDatabase sampleAlone, []⟩ statusOps = some s ∧
      s.statuses.map (fun a => (a.1, a.2.state, a.2.endedAt, a.2.lastSeq)) =
        [(7, "pending", none, some 0), (7, "running", none, some 0),
          (7, "succeeded", some 4, some 0), (7, "succeeded", some 4, some 9)] ∧
      s.statuses.Pairwise fun a b => a.2.taskId = b.2.taskId → a.1 = b.1 ∧ a.2.Later b.2 := by
  have hrun : ((machine .sample).exec NewIds ⟨sampleDatabase sampleAlone, []⟩
      statusOps).map (fun s => s.statuses.map fun a =>
        (a.1, a.2.state, a.2.endedAt, a.2.lastSeq)) =
      some [(7, "pending", none, some 0), (7, "running", none, some 0),
        (7, "succeeded", some 4, some 0), (7, "succeeded", some 4, some 9)] := by
    decide +kernel
  obtain ⟨s, hs, hanswers⟩ := Option.map_eq_some_iff.1 hrun
  have hrows : Lifecycle.RowsInv sampleAlone := by
    intro id task htask
    obtain rfl : task = sampleOwn := List.mem_singleton.1 (Table.mem_of_row htask)
    exact Task.rowInv_new _ _ _
  exact ⟨s, hs, hanswers, status_history hrows rfl (Machine.run_of_exec hs)⟩

end Service

end Api

end AxonTask
