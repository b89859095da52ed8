import AxonTask.Lib.Paging
import AxonTask.Worker.Lifecycle

/-!
# Listing the tasks of a tenant (`Task::list_by_tenant`)

The list is read in pages while tasks are created, updated and deleted.  A new task comes to the
front of the list and an update moves none, so only deletions can hide a task from the reader,
and each of them hides at most one.  This needs tasks with distinct times of creation, since
those with the same time have no fixed place.
-/

namespace AxonTask

open Lib

/-- No update changes the time of creation. -/
lemma Lifecycle.IsUpdate.createdAt {u : Task.RowUpdate} (h : Lifecycle.IsUpdate u) (now : DateTime)
    (t : Task) : (u.set now t).createdAt = t.createdAt := by
  rcases h with rfl | ⟨op, rfl⟩
  · rfl
  · cases op <;> rfl

namespace Task

/-- The tasks of a tenant `ORDER BY created_at DESC`.  Postgres may put those with the same
`created_at` in any order, and in another one for the next page. -/
def ListOrder (T : TaskTable) (tenantId : Uuid) (order : List Uuid) : Prop :=
  order.Perm ((T.rows.filter (isOf tenantId)).map Task.id) ∧
    (order.filterMap T.row).Pairwise fun a b => b.createdAt ≤ a.createdAt

instance (T : TaskTable) (tenantId : Uuid) (order : List Uuid) :
    Decidable (ListOrder T tenantId order) :=
  inferInstanceAs (Decidable (_ ∧ _))

/-- `Task::list_by_tenant`, with the order that Postgres has chosen. -/
def listByTenant (T : TaskTable) (order : List Uuid) (limit offset : ℕ) : List Task :=
  page limit offset (order.filterMap T.row)

/-! ### What the order of the list depends on -/

/-- The time at which a task has been created, if it is one of the tenant. -/
def createdAtOf (T : TaskTable) (tenantId id : Uuid) : Option DateTime :=
  ((T.row id).filter (isOf tenantId)).map Task.createdAt

/-- No two tasks of the tenant have been created at the same time. -/
def DistinctTimes (T : TaskTable) (tenantId : Uuid) : Prop :=
  ∀ id id' c, createdAtOf T tenantId id = some c → createdAtOf T tenantId id' = some c → id = id'

/-- One of the orders. -/
def ordered (T : TaskTable) (tenantId : Uuid) : List Task :=
  (T.rows.filter (isOf tenantId)).insertionSort fun a b => b.createdAt ≤ a.createdAt

/-- The list by the times and the ids. -/
def orderedKeys (T : TaskTable) (tenantId : Uuid) : List (DateTime × Uuid) :=
  (ordered T tenantId).map fun t => (t.createdAt, t.id)

variable {T T' : TaskTable} {t : Uuid}

lemma mem_ordered {task : Task} : task ∈ ordered T t ↔ task ∈ T.rows ∧ task.isOf t = true := by
  rw [ordered, (List.perm_insertionSort _ _).mem_iff, List.mem_filter]

lemma mem_orderedKeys {c : DateTime} {id : Uuid} :
    (c, id) ∈ orderedKeys T t ↔ createdAtOf T t id = some c := by
  constructor
  · intro h
    obtain ⟨task, htask, heq⟩ := List.mem_map.1 h
    obtain ⟨rfl, rfl⟩ := Prod.mk.inj heq
    obtain ⟨hmem, hown⟩ := mem_ordered.1 htask
    have hrow : T.row task.id = some task := Table.row_key_of_mem hmem
    rw [createdAtOf, hrow, Option.filter_some, if_pos hown]
    rfl
  · intro h
    obtain ⟨task, htask, rfl⟩ := Option.map_eq_some_iff.1 h
    obtain ⟨hrow, hown⟩ := Option.filter_eq_some_iff.1 htask
    obtain ⟨hmem, rfl⟩ := Table.row_eq_some_iff.1 hrow
    exact List.mem_map.2 ⟨task, mem_ordered.2 ⟨hmem, hown⟩, rfl⟩

lemma nodup_map_id_ordered (T : TaskTable) (t : Uuid) : ((ordered T t).map Task.id).Nodup := by
  have hperm := (List.perm_insertionSort (fun a b : Task => b.createdAt ≤ a.createdAt)
    (T.rows.filter (isOf t))).map Task.id
  exact hperm.nodup_iff.2 (T.keys_nodup.sublist (List.filter_sublist.map _))

/-- With distinct times, a sorted list of tasks is in strict order. -/
lemma pairwise_keys (h : DistinctTimes T t) {l : List Task}
    (hsorted : l.Pairwise fun a b => b.createdAt ≤ a.createdAt) (hnodup : (l.map Task.id).Nodup)
    (hkey : ∀ task ∈ l, createdAtOf T t task.id = some task.createdAt) :
    (l.map fun t => (t.createdAt, t.id)).Pairwise fun a b => b.1 < a.1 := by
  rw [List.pairwise_map]
  refine (hsorted.and (List.pairwise_map.1 hnodup)).imp_of_mem ?_
  rintro a b ha hb ⟨hle, hne⟩
  refine lt_of_le_of_ne hle fun heq => hne ?_
  have hb := hkey b hb
  rw [show b.createdAt = a.createdAt from heq] at hb
  exact h _ _ _ (hkey a ha) hb

/-- The list is in strict order. -/
lemma pairwise_orderedKeys (h : DistinctTimes T t) :
    (orderedKeys T t).Pairwise fun a b => b.1 < a.1 :=
  pairwise_keys h (List.pairwise_insertionSort _ _) (nodup_map_id_ordered T t)
    fun _ htask => mem_orderedKeys.1 (List.mem_map_of_mem htask)

/-- The list is determined by the times. -/
lemma orderedKeys_eq (h : DistinctTimes T t) {l : List (DateTime × Uuid)}
    (hl : l.Pairwise fun a b => b.1 < a.1)
    (hmem : ∀ c id, (c, id) ∈ l ↔ createdAtOf T t id = some c) : orderedKeys T t = l :=
  eq_of_pairwise_of_mem_iff (fun _ _ => lt_asymm) (pairwise_orderedKeys h) hl
    fun ⟨c, id⟩ => mem_orderedKeys.trans (hmem c id).symm

/-- With distinct times, Postgres has no choice. -/
lemma ListOrder.eq_map_id {order : List Uuid} (h : ListOrder T t order) (hd : DistinctTimes T t) :
    order = (ordered T t).map Task.id := by
  have hrow : ∀ id ∈ order, ∃ task, T.row id = some task ∧ task.isOf t = true := by
    intro id hid
    obtain ⟨task, htask, rfl⟩ := List.mem_map.1 (h.1.mem_iff.1 hid)
    obtain ⟨hmem, hown⟩ := List.mem_filter.1 htask
    exact ⟨task, Table.row_key_of_mem hmem, hown⟩
  have hids : (order.filterMap T.row).map Task.id = order :=
    Table.map_key_filterMap_row (S := Task.schema) fun id hid =>
      (hrow id hid).imp fun _ htask => htask.1
  have hnodup : order.Nodup := h.1.nodup_iff.2 (T.keys_nodup.sublist (List.filter_sublist.map _))
  have hmem : ∀ task, task ∈ order.filterMap T.row ↔ task ∈ ordered T t := by
    intro task
    rw [mem_ordered, List.mem_filterMap]
    constructor
    · rintro ⟨id, hid, htask⟩
      obtain ⟨task', htask', hown⟩ := hrow id hid
      obtain rfl := Option.some.inj (htask.symm.trans htask')
      exact ⟨Table.mem_of_row htask, hown⟩
    · rintro ⟨hrows, hown⟩
      exact ⟨task.id, h.1.mem_iff.2 (List.mem_map_of_mem (List.mem_filter.2 ⟨hrows, hown⟩)),
        Table.row_key_of_mem hrows⟩
  have hkeys : orderedKeys T t = (order.filterMap T.row).map fun t => (t.createdAt, t.id) := by
    refine orderedKeys_eq hd (pairwise_keys hd h.2 (hids.symm ▸ hnodup) ?_) ?_
    · intro task htask
      exact mem_orderedKeys.1 (List.mem_map_of_mem ((hmem task).1 htask))
    · intro c id
      rw [← mem_orderedKeys, orderedKeys, List.mem_map, List.mem_map]
      exact exists_congr fun task => and_congr_left fun _ => hmem task
  have hsnd := congrArg (List.map Prod.snd) hkeys
  rw [orderedKeys, List.map_map, List.map_map] at hsnd
  exact hids.symm.trans hsnd.symm

/-! ### What a statement does to the list -/

/-- What a statement does to the time of a task. -/
lemma createdAtOf_of_step {st : Statement} {now : DateTime}
    (h : Lifecycle.step T (st, now) = some T') (id : Uuid) :
    createdAtOf T' t id = createdAtOf T t id ∨
    (∃ data, st = .create data id ∧ data.tenantId = t ∧ createdAtOf T t id = none ∧
      createdAtOf T' t id = some now) ∨
    st = .delete id ∧ createdAtOf T' t id = none := by
  rcases Lifecycle.row_cases_isUpdate h id with hsame | ⟨data, rfl, hnone, hnew⟩ | ⟨rfl, hnone⟩ |
    ⟨u, task, hu, htask, -, -, hset⟩
  · exact Or.inl (by rw [createdAtOf, createdAtOf, hsame])
  · have hisOf : (new data id now).isOf t = decide (data.tenantId = t) := rfl
    by_cases hown : data.tenantId = t
    · refine Or.inr (Or.inl ⟨data, rfl, hown, by rw [createdAtOf, hnone]; rfl, ?_⟩)
      rw [createdAtOf, hnew, Option.filter_some, hisOf, if_pos (decide_eq_true hown)]
      rfl
    · refine Or.inl ?_
      rw [createdAtOf, createdAtOf, hnew, hnone, Option.filter_some, hisOf,
        if_neg (by simpa using hown)]
      rfl
  · exact Or.inr (Or.inr ⟨rfl, by rw [createdAtOf, hnone]; rfl⟩)
  · refine Or.inl ?_
    have hown : (u.set now task).isOf t = task.isOf t := by
      rw [isOf, isOf, hu.tenantId now task]
    rw [createdAtOf, createdAtOf, hset, htask, Option.filter_some, Option.filter_some, hown]
    split
    · exact congrArg some (hu.createdAt now task)
    · rfl

/-- A statement leaves the list, puts a new task in front of it, or takes one out of it. -/
lemma orderedKeys_of_step {st : Statement} {now : DateTime} (hd : DistinctTimes T t)
    (hnow : ∀ data id, st = .create data id → data.tenantId = t →
      ∀ id' c, createdAtOf T t id' = some c → c < now)
    (h : Lifecycle.step T (st, now) = some T') :
    DistinctTimes T' t ∧ (orderedKeys T' t = orderedKeys T t ∨
      (∃ data id, st = .create data id ∧ orderedKeys T' t = (now, id) :: orderedKeys T t) ∨
      ∃ id, st = .delete id ∧ orderedKeys T' t = (orderedKeys T t).filter fun k => k.2 ≠ id) := by
  have hcases := createdAtOf_of_step (t := t) h
  by_cases hsame : ∀ id, createdAtOf T' t id = createdAtOf T t id
  · have hd' : DistinctTimes T' t := by
      intro id id' c
      rw [hsame id, hsame id']
      exact hd id id' c
    refine ⟨hd', Or.inl (orderedKeys_eq hd' (pairwise_orderedKeys hd) ?_)⟩
    intro c id
    rw [mem_orderedKeys, hsame id]
  obtain ⟨id, hchanged⟩ := not_forall.1 hsame
  rcases (hcases id).resolve_left hchanged with ⟨data, rfl, hown, hnone, hnew⟩ | ⟨rfl, hnone⟩
  · have hother : ∀ id', id' ≠ id → createdAtOf T' t id' = createdAtOf T t id' := by
      intro id' hne
      rcases hcases id' with hsame | ⟨_, heq, -⟩ | ⟨heq, -⟩
      · exact hsame
      · exact absurd (Statement.create.inj heq).2.symm hne
      · cases heq
    have hbefore := hnow data id rfl hown
    have hd' : DistinctTimes T' t := by
      intro i j c hi hj
      by_cases hiid : i = id
      · by_cases hjid : j = id
        · exact hiid.trans hjid.symm
        · rw [hiid, hnew, Option.some.injEq] at hi
          rw [hother j hjid, ← hi] at hj
          exact absurd (hbefore j now hj) (lt_irrefl now)
      · by_cases hjid : j = id
        · rw [hjid, hnew, Option.some.injEq] at hj
          rw [hother i hiid, ← hj] at hi
          exact absurd (hbefore i now hi) (lt_irrefl now)
        · rw [hother i hiid] at hi
          rw [hother j hjid] at hj
          exact hd i j c hi hj
    refine ⟨hd', Or.inr (Or.inl ⟨data, id, rfl, orderedKeys_eq hd' ?_ ?_⟩)⟩
    · refine List.pairwise_cons.2 ⟨?_, pairwise_orderedKeys hd⟩
      rintro ⟨c, i⟩ hmem
      exact hbefore i c (mem_orderedKeys.1 hmem)
    · intro c i
      rw [List.mem_cons, Prod.mk.injEq, mem_orderedKeys]
      by_cases hiid : i = id
      · simp [hiid, hnone, hnew, eq_comm]
      · simp [hiid, hother i hiid]
  · have hother : ∀ id', id' ≠ id → createdAtOf T' t id' = createdAtOf T t id' := by
      intro id' hne
      rcases hcases id' with hsame | ⟨_, heq, -⟩ | ⟨heq, -⟩
      · exact hsame
      · cases heq
      · exact absurd (Statement.delete.inj heq).symm hne
    have hsub : ∀ i c, createdAtOf T' t i = some c → i ≠ id ∧ createdAtOf T t i = some c := by
      intro i c hi
      have hiid : i ≠ id := by
        rintro rfl
        rw [hnone] at hi
        cases hi
      exact ⟨hiid, hother i hiid ▸ hi⟩
    have hd' : DistinctTimes T' t := fun i j c hi hj => hd i j c (hsub i c hi).2 (hsub j c hj).2
    refine ⟨hd', Or.inr (Or.inr ⟨id, rfl, orderedKeys_eq hd' ?_ ?_⟩)⟩
    · exact (pairwise_orderedKeys hd).filter _
    · intro c i
      rw [List.mem_filter, mem_orderedKeys, decide_eq_true_eq]
      constructor
      · rintro ⟨hold, hiid⟩
        rwa [hother i hiid]
      · intro hi
        exact (hsub i c hi).symm

end Task

/-! ### Reading the list in pages -/

/-- The tasks, and a reader of the list of a tenant: where its next page begins, the ids of the
tasks that it has been given, and the number of tasks of the tenant that have been deleted. -/
structure TaskListing where
  tasks : TaskTable
  offset : ℕ
  seen : List Uuid
  deleted : ℕ

/-- A statement, or a call of the reader. -/
inductive ListingStep
  | statement (st : Statement) (now : DateTime)
  | nextPage (order : List Uuid)

namespace TaskListing

variable (t : Uuid) (limit : ℕ)

/-- The next page of the reader. -/
def pageOf (s : TaskListing) (order : List Uuid) : List Task :=
  Task.listByTenant s.tasks order limit s.offset

/-- The tasks of the tenant that a statement deletes. -/
def deletes (T : TaskTable) : Statement → ℕ
  | .delete id => if (T.row id).any (Task.isOf t) then 1 else 0
  | .create .. | .update .. | .claim _ => 0

/-- The state after a step. -/
def step (s : TaskListing) : ListingStep → Option TaskListing
  | .statement st now =>
    (Lifecycle.step s.tasks (st, now)).map fun tasks =>
      { s with tasks, deleted := s.deleted + deletes t s.tasks st }
  | .nextPage order =>
    if Task.ListOrder s.tasks t order then
      some { s with
        offset := s.offset + limit
        seen := s.seen ++ (s.pageOf limit order).map Task.id }
    else none

/-- A reader that begins with the first page. -/
def machine : Machine TaskListing ListingStep where
  Init s := s.offset = 0 ∧ s.seen = [] ∧ s.deleted = 0 ∧ Task.DistinctTimes s.tasks t
  step := step t limit

/-- A new task of the tenant is younger than those that are there, and its id is new. -/
def Younger (first : TaskTable) (s : TaskListing) : ListingStep → Prop
  | .statement (.create data id) now =>
    first.row id = none ∧ (data.tenantId = t →
      ∀ task ∈ s.tasks.rows, task.isOf t = true → task.createdAt < now)
  | _ => True

/-- The tasks that were there at first and are still there, and that the reader has not been
given. -/
def missing (first : TaskTable) (s : TaskListing) (seen : List Uuid) : List Task :=
  s.tasks.rows.filter fun task =>
    task.isOf t && ((first.row task.id).isSome && decide (task.id ∉ seen))

variable {t limit} {first : TaskTable} {s s' : TaskListing}

/-! ### The invariant -/

/-- The ids of the list. -/
def ids (t : Uuid) (s : TaskListing) : List Uuid := (Task.ordered s.tasks t).map Task.id

lemma ids_eq (s : TaskListing) : s.ids t = (Task.orderedKeys s.tasks t).map Prod.snd := by
  simp [ids, Task.orderedKeys]

lemma map_id_pageOf (limit : ℕ) {order : List Uuid} (h : Task.ListOrder s.tasks t order)
    (hd : Task.DistinctTimes s.tasks t) :
    (s.pageOf limit order).map Task.id = page limit s.offset (s.ids t) := by
  have hids : (order.filterMap s.tasks.row).map Task.id = order :=
    Table.map_key_filterMap_row (S := Task.schema) fun id hid => by
      obtain ⟨task, htask, rfl⟩ := List.mem_map.1 (h.1.mem_iff.1 hid)
      exact ⟨task, Table.row_key_of_mem (List.mem_filter.1 htask).1⟩
  rw [pageOf, Task.listByTenant, page, List.map_take, List.map_drop, hids, h.eq_map_id hd]
  rfl

/-- A task that is not one of the tenant is not in the list. -/
lemma not_mem_ids {id : Uuid} (h : (s.tasks.row id).any (Task.isOf t) = false) : id ∉ s.ids t := by
  intro hmem
  obtain ⟨task, htask, rfl⟩ := List.mem_map.1 hmem
  obtain ⟨hrows, hown⟩ := Task.mem_ordered.1 htask
  have hrow : s.tasks.row task.id = some task := Table.row_key_of_mem hrows
  rw [hrow, Option.any_some, hown] at h
  cases h

/-- The reader has missed no more tasks than have been deleted. -/
structure Inv (t : Uuid) (first : TaskTable) (s : TaskListing) : Prop where
  distinct : Task.DistinctTimes s.tasks t
  missed_le : missed (first.rows.map Task.id) s.seen s.offset (s.ids t) ≤ s.deleted

/-- **Step lemma.** -/
lemma Inv.step {a : ListingStep} (hi : Inv t first s) (hC : Younger t first s a)
    (h : step t limit s a = some s') : Inv t first s' := by
  cases a with
  | nextPage order =>
    obtain ⟨horder, heq⟩ := Option.ite_none_right_eq_some.1 h
    cases heq
    refine ⟨hi.distinct, le_trans ?_ hi.missed_le⟩
    rw [map_id_pageOf limit horder hi.distinct]
    exact missed_page_le
  | statement st now =>
    obtain ⟨T, hT, rfl⟩ := Option.map_eq_some_iff.1 h
    have hnow : ∀ data id, st = .create data id → data.tenantId = t →
        ∀ id' c, Task.createdAtOf s.tasks t id' = some c → c < now := by
      rintro data id rfl hown id' c hc
      obtain ⟨task, htask, rfl⟩ := Option.map_eq_some_iff.1 hc
      obtain ⟨hrow, hisOf⟩ := Option.filter_eq_some_iff.1 htask
      exact hC.2 hown task (Table.mem_of_row hrow) hisOf
    obtain ⟨hd, hkeys⟩ := Task.orderedKeys_of_step hi.distinct hnow hT
    refine ⟨hd, ?_⟩
    have hmissed := hi.missed_le
    rw [ids_eq] at hmissed ⊢
    rcases hkeys with hsame | ⟨data, id, rfl, hnew⟩ | ⟨id, rfl, hdelete⟩
    · dsimp only
      rw [hsame]
      exact hmissed.trans (Nat.le_add_right _ _)
    · dsimp only
      rw [hnew, List.map_cons]
      refine (missed_cons_le ?_).trans (hmissed.trans (Nat.le_add_right _ _))
      intro hmem
      obtain ⟨task, htask, hid⟩ := List.mem_map.1 hmem
      exact Table.row_eq_none_iff.1 hC.1 task htask hid
    · have herase : (Task.orderedKeys T t).map Prod.snd = (s.ids t).erase id := by
        have hnodup : (s.ids t).Nodup := Task.nodup_map_id_ordered s.tasks t
        rw [hnodup.erase_eq_filter, ids_eq, hdelete, List.filter_map]
        congr 1
        exact List.filter_congr fun k _ => Bool.eq_iff_iff.2 (by simp)
      dsimp only
      rw [herase, deletes]
      rw [← ids_eq] at hmissed
      by_cases hown : (s.tasks.row id).any (Task.isOf t) = true
      · rw [if_pos hown]
        exact missed_erase_le.trans (Nat.add_le_add_right hmissed 1)
      · rw [if_neg hown, List.erase_of_not_mem (not_mem_ids (by simpa using hown))]
        exact hmissed

/-- **What a reader misses.**  Let the tasks of the tenant at first and those created after them
have different times, each later than those before, and let the reader ask for one page after
another until it is given one that is not full.  Then the tasks that were there all the time and
that it has not been given are no more than those that have been deleted. -/
theorem missing_le (t : Uuid) (limit : ℕ) {first : TaskTable} {l : List ListingStep}
    {order : List Uuid} (hd : Task.DistinctTimes first t)
    (h : (machine t limit).Run (Younger t first) ⟨first, 0, [], 0⟩ l s)
    (horder : Task.ListOrder s.tasks t order) (hlast : (s.pageOf limit order).length < limit) :
    (missing t first s (s.seen ++ (s.pageOf limit order).map Task.id)).length ≤ s.deleted := by
  have hi : Inv t first s := h.preserves (fun _ _ _ hC hi => hi.step hC) ⟨hd, by simp⟩
  have hpage := map_id_pageOf limit horder hi.distinct
  have hfirst : ∀ id, (first.row id).isSome = true ↔ id ∈ first.rows.map Task.id := by
    intro id
    constructor
    · intro hsome
      obtain ⟨task, htask⟩ := Option.isSome_iff_exists.1 hsome
      obtain ⟨hmem, hkey⟩ := Table.row_eq_some_iff.1 htask
      exact List.mem_map.2 ⟨task, hmem, hkey⟩
    · intro hmem
      obtain ⟨task, htask, rfl⟩ := List.mem_map.1 hmem
      rw [show first.row task.id = some task from Table.row_key_of_mem htask]
      rfl
  -- what is missing is counted along the list
  have hcount : ∀ seen, (missing t first s seen).length =
      (s.ids t).countP fun id => decide (id ∈ first.rows.map Task.id ∧ id ∉ seen) := by
    intro seen
    have hperm : (s.ids t).Perm ((s.tasks.rows.filter (Task.isOf t)).map Task.id) :=
      (List.perm_insertionSort _ _).map _
    rw [hperm.countP_eq, List.countP_map, List.countP_filter, missing,
      ← List.countP_eq_length_filter]
    refine List.countP_congr ?_
    intro task _
    simp only [Bool.and_eq_true, decide_eq_true_eq, Function.comp_apply, hfirst]
    tauto
  have hshort : (page limit s.offset (s.ids t)).length < limit := by
    rwa [← hpage, List.length_map]
  rw [hcount, hpage, ← missed_of_page_length_lt (first.rows.map Task.id) _ hshort]
  exact missed_page_le.trans hi.missed_le

/-- Two tasks of a tenant. -/
def sampleFirst : TaskTable where
  rows := [Task.new Lifecycle.sampleTask 1 0, Task.new Lifecycle.sampleTask 2 1]
  keys_nodup := by decide
  checked := by decide +kernel

lemma distinctTimes_sampleFirst : Task.DistinctTimes sampleFirst 7 := by
  have hkeys : Task.orderedKeys sampleFirst 7 = [(1, 2), (0, 1)] := by decide +kernel
  intro id id' c hid hid'
  rw [← Task.mem_orderedKeys, hkeys] at hid hid'
  simp only [List.mem_cons, Prod.mk.injEq, List.not_mem_nil, or_false] at hid hid'
  rcases hid with ⟨rfl, rfl⟩ | ⟨rfl, rfl⟩
  · exact (hid'.resolve_right fun h => absurd h.1 (by decide)).2.symm
  · exact (hid'.resolve_left fun h => absurd h.1 (by decide)).2.symm

lemma step_nextPage {order : List Uuid} (h : Task.ListOrder s.tasks t order) :
    (machine t limit).step s (.nextPage order) = some { s with
      offset := s.offset + limit
      seen := s.seen ++ (s.pageOf limit order).map Task.id } :=
  if_pos h

/-- The younger task is deleted after the reader has been given it, and the older one is where
the reader has already been. -/
theorem missing_le_sampleFirst : ∃ l s,
    (machine 7 1).Run (Younger 7 sampleFirst) ⟨sampleFirst, 0, [], 0⟩ l s ∧ s.seen = [2] ∧
      (missing 7 sampleFirst s (s.seen ++ (s.pageOf 1 [1]).map Task.id)).map Task.id = [1] ∧
      (missing 7 sampleFirst s (s.seen ++ (s.pageOf 1 [1]).map Task.id)).length ≤ s.deleted := by
  have hread : (machine 7 1).Run (Younger 7 sampleFirst) ⟨sampleFirst, 0, [], 0⟩
      [.nextPage [2, 1]] _ :=
    Machine.Run.single trivial (step_nextPage (by decide +kernel))
  have hrun := hread.snoc (a := ListingStep.statement (Statement.delete 2) 5) trivial rfl
  exact ⟨_, _, hrun, by decide +kernel, by decide +kernel,
    missing_le 7 1 distinctTimes_sampleFirst hrun (by decide +kernel) (by decide +kernel)⟩

/-- Two tasks that have been created at the same time. -/
def tied : TaskTable where
  rows := [Task.new Lifecycle.sampleTask 1 0, Task.new Lifecycle.sampleTask 2 0]
  keys_nodup := by decide
  checked := by decide +kernel

/-- Tasks with the same time change places between two pages, so that the reader is given one of
them twice and the other never, although none is deleted. -/
example : ((machine 7 1).exec Machine.anyStep ⟨tied, 0, [], 0⟩
    [.nextPage [1, 2], .nextPage [2, 1], .nextPage [1, 2]]).map (fun s => (s.seen, s.deleted)) =
      some ([1, 1], 0) := by decide +kernel

end TaskListing

end AxonTask
