import AxonTask.Lib.Numbering
import AxonTask.Shared.HeadCommitment

/-!
# Tampering with one field of an accepted log

An administrator of the database may overwrite a field of a stored row, as long as the
constraints of the table still hold.  `verify_chain` notices every such change but one: the
timestamp of a row enters neither the hash nor the check of the links.
-/

namespace AxonTask

open Lib

namespace TaskEvent

variable {L : Libs} {T T' : EventTable} {t : Uuid} {e e' : TaskEvent}

/-! ### The rows of one task -/

lemma mem_queryRange_iff : e ∈ queryRange T t 0 none ↔ e ∈ T.rows ∧ e.taskId = t := by
  constructor
  · intro h
    have hsel := List.of_mem_filter (mem_orderBySeq.1 h)
    simp only [Option.all_none, Bool.and_true, Bool.and_eq_true, decide_eq_true_eq] at hsel
    exact ⟨mem_queryRange h, hsel.1⟩
  · rintro ⟨he, rfl⟩
    have hcheck := T.checked e he
    simp only [schema, Bool.and_eq_true, decide_eq_true_eq] at hcheck
    exact mem_orderBySeq.2 (List.mem_filter.2 ⟨he, by simp [hcheck.1.1.2]⟩)

/-- The rows of a task come in the order of their sequence numbers, which differ. -/
lemma pairwise_queryRange : (queryRange T t 0 none).Pairwise fun a b => a.seq < b.seq := by
  have hnodup : ((queryRange T t 0 none).map schema.key).Nodup :=
    (((List.mergeSort_perm _ _).map _).nodup_iff).2
      (T.keys_nodup.sublist (List.filter_sublist.map _))
  have hne := List.pairwise_map.1 hnodup
  refine ((pairwise_mergeSort_le _).and hne).imp_of_mem ?_
  rintro a b ha hb ⟨hle, hkey⟩
  refine Int64.lt_of_le_of_ne hle fun hseq => hkey ?_
  exact Prod.ext ((mem_queryRange_iff.1 ha).2.trans (mem_queryRange_iff.1 hb).2.symm) hseq

/-! ### One row overwritten -/

/-- A new value for one field of a row. -/
inductive FieldChange
  | seq (v : Int64)
  | ts (v : DateTime)
  | kind (v : String)
  | payload (v : JsonValue)
  | hashPrev (v : Option Bytes)
  | hashCurr (v : Bytes)

namespace FieldChange

/-- The row with the new value. -/
def apply (c : FieldChange) (e : TaskEvent) : TaskEvent :=
  match c with
  | seq v => { e with seq := v }
  | ts v => { e with ts := v }
  | kind v => { e with kind := v }
  | payload v => { e with payload := v }
  | hashPrev v => { e with hashPrev := v }
  | hashCurr v => { e with hashCurr := v }

/-- Whether the field is the timestamp. -/
def isTs : FieldChange → Bool
  | ts _ => true
  | _ => false

@[simp] lemma taskId_apply (c : FieldChange) (e : TaskEvent) : (c.apply e).taskId = e.taskId := by
  cases c <;> rfl

end FieldChange

/-- The table `T'` is `T` with one field of the row `e` replaced by a different value. -/
structure Tampered (T : EventTable) (e : TaskEvent) (c : FieldChange) (T' : EventTable) :
    Prop where
  differs : c.apply e ≠ e
  rows : ∃ rest, T.rows.Perm (e :: rest) ∧ T'.rows.Perm (c.apply e :: rest)

/-- A row overwritten under its key keeps its place in the log. -/
lemma exists_queryRange_eq {rest : List TaskEvent} (hT : T.rows.Perm (e :: rest))
    (hT' : T'.rows.Perm (e' :: rest)) (htask : e'.taskId = e.taskId) (hseq : e'.seq = e.seq) :
    ∃ l l', queryRange T e.taskId 0 none = l ++ e :: l' ∧
      queryRange T' e.taskId 0 none = l ++ e' :: l' := by
  obtain ⟨l, l', hl⟩ := List.append_of_mem
    (mem_queryRange_iff.2 ⟨hT.mem_iff.2 List.mem_cons_self, rfl⟩)
  refine ⟨l, l', hl, ?_⟩
  have hsorted : (l ++ e' :: l').Pairwise fun a b => a.seq < b.seq := by
    have h := pairwise_queryRange (T := T) (t := e.taskId)
    rw [hl] at h
    simpa only [List.pairwise_append, List.pairwise_cons, List.forall_mem_cons, hseq] using h
  refine mergeSort_eq_of_pairwise_lt hsorted ?_
  -- both logs consist of the overwritten row and the selected rows of `rest`
  have hpos : 0 ≤ e.seq := by
    have hcheck := T.checked e (hT.mem_iff.2 List.mem_cons_self)
    simp only [schema, Bool.and_eq_true, decide_eq_true_eq] at hcheck
    exact hcheck.1.1.2
  have hlog := ((List.mergeSort_perm _ _).symm.trans (List.Perm.of_eq hl)).symm.trans
    (hT.filter _)
  rw [List.filter_cons_of_pos (by simp [hpos])] at hlog
  have hrest := ((List.perm_middle.symm.trans hlog).cons_inv).symm
  refine (hT'.filter _).trans ?_
  rw [List.filter_cons_of_pos (by simp [htask, hseq, hpos])]
  exact (hrest.cons e').trans List.perm_middle.symm

/-! ### What the verifier hashes -/

/-- The byte strings that the loop of `verify_chain` hashes before it returns. -/
def loopInputs (L : Libs) : Option Bytes → List TaskEvent → List Bytes
  | _, [] => []
  | prevHash, event :: events =>
    let input := hashInput L prevHash event.seq event.kind event.payload
    if L.sha256 input ≠ event.hashCurr then [input]
    else if event.hashPrev ≠ prevHash then [input]
    else input :: loopInputs L (some event.hashCurr) events

/-- The byte strings that `verify_chain` hashes. -/
def verifyInputs (L : Libs) (T : EventTable) (t : Uuid) : Set Bytes :=
  {b | b ∈ loopInputs L none (queryRange T t 0 none)}

lemma mem_loopInputs {prevHash : Option Bytes} {events : List TaskEvent}
    (h : links.Sealed (digest L) prevHash events) (he : e ∈ events) :
    hashInput L e.hashPrev e.seq e.kind e.payload ∈ loopInputs L prevHash events := by
  induction events generalizing prevHash with
  | nil => simp at he
  | cons a events ih =>
    obtain ⟨hprev, hcurr, hrest⟩ := h
    have hcons : loopInputs L prevHash (a :: events) =
        hashInput L prevHash a.seq a.kind a.payload :: loopInputs L (some a.hashCurr) events := by
      have hcurr : L.sha256 (hashInput L prevHash a.seq a.kind a.payload) = a.hashCurr :=
        hcurr.symm
      have hprev : a.hashPrev = prevHash := hprev
      simp [loopInputs, hcurr, hprev]
    rw [hcons]
    rcases List.mem_cons.1 he with rfl | he
    · rw [show e.hashPrev = prevHash from hprev]
      exact List.mem_cons_self
    · exact List.mem_cons_of_mem _ (ih hrest he)

/-- A row of an accepted log carries the hash of what it names, which was hashed. -/
lemma hashCurr_of_accepted (hv : verifyChain L T t = true) (he : e ∈ T.rows)
    (ht : e.taskId = t) :
    e.hashCurr = L.sha256 (hashInput L e.hashPrev e.seq e.kind e.payload) ∧
      hashInput L e.hashPrev e.seq e.kind e.payload ∈ verifyInputs L T t := by
  have hsealed := verifyChain_iff.1 hv
  have hmem := mem_queryRange_iff.2 ⟨he, ht⟩
  exact ⟨hsealed.curr_eq e hmem, mem_loopInputs hsealed hmem⟩

/-- A row whose timestamp alone differs is as good as the row itself. -/
lemma verifyChain_of_ts {v : DateTime} {rest : List TaskEvent}
    (hv : verifyChain L T e.taskId = true) (hT : T.rows.Perm (e :: rest))
    (hT' : T'.rows.Perm ({ e with ts := v } :: rest)) : verifyChain L T' e.taskId = true := by
  obtain ⟨l, l', hl, hl'⟩ := exists_queryRange_eq hT hT' rfl rfl
  rw [verifyChain_iff, hl, Links.sealed_append] at hv
  rw [verifyChain_iff, hl', Links.sealed_append]
  exact hv

/-- In two accepted logs, a row overwritten under its key names the same hash before it. -/
lemma hashPrev_of_accepted {rest : List TaskEvent} (hv : verifyChain L T e.taskId = true)
    (hv' : verifyChain L T' e.taskId = true) (hT : T.rows.Perm (e :: rest))
    (hT' : T'.rows.Perm (e' :: rest)) (htask : e'.taskId = e.taskId) (hseq : e'.seq = e.seq) :
    e'.hashPrev = e.hashPrev := by
  obtain ⟨l, l', hl, hl'⟩ := exists_queryRange_eq hT hT' htask hseq
  rw [verifyChain_iff, hl] at hv
  rw [verifyChain_iff, hl'] at hv'
  exact hv'.chained.prev_eq.trans hv.chained.prev_eq.symm

/-- In two accepted logs, rows with the same hashes had the same input hashed, and the input
tells their fields. -/
lemma fields_eq_of_accepted
    (hcf : Set.InjOn L.sha256 (verifyInputs L T e.taskId ∪ verifyInputs L T' e.taskId))
    (hserde : ∀ v, (L.serdeToVec v).isSome = true)
    (hinj : Set.InjOn L.serdeToVec
      {v | ∃ r ∈ queryRange T e.taskId 0 none ++ queryRange T' e.taskId 0 none, r.payload = v})
    (hv : verifyChain L T e.taskId = true) (hv' : verifyChain L T' e.taskId = true)
    (he : e ∈ T.rows) (he' : e' ∈ T'.rows) (htask : e'.taskId = e.taskId)
    (hprev : e'.hashPrev = e.hashPrev) (hsame : e'.hashCurr = e.hashCurr) :
    e.seq = e'.seq ∧ e.kind = e'.kind ∧ e.payload = e'.payload := by
  obtain ⟨hcurr, hin⟩ := hashCurr_of_accepted hv he rfl
  obtain ⟨hcurr', hin'⟩ := hashCurr_of_accepted hv' he' htask
  have hinput := hcf (Or.inl hin) (Or.inr hin') (hcurr.symm.trans (hsame.symm.trans hcurr'))
  rw [hprev] at hinput
  obtain ⟨hseq, hkind, hbytes⟩ :=
    hashInput_inj_of_prev (kind_mem_kinds he) (kind_mem_kinds he') hinput
  refine ⟨hseq, hkind, payload_eq_of_bytes hserde hinj ⟨e, ?_, rfl⟩ ⟨e', ?_, rfl⟩ hbytes⟩
  · exact List.mem_append_left _ (mem_queryRange_iff.2 ⟨he, rfl⟩)
  · exact List.mem_append_right _ (mem_queryRange_iff.2 ⟨he', htask⟩)

/-! ### Which changes the verifier notices -/

/-- **`verify_chain` notices every change of a field but the timestamp.**  The log of a task
that `verify_chain` accepts is rejected after one field of one of its rows has got a
different value, unless the field is `ts`. -/
theorem verifyChain_eq_false_iff {c : FieldChange}
    (hcf : Set.InjOn L.sha256 (verifyInputs L T t ∪ verifyInputs L T' t))
    (hserde : ∀ v, (L.serdeToVec v).isSome = true)
    (hinj : Set.InjOn L.serdeToVec
      {v | ∃ r ∈ queryRange T t 0 none ++ queryRange T' t 0 none, r.payload = v})
    (hv : verifyChain L T t = true) (ht : e.taskId = t) (hc : Tampered T e c T') :
    verifyChain L T' t = false ↔ c.isTs = false := by
  subst ht
  obtain ⟨hdiff, rest, hT, hT'⟩ := hc
  constructor
  · intro hrejected
    cases c with
    | ts v => simp [verifyChain_of_ts hv hT hT'] at hrejected
    | seq | kind | payload | hashPrev | hashCurr => rfl
  intro hts
  by_contra haccepted
  have hv' : verifyChain L T' e.taskId = true := by simpa using haccepted
  have he : e ∈ T.rows := hT.mem_iff.2 List.mem_cons_self
  have he' : c.apply e ∈ T'.rows := hT'.mem_iff.2 List.mem_cons_self
  have htask := c.taskId_apply e
  have hfields := fields_eq_of_accepted hcf hserde hinj hv hv' he he' htask
  -- each replaced field has kept its value
  apply hdiff
  cases c with
  | ts v => simp [FieldChange.isTs] at hts
  | seq v =>
    have hseq : e.seq = v := (hfields rfl rfl).1
    rw [FieldChange.apply, ← hseq]
  | kind v =>
    have hkind : e.kind = v := (hfields rfl rfl).2.1
    rw [FieldChange.apply, ← hkind]
  | payload v =>
    have hpayload : e.payload = v := (hfields rfl rfl).2.2
    rw [FieldChange.apply, ← hpayload]
  | hashPrev v =>
    have hprev : v = e.hashPrev := hashPrev_of_accepted hv hv' hT hT' rfl rfl
    rw [FieldChange.apply, hprev]
  | hashCurr v =>
    have hcurr := (hashCurr_of_accepted hv he rfl).1
    have hcurr' := (hashCurr_of_accepted hv' he' htask).1
    have hsame : v = e.hashCurr := hcurr'.trans hcurr.symm
    rw [FieldChange.apply, hsame]

/-! ### A log of one row -/

/-- The first row of a task, hashed as `started`. -/
def oneRow (ts : DateTime) (kind : EventKind) : TaskEvent :=
  ⟨1, 0, ts, kind.asStr, .object [], none,
    computeHash Libs.sample none 0 EventKind.started.asStr (.object [])⟩

/-- The table with this row. -/
def oneRowTable (ts : DateTime) (kind : EventKind) : EventTable where
  rows := [oneRow ts kind]
  keys_nodup := by simp
  checked := by
    intro e he
    rw [List.mem_singleton.1 he]
    cases kind <;> rfl

lemma queryRange_oneRowTable (ts : DateTime) (kind : EventKind) :
    queryRange (oneRowTable ts kind) 1 0 none = [oneRow ts kind] := by
  simp [queryRange, oneRowTable, oneRow, orderBySeq]

lemma verifyChain_oneRowTable (ts : DateTime) :
    verifyChain Libs.sample (oneRowTable ts .started) 1 = true := by
  rw [verifyChain_iff, queryRange_oneRowTable]
  exact ⟨rfl, rfl, trivial⟩

lemma verifyInputs_oneRowTable (ts : DateTime) (kind : EventKind) :
    verifyInputs Libs.sample (oneRowTable ts kind) 1 ⊆
      {hashInput Libs.sample none 0 kind.asStr (.object [])} := by
  rw [verifyInputs, queryRange_oneRowTable]
  intro b hb
  have hb : b ∈ loopInputs Libs.sample none [oneRow ts kind] := hb
  rw [loopInputs] at hb
  split at hb
  · exact List.mem_singleton.1 hb
  · split at hb
    · exact List.mem_singleton.1 hb
    · exact List.mem_singleton.1 hb

/-- The two logs have one payload between them. -/
lemma injOn_oneRowTable {β : Type*} (f : JsonValue → β) (ts ts' : DateTime)
    (kind kind' : EventKind) :
    Set.InjOn f {v | ∃ r ∈ queryRange (oneRowTable ts kind) 1 0 none ++
      queryRange (oneRowTable ts' kind') 1 0 none, r.payload = v} := by
  rintro v ⟨r, hr, rfl⟩ v' ⟨r', hr', rfl⟩ -
  simp only [queryRange_oneRowTable, List.cons_append, List.nil_append, List.mem_cons,
    List.not_mem_nil, or_false] at hr hr'
  rcases hr with rfl | rfl <;> rcases hr' with rfl | rfl <;> rfl

/-- The change of a kind is noticed. -/
theorem verifyChain_eq_false_iff_kind :
    verifyChain Libs.sample (oneRowTable Libs.sampleTime .progress) 1 = false ↔
      (FieldChange.kind "progress").isTs = false := by
  refine verifyChain_eq_false_iff (e := oneRow Libs.sampleTime .started)
    ((Set.injOn_pair.2 fun h => absurd h ?_).mono (Set.union_subset_union
      (verifyInputs_oneRowTable Libs.sampleTime .started)
      (verifyInputs_oneRowTable Libs.sampleTime .progress)))
    (fun _ => rfl) (injOn_oneRowTable _ _ _ _ _) (verifyChain_oneRowTable _) rfl
    ⟨?_, [], List.Perm.refl _, List.Perm.refl _⟩
  · decide +kernel
  · intro h
    have hkind := congrArg TaskEvent.kind h
    simp [FieldChange.apply, oneRow, EventKind.asStr] at hkind

/-- The change of a timestamp is not noticed, even though nothing collides. -/
theorem not_verifyChain_eq_false_ts :
    verifyChain Libs.sample (oneRowTable Libs.sampleTime .started) 1 = true ∧
      ¬ ∀ (c : FieldChange) (T' : EventTable),
        Tampered (oneRowTable Libs.sampleTime .started) (oneRow Libs.sampleTime .started) c T' →
        Set.InjOn Libs.sample.sha256
          (verifyInputs Libs.sample (oneRowTable Libs.sampleTime .started) 1 ∪
            verifyInputs Libs.sample T' 1) →
        Set.InjOn Libs.sample.serdeToVec
          {v | ∃ r ∈ queryRange (oneRowTable Libs.sampleTime .started) 1 0 none ++
            queryRange T' 1 0 none, r.payload = v} →
        verifyChain Libs.sample T' 1 = false := by
  refine ⟨verifyChain_oneRowTable _, fun hall => ?_⟩
  have hrejected := hall (.ts 0) (oneRowTable 0 .started)
    ⟨?_, [], List.Perm.refl _, List.Perm.refl _⟩ ?_ (injOn_oneRowTable _ _ _ _ _)
  · exact absurd ((verifyChain_oneRowTable 0).symm.trans hrejected) (by simp)
  · intro h
    have hts := congrArg TaskEvent.ts h
    simp [FieldChange.apply, oneRow, Libs.sampleTime] at hts
  · exact (Set.injOn_singleton _ _).mono (Set.union_subset
      (verifyInputs_oneRowTable Libs.sampleTime .started) (verifyInputs_oneRowTable 0 .started))

end TaskEvent

end AxonTask
