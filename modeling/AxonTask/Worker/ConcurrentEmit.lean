import AxonTask.Lib.Machine
import AxonTask.Lib.Numbering
import AxonTask.Worker.Emitter
import Mathlib.Data.Fintype.Basic
import Mathlib.Logic.Function.Basic

/-!
# Concurrent calls of one emitter (`axontask-worker/src/events.rs`)

The sequence number is an atomic counter and the previous hash a mutex that is released
between the read and the write, so the steps of concurrent calls of `emit` interleave.  All
events that have been written form one chain when the calls pass from the read to the write
of the previous hash in the order of their numbers; nothing in the code makes them do so.
-/

namespace AxonTask

open Lib
open TaskEvent (links links_prev links_curr)

/-- How far a call of `emit` has come. -/
inductive CallPc
  | idle
  /-- The number and the time have been taken. -/
  | numbered (taskId : Uuid) (event : AdapterEvent) (seq : Int64) (ts : DateTime)
  /-- The previous hash has been read, and the event has been hashed. -/
  | hashed (e : TaskEvent)
  /-- The hash of the event has been stored as the previous hash. -/
  | stored (e : TaskEvent)

/-- No call is in progress. -/
def CallPc.isIdle : CallPc → Bool
  | .idle => true
  | _ => false

lemma CallPc.eq_idle {pc : CallPc} (h : pc.isIdle = true) : pc = .idle := by
  cases pc with
  | idle => rfl
  | numbered => cases h
  | hashed => cases h
  | stored => cases h

/-- The number of a call that has not yet stored its hash. -/
def CallPc.pending : CallPc → Option Int64
  | .numbered _ _ seq _ => some seq
  | .hashed e => some e.seq
  | _ => none

/-- An emitter, its callers, and the events that have been written, in the order of their
`XADD`. -/
structure ConcurrentEmit (κ : Type*) where
  emitter : EmitterState
  pcs : κ → CallPc
  written : List TaskEvent

/-- A step of a caller.  The last two fields of the first step are its argument and the
time. -/
inductive CallStep (κ : Type*)
  | nextSeq (k : κ) (taskId : Uuid) (event : AdapterEvent) (ts : DateTime)
  | computeHash (k : κ)
  | setPrevHash (k : κ)
  | xadd (k : κ)

namespace ConcurrentEmit

variable {κ : Type*} [DecidableEq κ]

/-- A caller moves on. -/
def setPc (s : ConcurrentEmit κ) (k : κ) (pc : CallPc) : ConcurrentEmit κ :=
  { s with pcs := Function.update s.pcs k pc }

/-- A step of a caller, none of which fails. -/
def step (L : Libs) (s : ConcurrentEmit κ) : CallStep κ → Option (ConcurrentEmit κ)
  | .nextSeq k taskId event ts =>
    match s.pcs k with
    | .idle =>
      let (seq, emitter) := s.emitter.nextSeq
      some ({ s with emitter }.setPc k (.numbered taskId event seq ts))
    | _ => none
  | .computeHash k =>
    match s.pcs k with
    | .numbered taskId event seq ts =>
      (EventEmitter.taskEvent L taskId event seq ts s.emitter.prevHash).map fun e =>
        s.setPc k (.hashed e)
    | _ => none
  | .setPrevHash k =>
    match s.pcs k with
    | .hashed e =>
      some ({ s with emitter := s.emitter.setPrevHash e.hashCurr }.setPc k (.stored e))
    | _ => none
  | .xadd k =>
    match s.pcs k with
    | .stored e => some ({ s with written := s.written ++ [e] }.setPc k .idle)
    | _ => none

/-- A fresh emitter that nobody calls. -/
def start : ConcurrentEmit κ := ⟨.new, fun _ => .idle, []⟩

/-- The callers of an emitter. -/
def machine (L : Libs) : Machine (ConcurrentEmit κ) (CallStep κ) where
  Init s := s = start
  step := step L

/-- When no call is in progress, all events that have been written, in the order of their
numbers, are numbered from 0 on and form a chain. -/
def OneChain (s : ConcurrentEmit κ) : Prop :=
  (∀ k, s.pcs k = .idle) → Numbered TaskEvent.seq (TaskEvent.orderBySeq s.written) ∧
    links.Chained none (TaskEvent.orderBySeq s.written)

/-- The order of the calls: a call reads the previous hash only when all calls with smaller
numbers have stored their hashes, and the counter has not wrapped around. -/
def InOrder (s : ConcurrentEmit κ) : CallStep κ → Prop
  | .nextSeq .. => 0 ≤ s.emitter.seq
  | .computeHash k => ∀ j, ((s.pcs k).pending.all fun x =>
      (s.pcs j).pending.all fun y => decide (x ≤ y)) = true
  | _ => True

variable {L : Libs} {s s' : ConcurrentEmit κ}

/-! ### What a step does -/

@[simp] lemma emitter_setPc (k : κ) (pc : CallPc) : (s.setPc k pc).emitter = s.emitter := rfl

@[simp] lemma written_setPc (k : κ) (pc : CallPc) : (s.setPc k pc).written = s.written := rfl

@[simp] lemma pcs_setPc (k : κ) (pc : CallPc) :
    (s.setPc k pc).pcs = Function.update s.pcs k pc := rfl

/-- **Inversion of a step.** -/
lemma step_cases {a : CallStep κ} (h : step L s a = some s') :
    (∃ k taskId event ts, a = .nextSeq k taskId event ts ∧ s.pcs k = .idle ∧
      s' = { s with emitter := s.emitter.nextSeq.2 }.setPc k
        (.numbered taskId event s.emitter.seq ts)) ∨
    (∃ k x e, a = .computeHash k ∧ (s.pcs k).pending = some x ∧ (∀ e', s.pcs k ≠ .hashed e') ∧
      e.seq = x ∧ e.hashPrev = s.emitter.prevHash ∧ s' = s.setPc k (.hashed e)) ∨
    (∃ k e, a = .setPrevHash k ∧ s.pcs k = .hashed e ∧
      s' = { s with emitter := s.emitter.setPrevHash e.hashCurr }.setPc k (.stored e)) ∨
    ∃ k e, a = .xadd k ∧ s.pcs k = .stored e ∧
      s' = { s with written := s.written ++ [e] }.setPc k .idle := by
  cases a with
  | nextSeq k taskId event ts =>
    simp only [step] at h
    split at h
    · rename_i hpc
      cases h
      exact Or.inl ⟨k, taskId, event, ts, rfl, hpc, rfl⟩
    · cases h
  | computeHash k =>
    simp only [step] at h
    split at h
    · rename_i taskId event seq ts hpc
      obtain ⟨e, he, rfl⟩ := Option.map_eq_some_iff.1 h
      obtain ⟨-, hseq, hprev, -⟩ := EventEmitter.taskEvent_eq_some he
      refine Or.inr (Or.inl ⟨k, seq, e, rfl, ?_, ?_, hseq, hprev, rfl⟩)
      · rw [hpc]
        rfl
      · intro e' he'
        rw [hpc] at he'
        cases he'
    · cases h
  | setPrevHash k =>
    simp only [step] at h
    split at h
    · rename_i e hpc
      cases h
      exact Or.inr (Or.inr (Or.inl ⟨k, e, rfl, hpc, rfl⟩))
    · cases h
  | xadd k =>
    simp only [step] at h
    split at h
    · rename_i e hpc
      cases h
      exact Or.inr (Or.inr (Or.inr ⟨k, e, rfl, hpc, rfl⟩))
    · cases h

/-! ### What is known of all calls after one has moved on -/

lemma pcs_setPc_cases (s : ConcurrentEmit κ) (k : κ) (pc : CallPc) (j : κ) :
    (j = k ∧ (s.setPc k pc).pcs j = pc) ∨ (j ≠ k ∧ (s.setPc k pc).pcs j = s.pcs j) := by
  by_cases hj : j = k
  · subst hj
    exact Or.inl ⟨rfl, Function.update_self ..⟩
  · exact Or.inr ⟨hj, Function.update_of_ne hj ..⟩

lemma pending_setPc {k : κ} {pc : CallPc} (h : pc.pending = (s.pcs k).pending) (j : κ) :
    ((s.setPc k pc).pcs j).pending = (s.pcs j).pending := by
  rcases pcs_setPc_cases s k pc j with ⟨rfl, hj⟩ | ⟨-, hj⟩
  · rw [hj, h]
  · rw [hj]

lemma stored_setPc (k : κ) (pc : CallPc) (hk : ∀ e, s.pcs k ≠ .stored e)
    (hpc : ∀ e, pc ≠ .stored e) (j : κ) (e : TaskEvent) :
    (s.setPc k pc).pcs j = .stored e ↔ s.pcs j = .stored e := by
  rcases pcs_setPc_cases s k pc j with ⟨rfl, hj⟩ | ⟨-, hj⟩
  · rw [hj]
    exact ⟨fun h => absurd h (hpc e), fun h => absurd h (hk e)⟩
  · rw [hj]

/-! ### The chain of the hashes that have been stored -/

/-- `N` numbers have been taken, and `c` are the events whose hashes have been stored, in
this order: the events that have been written and those that are about to be. -/
structure Linked (s : ConcurrentEmit κ) (N : ℕ) (c : List TaskEvent) : Prop where
  counter : s.emitter.seq = Int64.ofNat N
  le_max : N ≤ 2 ^ 63
  length_le : c.length ≤ N
  numbered : Numbered TaskEvent.seq c
  chained : links.Chained none c
  prevHash : s.emitter.prevHash = links.tip none c
  range : ∀ k x, (s.pcs k).pending = some x → (c.length : ℤ) ≤ x.toInt ∧ x.toInt < N
  cover : ∀ m : ℕ, c.length ≤ m → m < N → ∃ k x, (s.pcs k).pending = some x ∧ x.toInt = m
  inj : ∀ j k x, (s.pcs j).pending = some x → (s.pcs k).pending = some x → j = k
  hashed : ∀ k e, s.pcs k = .hashed e → e.seq.toInt = c.length ∧ e.hashPrev = links.tip none c
  mem : ∀ e, e ∈ c ↔ e ∈ s.written ∨ ∃ k, s.pcs k = .stored e
  nodup : s.written.Nodup
  stored : ∀ k e, s.pcs k = .stored e → e ∉ s.written ∧ ∀ j, s.pcs j = .stored e → j = k

namespace Linked

variable {N : ℕ} {c : List TaskEvent} {k : κ}

omit [DecidableEq κ] in
lemma start : Linked (start : ConcurrentEmit κ) 0 [] where
  counter := rfl
  le_max := Nat.zero_le _
  length_le := le_refl 0
  numbered := numbered_nil
  chained := trivial
  prevHash := rfl
  range k x h := by cases h
  cover m _ hm := absurd hm (Nat.not_lt_zero m)
  inj j k x h := by cases h
  hashed k e h := by cases h
  mem e := by simp [ConcurrentEmit.start]
  nodup := List.nodup_nil
  stored k e h := by cases h

omit [DecidableEq κ] in
/-- The calls hold the numbers that they held. -/
lemma pending_congr (hi : Linked s N c) (h : ∀ j, (s'.pcs j).pending = (s.pcs j).pending) :
    (∀ k x, (s'.pcs k).pending = some x → (c.length : ℤ) ≤ x.toInt ∧ x.toInt < N) ∧
      (∀ m : ℕ, c.length ≤ m → m < N → ∃ k x, (s'.pcs k).pending = some x ∧ x.toInt = m) ∧
      ∀ j k x, (s'.pcs j).pending = some x → (s'.pcs k).pending = some x → j = k := by
  simp only [h]
  exact ⟨hi.range, hi.cover, hi.inj⟩

omit [DecidableEq κ] in
/-- The events that are about to be written are those that were. -/
lemma stored_congr (hi : Linked s N c) (h : ∀ j e, s'.pcs j = .stored e ↔ s.pcs j = .stored e)
    (hwritten : s'.written = s.written) :
    (∀ e, e ∈ c ↔ e ∈ s'.written ∨ ∃ k, s'.pcs k = .stored e) ∧
      ∀ k e, s'.pcs k = .stored e → e ∉ s'.written ∧ ∀ j, s'.pcs j = .stored e → j = k := by
  simp only [h, hwritten]
  exact ⟨hi.mem, hi.stored⟩

/-- `next_seq`: the number is above all others. -/
lemma nextSeq (hi : Linked s N c) (hpc : s.pcs k = .idle) (hseq : 0 ≤ s.emitter.seq)
    (taskId : Uuid) (event : AdapterEvent) (ts : DateTime) :
    Linked ({ s with emitter := s.emitter.nextSeq.2 }.setPc k
      (.numbered taskId event s.emitter.seq ts)) (N + 1) c := by
  have hlt : N < 2 ^ 63 := by
    refine lt_of_le_of_ne hi.le_max ?_
    rintro rfl
    rw [hi.counter] at hseq
    exact absurd hseq (by decide)
  have hN : s.emitter.seq.toInt = N := by
    rw [hi.counter, Int64.toInt_ofNat_of_lt hlt]
  -- the caller holds the new number, and the others hold what they held
  have hold : ∀ {j : κ} {x : Int64}, (({ s with emitter := s.emitter.nextSeq.2 }.setPc k
      (.numbered taskId event s.emitter.seq ts)).pcs j).pending = some x →
      (j = k ∧ x.toInt = N) ∨ (j ≠ k ∧ (s.pcs j).pending = some x) := by
    intro j x hx
    rcases pcs_setPc_cases { s with emitter := s.emitter.nextSeq.2 } k
      (.numbered taskId event s.emitter.seq ts) j with ⟨rfl, hj⟩ | ⟨hne, hj⟩
    · rw [hj] at hx
      obtain rfl := Option.some.inj hx
      exact Or.inl ⟨rfl, hN⟩
    · rw [hj] at hx
      exact Or.inr ⟨hne, hx⟩
  have hsame := stored_setPc (s := { s with emitter := s.emitter.nextSeq.2 }) k
    (.numbered taskId event s.emitter.seq ts) (by simp [hpc]) (by simp)
  obtain ⟨hmem, hstored⟩ := hi.stored_congr hsame rfl
  refine ⟨?_, hlt, Nat.le_succ_of_le hi.length_le, hi.numbered, hi.chained, hi.prevHash, ?_, ?_,
    ?_, ?_, hmem, hi.nodup, hstored⟩
  · simp [EmitterState.nextSeq, hi.counter, Int64.ofNat_add]
  · intro j x hx
    rcases hold hx with ⟨-, hx⟩ | ⟨-, hx⟩
    · have := hi.length_le
      omega
    · have := hi.range j x hx
      omega
  · intro m hle hm
    rcases Nat.lt_succ_iff_lt_or_eq.1 hm with hm | rfl
    · obtain ⟨j, x, hx, hxm⟩ := hi.cover m hle hm
      have hne : j ≠ k := by
        rintro rfl
        rw [hpc] at hx
        cases hx
      exact ⟨j, x, by simpa [Function.update_of_ne hne] using hx, hxm⟩
    · exact ⟨k, s.emitter.seq, by simp [CallPc.pending], hN⟩
  · intro j j' x hx hx'
    rcases hold hx with ⟨rfl, hxN⟩ | ⟨-, hxj⟩
    · rcases hold hx' with ⟨rfl, -⟩ | ⟨-, hxj'⟩
      · rfl
      · have := hi.range j' x hxj'
        omega
    · rcases hold hx' with ⟨-, hxN⟩ | ⟨-, hxj'⟩
      · have := hi.range j x hxj
        omega
      · exact hi.inj j j' x hxj hxj'
  · intro j e he
    rcases pcs_setPc_cases { s with emitter := s.emitter.nextSeq.2 } k
      (.numbered taskId event s.emitter.seq ts) j with ⟨-, hj⟩ | ⟨-, hj⟩
    · rw [hj] at he
      cases he
    · rw [hj] at he
      exact hi.hashed j e he

/-- `get_prev_hash` and `compute_hash` in their turn: the event names the last hash that has
been stored. -/
lemma computeHash (hi : Linked s N c) {x : Int64} {e : TaskEvent}
    (hpend : (s.pcs k).pending = some x) (hturn : InOrder s (.computeHash k)) (hseq : e.seq = x)
    (hprev : e.hashPrev = s.emitter.prevHash) : Linked (s.setPc k (.hashed e)) N c := by
  have hpending : ∀ j, ((s.setPc k (.hashed e)).pcs j).pending = (s.pcs j).pending :=
    pending_setPc (by rw [hpend, ← hseq]; rfl)
  obtain ⟨hrange, hcover, hinj⟩ := hi.pending_congr hpending
  have hnot : ∀ e', s.pcs k ≠ .stored e' := by
    intro e' he'
    rw [he'] at hpend
    cases hpend
  obtain ⟨hmem, hstored⟩ := hi.stored_congr (stored_setPc k (.hashed e) hnot (by simp)) rfl
  -- no call holds a smaller number, so this is the first one that is missing in the chain
  have hx : x.toInt = c.length := by
    obtain ⟨hle, hlt⟩ := hi.range k x hpend
    obtain ⟨j, y, hy, hyc⟩ := hi.cover c.length (le_refl _) (by omega)
    have hxy : x ≤ y := by simpa [hpend, hy] using hturn j
    rw [Int64.le_iff_toInt_le] at hxy
    omega
  refine ⟨hi.counter, hi.le_max, hi.length_le, hi.numbered, hi.chained, hi.prevHash, hrange,
    hcover, hinj, ?_, hmem, hi.nodup, hstored⟩
  intro j e' he'
  rcases pcs_setPc_cases s k (.hashed e) j with ⟨rfl, hj⟩ | ⟨-, hj⟩
  · rw [hj] at he'
    cases he'
    exact ⟨by rw [hseq, hx], hprev.trans hi.prevHash⟩
  · rw [hj] at he'
    exact hi.hashed j e' he'

omit [DecidableEq κ] in
/-- An event that is new in the chain is about to be written, by one call. -/
lemma stored_concat (hi : Linked s N c) {e : TaskEvent} (hpc : s.pcs k = .hashed e) (hnot : e ∉ c)
    (hcases : ∀ j, (j = k ∧ s'.pcs j = .stored e) ∨ (j ≠ k ∧ s'.pcs j = s.pcs j))
    (hwritten : s'.written = s.written) :
    (∀ e', e' ∈ c ++ [e] ↔ e' ∈ s'.written ∨ ∃ j, s'.pcs j = .stored e') ∧
      ∀ j e', s'.pcs j = .stored e' →
        e' ∉ s'.written ∧ ∀ i, s'.pcs i = .stored e' → i = j := by
  have hk : s'.pcs k = .stored e := (hcases k).elim And.right fun h => absurd rfl h.1
  -- the event was not in the chain, so nobody else has stored its hash
  have hnobody : ∀ j, s.pcs j ≠ .stored e := fun j hj => hnot ((hi.mem e).2 (Or.inr ⟨j, hj⟩))
  rw [hwritten]
  constructor
  · intro e'
    rw [List.mem_append, hi.mem, List.mem_singleton, or_assoc]
    refine or_congr Iff.rfl ⟨?_, ?_⟩
    · rintro (⟨j, hj⟩ | rfl)
      · rcases hcases j with ⟨rfl, -⟩ | ⟨-, hpcj⟩
        · rw [hpc] at hj
          cases hj
        · exact ⟨j, hpcj.trans hj⟩
      · exact ⟨k, hk⟩
    · rintro ⟨j, hj⟩
      rcases hcases j with ⟨-, hpcj⟩ | ⟨-, hpcj⟩
      · rw [hpcj] at hj
        cases hj
        exact Or.inr rfl
      · exact Or.inl ⟨j, hpcj ▸ hj⟩
  · intro j e' he'
    rcases hcases j with ⟨rfl, hpcj⟩ | ⟨-, hpcj⟩
    · rw [hpcj] at he'
      cases he'
      refine ⟨fun hw => hnot ((hi.mem e).2 (Or.inl hw)), ?_⟩
      intro i hi'
      rcases hcases i with ⟨rfl, -⟩ | ⟨-, hpci⟩
      · rfl
      · exact absurd (hpci ▸ hi') (hnobody i)
    · rw [hpcj] at he'
      refine ⟨(hi.stored j e' he').1, ?_⟩
      intro i hi'
      rcases hcases i with ⟨rfl, hpci⟩ | ⟨-, hpci⟩
      · rw [hpci] at hi'
        cases hi'
        exact absurd he' (hnobody j)
      · exact (hi.stored j e' he').2 i (hpci ▸ hi')

/-- `set_prev_hash`: the chain grows by the event. -/
lemma setPrevHash (hi : Linked s N c) {e : TaskEvent} (hpc : s.pcs k = .hashed e) :
    Linked ({ s with emitter := s.emitter.setPrevHash e.hashCurr }.setPc k (.stored e)) N
      (c ++ [e]) := by
  obtain ⟨hseq, hprev⟩ := hi.hashed k e hpc
  have hpend : (s.pcs k).pending = some e.seq := by
    rw [hpc]
    rfl
  have hnot : e ∉ c := by
    intro he
    obtain ⟨i, hget⟩ := List.mem_iff_getElem?.1 he
    have hlt := (List.getElem?_eq_some_iff.1 hget).1
    have hi' := hi.numbered.toInt_eq hget
    omega
  have hlt := (hi.range k e.seq hpend).2
  -- the caller holds nothing any more, and the others hold what they held
  have hcases := pcs_setPc_cases { s with emitter := s.emitter.setPrevHash e.hashCurr } k
    (.stored e)
  obtain ⟨hmem, hstored⟩ := hi.stored_concat hpc hnot hcases rfl
  have hother : ∀ {j : κ} {x : Int64}, (s.pcs j).pending = some x → x.toInt = c.length → j = k := by
    intro j x hx hxc
    obtain rfl : x = e.seq := Int64.toInt_inj.1 (hxc.trans hseq.symm)
    exact hi.inj j k e.seq hx hpend
  have hold : ∀ {j : κ} {x : Int64},
      (({ s with emitter := s.emitter.setPrevHash e.hashCurr }.setPc k (.stored e)).pcs j).pending =
        some x → j ≠ k ∧ (s.pcs j).pending = some x := by
    intro j x hx
    rcases hcases j with ⟨-, hj⟩ | ⟨hne, hj⟩
    · rw [hj] at hx
      cases hx
    · rw [hj] at hx
      exact ⟨hne, hx⟩
  refine ⟨hi.counter, hi.le_max, ?_, numbered_concat.2 ⟨hi.numbered, hseq⟩,
    Links.chained_concat.2 ⟨hi.chained, hprev⟩, by simp [EmitterState.setPrevHash], ?_, ?_, ?_, ?_,
    hmem, hi.nodup, hstored⟩
  · rw [List.length_append, List.length_singleton]
    omega
  · intro j x hx
    obtain ⟨hne, hx⟩ := hold hx
    have hrange := hi.range j x hx
    have hxc : x.toInt ≠ c.length := fun hxc => hne (hother hx hxc)
    rw [List.length_append, List.length_singleton]
    omega
  · intro m hle hm
    rw [List.length_append, List.length_singleton] at hle
    obtain ⟨j, x, hx, hxm⟩ := hi.cover m (by omega) hm
    have hne : j ≠ k := by
      rintro rfl
      rw [hpend] at hx
      obtain rfl := Option.some.inj hx
      omega
    exact ⟨j, x, by simpa [Function.update_of_ne hne] using hx, hxm⟩
  · intro j j' x hx hx'
    exact hi.inj j j' x (hold hx).2 (hold hx').2
  · intro j e' he'
    obtain ⟨hne, hx⟩ := hold (j := j) (x := e'.seq) (by rw [he']; rfl)
    have he'' : s.pcs j = .hashed e' := by simpa [Function.update_of_ne hne] using he'
    exact absurd (hother hx (hi.hashed j e' he'').1) hne

/-- `XADD`: an event of the chain is written. -/
lemma xadd (hi : Linked s N c) {e : TaskEvent} (hpc : s.pcs k = .stored e) :
    Linked ({ s with written := s.written ++ [e] }.setPc k .idle) N c := by
  have hpending : ∀ j, (({ s with written := s.written ++ [e] }.setPc k .idle).pcs j).pending =
      (s.pcs j).pending :=
    pending_setPc (s := { s with written := s.written ++ [e] }) (by simp [hpc, CallPc.pending])
  obtain ⟨hrange, hcover, hinj⟩ := hi.pending_congr hpending
  obtain ⟨hnew, honly⟩ := hi.stored k e hpc
  -- a call that holds an event which is not written yet is another one
  have hold : ∀ {j : κ} {e' : TaskEvent},
      ({ s with written := s.written ++ [e] }.setPc k .idle).pcs j = .stored e' →
        j ≠ k ∧ s.pcs j = .stored e' := by
    intro j e' he'
    rcases pcs_setPc_cases { s with written := s.written ++ [e] } k .idle j with
      ⟨-, hj⟩ | ⟨hne, hj⟩
    · rw [hj] at he'
      cases he'
    · rw [hj] at he'
      exact ⟨hne, he'⟩
  refine ⟨hi.counter, hi.le_max, hi.length_le, hi.numbered, hi.chained, hi.prevHash, hrange,
    hcover, hinj, ?_, ?_, ?_, ?_⟩
  · intro j e' he'
    rcases pcs_setPc_cases { s with written := s.written ++ [e] } k .idle j with
      ⟨-, hj⟩ | ⟨-, hj⟩
    · rw [hj] at he'
      cases he'
    · rw [hj] at he'
      exact hi.hashed j e' he'
  · intro e'
    rw [hi.mem, written_setPc, List.mem_append, List.mem_singleton, or_assoc]
    refine or_congr Iff.rfl ⟨?_, ?_⟩
    · rintro ⟨j, hj⟩
      by_cases hjk : j = k
      · subst hjk
        rw [hpc] at hj
        cases hj
        exact Or.inl rfl
      · exact Or.inr ⟨j, by simpa [Function.update_of_ne hjk] using hj⟩
    · rintro (rfl | ⟨j, hj⟩)
      · exact ⟨k, hpc⟩
      · exact ⟨j, (hold hj).2⟩
  · rw [written_setPc, List.nodup_append]
    refine ⟨hi.nodup, List.nodup_singleton e, ?_⟩
    rintro a ha b hb rfl
    rw [List.mem_singleton.1 hb] at ha
    exact hnew ha
  · intro j e' he'
    obtain ⟨hne, hj⟩ := hold he'
    refine ⟨?_, fun i hi' => (hi.stored j e' hj).2 i (hold hi').2⟩
    rw [written_setPc, List.mem_append, List.mem_singleton]
    rintro (hw | rfl)
    · exact (hi.stored j e' hj).1 hw
    · exact hne (honly j hj)

lemma step {a : CallStep κ} (hC : InOrder s a) (hi : Linked s N c)
    (h : ConcurrentEmit.step L s a = some s') : ∃ N' c', Linked s' N' c' := by
  rcases step_cases h with ⟨k, taskId, event, ts, rfl, hpc, rfl⟩ |
    ⟨k, x, e, rfl, hpend, -, hseq, hprev, rfl⟩ | ⟨k, e, rfl, hpc, rfl⟩ | ⟨k, e, rfl, hpc, rfl⟩
  · exact ⟨N + 1, c, hi.nextSeq hpc hC taskId event ts⟩
  · exact ⟨N, c, hi.computeHash hpend hC hseq hprev⟩
  · exact ⟨N, c ++ [e], hi.setPrevHash hpc⟩
  · exact ⟨N, c, hi.xadd hpc⟩

omit [DecidableEq κ] in
/-- When no call is in progress, the chain is what has been written. -/
lemma oneChain (hi : Linked s N c) : OneChain s := by
  intro hidle
  have hperm : s.written.Perm c := by
    rw [List.perm_ext_iff_of_nodup hi.nodup hi.numbered.nodup]
    intro e
    rw [hi.mem]
    refine ⟨Or.inl, ?_⟩
    rintro (hw | ⟨k, hk⟩)
    · exact hw
    · rw [hidle k] at hk
      cases hk
  have horder : TaskEvent.orderBySeq s.written = c := hi.numbered.mergeSort_eq_of_perm hperm
  rw [horder]
  exact ⟨hi.numbered, hi.chained⟩

end Linked

/-- **Calls in their order form one chain.** -/
theorem oneChain_of_inOrder (h : (machine L).Reachable InOrder s) : OneChain s := by
  have hi : ∃ N c, Linked s N c := by
    refine h.invariant (P := fun s => ∃ N c, Linked s N c) ?_ ?_
    · rintro s rfl
      exact ⟨0, [], Linked.start⟩
    · rintro s a s' hC ⟨N, c, hi⟩ hstep
      exact hi.step hC hstep
  obtain ⟨N, c, hi⟩ := hi
  exact hi.oneChain

/-! ### Two calls -/

instance [Fintype κ] (s : ConcurrentEmit κ) (a : CallStep κ) : Decidable (InOrder s a) :=
  match a with
  | .nextSeq .. => inferInstanceAs (Decidable (_ ≤ _))
  | .computeHash _ => inferInstanceAs (Decidable (∀ _, _ = _))
  | .setPrevHash _ => isTrue trivial
  | .xadd _ => isTrue trivial

/-- Two calls take their numbers; then each reads and stores the previous hash in its turn. -/
def inTurn : List (CallStep (Fin 2)) :=
  [.nextSeq 0 1 ⟨.started, .object []⟩ Libs.sampleTime,
    .nextSeq 1 2 ⟨.started, .object []⟩ Libs.sampleTime, .computeHash 0, .setPrevHash 0,
    .computeHash 1, .setPrevHash 1, .xadd 1, .xadd 0]

/-- Their events form one chain. -/
theorem oneChain_of_inOrder_inTurn :
    ∃ s, (machine Libs.sample).exec InOrder start inTurn = some s ∧ OneChain s := by
  have hrun : ((machine Libs.sample).exec InOrder start inTurn).isSome = true := by
    decide +kernel
  obtain ⟨s, hs⟩ := Option.isSome_iff_exists.1 hrun
  exact ⟨s, hs, oneChain_of_inOrder ⟨start, inTurn, rfl, Machine.run_of_exec hs⟩⟩

/-- Both calls read the previous hash before either of them stores one. -/
def overlapping : List (CallStep (Fin 2)) :=
  [.nextSeq 0 1 ⟨.started, .object []⟩ Libs.sampleTime,
    .nextSeq 1 2 ⟨.started, .object []⟩ Libs.sampleTime, .computeHash 0, .computeHash 1,
    .setPrevHash 0, .setPrevHash 1, .xadd 0, .xadd 1]

/-- Neither event names the other one. -/
theorem not_oneChain_overlapping :
    ∃ s : ConcurrentEmit (Fin 2), (machine Libs.sample).Reachable Machine.anyStep s ∧
      ¬ OneChain s := by
  have hrun : ((machine Libs.sample).exec Machine.anyStep start overlapping).map (fun s =>
      (decide (∀ k, (s.pcs k).isIdle = true), s.written.map TaskEvent.hashPrev)) =
      some (true, [none, none]) := by decide +kernel
  obtain ⟨s, hs, hend⟩ := Option.map_eq_some_iff.1 hrun
  obtain ⟨hidle, hprev⟩ := Prod.mk.inj hend
  refine ⟨s, ⟨start, overlapping, rfl, Machine.run_of_exec hs⟩, ?_⟩
  intro h
  have hchained := (h fun k => CallPc.eq_idle (of_decide_eq_true hidle k)).2
  have hnone : ∀ e ∈ TaskEvent.orderBySeq s.written, e.hashPrev = none := by
    intro e he
    have hmem := List.mem_map_of_mem (f := TaskEvent.hashPrev) (TaskEvent.mem_orderBySeq.1 he)
    rw [hprev] at hmem
    simpa using hmem
  have hlen : (TaskEvent.orderBySeq s.written).length = 2 := by
    have := congrArg List.length hprev
    simpa [TaskEvent.orderBySeq] using this
  obtain ⟨a, b, hab⟩ := List.length_eq_two.1 hlen
  rw [hab] at hchained hnone
  -- the second event names the first one in a chain
  have hb := hchained.2.1
  rw [links_prev, hnone b (by simp)] at hb
  cases hb

end ConcurrentEmit

end AxonTask
