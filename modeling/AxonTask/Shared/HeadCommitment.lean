import AxonTask.Lib.Sha256
import AxonTask.Shared.TaskEvent
import Mathlib.Data.Set.Function

/-!
# The last hash of an accepted log commits to the log

The hash input of a row is the concatenation of an optional previous hash, the sequence
number, the kind and the payload, without separators.  It can be read back all the same:
the previous hash is absent exactly in the first row and has 32 bytes otherwise, the
sequence number has 8 bytes, and no kind is a proper prefix of another, so that the payload
is what remains.
-/

namespace AxonTask

open Lib

namespace TaskEvent

variable {L : Libs}

/-- No kind is a proper prefix of another. -/
lemma kinds_prefixFree : PrefixFree (kinds.map utf8) := by decide

/-- After the same previous hash, the hash input can be read back. -/
lemma hashInput_inj_of_prev {p : Option Bytes} {s s' : Int64} {k k' : String} {v v' : JsonValue}
    (hk : k ∈ kinds) (hk' : k' ∈ kinds) (h : hashInput L p s k v = hashInput L p s' k' v') :
    s = s' ∧ k = k' ∧ (L.serdeToVec v).getD [] = (L.serdeToVec v').getD [] := by
  obtain ⟨hseq, h⟩ := List.append_inj (List.append_cancel_left h) (by simp)
  obtain ⟨hkind, hpayload⟩ := kinds_prefixFree.append_inj
    (List.mem_map_of_mem hk) (List.mem_map_of_mem hk') h
  exact ⟨i64LeBytes_injective hseq, utf8_injective hkind, hpayload⟩

/-- **The hash input can be read back.** -/
lemma hashInput_inj {p p' : Option Bytes} {s s' : Int64} {k k' : String} {v v' : JsonValue}
    (hp : p.isSome = p'.isSome) (hlen : ∀ b, p = some b → b.length = 32)
    (hlen' : ∀ b, p' = some b → b.length = 32) (hk : k ∈ kinds) (hk' : k' ∈ kinds)
    (h : hashInput L p s k v = hashInput L p' s' k' v') :
    p = p' ∧ s = s' ∧ k = k' ∧ (L.serdeToVec v).getD [] = (L.serdeToVec v').getD [] := by
  have hprev : p = p' :=
    eq_of_getD_eq hp (List.append_inj h (length_getD_eq hp hlen hlen')).1
  subst hprev
  exact ⟨rfl, hashInput_inj_of_prev hk hk' h⟩

/-- The bytes of a payload tell it, where the printer is total and injective. -/
lemma payload_eq_of_bytes {s : Set JsonValue} (hserde : ∀ v, (L.serdeToVec v).isSome = true)
    (hinj : Set.InjOn L.serdeToVec s) {v v' : JsonValue} (hv : v ∈ s) (hv' : v' ∈ s)
    (h : (L.serdeToVec v).getD [] = (L.serdeToVec v').getD []) : v = v' := by
  refine hinj hv hv' ?_
  obtain ⟨b, hb⟩ := Option.isSome_iff_exists.1 (hserde v)
  obtain ⟨b', hb'⟩ := Option.isSome_iff_exists.1 (hserde v')
  rw [hb, hb'] at h ⊢
  simpa using h

/-- What a row hash covers, with the hash itself. -/
def covered (e : TaskEvent) : (Int64 × String × JsonValue) × Option Bytes × Bytes :=
  ((e.seq, e.kind, e.payload), e.hashPrev, e.hashCurr)

/-- The kind of a stored row satisfies `task_events_kind_check`. -/
lemma kind_mem_kinds {T : EventTable} {e : TaskEvent} (h : e ∈ T.rows) : e.kind ∈ kinds := by
  have hcheck := T.checked e h
  simp only [schema, Bool.and_eq_true] at hcheck
  simpa using hcheck.1.1.1

/-- In a sealed log, the hash that a row names before it has the width of a digest. -/
lemma length_hashPrev {l : List TaskEvent} (hl : links.Sealed (digest L) none l)
    (h32 : ∀ b, (L.sha256 b).length = 32) {e : TaskEvent} (he : e ∈ l) {b : Bytes}
    (hb : e.hashPrev = some b) : b.length = 32 := by
  rcases hl.chained.prev_mem e he with h | ⟨e', he', h⟩
  · simp [hb] at h
  · have hcurr := hl.curr_eq e' he'
    simp only [links_prev, links_curr, hb, Option.some.injEq] at h hcurr
    rw [h, hcurr]
    exact h32 _

/-- **The head of an accepted log commits to the log.**  Two stored logs of the same length
that `verify_chain` accepts and whose last rows have the same `hash_curr` agree at every
position on `seq`, `kind`, `payload`, `hash_prev` and `hash_curr`. -/
theorem verifyChain_head_commits {T T' : EventTable} {t t' : Uuid}
    (h32 : ∀ b, (L.sha256 b).length = 32)
    (hcf : Set.InjOn L.sha256
      (hashInputs L (queryRange T t 0 none) ∪ hashInputs L (queryRange T' t' 0 none)))
    (hserde : ∀ v, (L.serdeToVec v).isSome = true)
    (hinj : Set.InjOn L.serdeToVec
      {v | ∃ e ∈ queryRange T t 0 none ++ queryRange T' t' 0 none, e.payload = v})
    (hlen : (queryRange T t 0 none).length = (queryRange T' t' 0 none).length)
    (hv : verifyChain L T t = true) (hv' : verifyChain L T' t' = true)
    (hlast : (queryRange T t 0 none).getLast?.map hashCurr =
      (queryRange T' t' 0 none).getLast?.map hashCurr) (i : ℕ) :
    (queryRange T t 0 none)[i]?.map covered = (queryRange T' t' 0 none)[i]?.map covered := by
  rw [verifyChain_iff] at hv hv'
  have hmem : ∀ e ∈ queryRange T t 0 none, e ∈ T.rows := fun e he => mem_queryRange he
  have hmem' : ∀ e ∈ queryRange T' t' 0 none, e ∈ T'.rows := fun e he => mem_queryRange he
  generalize queryRange T t 0 none = l at *
  generalize queryRange T' t' 0 none = l' at *
  -- the last rows have the same hash, so the logs have the same tip
  have htip : links.tip none l = links.tip none l' := by
    rw [Links.tip_none, Links.tip_none]
    exact hlast
  -- the row hash binds the previous hash and the fields it covers
  have hbind : ∀ e ∈ l, ∀ e' ∈ l', (links.prev e).isSome = (links.prev e').isSome →
      digest L (links.prev e) e = digest L (links.prev e') e' →
      links.prev e = links.prev e' ∧
        (e.seq, e.kind, e.payload) = (e'.seq, e'.kind, e'.payload) := by
    intro e he e' he' hsome hdigest
    have hinput : hashInput L e.hashPrev e.seq e.kind e.payload =
        hashInput L e'.hashPrev e'.seq e'.kind e'.payload :=
      hcf (Or.inl ⟨e, he, rfl⟩) (Or.inr ⟨e', he', rfl⟩) hdigest
    obtain ⟨hprev, hseq, hkind, hbytes⟩ := hashInput_inj hsome
      (fun b hb => length_hashPrev hv h32 he hb) (fun b hb => length_hashPrev hv' h32 he' hb)
      (kind_mem_kinds (hmem e he)) (kind_mem_kinds (hmem' e' he')) hinput
    have hpayload : e.payload = e'.payload :=
      payload_eq_of_bytes hserde hinj ⟨e, by simp [he], rfl⟩ ⟨e', by simp [he'], rfl⟩ hbytes
    exact ⟨hprev, by rw [hseq, hkind, hpayload]⟩
  have hagree := congrArg (fun m => m[i]?) (hv.agree hv' hlen htip hbind)
  simp only [List.getElem?_map] at hagree
  exact hagree

/-! ### A log of two rows -/

/-- A log of the task `t` with two rows. -/
def twoRows (t : Uuid) : List TaskEvent :=
  let hash₀ := computeHash Libs.sample none 0 "started" (.object [])
  let hash₁ := computeHash Libs.sample (some hash₀) 1 "success" (.object [])
  [⟨t, 0, Libs.sampleTime, "started", .object [], none, hash₀⟩,
    ⟨t, 1, Libs.sampleTime, "success", .object [], some hash₀, hash₁⟩]

/-- The table with these rows. -/
def twoRowTable (t : Uuid) : EventTable where
  rows := twoRows t
  keys_nodup := by simp [twoRows, schema]
  checked := by
    intro e he
    simp only [twoRows, List.mem_cons, List.not_mem_nil, or_false] at he
    rcases he with rfl | rfl <;> rfl

lemma queryRange_twoRowTable (t : Uuid) : queryRange (twoRowTable t) t 0 none = twoRows t := by
  have hsel : ((twoRowTable t).rows.filter fun e => decide (e.taskId = t) && decide (0 ≤ e.seq) &&
      (none : Option Int64).all fun m => decide (e.seq ≤ m)) = twoRows t := by
    simp [twoRowTable, twoRows]
  rw [queryRange, hsel]
  exact List.mergeSort_of_pairwise (by simp [twoRows])

/-- The commitment at the logs of two tasks with the same events. -/
theorem verifyChain_head_commits_twoRows :
    (queryRange (twoRowTable 1) 1 0 none)[0]?.map covered =
      (queryRange (twoRowTable 2) 2 0 none)[0]?.map covered := by
  have hv : ∀ t, verifyChain Libs.sample (twoRowTable t) t = true := fun t => by
    rw [verifyChain_iff, queryRange_twoRowTable]
    exact ⟨rfl, rfl, rfl, rfl, trivial⟩
  have hsub : ∀ t, hashInputs Libs.sample (queryRange (twoRowTable t) t 0 none) ⊆
      {hashInput Libs.sample none 0 "started" (.object []),
        hashInput Libs.sample (some (computeHash Libs.sample none 0 "started" (.object []))) 1
          "success" (.object [])} := fun t => by
    rw [queryRange_twoRowTable]
    rintro b ⟨e, he, rfl⟩
    simp only [twoRows, List.mem_cons, List.not_mem_nil, or_false] at he
    rcases he with rfl | rfl
    · exact Or.inl rfl
    · exact Or.inr rfl
  refine verifyChain_head_commits (L := Libs.sample) Lib.Sha256.length_sha256
    ((Set.injOn_pair.2 fun h => absurd h ?_).mono (Set.union_subset (hsub 1) (hsub 2)))
    (fun _ => rfl) ?_ (by simp [queryRange_twoRowTable, twoRows]) (hv 1) (hv 2) ?_ 0
  · decide +kernel
  · rintro v ⟨e, he, rfl⟩ v' ⟨e', he', rfl⟩ -
    simp only [queryRange_twoRowTable, twoRows, List.mem_append, List.mem_cons, List.not_mem_nil,
      or_false] at he he'
    rcases he with (rfl | rfl) | rfl | rfl <;> rcases he' with (rfl | rfl) | rfl | rfl <;> rfl
  · simp [queryRange_twoRowTable, twoRows]

end TaskEvent

end AxonTask
