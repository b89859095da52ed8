import AxonTask.Lib.Rfc3339
import AxonTask.Worker.Emitter

/-!
# The last hash of an emitter chain commits to the chain

The hash input of the emitter is the concatenation of the sequence number, the kind, the
payload, the timestamp and the optional previous hash, without separators.  It can be read
back from both ends: the sequence number has 8 bytes and no kind is a proper prefix of
another; the previous hash is absent exactly in the first event and has 32 bytes otherwise,
and the text of a timestamp shows its own length at its end.  The payload is what remains.
-/

namespace AxonTask

open Lib

namespace AdapterEventKind

/-- All kinds, in the order of the source. -/
def all : List AdapterEventKind :=
  [started, progress, stdout, stderr, completed, failed, cancelled, timeout, custom]

lemma mem_all (k : AdapterEventKind) : k ∈ all := by cases k <;> decide

/-- No kind is a proper prefix of another. -/
lemma prefixFree_all : PrefixFree (all.map fun k => utf8 k.toString) := by decide

end AdapterEventKind

namespace EventEmitter

variable {L : Libs} {taskId : Uuid} {l l' : List TaskEvent} {e e' : TaskEvent}

/-! ### Linked events -/

/-- Every event carries the hash of its own content, the first one names no hash before it,
and every later one the hash of its predecessor. -/
structure Linked (L : Libs) (l : List TaskEvent) : Prop where
  chained : TaskEvent.links.Chained none l
  hashed : ∀ e ∈ l, computeHash L e = some e.hashCurr

/-- The hash of an event, given the hash before it. -/
def digest (L : Libs) (hashPrev : Option Bytes) (e : TaskEvent) : Bytes :=
  (computeHash L { e with hashPrev }).getD []

/-- The emitter links what it writes. -/
lemma linked_emitAll (events : List (DateTime × AdapterEvent)) :
    Linked L (emitAll L taskId .new events) := by
  constructor
  · have hchained : ∀ s, TaskEvent.links.Chained s.prevHash (emitAll L taskId s events) := by
      induction events with
      | nil => exact fun _ => trivial
      | cons a events ih =>
        intro s
        unfold emitAll emit
        cases hte : taskEvent L taskId a.2 s.nextSeq.1 a.1 s.nextSeq.2.prevHash with
        | none =>
          have hrest : TaskEvent.links.Chained s.prevHash (emitAll L taskId s.nextSeq.2 events) :=
            ih s.nextSeq.2
          simpa [hte] using hrest
        | some e =>
          obtain ⟨-, -, hprev, -⟩ := taskEvent_eq_some hte
          have hrest := ih (s.nextSeq.2.setPrevHash e.hashCurr)
          simpa [hte, Links.Chained] using ⟨hprev, hrest⟩
    exact hchained .new
  · intro e he
    obtain ⟨b, hb, hcurr⟩ := hashedByEmitter_of_mem he
    rw [computeHash, hb, hcurr, Option.map_some]

/-- The input that was hashed for a linked event. -/
lemma Linked.exists_hashInput (h : Linked L l) (he : e ∈ l) :
    ∃ b, hashInput L e = some b ∧ e.hashCurr = L.sha256 b := by
  obtain ⟨b, hb, hcurr⟩ := Option.map_eq_some_iff.1 (h.hashed e he)
  exact ⟨b, hb, hcurr.symm⟩

lemma digest_hashPrev (L : Libs) (e : TaskEvent) :
    digest L e.hashPrev e = (computeHash L e).getD [] := rfl

lemma Linked.sealed (h : Linked L l) : TaskEvent.links.Sealed (digest L) none l := by
  refine h.chained.sealed ?_
  intro e he
  rw [TaskEvent.links_prev, TaskEvent.links_curr, digest_hashPrev, h.hashed e he,
    Option.getD_some]

/-- In a linked list, the hash that an event names before it has the width of a digest. -/
lemma Linked.length_hashPrev (h : Linked L l) (h32 : ∀ b, (L.sha256 b).length = 32) (he : e ∈ l)
    {b : Bytes} (hb : e.hashPrev = some b) : b.length = 32 := by
  rcases h.chained.prev_mem e he with hnone | ⟨e', he', hprev⟩
  · simp [hb] at hnone
  · obtain ⟨b', -, hcurr⟩ := h.exists_hashInput he'
    simp only [TaskEvent.links_prev, TaskEvent.links_curr, hb, Option.some.injEq] at hprev
    rw [hprev, hcurr]
    exact h32 b'

/-! ### Reading the hash input back -/

/-- Where a timestamp with a four-digit year follows, a payload ends. -/
lemma payload_ts_inj {payload payload' : String} {t t' : DateTime}
    (hprint : ∀ t, Rfc3339.FourDigitYear t → L.toRfc3339 t = Rfc3339.print t)
    (ht : Rfc3339.FourDigitYear t) (ht' : Rfc3339.FourDigitYear t')
    (h : utf8 payload ++ utf8 (L.toRfc3339 t) = utf8 payload' ++ utf8 (L.toRfc3339 t')) :
    payload = payload' ∧ t = t' := by
  rw [← utf8_append, ← utf8_append, hprint t ht, hprint t' ht'] at h
  have hchars := congrArg String.toList (utf8_injective h)
  rw [String.toList_append, String.toList_append, Rfc3339.print, Rfc3339.print,
    String.toList_ofList, String.toList_ofList] at hchars
  obtain ⟨hpayload, hts⟩ := Rfc3339.print_inj_of_append ht ht' hchars
  exact ⟨String.toList_injective hpayload, hts⟩

/-- **The hash input of the emitter can be read back.** -/
lemma hashInput_inj {b : Bytes} (hprev : e.hashPrev.isSome = e'.hashPrev.isSome)
    (hlen : ∀ p, e.hashPrev = some p → p.length = 32)
    (hlen' : ∀ p, e'.hashPrev = some p → p.length = 32)
    (hk : ∃ k : AdapterEventKind, e.kind = k.toString)
    (hk' : ∃ k : AdapterEventKind, e'.kind = k.toString)
    (ht : Rfc3339.FourDigitYear e.ts) (ht' : Rfc3339.FourDigitYear e'.ts)
    (hprint : ∀ t, Rfc3339.FourDigitYear t → L.toRfc3339 t = Rfc3339.print t)
    (hb : hashInput L e = some b) (hb' : hashInput L e' = some b) :
    e.seq = e'.seq ∧ e.kind = e'.kind ∧ L.serdeToString e.payload = L.serdeToString e'.payload ∧
      e.ts = e'.ts ∧ e.hashPrev = e'.hashPrev := by
  obtain ⟨payload, hpayload, rfl⟩ := Option.map_eq_some_iff.1 hb
  obtain ⟨payload', hpayload', h⟩ := Option.map_eq_some_iff.1 hb'
  obtain ⟨k, hk⟩ := hk
  obtain ⟨k', hk'⟩ := hk'
  -- from the front: the sequence number and the kind
  obtain ⟨hseq, h⟩ := List.append_inj h (by simp)
  rw [hk, hk'] at h
  obtain ⟨hkind, h⟩ := AdapterEventKind.prefixFree_all.append_inj
    (List.mem_map_of_mem k'.mem_all) (List.mem_map_of_mem k.mem_all) h
  -- from the back: the previous hash, then the timestamp
  rw [← List.append_assoc, ← List.append_assoc] at h
  obtain ⟨h, hhash⟩ := List.append_inj' h (length_getD_eq hprev.symm hlen' hlen)
  obtain ⟨rfl, hts⟩ := payload_ts_inj hprint ht' ht h
  refine ⟨(i64LeBytes_injective hseq).symm, ?_, hpayload.trans hpayload'.symm, hts.symm,
    (eq_of_getD_eq hprev.symm hhash).symm⟩
  rw [hk, hk', utf8_injective hkind]

/-! ### The commitment -/

/-- What an emitter hash covers. -/
def covered (e : TaskEvent) : Int64 × String × JsonValue × DateTime × Option Bytes :=
  (e.seq, e.kind, e.payload, e.ts, e.hashPrev)

/-- **The head of an emitter chain commits to the chain.**  Two linked lists of the same
length whose last events have the same `hash_curr` agree at every position on `seq`, `kind`,
`payload`, `ts` and `hash_prev`. -/
theorem linked_head_commits (h32 : ∀ b, (L.sha256 b).length = 32)
    (hcf : Set.InjOn L.sha256 (hashInputs L l ∪ hashInputs L l'))
    (hinj : Set.InjOn L.serdeToString {v | ∃ e ∈ l ++ l', e.payload = v})
    (hprint : ∀ t, Rfc3339.FourDigitYear t → L.toRfc3339 t = Rfc3339.print t)
    (hkind : ∀ e ∈ l ++ l', ∃ k : AdapterEventKind, e.kind = k.toString)
    (hyear : ∀ e ∈ l ++ l', Rfc3339.FourDigitYear e.ts) (hl : Linked L l) (hl' : Linked L l')
    (hlen : l.length = l'.length)
    (hlast : l.getLast?.map TaskEvent.hashCurr = l'.getLast?.map TaskEvent.hashCurr) (i : ℕ) :
    l[i]?.map covered = l'[i]?.map covered := by
  -- the last events have the same hash, so the lists have the same tip
  have htip : TaskEvent.links.tip none l = TaskEvent.links.tip none l' := by
    rw [Links.tip_none, Links.tip_none]
    exact hlast
  -- the hash binds the previous hash and the fields it covers
  have hbind : ∀ e ∈ l, ∀ e' ∈ l', (TaskEvent.links.prev e).isSome =
      (TaskEvent.links.prev e').isSome →
      digest L (TaskEvent.links.prev e) e = digest L (TaskEvent.links.prev e') e' →
      TaskEvent.links.prev e = TaskEvent.links.prev e' ∧ covered e = covered e' := by
    intro e he e' he' hsome hdigest
    obtain ⟨b, hb, hcurr⟩ := hl.exists_hashInput he
    obtain ⟨b', hb', hcurr'⟩ := hl'.exists_hashInput he'
    simp only [TaskEvent.links_prev, digest_hashPrev, hl.hashed e he, hl'.hashed e' he',
      Option.getD_some] at hdigest
    obtain rfl : b = b' :=
      hcf (Or.inl ⟨e, he, hb⟩) (Or.inr ⟨e', he', hb'⟩) (hcurr ▸ hcurr' ▸ hdigest)
    have hmem : e ∈ l ++ l' := List.mem_append_left _ he
    have hmem' : e' ∈ l ++ l' := List.mem_append_right _ he'
    obtain ⟨hseq, hk, hpayload, hts, hprev⟩ := hashInput_inj hsome
      (fun _ hp => hl.length_hashPrev h32 he hp) (fun _ hp => hl'.length_hashPrev h32 he' hp)
      (hkind e hmem) (hkind e' hmem') (hyear e hmem) (hyear e' hmem') hprint hb hb'
    have hpayload := hinj ⟨e, hmem, rfl⟩ ⟨e', hmem', rfl⟩ hpayload
    exact ⟨hprev, by rw [covered, covered, hseq, hk, hpayload, hts, hprev]⟩
  have hagree := congrArg (fun m => m[i]?) (hl.sealed.agree hl'.sealed hlen htip hbind)
  simp only [List.getElem?_map] at hagree
  have hfst := congrArg (fun o => o.map Prod.fst) hagree
  simpa only [Option.map_map, Function.comp_def] using hfst

/-! ### Chains of two events -/

/-- What a fresh emitter writes for two events of a task. -/
def twoEmitted (taskId : Uuid) : List TaskEvent :=
  emitAll Libs.printing taskId .new
    [(Libs.sampleTime, .started (.object [])), (Libs.sampleTime, .completed (.object []))]

/-- The emitter does not hash the task. -/
lemma hashInputs_twoEmitted (t : Uuid) :
    hashInputs Libs.printing (twoEmitted t) = hashInputs Libs.printing (twoEmitted 1) := by
  have hmap : (twoEmitted t).map (hashInput Libs.printing) =
      (twoEmitted 1).map (hashInput Libs.printing) := rfl
  refine Set.ext fun b => ?_
  have hmem := Iff.of_eq (congrArg (some b ∈ ·) hmap)
  rwa [List.mem_map, List.mem_map] at hmem

/-- When no two events have the same hash, the inputs of their hashes are separated. -/
lemma injOn_hashInputs (hl : ∀ e ∈ l, HashedByEmitter L e)
    (hnodup : (l.map TaskEvent.hashCurr).Nodup) : Set.InjOn L.sha256 (hashInputs L l) := by
  rintro b ⟨e, he, hb⟩ b' ⟨e', he', hb'⟩ hsame
  obtain ⟨c, hc, hcurr⟩ := hl e he
  obtain ⟨c', hc', hcurr'⟩ := hl e' he'
  obtain rfl := Option.some.inj (hb.symm.trans hc)
  obtain rfl := Option.some.inj (hb'.symm.trans hc')
  obtain rfl := List.inj_on_of_nodup_map hnodup he he' (hcurr.trans (hsame.trans hcurr'.symm))
  exact Option.some.inj (hb.symm.trans hb')

/-- The second event of a task is linked to the first one, and the hash of the second commits
to both. -/
theorem linked_head_commits_twoEmitted :
    ((twoEmitted 1).map fun e => (e.seq, e.hashPrev.isSome)) = [(0, false), (1, true)] ∧
      ∀ i : ℕ, (twoEmitted 1)[i]?.map covered = (twoEmitted 2)[i]?.map covered := by
  have hall : ∀ e ∈ twoEmitted 1 ++ twoEmitted 2, (e.kind = "started" ∨ e.kind = "completed") ∧
      e.payload = .object [] ∧ e.ts = Libs.sampleTime := by
    intro e he
    simp only [List.mem_append] at he
    rcases he with he | he
    all_goals
      obtain rfl | rfl := List.mem_pair.1 he
      · exact ⟨Or.inl rfl, rfl, rfl⟩
      · exact ⟨Or.inr rfl, rfl, rfl⟩
  have hcf : Set.InjOn Libs.printing.sha256
      (hashInputs Libs.printing (twoEmitted 1) ∪ hashInputs Libs.printing (twoEmitted 2)) := by
    rw [hashInputs_twoEmitted 2, Set.union_self]
    exact injOn_hashInputs (fun _ he => hashedByEmitter_of_mem he) (by decide +kernel)
  refine ⟨rfl, linked_head_commits (L := Libs.printing) Sha256.length_sha256 hcf ?_
    (fun _ _ => rfl) ?_ ?_ (linked_emitAll _) (linked_emitAll _) rfl rfl⟩
  · rintro v ⟨e, he, rfl⟩ v' ⟨e', he', rfl⟩ -
    rw [(hall e he).2.1, (hall e' he').2.1]
  · intro e he
    rcases (hall e he).1 with hkind | hkind
    · exact ⟨.started, hkind⟩
    · exact ⟨.completed, hkind⟩
  · intro e he
    rw [(hall e he).2.2]
    decide

end EventEmitter

end AxonTask
