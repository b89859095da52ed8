import AxonTask.Shared.GapDetection
import AxonTask.Shared.LiveTail

/-!
# Reading a stream while it is trimmed

A reader goes on after the last event that it has received, as in `LiveTail`, but the stream
is trimmed meanwhile.  When the gap detector reports a gap, the reader may follow its
documentation and resume from the identifier that the report calls the earliest available.

What the reader has got up to its cursor is a *portion* of the events: nothing else, nothing
twice, and all but what has been removed (`Portion`).  Portions fit together
(`Portion.append`) and stay portions while the stream changes (`Portion.step`).  An
identifier from which the reader resumes is the exception: reads are exclusive, so its own
event is never read.
-/

namespace AxonTask

open Lib

namespace TrimmedReading

open StreamReader StreamReader.Tail

/-- A call of the reader. -/
inductive Read
  | backfill (count : ℕ)
  | live

/-- The number of entries that a call asks for. -/
def Read.count (config : StreamReaderConfig) : Read → ℕ
  | backfill count => min count config.maxBatchSize
  | live => config.defaultBatchSize

/-- A trimmed stream and a reader. -/
structure State where
  log : TrimmedStream
  cursor : StreamId
  /-- The reply of Redis that is on the way. -/
  reply : Option (List (StreamId × TaskEvent))
  /-- All events that calls have returned. -/
  returned : List (StreamId × TaskEvent)
  /-- The identifiers that the reader has taken from reports of gaps. -/
  resumed : List StreamId

inductive Label
  /-- Someone appends an entry or trims the stream. -/
  | server (op : StreamOp)
  /-- Redis answers a call with what is present, nothing if the time is over. -/
  | answer (read : Read)
  /-- The reply reaches the reader, and the call returns. -/
  | receive
  /-- The connection breaks, and the call returns an error. -/
  | fail
  /-- The reader asks for a gap at its cursor, is told of one, and resumes from the earliest
  available identifier. -/
  | resume (others : TrimmedStream.OtherFields)

variable (P : EventParsers) (config : StreamReaderConfig) (start : StreamId)

/-- What a call from an identifier returns. -/
def answerTo (s : TrimmedStream) (cursor : StreamId) (read : Read) :
    List (StreamId × TaskEvent) :=
  parseReply P (StreamLog.page RawEntry.id (read.count config) cursor s.entries)

/-- The state after a step. -/
def step (s : State) : Label → Option State
  | .server op => (s.log.step op).map fun log => { s with log }
  | .answer read =>
    if s.reply.isSome then none
    else some { s with reply := some (answerTo P config s.log s.cursor read) }
  | .receive => s.reply.map fun events =>
    { s with cursor := lastReturned s.cursor events, reply := none,
             returned := s.returned ++ events }
  | .fail => if s.reply.isSome then some { s with reply := none } else none
  | .resume others =>
    if s.reply.isSome then none
    else match GapDetector.detectGap (s.log.xinfoStream others) s.cursor.text with
      | .ok (some info) => (StreamId.ofText info.earliestAvailableId).map fun i =>
        { s with cursor := i, resumed := s.resumed ++ [i] }
      | _ => none

/-- A stream without entries, and a reader that has not called yet. -/
def initial : State := ⟨.empty, start, none, [], []⟩

/-- The runs of a stream and a reader that starts after an identifier. -/
def machine : Machine State Label where
  Init s := s = initial start
  step := step P config

variable {P config start}

/-! ### Portions -/

/-- All entries that have been appended. -/
def appended (s : TrimmedStream) : List RawEntry := s.removed ++ s.entries

/-- Events between two identifiers, all but those whose entries have been removed or are among
`resumed`. -/
structure Portion (P : EventParsers) (s : TrimmedStream) (resumed : List StreamId)
    (i j : StreamId) (events : List (StreamId × TaskEvent)) : Prop where
  le : i ≤ j
  end_le : j = i ∨ j ≤ s.lastGeneratedId
  sublist : events.Sublist (parseReply P (StreamLog.window RawEntry.id i j (appended s)))
  complete : ∀ e ∈ appended s, i < e.id → e.id ≤ j → ∀ y, e.decode P = some y →
    y ∈ events ∨ e ∈ s.removed ∨ e.id ∈ resumed

variable {s s' : TrimmedStream} {resumed : List StreamId} {i j k : StreamId}
  {events events' : List (StreamId × TaskEvent)}

lemma exists_of_mem_parseReply {l : List RawEntry} {y : StreamId × TaskEvent}
    (h : y ∈ parseReply P l) : ∃ e ∈ l, e.decode P = some y ∧ e.id = y.1 := by
  obtain ⟨e, he, hdecode⟩ := List.mem_filterMap.1 h
  exact ⟨e, he, hdecode, (RawEntry.fst_of_decode hdecode).symm⟩

namespace Portion

lemma refl (P : EventParsers) (s : TrimmedStream) (resumed : List StreamId) (i : StreamId) :
    Portion P s resumed i i [] where
  le := le_rfl
  end_le := Or.inl rfl
  sublist := List.nil_sublist _
  complete _ _ hlt hle := absurd hlt (not_lt.2 hle)

lemma exists_entry (h : Portion P s resumed i j events) {y : StreamId × TaskEvent}
    (hy : y ∈ events) : ∃ e ∈ appended s, e.decode P = some y ∧ i < e.id ∧ e.id ≤ j := by
  obtain ⟨e, he, hdecode, -⟩ := exists_of_mem_parseReply (h.sublist.subset hy)
  obtain ⟨hmem, hlt, hle⟩ := StreamLog.mem_window.1 he
  exact ⟨e, hmem, hdecode, hlt, hle⟩

lemma lt_of_mem (h : Portion P s resumed i j events) {y : StreamId × TaskEvent}
    (hy : y ∈ events) : i < y.1 ∧ y.1 ≤ j := by
  obtain ⟨e, -, hdecode, hlt, hle⟩ := h.exists_entry hy
  rw [RawEntry.fst_of_decode hdecode]
  exact ⟨hlt, hle⟩

lemma mono {resumed' : List StreamId} (hsub : resumed ⊆ resumed')
    (h : Portion P s resumed i j events) : Portion P s resumed' i j events :=
  { h with
    complete := by
      intro e he hlt hle y hy
      exact (h.complete e he hlt hle y hy).imp_right (Or.imp_right fun hr => hsub hr) }

/-- Adjacent portions make up one portion. -/
lemma append (hs : s.Invariant) (h : Portion P s resumed i j events)
    (h' : Portion P s resumed j k events') : Portion P s resumed i k (events ++ events') where
  le := h.le.trans h'.le
  end_le := by
    rcases h'.end_le with rfl | hk
    · exact h.end_le
    · exact Or.inr hk
  sublist := by
    rw [appended, StreamLog.window_append hs.increasing h.le h'.le, parseReply,
      List.filterMap_append]
    exact h.sublist.append h'.sublist
  complete := by
    intro e he hlt hle y hy
    rcases le_or_gt e.id j with hj | hj
    · exact (h.complete e he hlt hj y hy).imp_left fun hm => List.mem_append_left _ hm
    · exact (h'.complete e he hj hle y hy).imp_left fun hm => List.mem_append_right _ hm

end Portion

/-- An append adds one entry with a new identifier, and a trim moves the first ones. -/
lemma appended_of_step {op : StreamOp} (h : s.step op = some s') :
    s.removed ⊆ s'.removed ∧ s.lastGeneratedId ≤ s'.lastGeneratedId ∧
      (appended s' = appended s ∨
        ∃ e, s.lastGeneratedId < e.id ∧ appended s' = appended s ++ [e]) := by
  cases op with
  | xadd e =>
    simp only [TrimmedStream.step] at h
    split at h
    · rename_i hlt
      cases h
      exact ⟨List.Subset.refl _, hlt.le, Or.inr ⟨e, hlt, by simp [appended]⟩⟩
    · cases h
  | trim n =>
    cases h
    refine ⟨List.subset_append_left _ _, le_rfl, Or.inl ?_⟩
    simp [appended]

/-- **A portion stays one**, whatever happens to the stream. -/
lemma Portion.step {op : StreamOp} (h : Portion P s resumed i j events)
    (hstep : s.step op = some s') : Portion P s' resumed i j events := by
  obtain ⟨hremoved, hlast, happended⟩ := appended_of_step hstep
  have hend : j = i ∨ j ≤ s'.lastGeneratedId := h.end_le.imp_right fun hj => hj.trans hlast
  -- no new entry lies in the window
  have hnew : ∀ e ∈ appended s', i < e.id → e.id ≤ j → e ∈ appended s := by
    intro e he hlt hle
    rcases happended with hsame | ⟨e', hlt', happend⟩
    · exact hsame ▸ he
    · rw [happend] at he
      refine (List.mem_append.1 he).resolve_right fun heq => ?_
      rw [List.mem_singleton.1 heq] at hlt hle
      rcases h.end_le with rfl | hj
      · exact absurd hlt (not_lt.2 hle)
      · exact absurd (hj.trans_lt hlt') (not_lt.2 hle)
  have hwindow : StreamLog.window RawEntry.id i j (appended s') =
      StreamLog.window RawEntry.id i j (appended s) := by
    rcases happended with hsame | ⟨e, hlt, happend⟩
    · rw [hsame]
    · rcases h.end_le with rfl | hj
      · rw [StreamLog.window_self, StreamLog.window_self]
      · rw [happend, StreamLog.window_concat (hj.trans_lt hlt)]
  refine ⟨h.le, hend, hwindow ▸ h.sublist, ?_⟩
  intro e he hlt hle y hy
  exact (h.complete e (hnew e he hlt hle) hlt hle y hy).imp_right
    (Or.imp_left fun hr => hremoved hr)

/-- **A reply is a portion**, from the cursor to its last event. -/
lemma portion_answerTo (hs : s.Invariant) (cursor : StreamId) (read : Read) :
    Portion P s [] cursor (lastReturned cursor (answerTo P config s cursor read))
      (answerTo P config s cursor read) := by
  cases hlast : (answerTo P config s cursor read).getLast? with
  | none =>
    have hnil := List.getLast?_eq_none_iff.1 hlast
    rw [hnil]
    exact Portion.refl P s [] cursor
  | some y =>
    have hpresent : StreamLog.Increasing RawEntry.id s.entries :=
      (List.pairwise_append.1 hs.increasing).2.1
    obtain ⟨x, hx, hdecode, hlt, hwindow⟩ :=
      StreamLog.exists_window_of_getLast? hpresent (StreamLog.isPrefix_page _ _ _) hlast
    have hy : lastReturned cursor (answerTo P config s cursor read) = x.id := by
      rw [lastReturned, hlast]
      exact RawEntry.fst_of_decode hdecode
    have hmem : x ∈ appended s := List.mem_append_right _ hx
    rw [hy]
    refine ⟨hlt.le, Or.inr (hs.le_lastGeneratedId hmem), ?_, ?_⟩
    · -- the window of the entries that are present is part of the whole window
      have hsub : (StreamLog.window RawEntry.id cursor x.id s.entries).Sublist
          (StreamLog.window RawEntry.id cursor x.id (appended s)) :=
        (List.sublist_append_right s.removed s.entries).filter _
      have hreply : parseReply P (StreamLog.window RawEntry.id cursor x.id s.entries) =
          answerTo P config s cursor read := hwindow
      rw [← hreply]
      exact hsub.filterMap _
    · intro e he hlow hhigh y hy
      rcases List.mem_append.1 he with he | he
      · exact Or.inr (Or.inl he)
      · left
        have hreply : parseReply P (StreamLog.window RawEntry.id cursor x.id s.entries) =
            answerTo P config s cursor read := hwindow
        rw [← hreply]
        exact List.mem_filterMap.2 ⟨e, StreamLog.mem_window.2 ⟨he, hlow, hhigh⟩, hy⟩

/-- **Up to the earliest entry that is present** all events have been removed, but its own. -/
lemma portion_of_head? (hs : s.Invariant) {a : RawEntry} (ha : s.entries.head? = some a)
    (hlt : i < a.id) : Portion P s [a.id] i a.id [] where
  le := hlt.le
  end_le := Or.inr (hs.le_lastGeneratedId (List.mem_append_right _ (List.mem_of_head? ha)))
  sublist := List.nil_sublist _
  complete := by
    intro e he _ hle y _
    rcases List.mem_append.1 he with he | he
    · exact Or.inr (Or.inl he)
    · have hpresent : StreamLog.Increasing RawEntry.id s.entries :=
        (List.pairwise_append.1 hs.increasing).2.1
      have heq : e.id = a.id := le_antisymm hle (hpresent.head?_le ha he)
      exact Or.inr (Or.inr (by simp [heq]))

/-! ### The invariant -/

/-- What has been returned is a portion up to the cursor, and so is the reply on the way from
there; no event has been returned from whose identifier the reader has resumed. -/
structure Invariant (P : EventParsers) (start : StreamId) (s : State) : Prop where
  log : s.log.Invariant
  pos : ∀ e ∈ appended s.log, StreamId.zero < e.id
  returned : Portion P s.log s.resumed start s.cursor s.returned
  reply : ∀ events, s.reply = some events →
    Portion P s.log [] s.cursor (lastReturned s.cursor events) events
  resumed : ∀ r ∈ s.resumed, (∃ e ∈ appended s.log, e.id = r) ∧ r ≤ s.cursor ∧
    ∀ y ∈ s.returned, y.1 ≠ r

lemma mem_appended_of_step {op : StreamOp} (h : s.step op = some s') {e : RawEntry}
    (he : e ∈ appended s) : e ∈ appended s' := by
  obtain ⟨-, -, hsame | ⟨e', -, happend⟩⟩ := appended_of_step h
  · rwa [hsame]
  · rw [happend]
    exact List.mem_append_left _ he

/-- A report of a gap names the first entry that is present, which is after the cursor. -/
lemma exists_head?_of_detectGap {others : TrimmedStream.OtherFields} {cursor : StreamId}
    {info : GapInfo} (hs : s.Invariant)
    (h : GapDetector.detectGap (s.xinfoStream others) cursor.text = .ok (some info)) :
    ∃ a, s.entries.head? = some a ∧ cursor < a.id ∧
      StreamId.ofText info.earliestAvailableId = some a.id := by
  obtain ⟨a, z, ha, -, hlt, -, rfl⟩ :=
    (TrimmedStream.detectGap_eq_some_iff hs (StreamId.ofText_text cursor)).1 h
  exact ⟨a, ha, hlt, StreamId.ofText_text a.id⟩

lemma invariant_of_step {t t' : State} {l : Label} (hi : Invariant P start t)
    (h : step P config t l = some t') : Invariant P start t' := by
  cases l with
  | server op =>
    obtain ⟨log, hlog, rfl⟩ := Option.map_eq_some_iff.1 h
    refine ⟨TrimmedStream.invariant_of_step hi.log hlog, ?_, hi.returned.step hlog, ?_, ?_⟩
    · intro e he
      obtain ⟨-, -, hsame | ⟨e', hlt, happend⟩⟩ := appended_of_step hlog
      · exact hi.pos e (hsame ▸ he)
      · rcases List.mem_append.1 (happend ▸ he) with he | he
        · exact hi.pos e he
        · rw [List.mem_singleton.1 he]
          exact (StreamId.zero_le _).trans_lt hlt
    · intro events he
      exact (hi.reply events he).step hlog
    · intro r hr
      obtain ⟨⟨e, he, hid⟩, hrest⟩ := hi.resumed r hr
      exact ⟨⟨e, mem_appended_of_step hlog he, hid⟩, hrest⟩
  | answer read =>
    obtain ⟨-, rfl⟩ : t.reply.isSome = false ∧ _ = t' := by simpa [step] using h
    refine ⟨hi.log, hi.pos, hi.returned, ?_, hi.resumed⟩
    intro events he
    obtain rfl := Option.some.inj he
    exact portion_answerTo hi.log _ _
  | receive =>
    obtain ⟨events, he, rfl⟩ := Option.map_eq_some_iff.1 h
    have hreply := hi.reply events he
    refine ⟨hi.log, hi.pos, hi.returned.append hi.log (hreply.mono (List.nil_subset _)),
      by simp, ?_⟩
    intro r hr
    obtain ⟨hex, hle, hne⟩ := hi.resumed r hr
    refine ⟨hex, hle.trans hreply.le, ?_⟩
    intro y hy
    rcases List.mem_append.1 hy with hy | hy
    · exact hne y hy
    · exact (hle.trans_lt (hreply.lt_of_mem hy).1).ne'
  | fail =>
    obtain ⟨-, rfl⟩ : t.reply.isSome = true ∧ _ = t' := by simpa [step] using h
    exact ⟨hi.log, hi.pos, hi.returned, by simp, hi.resumed⟩
  | resume others =>
    simp only [step] at h
    split at h
    · cases h
    · rename_i hnone
      split at h
      · rename_i info hgap
        obtain ⟨a, ha, hlt, hid⟩ := exists_head?_of_detectGap hi.log hgap
        rw [hid] at h
        cases h
        have hnext := (portion_of_head? (P := P) hi.log ha hlt).mono
          (List.subset_append_right t.resumed [a.id])
        have hall := (hi.returned.mono (List.subset_append_left _ _)).append hi.log hnext
        rw [List.append_nil] at hall
        refine ⟨hi.log, hi.pos, hall, ?_, ?_⟩
        · intro events he
          rw [show t.reply = some events from he] at hnone
          exact absurd rfl hnone
        · intro r hr
          rcases List.mem_append.1 hr with hr | hr
          · obtain ⟨hex, hle, hne⟩ := hi.resumed r hr
            exact ⟨hex, hle.trans hlt.le, hne⟩
          · obtain rfl := List.mem_singleton.1 hr
            refine ⟨⟨a, List.mem_append_right _ (List.mem_of_head? ha), rfl⟩, le_rfl, ?_⟩
            intro y hy
            exact ((hi.returned.lt_of_mem hy).2.trans_lt hlt).ne
      · cases h

lemma invariant_of_reachable {t : State}
    (h : (machine P config start).Reachable Machine.anyStep t) : Invariant P start t := by
  refine h.invariant (P := Invariant P start) ?_ fun t l t' _ hi hs => invariant_of_step hi hs
  rintro t rfl
  refine ⟨⟨List.Pairwise.nil, rfl, by simp [initial, TrimmedStream.empty]⟩, ?_, ?_, ?_, ?_⟩
  · simp [initial, TrimmedStream.empty, appended]
  · exact Portion.refl P _ _ start
  · simp [initial]
  · simp [initial]

/-- The replies are what the calls of `StreamReader` return on the stream of the entries that
are present. -/
lemma exists_stream_of_reachable {t : State}
    (h : (machine P config start).Reachable Machine.anyStep t) :
    ∃ S : Stream, S.entries = t.log.entries ∧
      (∀ count, answerTo P config t.log t.cursor (.backfill count) =
        readBackfill P config S (.id t.cursor) count) ∧
      answerTo P config t.log t.cursor .live = readLive P config S t.cursor := by
  have hi := invariant_of_reachable h
  let S : Stream :=
    { entries := t.log.entries
      increasing := (List.pairwise_append.1 hi.log.increasing).2.1
      pos := fun e he => hi.pos e (List.mem_append_right _ he) }
  exact ⟨S, rfl, fun _ => rfl, rfl⟩

/-- **Reading across trims.**  Whatever is appended and trimmed while a reader goes on after the
last event that it has received, and resumes from the earliest available identifier of a
report of a gap whenever it likes: it has got events in the order of the stream, none twice; the
ones after its start and up to its cursor that it has not got have been removed, or it has
resumed from their identifier; and an event is never got from whose identifier it has. -/
theorem read_across_trims (P : EventParsers) (config : StreamReaderConfig) (start : StreamId)
    {t : State} (h : (machine P config start).Reachable Machine.anyStep t) :
    t.returned.Pairwise (fun y z => y.1 < z.1) ∧
      t.returned.Sublist
        (((appended t.log).filter fun e => start < e.id ∧ e.id ≤ t.cursor).filterMap
          (RawEntry.decode P)) ∧
      (∀ e ∈ appended t.log, start < e.id → e.id ≤ t.cursor → ∀ y, e.decode P = some y →
        y ∉ t.returned → e ∈ t.log.removed ∨ e.id ∈ t.resumed) ∧
      ∀ r ∈ t.resumed, (∃ e ∈ appended t.log, e.id = r) ∧ ∀ y ∈ t.returned, y.1 ≠ r := by
  have hi := invariant_of_reachable h
  have hwindow : StreamLog.window RawEntry.id start t.cursor (appended t.log) =
      (appended t.log).filter fun e => start < e.id ∧ e.id ≤ t.cursor :=
    List.filter_congr fun e _ => (Bool.decide_and _ _).symm
  refine ⟨?_, hwindow ▸ hi.returned.sublist, ?_, ?_⟩
  · refine List.Pairwise.sublist hi.returned.sublist (List.Pairwise.filterMap _ ?_
      (hi.log.increasing.sublist List.filter_sublist))
    intro e e' hlt y hy z hz
    rwa [RawEntry.fst_of_decode hy, RawEntry.fst_of_decode hz]
  · intro e he hlt hle y hy hnot
    exact (hi.returned.complete e he hlt hle y hy).resolve_left hnot
  · intro r hr
    obtain ⟨hex, -, hne⟩ := hi.resumed r hr
    exact ⟨hex, hne⟩

/-- The second event is removed before it is read, the reader resumes from the third one, and
the fourth one is the next that it gets. -/
theorem read_across_trims_resumed :
    ∃ t, (machine .sample {} .zero).Reachable Machine.anyStep t ∧
      (appended t.log).map RawEntry.id =
        [toLex (1, 0), toLex (2, 0), toLex (3, 0), toLex (4, 0)] ∧
      t.returned.map Prod.fst = [toLex (1, 0), toLex (4, 0)] ∧
      ∀ r ∈ t.resumed, (∃ e ∈ appended t.log, e.id = r) ∧ ∀ y ∈ t.returned, y.1 ≠ r := by
  have hrun : ((machine .sample {} .zero).exec Machine.anyStep (initial .zero)
      [.server (.xadd (goodEntry (toLex (1, 0)))), .answer (.backfill 1), .receive,
        .server (.xadd (goodEntry (toLex (2, 0)))), .server (.xadd (goodEntry (toLex (3, 0)))),
        .server (.trim 2), .resume TrimmedStream.sampleFields,
        .server (.xadd (goodEntry (toLex (4, 0)))), .answer .live, .receive]).map
      (fun t => ((appended t.log).map RawEntry.id, t.returned.map Prod.fst)) =
      some ([toLex (1, 0), toLex (2, 0), toLex (3, 0), toLex (4, 0)],
        [toLex (1, 0), toLex (4, 0)]) := by decide +kernel
  obtain ⟨t, ht, hobs⟩ := Option.map_eq_some_iff.1 hrun
  obtain ⟨hids, hreturned⟩ := Prod.mk.inj hobs
  have hreach : (machine .sample {} .zero).Reachable Machine.anyStep t :=
    ⟨_, _, rfl, Machine.run_of_exec ht⟩
  exact ⟨t, hreach, hids, hreturned, (read_across_trims .sample {} .zero hreach).2.2.2⟩

end TrimmedReading

end AxonTask
