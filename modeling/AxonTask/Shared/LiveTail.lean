import AxonTask.Lib.Machine
import AxonTask.Shared.StreamReader

/-!
# A client that follows a stream

A client calls `read_backfill` and `read_live` in turn and goes on after the last event that
it has received, while others append to the stream.  A call is sent, arrives, is answered by
Redis and returns; entries may be appended between any two of these.

A client that starts at an identifier receives the events after it, each once and in order.
A client that starts at `$`, as in the loop that the module documentation gives, does so only
if nothing is appended while no call of it waits in Redis: each call that arrives with `$`
starts at the end of the stream anew.
-/

namespace AxonTask

open Lib

/-- The identifier of a cursor, or `start` for `$`. -/
def Cursor.getD (start : StreamId) : Cursor → StreamId
  | id i => i
  | latest => start

/-- The loop over the events that a call returned: `last_id` becomes the identifier of each. -/
def Cursor.advance (c : Cursor) (events : List (StreamId × TaskEvent)) : Cursor :=
  events.foldl (fun _ y => .id y.1) c

namespace StreamReader

/-- Where the current call of the client is. -/
inductive Call
  /-- The last call has returned events, or there was none. -/
  | idle
  /-- `read_backfill` has been called, and its command has not arrived. -/
  | backfill (count : ℕ)
  /-- `read_live` has been called, and its command has not arrived. -/
  | live (timeoutMs : ℕ)
  /-- Redis holds the call until there is an entry after an identifier. -/
  | blocked (timeoutMs : ℕ) (afterId : StreamId)
  /-- The reply is on the way, with these events in it. -/
  | replied (events : List (StreamId × TaskEvent))
  /-- The reply is on the way that there was no entry in time. -/
  | timedOut
  /-- The last call has returned an error. -/
  | failed

namespace Call

/-- The client can call again. -/
def returned : Call → Bool
  | idle | failed => true
  | _ => false

/-- The last call has returned, without an error. -/
def isIdle : Call → Bool
  | idle => true
  | _ => false

/-- Redis has fixed what the client gets next, if anything: a call waits or is answered with
entries, or there will be no call. -/
def settled : Call → Bool
  | blocked _ _ | replied _ | failed => true
  | _ => false

end Call

/-- A stream and a client that follows it. -/
structure Tail where
  stream : Stream
  lastId : Cursor
  call : Call
  /-- All events that calls have returned. -/
  returned : List (StreamId × TaskEvent)

/-- What happens next. -/
inductive TailStep
  /-- Someone appends an entry. -/
  | append (e : RawEntry)
  /-- The client calls `read_backfill`. -/
  | backfill (count : ℕ)
  /-- The client calls `read_live`. -/
  | live (timeoutMs : ℕ)
  /-- The command arrives. -/
  | arrive
  /-- Redis answers a call that it holds. -/
  | serve
  /-- The time of a call that Redis holds is over. -/
  | expire
  /-- The reply reaches the client, and the call returns. -/
  | receive
  /-- The connection breaks, and the call returns an error. -/
  | fail

variable (P : EventParsers) (config : StreamReaderConfig)

namespace Tail

/-- The state after a step. -/
def step (s : Tail) : TailStep → Option Tail
  | .append e => (s.stream.add e).map fun stream => { s with stream }
  | .backfill count => if s.call.returned then some { s with call := .backfill count } else none
  | .live timeoutMs => if s.call.returned then some { s with call := .live timeoutMs } else none
  | .arrive =>
    match s.call with
    | .backfill count =>
      some { s with call := .replied (readBackfill P config s.stream s.lastId count) }
    | .live timeoutMs => some { s with call := .blocked timeoutMs (s.lastId.resolve s.stream) }
    | _ => none
  | .serve =>
    match s.call with
    | .blocked _ afterId =>
      if (StreamLog.after RawEntry.id afterId s.stream.entries).isEmpty then none
      else some { s with call := .replied (readLive P config s.stream afterId) }
    | _ => none
  | .expire =>
    match s.call with
    | .blocked timeoutMs afterId =>
      -- the timeout 0 is none
      if timeoutMs ≠ 0 ∧ (StreamLog.after RawEntry.id afterId s.stream.entries).isEmpty then
        some { s with call := .timedOut }
      else none
    | _ => none
  | .receive =>
    match s.call with
    | .replied events =>
      some { s with lastId := s.lastId.advance events, call := .idle,
                    returned := s.returned ++ events }
    | .timedOut => some { s with call := .idle }
    | _ => none
  | .fail => if s.call.returned then none else some { s with call := .failed }

/-- A client that has not called yet, with an explicit identifier to start after. -/
structure StartsAfter (start : StreamId) (s : Tail) : Prop where
  lastId : s.lastId = .id start
  call : s.call = .idle
  returned : s.returned = []

/-- A client that has just made its first call, with `$`. -/
structure StartsFromEnd (S : Stream) (s : Tail) : Prop where
  stream : s.stream = S
  lastId : s.lastId = .latest
  call : ∃ timeoutMs, s.call = .live timeoutMs
  returned : s.returned = []

/-- A stream with a client on it. -/
def machine (init : Tail → Prop) : Machine Tail TailStep := ⟨init, step P config⟩

/-! ### What a step does -/

/-- The steps, case by case. -/
inductive Effect (s : Tail) : TailStep → Tail → Prop
  | append {e : RawEntry} {stream : Stream} (new : s.stream.lastId < e.id)
      (entries : stream.entries = s.stream.entries ++ [e]) :
      Effect s (.append e) { s with stream }
  | backfill {count : ℕ} (ready : s.call.returned = true) :
      Effect s (.backfill count) { s with call := .backfill count }
  | live {timeoutMs : ℕ} (ready : s.call.returned = true) :
      Effect s (.live timeoutMs) { s with call := .live timeoutMs }
  | page {count : ℕ} (sent : s.call = .backfill count) :
      Effect s .arrive
        { s with call := .replied (readBackfill P config s.stream s.lastId count) }
  | block {timeoutMs : ℕ} (sent : s.call = .live timeoutMs) :
      Effect s .arrive { s with call := .blocked timeoutMs (s.lastId.resolve s.stream) }
  | serve {timeoutMs : ℕ} {afterId : StreamId} (waits : s.call = .blocked timeoutMs afterId)
      (some : StreamLog.after RawEntry.id afterId s.stream.entries ≠ []) :
      Effect s .serve { s with call := .replied (readLive P config s.stream afterId) }
  | expire {timeoutMs : ℕ} {afterId : StreamId} (waits : s.call = .blocked timeoutMs afterId)
      (none : StreamLog.after RawEntry.id afterId s.stream.entries = []) :
      Effect s .expire { s with call := .timedOut }
  | receive {events : List (StreamId × TaskEvent)} (reply : s.call = .replied events) :
      Effect s .receive
        { s with lastId := s.lastId.advance events, call := .idle,
                 returned := s.returned ++ events }
  | wake (reply : s.call = .timedOut) : Effect s .receive { s with call := .idle }
  | fail (waits : s.call.returned = false) : Effect s .fail { s with call := .failed }

variable {P config} {s s' : Tail} {a : TailStep}

/-- **Inversion of a step.** -/
lemma effect_of_step (h : step P config s a = some s') : Effect P config s a s' := by
  cases a with
  | append e =>
    obtain ⟨stream, hadd, rfl⟩ := Option.map_eq_some_iff.1 h
    obtain ⟨hnew, hentries⟩ := Stream.add_eq_some hadd
    exact .append hnew hentries
  | backfill count =>
    simp only [step] at h
    split at h
    · rename_i hready
      cases h
      exact .backfill hready
    · cases h
  | live timeoutMs =>
    simp only [step] at h
    split at h
    · rename_i hready
      cases h
      exact .live hready
    · cases h
  | arrive =>
    simp only [step] at h
    split at h
    · rename_i hsent
      cases h
      exact .page hsent
    · rename_i hsent
      cases h
      exact .block hsent
    · cases h
  | serve =>
    simp only [step] at h
    split at h
    · rename_i hwaits
      split at h
      · cases h
      · rename_i hsome
        cases h
        exact .serve hwaits fun hnil => hsome (List.isEmpty_iff.2 hnil)
    · cases h
  | expire =>
    simp only [step] at h
    split at h
    · rename_i hwaits
      split at h
      · rename_i hnone
        cases h
        exact .expire hwaits (List.isEmpty_iff.1 hnone.2)
      · cases h
    · cases h
  | receive =>
    simp only [step] at h
    split at h
    · rename_i hreply
      cases h
      exact .receive hreply
    · rename_i hreply
      cases h
      exact .wake hreply
    · cases h
  | fail =>
    simp only [step] at h
    split at h
    · cases h
    · rename_i hwaits
      cases h
      exact .fail (by simpa using hwaits)

/-! ### Cursors -/

lemma advance_append (c : Cursor) (l l' : List (StreamId × TaskEvent)) :
    c.advance (l ++ l') = (c.advance l).advance l' := by
  simp [Cursor.advance, List.foldl_append]

lemma advance_of_getLast? (c : Cursor) {events : List (StreamId × TaskEvent)}
    {y : StreamId × TaskEvent} (h : events.getLast? = some y) : c.advance events = .id y.1 := by
  obtain ⟨l, rfl⟩ := List.getLast?_eq_some_iff.1 h
  simp [Cursor.advance]

/-- The client has received nothing as long as its cursor is `$`. -/
lemma eq_nil_of_advance {c : Cursor} {events : List (StreamId × TaskEvent)}
    (h : c.advance events = .latest) : events = [] := by
  cases hlast : events.getLast? with
  | none => exact List.getLast?_eq_none_iff.1 hlast
  | some y =>
    rw [advance_of_getLast? c hlast] at h
    cases h

/-- The cursor is set by what calls have returned. -/
lemma lastId_step {c : Cursor} (hs : Effect P config s a s') (h : s.lastId = c.advance s.returned) :
    s'.lastId = c.advance s'.returned := by
  cases hs with
  | receive => rw [h, advance_append]
  | append | backfill | live | page | block | serve | expire | wake | fail => exact h

/-- In a run from this cursor the cursor is what the calls have made of it. -/
lemma lastId_eq_advance {init : Tail → Prop} {C : Tail → TailStep → Prop} {c : Cursor}
    (hinit : ∀ s, init s → s.lastId = c ∧ s.returned = [])
    (h : (machine P config init).Reachable C s) : s.lastId = c.advance s.returned := by
  refine h.invariant (P := fun s => s.lastId = c.advance s.returned) ?_ ?_
  · intro s hs
    obtain ⟨hid, hreturned⟩ := hinit s hs
    rw [hid, hreturned]
    rfl
  · intro s a s' _ hs hstep
    exact lastId_step (effect_of_step hstep) hs

/-! ### What the client has received -/

/-- What the client gets after `i`: the events up to the last of them. -/
def Fits (P : EventParsers) (S : Stream) (i : StreamId)
    (events : List (StreamId × TaskEvent)) : Prop :=
  ∀ y, events.getLast? = some y → ∃ x ∈ S.entries, x.id = y.1 ∧ i < y.1 ∧
    parseReply P (StreamLog.window RawEntry.id i y.1 S.entries) = events

lemma Fits.append {S S' : Stream} {e : RawEntry} {i : StreamId}
    {events : List (StreamId × TaskEvent)} (h : Fits P S i events) (hnew : S.lastId < e.id)
    (hS : S'.entries = S.entries ++ [e]) : Fits P S' i events := by
  intro y hy
  obtain ⟨x, hx, hxy, hlt, hwindow⟩ := h y hy
  have hle : y.1 ≤ S.lastId := hxy ▸ S.le_lastId hx
  refine ⟨x, by simp [hS, hx], hxy, hlt, ?_⟩
  rw [hS, StreamLog.window_concat (hle.trans_lt hnew), hwindow]

/-- **What a client has received** that is to get the events after `start`: those up to its
cursor, which is `start` until there is one. -/
structure Follows (P : EventParsers) (start : StreamId) (s : Tail) : Prop where
  returned : s.returned = parseReply P
    (StreamLog.window RawEntry.id start (s.lastId.getD start) s.stream.entries)
  start_le : start ≤ s.lastId.getD start
  cursor : s.lastId.getD start = start ∨ ∃ x ∈ s.stream.entries, x.id = s.lastId.getD start
  blocked : ∀ timeoutMs afterId, s.call = .blocked timeoutMs afterId →
    afterId = s.lastId.getD start
  replied : ∀ events, s.call = .replied events → Fits P s.stream (s.lastId.getD start) events

namespace Follows

variable {start : StreamId}

lemma init (hreturned : s.returned = []) (hcursor : s.lastId.getD start = start)
    (hblocked : ∀ timeoutMs afterId, s.call ≠ .blocked timeoutMs afterId)
    (hreplied : ∀ events, s.call ≠ .replied events) : Follows P start s where
  returned := by rw [hreturned, hcursor, StreamLog.window_self]; rfl
  start_le := hcursor.ge
  cursor := Or.inl hcursor
  blocked _ _ h := absurd h (hblocked _ _)
  replied _ h := absurd h (hreplied _)

/-- A call that is neither held nor answered says nothing. -/
lemma of_call {call : Call} (h : Follows P start s)
    (hblocked : ∀ timeoutMs afterId, call ≠ .blocked timeoutMs afterId)
    (hreplied : ∀ events, call ≠ .replied events) : Follows P start { s with call } :=
  { h with
    blocked := fun _ _ hcall => absurd hcall (hblocked _ _)
    replied := fun _ hcall => absurd hcall (hreplied _) }

lemma append {e : RawEntry} {stream : Stream} (h : Follows P start s)
    (hnew : s.stream.lastId < e.id) (hentries : stream.entries = s.stream.entries ++ [e]) :
    Follows P start { s with stream } where
  returned := by
    rcases h.cursor with hstart | ⟨x, hx, hid⟩
    · have hret := h.returned
      rw [hstart, StreamLog.window_self] at hret
      simp only [hstart, StreamLog.window_self, hret]
    · have hlt : s.lastId.getD start < e.id := hid ▸ (s.stream.le_lastId hx).trans_lt hnew
      simp only [hentries, StreamLog.window_concat hlt, h.returned]
  start_le := h.start_le
  cursor := h.cursor.imp_right fun ⟨x, hx, hid⟩ => ⟨x, by simp [hentries, hx], hid⟩
  blocked := h.blocked
  replied events hcall := (h.replied events hcall).append hnew hentries

/-- An answer from the entries after the cursor. -/
lemma reply {reply : List RawEntry} (h : Follows P start s)
    (hreply : reply <+: StreamLog.after RawEntry.id (s.lastId.getD start) s.stream.entries) :
    Follows P start { s with call := .replied (parseReply P reply) } :=
  { h with
    blocked := fun _ _ hcall => by cases hcall
    replied := by
      rintro _ ⟨⟩ y hy
      exact exists_window_of_reply hreply hy }

/-- The window that has been received and that of the reply make up one. -/
lemma receive {events : List (StreamId × TaskEvent)} (h : Follows P start s)
    (hcall : s.call = .replied events) :
    Follows P start
      { s with lastId := s.lastId.advance events, call := .idle,
               returned := s.returned ++ events } := by
  cases hlast : events.getLast? with
  | none =>
    obtain rfl : events = [] := List.getLast?_eq_none_iff.1 hlast
    rw [List.append_nil]
    exact h.of_call (by simp) (by simp)
  | some y =>
    obtain ⟨x, hx, hxy, hlt, hwindow⟩ := h.replied events hcall y hlast
    rw [advance_of_getLast? _ hlast]
    have hsplit := StreamLog.window_append s.stream.increasing h.start_le hlt.le
    exact
      { returned := by
          show s.returned ++ events =
            parseReply P (StreamLog.window RawEntry.id start y.1 s.stream.entries)
          rw [hsplit, parseReply, List.filterMap_append, h.returned]
          exact congrArg _ hwindow.symm
        start_le := h.start_le.trans hlt.le
        cursor := Or.inr ⟨x, hx, hxy⟩
        blocked := fun _ _ hcall => by cases hcall
        replied := fun _ hcall => by cases hcall }

/-- **The step lemma.**  A command must arrive with the cursor that the client goes by. -/
lemma step (h : Follows P start s)
    (hresolve : s.call.settled = false → s.lastId.resolve s.stream = s.lastId.getD start)
    (hs : Effect P config s a s') : Follows P start s' := by
  cases hs with
  | append hnew hentries => exact h.append hnew hentries
  | page hsent =>
    refine h.reply ?_
    rw [← hresolve (by rw [hsent]; rfl)]
    exact isPrefix_xread _ _ _
  | block hsent =>
    exact
      { h with
        blocked := by
          rintro _ _ ⟨⟩
          exact hresolve (by rw [hsent]; rfl)
        replied := fun _ hcall => by cases hcall }
  | serve hwaits =>
    refine h.reply ?_
    rw [← h.blocked _ _ hwaits]
    exact isPrefix_xread _ _ _
  | receive hreply => exact h.receive hreply
  | backfill | live | expire | wake | fail => exact h.of_call (by simp) (by simp)

end Follows

/-! ### A client that starts at an identifier -/

section StartsAfter

variable {start : StreamId}

/-- The identifier of the last event, or `start` if there is none. -/
def lastReturned (start : StreamId) (events : List (StreamId × TaskEvent)) : StreamId :=
  (events.getLast?.map Prod.fst).getD start

lemma advance_id (start : StreamId) (events : List (StreamId × TaskEvent)) :
    (Cursor.id start).advance events = .id (lastReturned start events) := by
  unfold lastReturned
  cases hlast : events.getLast? with
  | none =>
    obtain rfl : events = [] := List.getLast?_eq_none_iff.1 hlast
    rfl
  | some y => exact advance_of_getLast? _ hlast

lemma lastId_of_reachable (h : (machine P config (StartsAfter start)).Reachable Machine.anyStep s) :
    s.lastId = .id (lastReturned start s.returned) := by
  rw [← advance_id]
  exact lastId_eq_advance (fun s hs => ⟨hs.lastId, hs.returned⟩) h

lemma follows_of_reachable
    (h : (machine P config (StartsAfter start)).Reachable Machine.anyStep s) :
    Follows P start s := by
  refine h.invariant_of_reachable (P := Follows P start) ?_ ?_
  · intro s hs
    refine Follows.init hs.returned ?_ ?_ ?_
    · rw [hs.lastId]
      rfl
    · simp [hs.call]
    · simp [hs.call]
  · intro s a s' hreach _ hs hstep
    refine hs.step ?_ (effect_of_step hstep)
    intro _
    rw [lastId_of_reachable hreach]
    rfl

/-- **Nothing is lost and nothing comes twice.**  Whatever is appended while a client goes on
after the last event that it has received, all that it has received are the events after its
start and up to its cursor, in the order of the stream. -/
theorem returned_eq_of_reachable (P : EventParsers) (config : StreamReaderConfig)
    (start : StreamId) {s : Tail}
    (h : (machine P config (StartsAfter start)).Reachable Machine.anyStep s) :
    s.lastId = .id (lastReturned start s.returned) ∧
      s.returned = (s.stream.entries.filter fun e =>
        start < e.id ∧ e.id ≤ lastReturned start s.returned).filterMap (RawEntry.decode P) ∧
      s.returned.Pairwise fun y z => y.1 < z.1 := by
  have hcursor := lastId_of_reachable h
  have hreturned := (follows_of_reachable h).returned
  rw [hcursor] at hreturned
  refine ⟨hcursor, ?_, ?_⟩
  · refine hreturned.trans (congrArg _ (List.filter_congr ?_))
    intro e _
    exact (Bool.decide_and _ _).symm
  · rw [hreturned]
    refine List.Pairwise.filterMap _ ?_ (s.stream.increasing.sublist List.filter_sublist)
    intro e e' hlt y hy z hz
    rwa [RawEntry.fst_of_decode hy, RawEntry.fst_of_decode hz]

/-- Two entries are appended, a page of one is read while a third is, and the third arrives as
a live event. -/
theorem returned_eq_of_reachable_mixed :
    ∃ s, (machine .sample {} (StartsAfter .zero)).Reachable Machine.anyStep s ∧
      s.stream.entries =
        [goodEntry (toLex (1, 0)), badEntry (toLex (2, 0)), goodEntry (toLex (3, 0))] ∧
      s.returned = [(toLex (1, 0), sampleEvent), (toLex (3, 0), sampleEvent)] := by
  have hrun : ((machine .sample {} (StartsAfter .zero)).exec Machine.anyStep
      ⟨.empty, .id .zero, .idle, []⟩
      [.append (goodEntry (toLex (1, 0))), .append (badEntry (toLex (2, 0))), .backfill 1, .arrive,
        .append (goodEntry (toLex (3, 0))), .receive, .live 5000, .arrive, .serve, .receive]).map
      (fun s => (s.stream.entries, s.lastId)) =
      some ([goodEntry (toLex (1, 0)), badEntry (toLex (2, 0)), goodEntry (toLex (3, 0))],
        .id (toLex (3, 0))) := by decide +kernel
  obtain ⟨s, hs, hobs⟩ := Option.map_eq_some_iff.1 hrun
  simp only [Prod.mk.injEq] at hobs
  obtain ⟨hentries, hlast⟩ := hobs
  have hreach : (machine .sample {} (StartsAfter .zero)).Reachable Machine.anyStep s :=
    ⟨_, _, ⟨rfl, rfl, rfl⟩, Machine.run_of_exec hs⟩
  obtain ⟨hcursor, hreturned, -⟩ := returned_eq_of_reachable .sample {} .zero hreach
  have hid : lastReturned .zero s.returned = toLex (3, 0) :=
    Cursor.id.inj (hcursor.symm.trans hlast)
  have hall : [goodEntry (toLex (1, 0)), badEntry (toLex (2, 0)), goodEntry (toLex (3, 0))].filter
      (fun e => StreamId.zero < e.id ∧ e.id ≤ toLex (3, 0)) =
      [goodEntry (toLex (1, 0)), badEntry (toLex (2, 0)), goodEntry (toLex (3, 0))] := by
    decide +kernel
  rw [hid, hentries, hall] at hreturned
  refine ⟨s, hreach, hentries, ?_⟩
  rw [hreturned]
  simp only [List.filterMap_cons, List.filterMap_nil, decode_goodEntry, decode_badEntry]

end StartsAfter

/-! ### A client that starts from the end -/

section StartsFromEnd

variable (P) in
/-- What the loop of the module documentation does, which an error ends, while entries are
appended that can be decoded. -/
def Documented (s : Tail) : TailStep → Prop
  | .append e => (e.decode P).isSome = true
  | .backfill _ => False
  | .live _ => s.call.isIdle = true
  | _ => True

/-- While the cursor is `$`, nothing is appended unless a call waits in Redis or is answered
with entries. -/
def Covered (s : Tail) : TailStep → Prop
  | .append _ => s.lastId = .latest → s.call.settled = true
  | _ => True

instance (s : Tail) : ∀ a, Decidable (Documented P s a)
  | .append e => inferInstanceAs (Decidable ((e.decode P).isSome = true))
  | .backfill _ => isFalse id
  | .live _ => inferInstanceAs (Decidable (s.call.isIdle = true))
  | .arrive | .serve | .expire | .receive | .fail => isTrue trivial

instance (s : Tail) : ∀ a, Decidable (Covered s a)
  | .append _ => inferInstanceAs (Decidable (s.lastId = .latest → s.call.settled = true))
  | .backfill _ | .live _ | .arrive | .serve | .expire | .receive | .fail => isTrue trivial

/-- No event that was appended after the first call began is missing before one that has been
returned. -/
def NoSkip (P : EventParsers) (S : Stream) (s : Tail) : Prop :=
  ∀ e ∈ s.stream.entries.drop S.entries.length, ∀ y ∈ s.returned, e.id < y.1 →
    ∃ y' ∈ s.returned, e.decode P = some y'

variable {S : Stream}

/-- **What holds in a run that is covered.**  As long as the cursor is `$` and no call has
arrived, the stream is the one of the beginning, so that `$` still stands for its end. -/
structure Awaits (P : EventParsers) (S : Stream) (s : Tail) : Prop where
  follows : Follows P S.lastId s
  appended : ∃ new, s.stream.entries = S.entries ++ new ∧
    ∀ e ∈ new, S.lastId < e.id ∧ (e.decode P).isSome = true
  fresh : s.lastId = .latest → s.call.settled = false → s.stream.entries = S.entries
  noBackfill : ∀ count, s.call ≠ .backfill count
  nonempty : s.lastId = .latest → ∀ events, s.call = .replied events → events ≠ []

namespace Awaits

lemma init (h : StartsFromEnd S s) : Awaits P S s := by
  obtain ⟨timeoutMs, hcall⟩ := h.call
  exact
    { follows := Follows.init h.returned (by rw [h.lastId]; rfl) (by simp [hcall]) (by simp [hcall])
      appended := ⟨[], by simp [h.stream], by simp⟩
      fresh := fun _ _ => by rw [h.stream]
      noBackfill := by simp [hcall]
      nonempty := by simp [hcall] }

/-- A command that arrives with `$` finds the end of the stream of the beginning. -/
lemma resolve (h : Awaits P S s) (hcall : s.call.settled = false) :
    s.lastId.resolve s.stream = s.lastId.getD S.lastId := by
  cases hcursor : s.lastId with
  | id i => rfl
  | latest => simp [Cursor.resolve, Cursor.getD, Stream.lastId, h.fresh hcursor hcall]

/-- What is after the end of the stream of the beginning can be decoded. -/
lemma decode_of_lt (h : Awaits P S s) {e : RawEntry} (he : e ∈ s.stream.entries)
    (hlt : S.lastId < e.id) : (e.decode P).isSome = true := by
  obtain ⟨new, hentries, hnew⟩ := h.appended
  rw [hentries] at he
  rcases List.mem_append.1 he with he | he
  · exact absurd (S.le_lastId he) (not_le.2 hlt)
  · exact (hnew e he).2

/-- Redis answers a call that came with `$` with an event. -/
lemma readLive_ne_nil (h : Awaits P S s)
    (hsome : StreamLog.after RawEntry.id S.lastId s.stream.entries ≠ []) :
    readLive P config s.stream S.lastId ≠ [] := by
  intro hnil
  obtain ⟨e, he⟩ := List.exists_mem_of_ne_nil _ (StreamLog.page_ne_nil
    (n := config.defaultBatchSize) hsome)
  obtain ⟨hmem, hlt⟩ := StreamLog.mem_after.1 ((StreamLog.isPrefix_page _ _ _).subset he)
  have hnone := List.filterMap_eq_nil_iff.1 hnil e he
  have hsome := h.decode_of_lt hmem hlt
  simp [hnone] at hsome

/-- While no entry came before the time was over, the stream is the one of the beginning. -/
lemma entries_of_after (h : Awaits P S s)
    (hnone : StreamLog.after RawEntry.id S.lastId s.stream.entries = []) :
    s.stream.entries = S.entries := by
  obtain ⟨new, hentries, hall⟩ := h.appended
  have hnil : new = [] := by
    rw [List.eq_nil_iff_forall_not_mem] at hnone ⊢
    intro e he
    exact hnone e (StreamLog.mem_after.2 ⟨by simp [hentries, he], (hall e he).1⟩)
  rw [hentries, hnil, List.append_nil]

/-- What a call that is not answered with events leaves to show. -/
lemma of_call {call : Call} (h : Awaits P S s) (hfollows : Follows P S.lastId { s with call })
    (hfresh : s.lastId = .latest → call.settled = false → s.stream.entries = S.entries)
    (hbackfill : ∀ count, call ≠ .backfill count) (hreplied : ∀ events, call ≠ .replied events) :
    Awaits P S { s with call } :=
  { h with
    follows := hfollows
    fresh := hfresh
    noBackfill := hbackfill
    nonempty := fun _ _ hcall => absurd hcall (hreplied _) }

lemma append {e : RawEntry} {stream : Stream} (h : Awaits P S s)
    (hfollows : Follows P S.lastId { s with stream }) (hnew : s.stream.lastId < e.id)
    (hentries : stream.entries = s.stream.entries ++ [e]) (hdecode : (e.decode P).isSome = true)
    (hcov : s.lastId = .latest → s.call.settled = true) : Awaits P S { s with stream } := by
  obtain ⟨new, hold, hall⟩ := h.appended
  have hle : S.lastId ≤ s.stream.lastId := Stream.lastId_mono fun e he => by simp [hold, he]
  exact
    { h with
      follows := hfollows
      appended := by
        refine ⟨new ++ [e], by simp [hentries, hold], ?_⟩
        intro e' he'
        rcases List.mem_append.1 he' with he' | he'
        · exact hall e' he'
        · rw [List.mem_singleton.1 he']
          exact ⟨hle.trans_lt hnew, hdecode⟩
      fresh := by
        intro hlatest hunsettled
        rw [hcov hlatest] at hunsettled
        cases hunsettled }

/-- The identifier that a call with `$` waits after is the end of the stream of the beginning. -/
lemma after_eq (h : Awaits P S s) {timeoutMs : ℕ} {afterId : StreamId}
    (hwaits : s.call = .blocked timeoutMs afterId) (hlatest : s.lastId = .latest) :
    afterId = S.lastId := by
  have hafter := h.follows.blocked _ _ hwaits
  rwa [hlatest] at hafter

/-- **The step lemma** of a covered run. -/
lemma step (h : Awaits P S s) (hdoc : Documented P s a) (hcov : Covered s a)
    (hs : Effect P config s a s') : Awaits P S s' := by
  have hfollows : Follows P S.lastId s' := h.follows.step h.resolve hs
  cases hs with
  | append hnew hentries => exact h.append hfollows hnew hentries hdoc hcov
  | backfill => exact hdoc.elim
  | live =>
    have hunsettled : s.call.settled = false := by
      have hidle : s.call.isIdle = true := hdoc
      cases hcall : s.call with
      | idle => rfl
      | backfill | live | blocked | replied | timedOut | failed =>
        simp [hcall, Call.isIdle] at hidle
    exact h.of_call hfollows (fun hlatest _ => h.fresh hlatest hunsettled) (by simp) (by simp)
  | page hsent => exact absurd hsent (h.noBackfill _)
  | block => exact h.of_call hfollows (fun _ hsettled => by cases hsettled) (by simp) (by simp)
  | serve hwaits hsome =>
    exact
      { h with
        follows := hfollows
        fresh := fun _ hsettled => by cases hsettled
        noBackfill := by simp
        nonempty := by
          rintro hlatest _ ⟨⟩
          obtain rfl := h.after_eq hwaits hlatest
          exact h.readLive_ne_nil hsome }
  | expire hwaits hnone =>
    refine h.of_call hfollows ?_ (by simp) (by simp)
    intro hlatest _
    obtain rfl := h.after_eq hwaits hlatest
    exact h.entries_of_after hnone
  | receive hreply =>
    exact
      { follows := hfollows
        appended := h.appended
        fresh := by
          -- a reply to `$` has set the cursor
          intro hlatest _
          obtain rfl := eq_nil_of_advance hlatest
          exact absurd rfl (h.nonempty hlatest [] hreply)
        noBackfill := by simp
        nonempty := by simp }
  | wake hreply =>
    have hunsettled : s.call.settled = false := by rw [hreply]; rfl
    exact h.of_call hfollows (fun hlatest _ => h.fresh hlatest hunsettled) (by simp) (by simp)
  | fail => exact h.of_call hfollows (fun _ hsettled => by cases hsettled) (by simp) (by simp)

/-- What has been received is all there is up to the cursor. -/
lemma noSkip (h : Awaits P S s) : NoSkip P S s := by
  obtain ⟨new, hentries, hall⟩ := h.appended
  intro e he y hy hlt
  have hnew : e ∈ new := by simpa [hentries] using he
  obtain ⟨hstart, hdecode⟩ := hall e hnew
  rw [h.follows.returned] at hy ⊢
  obtain ⟨x, hx, hxy⟩ := List.mem_filterMap.1 hy
  have hle : y.1 ≤ s.lastId.getD S.lastId := by
    rw [RawEntry.fst_of_decode hxy]
    exact (StreamLog.mem_window.1 hx).2.2
  obtain ⟨y', hy'⟩ := Option.isSome_iff_exists.1 hdecode
  refine ⟨y', List.mem_filterMap.2 ⟨e, ?_, hy'⟩, hy'⟩
  exact StreamLog.mem_window.2 ⟨by simp [hentries, hnew], hstart, (hlt.trans_le hle).le⟩

end Awaits

/-- **What holds once an entry has fallen into a gap.**  The client is past it. -/
structure Skipped (S : Stream) (e : RawEntry) (s : Tail) : Prop where
  mem : e ∈ s.stream.entries.drop S.entries.length
  returned : ∀ y ∈ s.returned, e.id < y.1
  cursor : e.id ≤ s.lastId.resolve s.stream
  blocked : ∀ timeoutMs afterId, s.call = .blocked timeoutMs afterId → e.id ≤ afterId
  replied : ∀ events, s.call = .replied events → ∀ y ∈ events, e.id < y.1

/-- A reply has only what comes after the identifier that Redis took. -/
lemma lt_of_mem_reply {stream : Stream} {c : Cursor} {count : ℕ} {y : StreamId × TaskEvent}
    (hy : y ∈ parseReply P (xread stream c count)) : c.resolve stream < y.1 := by
  obtain ⟨x, hx, hxy⟩ := List.mem_filterMap.1 hy
  rw [RawEntry.fst_of_decode hxy]
  exact (StreamLog.mem_after.1 ((isPrefix_xread _ _ _).subset hx)).2

namespace Skipped

variable {e : RawEntry}

lemma of_call {call : Call} (h : Skipped S e s)
    (hblocked : ∀ timeoutMs afterId, call ≠ .blocked timeoutMs afterId)
    (hreplied : ∀ events, call ≠ .replied events) : Skipped S e { s with call } :=
  { h with
    blocked := fun _ _ hcall => absurd hcall (hblocked _ _)
    replied := fun _ hcall => absurd hcall (hreplied _) }

lemma append {e' : RawEntry} {stream : Stream} (h : Skipped S e s)
    (hentries : stream.entries = s.stream.entries ++ [e']) :
    Skipped S e { s with stream } := by
  have hmono : s.stream.lastId ≤ stream.lastId :=
    Stream.lastId_mono fun e he => by simp [hentries, he]
  exact
    { h with
      mem := by
        rw [hentries, List.drop_append]
        exact List.mem_append_left _ h.mem
      cursor := by
        have hcursor := h.cursor
        cases hlast : s.lastId with
        | id i => simpa [hlast, Cursor.resolve] using hcursor
        | latest =>
          rw [hlast] at hcursor
          exact le_trans hcursor hmono }

/-- A reply to a command that has arrived after the entry does not have it. -/
lemma reply {events : List (StreamId × TaskEvent)} (h : Skipped S e s)
    (hevents : ∀ y ∈ events, e.id < y.1) : Skipped S e { s with call := .replied events } :=
  { h with
    blocked := fun _ _ hcall => by cases hcall
    replied := by
      rintro _ ⟨⟩
      exact hevents }

lemma receive {events : List (StreamId × TaskEvent)} (h : Skipped S e s)
    (hcall : s.call = .replied events) :
    Skipped S e
      { s with lastId := s.lastId.advance events, call := .idle,
               returned := s.returned ++ events } := by
  have hevents := h.replied events hcall
  exact
    { mem := h.mem
      returned := by
        intro y hy
        rcases List.mem_append.1 hy with hy | hy
        · exact h.returned y hy
        · exact hevents y hy
      cursor := by
        cases hlast : events.getLast? with
        | none =>
          obtain rfl : events = [] := List.getLast?_eq_none_iff.1 hlast
          exact h.cursor
        | some y =>
          rw [advance_of_getLast? _ hlast]
          exact (hevents y (List.mem_of_getLast? hlast)).le
      blocked := fun _ _ hcall => by cases hcall
      replied := fun _ hcall => by cases hcall }

/-- The client never gets back to an entry that it is past. -/
lemma step (h : Skipped S e s) (hs : Effect P config s a s') : Skipped S e s' := by
  cases hs with
  | append _ hentries => exact h.append hentries
  | page => exact h.reply fun y hy => h.cursor.trans_lt (lt_of_mem_reply hy)
  | block =>
    exact
      { h with
        blocked := by
          rintro _ _ ⟨⟩
          exact h.cursor
        replied := fun _ hcall => by cases hcall }
  | serve hwaits =>
    exact h.reply fun y hy => (h.blocked _ _ hwaits).trans_lt (lt_of_mem_reply hy)
  | receive hreply => exact h.receive hreply
  | backfill | live | expire | wake | fail => exact h.of_call (by simp) (by simp)

/-- Once anything has been returned, the entry is missing before it. -/
lemma not_noSkip (h : Skipped S e s) (hreturned : s.returned ≠ []) : ¬ NoSkip P S s := by
  intro hnoSkip
  obtain ⟨y, hy⟩ := List.exists_mem_of_ne_nil _ hreturned
  obtain ⟨y', hy', hdecode⟩ := hnoSkip e h.mem y hy (h.returned y hy)
  have hlt := h.returned y' hy'
  rw [RawEntry.fst_of_decode hdecode] at hlt
  exact lt_irrefl _ hlt

end Skipped

lemma awaits_of_reachable
    (h : (machine P config (StartsFromEnd S)).Reachable
      (fun s a => Documented P s a ∧ Covered s a) s) : Awaits P S s :=
  h.invariant (P := Awaits P S) (fun _ => Awaits.init)
    fun _ _ _ hC hs hstep => hs.step hC.1 hC.2 (effect_of_step hstep)

/-- As long as the cursor is `$`, nothing has been returned. -/
lemma returned_of_latest {C : Tail → TailStep → Prop}
    (h : (machine P config (StartsFromEnd S)).Reachable C s) (hlatest : s.lastId = .latest) :
    s.returned = [] := by
  have hcursor : s.lastId = Cursor.latest.advance s.returned :=
    lastId_eq_advance (fun s hs => ⟨hs.lastId, hs.returned⟩) h
  exact eq_nil_of_advance (hcursor.symm.trans hlatest)

lemma length_le_of_reachable {C : Tail → TailStep → Prop}
    (h : (machine P config (StartsFromEnd S)).Reachable C s) :
    S.entries.length ≤ s.stream.entries.length := by
  refine h.invariant (P := fun s => S.entries.length ≤ s.stream.entries.length) ?_ ?_
  · intro s hs
    rw [hs.stream]
  · intro s a s' _ hs hstep
    cases effect_of_step hstep with
    | append _ hentries => simpa [hentries] using Nat.le_succ_of_le hs
    | backfill | live | page | block | serve | expire | receive | wake | fail => exact hs

/-- An entry that is appended in a gap is skipped. -/
lemma skipped_of_append {C : Tail → TailStep → Prop} {e : RawEntry}
    (h : (machine P config (StartsFromEnd S)).Reachable C s) (hgap : ¬ Covered s (.append e))
    (hstep : step P config s (.append e) = some s') : Skipped S e s' := by
  obtain ⟨hlatest, hunsettled⟩ := Classical.not_imp.1 hgap
  have hlength := length_le_of_reachable h
  cases effect_of_step hstep with
  | append hnew hentries =>
    exact
      { mem := by simp [hentries, List.drop_append_of_le_length hlength]
        returned := by simp [returned_of_latest h hlatest]
        cursor := by
          rw [hlatest]
          exact Stream.le_lastId _ (by simp [hentries])
        blocked := by
          intro timeoutMs afterId (hcall : s.call = .blocked timeoutMs afterId)
          exact absurd (by rw [hcall]; rfl) hunsettled
        replied := by
          intro events (hcall : s.call = .replied events)
          exact absurd (by rw [hcall]; rfl) hunsettled }

/-- **Where the documented loop skips events.**  It skips none if, while its cursor is `$`,
nothing is appended unless a call of it waits in Redis or is answered with entries; and what
is appended otherwise is missing as soon as anything has been returned. -/
theorem noSkip_of_covered (P : EventParsers) (config : StreamReaderConfig) (S : Stream) :
    (∀ s, (machine P config (StartsFromEnd S)).Reachable
      (fun s a => Documented P s a ∧ Covered s a) s → NoSkip P S s) ∧
    ∀ s e s₁ l s₂, (machine P config (StartsFromEnd S)).Reachable (Documented P) s →
      ¬ Covered s (.append e) →
      (machine P config (StartsFromEnd S)).step s (.append e) = some s₁ →
      (machine P config (StartsFromEnd S)).Run (Documented P) s₁ l s₂ →
      s₂.returned ≠ [] → ¬ NoSkip P S s₂ := by
  refine ⟨fun s h => (awaits_of_reachable h).noSkip, ?_⟩
  intro s e s₁ l s₂ h hgap hstep hrun hreturned
  have hskipped : Skipped S e s₂ := by
    refine hrun.preserves (P := Skipped S e) ?_ (skipped_of_append h hgap hstep)
    intro s a s' _ hs hstep
    exact hs.step (effect_of_step hstep)
  exact hskipped.not_noSkip hreturned

/-- The first call times out, the second waits when an entry comes, and another one comes before
the third call arrives. -/
theorem noSkip_of_covered_twoEntries :
    ∃ s, (machine .sample {} (StartsFromEnd .empty)).Reachable
        (fun s a => Documented .sample s a ∧ Covered s a) s ∧
      s.stream.entries.map RawEntry.id = [toLex (1, 0), toLex (2, 0)] ∧
      s.returned.map Prod.fst = [toLex (1, 0), toLex (2, 0)] ∧ NoSkip .sample .empty s := by
  have hrun : ((machine .sample {} (StartsFromEnd .empty)).exec
      (fun s a => Documented .sample s a ∧ Covered s a) ⟨.empty, .latest, .live 5000, []⟩
      [.arrive, .expire, .receive, .live 5000, .arrive, .append (goodEntry (toLex (1, 0))),
        .serve, .receive, .append (goodEntry (toLex (2, 0))), .live 5000, .arrive, .serve,
        .receive]).map
      (fun s => (s.stream.entries.map RawEntry.id, s.returned.map Prod.fst)) =
      some ([toLex (1, 0), toLex (2, 0)], [toLex (1, 0), toLex (2, 0)]) := by decide +kernel
  obtain ⟨s, hs, hobs⟩ := Option.map_eq_some_iff.1 hrun
  simp only [Prod.mk.injEq] at hobs
  have hreach : (machine .sample {} (StartsFromEnd .empty)).Reachable
      (fun s a => Documented .sample s a ∧ Covered s a) s :=
    ⟨_, _, ⟨rfl, rfl, ⟨5000, rfl⟩, rfl⟩, Machine.run_of_exec hs⟩
  exact ⟨s, hreach, hobs.1, hobs.2, (noSkip_of_covered .sample {} .empty).1 s hreach⟩

/-- An entry comes after the first call has timed out and before the second arrives; the
next one is returned alone. -/
theorem not_noSkip_afterTimeout :
    ∃ s, (machine .sample {} (StartsFromEnd .empty)).Reachable (Documented .sample) s ∧
      s.stream.entries = [goodEntry (toLex (1, 0)), goodEntry (toLex (2, 0))] ∧
      s.returned.map Prod.fst = [toLex (2, 0)] ∧ ¬ NoSkip .sample .empty s := by
  have hrun : ((machine .sample {} (StartsFromEnd .empty)).exec (Documented .sample)
      ⟨.empty, .latest, .live 5000, []⟩
      [.arrive, .expire, .receive, .append (goodEntry (toLex (1, 0))), .live 5000, .arrive,
        .append (goodEntry (toLex (2, 0))), .serve, .receive]).map
      (fun s => (s.stream.entries, s.returned.map Prod.fst)) =
      some ([goodEntry (toLex (1, 0)), goodEntry (toLex (2, 0))], [toLex (2, 0)]) := by
    decide +kernel
  obtain ⟨s, hs, hobs⟩ := Option.map_eq_some_iff.1 hrun
  simp only [Prod.mk.injEq] at hobs
  obtain ⟨hentries, hreturned⟩ := hobs
  refine ⟨s, ⟨_, _, ⟨rfl, rfl, ⟨5000, rfl⟩, rfl⟩, Machine.run_of_exec hs⟩, hentries, hreturned, ?_⟩
  have hids : ∀ y ∈ s.returned, y.1 = toLex (2, 0) := by
    intro y hy
    simpa [hreturned] using List.mem_map_of_mem (f := Prod.fst) hy
  have hsome : s.returned ≠ [] := by
    rintro hnil
    simp [hnil] at hreturned
  obtain ⟨y, hy⟩ := List.exists_mem_of_ne_nil _ hsome
  intro hnoSkip
  have hlt : (goodEntry (toLex (1, 0))).id < y.1 := by
    rw [hids y hy]
    decide
  obtain ⟨y', hy', hdecode⟩ := hnoSkip (goodEntry (toLex (1, 0)))
    (by simp [hentries, Stream.empty]) y hy hlt
  have hid := RawEntry.fst_of_decode hdecode
  rw [hids y' hy'] at hid
  cases hid

end StartsFromEnd

end Tail

end StreamReader

end AxonTask
