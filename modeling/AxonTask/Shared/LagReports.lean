import AxonTask.Shared.TwinParsers

/-!
# Lag reports on a stream that is trimmed (`axontask-shared/src/redis/metrics.rs`)

`get_lag_info` sends four commands, and the stream may be appended to and trimmed between any
two of them.  Each part of its report is about the stream as one of them finds it: the latest
position is that at `XINFO STREAM`, and the events behind are those at the second `XLEN`.

A trim before the last command makes the consumer look too far behind: entries that it has
read and that are gone before `XRANGE` are counted as unread.
-/

namespace AxonTask

open Lib

/-! ### What a run appends and removes -/

namespace TrimmedStream

variable {s s' : TrimmedStream} {l : List StreamOp}

/-- **The stream after a run.**  Entries have gone from its front, and entries with greater
identifiers have been added at its end. -/
lemma changes_of_run (h : machine.Run Machine.anyStep s l s') :
    s.lastGeneratedId ≤ s'.lastGeneratedId ∧
      ∃ gone added, s'.removed = s.removed ++ gone ∧ gone ++ s'.entries = s.entries ++ added ∧
        ∀ e ∈ added, s.lastGeneratedId < e.id := by
  refine h.preserves
    (P := fun s' => s.lastGeneratedId ≤ s'.lastGeneratedId ∧
      ∃ gone added, s'.removed = s.removed ++ gone ∧ gone ++ s'.entries = s.entries ++ added ∧
        ∀ e ∈ added, s.lastGeneratedId < e.id) ?_ ⟨le_rfl, [], [], by simp⟩
  rintro s₁ op s₂ - ⟨hle, gone, added, hremoved, hentries, hadded⟩ hstep
  cases op with
  | xadd e =>
    simp only [machine, step] at hstep
    split at hstep
    · rename_i hlt
      cases hstep
      refine ⟨(hle.trans_lt hlt).le, gone, added ++ [e], hremoved, ?_, ?_⟩
      · rw [← List.append_assoc, ← List.append_assoc, hentries]
      · intro a ha
        rcases List.mem_append.1 ha with ha | ha
        · exact hadded a ha
        · rw [List.mem_singleton.1 ha]
          exact hle.trans_lt hlt
    · cases hstep
  | trim n =>
    cases hstep
    refine ⟨hle, gone ++ s₁.entries.take n, added, ?_, ?_, hadded⟩
    · rw [hremoved, List.append_assoc]
    · rw [List.append_assoc, List.take_append_drop, hentries]

/-- The identifier of the last entry that is present, or 0-0. -/
def latestId (s : TrimmedStream) : StreamId :=
  (s.entries.getLast?.map RawEntry.id).getD StreamId.zero

/-- The reply to `XRANGE key - position`. -/
def xrangeUpTo (s : TrimmedStream) (position : StreamId) : List RedisValue :=
  (StreamLog.upTo RawEntry.id position s.entries).map fun e => entryReply (some e)

end TrimmedStream

namespace StreamMetrics

open TrimmedStream

/-! ### The latest position -/

/-- The last identifier that is read of a reply to `XINFO STREAM`. -/
lemma lastEntryId_parseStreamInfo {s : TrimmedStream} {others : OtherFields}
    {reply : List RedisValue} (h : s.xinfoStream others = .ok reply) :
    (parseStreamInfo reply).2.1 = s.entries.getLast?.map fun e => e.id.text := by
  unfold xinfoStream at h
  split at h
  · cases h
    rw [parseStreamInfo, TwinParsers.parseInfoFields_eq_fold, Pairs.fold_flatMap,
      List.foldl_append]
    have hnotMem : "last-entry" ∉ others.fields.map Prod.fst := by
      intro hmem
      obtain ⟨f, hf, hname⟩ := List.mem_map.1 hmem
      exact (others.other f hf).2 hname
    have hothers : ParsedInfo.lastEntryId (others.fields.foldl
        (fun parsed f => parseInfoField (.data (utf8 f.1)) f.2 parsed) {}) = none := by
      refine Pairs.foldl_of_not_mem ?_ hnotMem _
      intro parsed f hother
      rw [TwinParsers.lastEntryId_parseInfoField, if_neg hother]
    have hne : "first-entry" ≠ "last-entry" := by decide
    simp only [List.foldl_cons, List.foldl_nil, TwinParsers.lastEntryId_parseInfoField, if_true,
      if_neg hne, hothers]
    cases s.entries.getLast? with
    | none => rfl
    | some e => exact TwinParsers.map_idBytesOf_entry e.id.text _ none
  · cases h

/-- The latest position of a report. -/
lemma latest_eq {s : TrimmedStream} (hi : s.Invariant) (others : OtherFields)
    (xlen : Except String ℕ) (now : DateTime) :
    ∃ info, getStreamInfo xlen (s.xinfoStream others) now = .ok info ∧
      info.lastEntryId.getD "0-0" = s.latestId.text := by
  refine ⟨_, rfl, ?_⟩
  have hzero : StreamId.zero.text = "0-0" := by decide
  cases hreply : s.xinfoStream others with
  | ok reply =>
    simp only [lastEntryId_parseStreamInfo hreply, latestId]
    cases s.entries.getLast? with
    | none => exact hzero.symm
    | some e => rfl
  | error e =>
    -- without a key there are no entries
    have hnil : s.entries = [] := by
      by_contra hne
      have hcreated := hi.created.2 fun h => hne (List.append_eq_nil_iff.1 h).2
      rw [xinfoStream, if_pos hcreated] at hreply
      cases hreply
    rw [latestId, hnil]
    exact hzero.symm

/-! ### The time -/

lemma parseStreamIdTimestamp_eq (s : String) :
    parseStreamIdTimestamp s = (GapDetector.parseStreamId s).toOption := by
  refine Option.ext fun p => ?_
  rw [← TwinParsers.parseStreamId_eq_ok_iff]
  cases GapDetector.parseStreamId s <;> simp [Except.toOption]

lemma saturatingSub_ofInt {a b : ℕ} (ha : a < 2 ^ 63) (hb : b < 2 ^ 63) :
    GapDetector.saturatingSub (Int64.ofInt a) (Int64.ofInt b) = Int64.ofInt ((a : ℤ) - b) := by
  rw [GapDetector.saturatingSub, Int64.toInt_ofInt_of_le (by omega) (by omega),
    Int64.toInt_ofInt_of_le (by omega) (by omega)]
  congr 1
  omega

/-- **The time between two identifiers**, if both have numbers of an `i64`. -/
lemma estimateTimeLag_text (i j : StreamId) :
    estimateTimeLag i.text j.text =
      if i.Readable ∧ j.Readable then
        some (Int64.ofInt (((ofLex j).1 : ℤ) - (ofLex i).1))
      else none := by
  simp only [estimateTimeLag, parseStreamIdTimestamp_eq,
    GapDetector.parseStreamId_of_ofText (StreamId.ofText_text _)]
  by_cases hi : i.Readable
  · by_cases hj : j.Readable
    · simp [hi, hj, Except.toOption, saturatingSub_ofInt hj.1 hi.1]
    · simp [hi, hj, Except.toOption]
  · simp [hi, Except.toOption]

/-! ### The events behind -/

/-- The lag when the stream goes from one state to another between the two commands. -/
lemma lag_of_run {s s' : TrimmedStream} {l : List StreamOp}
    (h : TrimmedStream.machine.Run Machine.anyStep s l s') {position : StreamId}
    (hposition : position ≤ s.lastGeneratedId) :
    ∃ gone, s'.removed = s.removed ++ gone ∧
      s.entries.length - (s'.xrangeUpTo position).length =
        (StreamLog.after RawEntry.id position s.entries).length +
          (StreamLog.upTo RawEntry.id position gone).length := by
  obtain ⟨-, gone, added, hremoved, hentries, hadded⟩ := changes_of_run h
  refine ⟨gone, hremoved, ?_⟩
  -- what is added has not been read
  have hnone : StreamLog.upTo RawEntry.id position added = [] := by
    rw [StreamLog.upTo, List.filter_eq_nil_iff]
    intro e he
    simpa using hposition.trans_lt (hadded e he)
  have hread : StreamLog.upTo RawEntry.id position gone ++
      StreamLog.upTo RawEntry.id position s'.entries =
        StreamLog.upTo RawEntry.id position s.entries := by
    have hall := congrArg (StreamLog.upTo RawEntry.id position) hentries
    simp only [StreamLog.upTo, List.filter_append] at hall hnone ⊢
    rw [hall, hnone, List.append_nil]
  have hcount := congrArg List.length hread
  have hsum : (StreamLog.upTo RawEntry.id position s.entries).length +
      (StreamLog.after RawEntry.id position s.entries).length = s.entries.length :=
    StreamLog.length_upTo_add_length_after position s.entries
  rw [List.length_append] at hcount
  rw [xrangeUpTo, List.length_map]
  omega

/-- `get_lag_info` with the stream as the commands `XLEN`, `XINFO STREAM`, `XLEN` and `XRANGE`
find it. -/
def reportOf (others : OtherFields) (now : DateTime) (position : StreamId)
    (s₀ s₁ s₂ s₃ : TrimmedStream) : Except MetricsError LagInfo :=
  getLagInfo (.ok s₀.entries.length) (s₁.xinfoStream others) now (.ok s₂.entries.length)
    (.ok (s₃.xrangeUpTo position)) position.text

/-- **What a lag report says**, whatever is appended and trimmed between its commands: the
position of the last entry at `XINFO STREAM` and the time up to it, which is `None` for numbers
beyond an `i64`; and the number of entries after the position of the consumer at the second
`XLEN`, plus the number of those up to it that have been removed between this command and
`XRANGE`.  The position of the consumer has been generated before the first command. -/
theorem lag_report {s₀ s₁ s₂ s₃ : TrimmedStream} {l₁ l₂ l₃ : List StreamOp}
    (h₀ : TrimmedStream.machine.Reachable Machine.anyStep s₀)
    (h₁ : TrimmedStream.machine.Run Machine.anyStep s₀ l₁ s₁)
    (h₂ : TrimmedStream.machine.Run Machine.anyStep s₁ l₂ s₂)
    (h₃ : TrimmedStream.machine.Run Machine.anyStep s₂ l₃ s₃) {position : StreamId}
    (hposition : position ≤ s₀.lastGeneratedId) (others : OtherFields) (now : DateTime) :
    ∃ info gone, reportOf others now position s₀ s₁ s₂ s₃ = .ok info ∧
      s₃.removed = s₂.removed ++ gone ∧
      info.consumerPosition = position.text ∧ info.latestPosition = s₁.latestId.text ∧
      info.estimatedTimeLagMs =
        (if position.Readable ∧ s₁.latestId.Readable then
          some (Int64.ofInt (((ofLex s₁.latestId).1 : ℤ) - (ofLex position).1))
        else none) ∧
      info.eventsBehind = (StreamLog.after RawEntry.id position s₂.entries).length +
        (StreamLog.upTo RawEntry.id position gone).length := by
  have hi : s₁.Invariant := invariant_of_reachable (h₀.run h₁)
  have hread : position ≤ s₂.lastGeneratedId :=
    hposition.trans ((changes_of_run h₁).1.trans (changes_of_run h₂).1)
  obtain ⟨gone, hremoved, hlag⟩ := lag_of_run h₃ hread
  refine ⟨{
    eventsBehind := s₂.entries.length - (s₃.xrangeUpTo position).length
    consumerPosition := position.text
    latestPosition := s₁.latestId.text
    estimatedTimeLagMs := estimateTimeLag position.text s₁.latestId.text }, gone, ?_, hremoved, rfl,
    rfl, estimateTimeLag_text position s₁.latestId, hlag⟩
  obtain ⟨info, hinfo, hlast⟩ := latest_eq hi others (.ok s₀.entries.length) now
  rw [reportOf, getLagInfo, hinfo]
  simp only [bind, Except.bind, hlast]
  rfl

/-- The consumer has read the first of two entries, which is trimmed between the commands: it
is said to be behind by both. -/
theorem lag_report_trimmed : ∃ s s' : TrimmedStream, ∃ info,
    TrimmedStream.machine.exec Machine.anyStep empty
      [.xadd (sampleEntry 5), .xadd (sampleEntry 7)] = some s ∧
      TrimmedStream.machine.exec Machine.anyStep s [.trim 1] = some s' ∧
      reportOf sampleFields 0 (toLex (5, 0)) s s s s' = .ok info ∧ info.eventsBehind = 2 ∧
      info.estimatedTimeLagMs = some 2 := by
  obtain ⟨s, hs, hentries, hlast, hremoved⟩ : ∃ s, TrimmedStream.machine.exec Machine.anyStep empty
      [.xadd (sampleEntry 5), .xadd (sampleEntry 7)] = some s ∧
        s.entries = [sampleEntry 5, sampleEntry 7] ∧ s.lastGeneratedId = toLex (7, 0) ∧
          s.removed = [] := ⟨_, rfl, rfl, rfl, rfl⟩
  obtain ⟨s', hs', hremoved'⟩ : ∃ s', TrimmedStream.machine.exec Machine.anyStep s [.trim 1] =
      some s' ∧ s'.removed = s.removed ++ s.entries.take 1 := ⟨_, rfl, rfl⟩
  have hposition : (toLex (5, 0) : StreamId) ≤ s.lastGeneratedId := by
    rw [hlast]
    decide
  obtain ⟨info, gone, hreport, hgone, -, -, htime, hbehind⟩ :=
    lag_report ⟨empty, _, rfl, Machine.run_of_exec hs⟩ (Machine.Run.nil s) (Machine.Run.nil s)
      (Machine.run_of_exec hs') hposition sampleFields 0
  refine ⟨s, s', info, hs, hs', hreport, ?_, ?_⟩
  · obtain rfl : gone = [sampleEntry 5] := by
      rw [hremoved', hremoved, hentries] at hgone
      simpa using hgone.symm
    rw [hbehind, hentries]
    decide
  · rw [htime, latestId, hentries]
    decide

end StreamMetrics

end AxonTask
