import AxonTask.Api.Endpoints

/-!
# Resuming a stream (`routes/mcp/resume_task.rs` and `stream_task.rs` of `axontask-api`)

`resume_task` passes the position of a client on to `stream_task`.  The two requests document
their positions differently; what they ask for is compared on a log of events that are numbered
from 0.
-/

namespace AxonTask.Api

/-- The `since_seq` that `resume_task` hands to `stream_task`. -/
def sinceSeqOf (lastSeq : Int64) : Int64 := lastSeq + 1

lemma resumeTask_eq_streamTask (L : Libs) (env : Surroundings) (auth : AuthContext)
    (taskId : Uuid) (lastSeq : Int64) (db : Database) :
    resumeTask L env auth taskId lastSeq db =
      streamTask L env auth taskId (sinceSeqOf lastSeq) db := rfl

/-! ### The documented positions -/

/-- The events of a log of `k` events that `StreamTaskQuery.since_seq` asks for, before the new
ones; `none` for the values that are not documented. -/
def eventsSince (sinceSeq : Int64) (k : ℕ) : Option (List ℕ) :=
  if 0 ≤ sinceSeq.toInt then some ((List.range k).filter fun seq => decide (sinceSeq.toInt ≤ seq))
  else if sinceSeq.toInt = -1 then some []
  else none

/-- The events of a log of `k` events that `ResumeTaskRequest.last_seq` asks for, before the new
ones. -/
def eventsAfter (lastSeq : Int64) (k : ℕ) : Option (List ℕ) :=
  if 1 ≤ lastSeq.toInt then some ((List.range k).filter fun seq => decide (lastSeq.toInt < seq))
  else if lastSeq.toInt = 0 then some (List.range k)
  else if lastSeq.toInt = -1 then some []
  else none

/-- The client gets the events that it asks for, and the position does not overflow. -/
structure ResumesExactly (lastSeq : Int64) (k : ℕ) : Prop where
  no_overflow : (sinceSeqOf lastSeq).toInt = lastSeq.toInt + 1
  events : eventsSince (sinceSeqOf lastSeq) k = eventsAfter lastSeq k

/-! ### Where the positions agree -/

section Positions

variable {lastSeq : Int64} {k : ℕ}

/-- The addition overflows at the largest number only. -/
lemma toInt_sinceSeqOf_iff :
    (sinceSeqOf lastSeq).toInt = lastSeq.toInt + 1 ↔ lastSeq.toInt ≠ 2 ^ 63 - 1 := by
  have hlt := lastSeq.toInt_lt
  have hle := lastSeq.le_toInt
  have hone : (1 : Int64).toInt = 1 := rfl
  rw [sinceSeqOf, Int64.toInt_add, hone, Int.bmod_def]
  omega

/-- A client that has received an event other than the first one. -/
lemma eventsSince_of_pos (hpos : 1 ≤ lastSeq.toInt)
    (hsince : (sinceSeqOf lastSeq).toInt = lastSeq.toInt + 1) :
    eventsSince (sinceSeqOf lastSeq) k = eventsAfter lastSeq k := by
  rw [eventsSince, eventsAfter, if_pos hpos, if_pos (by omega), hsince]
  rfl

/-- The two sentinels are numbers to the addition: a client that asks for all events does not get
the first one, and a client that asks for new events gets all the old ones. -/
lemma eventsSince_of_sentinel (hsentinel : lastSeq.toInt = 0 ∨ lastSeq.toInt = -1)
    (hsince : (sinceSeqOf lastSeq).toInt = lastSeq.toInt + 1) :
    eventsSince (sinceSeqOf lastSeq) k = eventsAfter lastSeq k ↔ k = 0 := by
  rw [eventsSince, eventsAfter, if_pos (by omega), if_neg (by omega), hsince]
  constructor
  · intro h
    by_contra hk
    -- the first event is in one of the two lists only
    have hfirst : 0 ∈ List.range k := List.mem_range.2 (by omega)
    rcases hsentinel with hzero | hneg
    · rw [if_pos hzero, hzero, Option.some.injEq, List.filter_eq_self] at h
      simpa using h 0 hfirst
    · rw [if_neg (by omega), if_pos hneg, hneg, Option.some.injEq, List.filter_eq_nil_iff] at h
      simpa using h 0 hfirst
  · rintro rfl
    rcases hsentinel with hzero | hneg
    · simp [hzero]
    · simp [hneg]

end Positions

/-- **Where a client resumes exactly**: behind any event but the first one, or on the empty log, as
long as there is a next number. -/
theorem resumesExactly_iff (lastSeq : Int64) (k : ℕ) (hmin : -1 ≤ lastSeq.toInt) :
    ResumesExactly lastSeq k ↔ lastSeq.toInt ≠ 2 ^ 63 - 1 ∧ (1 ≤ lastSeq.toInt ∨ k = 0) := by
  constructor
  · rintro ⟨hsince, hevents⟩
    refine ⟨toInt_sinceSeqOf_iff.1 hsince, ?_⟩
    by_cases hpos : 1 ≤ lastSeq.toInt
    · exact Or.inl hpos
    · exact Or.inr ((eventsSince_of_sentinel (by omega) hsince).1 hevents)
  · rintro ⟨hmax, h⟩
    have hsince := toInt_sinceSeqOf_iff.2 hmax
    refine ⟨hsince, ?_⟩
    by_cases hpos : 1 ≤ lastSeq.toInt
    · exact eventsSince_of_pos hpos hsince
    · exact (eventsSince_of_sentinel (by omega) hsince).2 (h.resolve_left hpos)

/-- Behind the event 2 of five, the events 3 and 4 are sent. -/
theorem resumesExactly_iff_five : ResumesExactly 2 5 :=
  (resumesExactly_iff 2 5 (by decide)).2 ⟨by decide, Or.inl (by decide)⟩

/-- A client that asks for everything does not get the first event, one that asks for new events
gets the old ones, and the last number has no successor. -/
theorem not_resumesExactly_sentinels :
    ¬ ResumesExactly 0 1 ∧ ¬ ResumesExactly (-1) 1 ∧ ¬ ResumesExactly Int64.maxValue 1 := by
  refine ⟨?_, ?_, ?_⟩
  · intro h
    exact absurd h.events (by decide)
  · intro h
    exact absurd h.events (by decide)
  · intro h
    exact absurd h.no_overflow (by decide)

end AxonTask.Api
