import AxonTask.Lib.Redis
import AxonTask.Shared.Serialization
import Mathlib.Algebra.Group.Nat.Defs

/-!
# The stream writer (`axontask-shared/src/redis/stream_writer.rs`)

`StreamWriter` adds entries to streams and tries again when Redis does not answer.  What
comes of the single attempts is an argument.
-/

namespace AxonTask

open Lib

/-- `StreamWriterConfig`. -/
structure StreamWriterConfig where
  maxRetries : UInt32 := 3
  baseRetryDelayMs : UInt64 := 100
  maxRetryDelayMs : UInt64 := 5000

/-- What comes of one `XADD`. -/
inductive Attempt
  | accepted (streamId : String)
  /-- Nothing is written. -/
  | refused (error : String)
  /-- The entry is written, and the reply is lost. -/
  | replyLost (streamId error : String)

/-- The errors of `StreamWriterError` that a control message can lead to. -/
inductive StreamWriterError
  | writeFailed (attempts : UInt32) (lastError : String)
deriving DecidableEq, Repr

/-- What a call of `xadd_with_retry` comes to. -/
inductive Retried
  | ok (streamId : String)
  | error (lastError : String)
  /-- The call panics, or its counter wraps around and it goes on for ever. -/
  | noResult
deriving DecidableEq, Repr

namespace StreamWriter

/-- The delay after the failed attempt number `attempt ≥ 1`.  In a build that checks
arithmetic an overflow panics (`none`); in others the product wraps around. -/
def retryDelayMs (checked : Bool) (config : StreamWriterConfig) (attempt : ℕ) : Option UInt64 :=
  let fits : Bool :=
    decide (attempt - 1 < 64) &&
      decide (config.baseRetryDelayMs.toNat * 2 ^ (attempt - 1) < 2 ^ 64)
  if checked && !fits then none
  else some (min (config.baseRetryDelayMs * 2 ^ (attempt - 1)) config.maxRetryDelayMs)

section Xadd

variable {κ : Type*} (checked : Bool) (config : StreamWriterConfig) (outcome : ℕ → Attempt)
  (streamKey : String) (fields : List (String × String))

/-- The loop of `xadd_with_retry` with `remaining` attempts to go.  The order in which the
fields of the map are sent is not modelled. -/
def xaddLoop : (remaining attempt : ℕ) → Option String → Redis κ → Retried × Redis κ
  | 0, _, lastError, r => (lastError.elim .noResult .error, r)
  | remaining + 1, attempt, _, r =>
    let retry (e : String) (r : Redis κ) : Retried × Redis κ :=
      -- `attempt` is a `u32`
      if attempt + 1 = 2 ^ 32 then (.noResult, r)
      else if remaining ≠ 0 ∧ retryDelayMs checked config (attempt + 1) = none then (.noResult, r)
      else xaddLoop remaining (attempt + 1) (some e) r
    match outcome attempt with
    | .accepted streamId => (.ok streamId, r.xadd streamKey ⟨streamId, fields⟩)
    | .refused e => retry e r
    | .replyLost streamId e => retry e (r.xadd streamKey ⟨streamId, fields⟩)

/-- `StreamWriter::xadd_with_retry`. -/
def xaddWithRetry (r : Redis κ) : Retried × Redis κ :=
  xaddLoop checked config outcome streamKey fields (config.maxRetries.toNat + 1) 0 none r

variable {checked config outcome streamKey fields}

/-- An `XADD` leaves the connections alone, however often it is tried. -/
lemma subscribers_xaddLoop {remaining attempt : ℕ} {lastError : Option String} {r : Redis κ} :
    (xaddLoop checked config outcome streamKey fields remaining attempt lastError r).2.subscribers =
      r.subscribers := by
  induction remaining generalizing attempt lastError r with
  | zero => rfl
  | succ remaining ih =>
    simp only [xaddLoop]
    split
    · rfl
    all_goals
      split
      · rfl
      · split
        · rfl
        · exact ih

end Xadd

/-- `StreamWriter::publish_control_message`; `none` when the call does not return. -/
def publishControlMessage {κ : Type*} (checked : Bool) (config : StreamWriterConfig)
    (outcome : ℕ → Attempt) (taskId : Uuid) (command : String) (data : Option String)
    (r : Redis κ) : Option (Except StreamWriterError String) × Redis κ :=
  let fields := ("command", command) :: (data.map fun d => ("data", d)).toList
  let (result, r) := xaddWithRetry checked config outcome (controlStreamKey taskId) fields r
  match result with
  | .ok streamId => (some (.ok streamId), r)
  | .error lastError => (some (.error (.writeFailed (config.maxRetries + 1) lastError)), r)
  | .noResult => (none, r)

/-- A control message that is published does not concern the connections. -/
lemma subscribers_publishControlMessage {κ : Type*} {checked : Bool} {config : StreamWriterConfig}
    {outcome : ℕ → Attempt} {taskId : Uuid} {command : String} {data : Option String}
    {r : Redis κ} :
    (publishControlMessage checked config outcome taskId command data r).2.subscribers =
      r.subscribers := by
  unfold publishControlMessage
  simp only
  split <;> exact subscribers_xaddLoop

end StreamWriter

end AxonTask
