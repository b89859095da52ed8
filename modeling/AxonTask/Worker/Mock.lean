import AxonTask.Worker.Adapter
import AxonTask.Worker.Timeout

/-!
# The mock adapter (`axontask-worker/src/adapters/mock.rs`)

The configuration with its defaults, `validate_args`, and `execute` as a small program: it
sends events, looks at the token of the task at four checkpoints, and sleeps between them.
-/

namespace AxonTask

/-- `MockConfig`. -/
structure MockConfig where
  durationMs : UInt64 := 5000
  shouldFail : Bool := false
  failurePercent : UInt8 := 50
deriving DecidableEq, Repr

namespace MockConfig

/-- A JSON value as a `u64`; `none` is an error of `serde`. -/
def toU64 : JsonValue → Option UInt64
  | .number (.posInt n) => some n
  | .number (.negInt n) => if 0 ≤ n then some n.toUInt64 else none
  | _ => none

/-- A JSON value as a `u8`. -/
def toU8 (v : JsonValue) : Option UInt8 :=
  (toU64 v).bind fun n => if n ≤ 255 then some n.toUInt8 else none

/-- A JSON value as a `bool`. -/
def toBool : JsonValue → Option Bool
  | .bool b => some b
  | _ => none

/-- A field with a default, which is taken when the field is missing. -/
def field {α : Type} (parse : JsonValue → Option α) (default : α) : Option JsonValue → Option α
  | some v => parse v
  | none => some default

/-- A configuration from its three fields. -/
def ofFields (durationMs shouldFail failurePercent : Option JsonValue) : Option MockConfig := do
  let durationMs ← field toU64 5000 durationMs
  let shouldFail ← field toBool false shouldFail
  let failurePercent ← field toU8 50 failurePercent
  return { durationMs, shouldFail, failurePercent }

/-- `serde_json::from_value` at `MockConfig`: an object, with other fields ignored, or an
array of at most three elements. -/
def fromValue : JsonValue → Option MockConfig
  | .object fields =>
    ofFields (fields.lookup "duration_ms") (fields.lookup "should_fail")
      (fields.lookup "failure_percent")
  | .array elems => if elems.length ≤ 3 then ofFields elems[0]? elems[1]? elems[2]? else none
  | _ => none

end MockConfig

/-- A checkpoint of `execute`: the percentage, the message and the output. -/
structure Checkpoint where
  percent : UInt8
  progressMsg : String
  stdoutMsg : String
deriving DecidableEq, Repr

/-- What `execute` does after it has sent its events. -/
inductive MockNext
  /-- Go on with the loop over the checkpoints after a pause. -/
  | loop (checkpoints : List Checkpoint) (pause : ℕ)
  | ret (r : Except AdapterError Unit)

/-- Where `execute` stands. -/
inductive MockPc
  | notStarted
  | emitting (events : List AdapterEvent) (next : MockNext)
  /-- The loop over the checkpoints goes on at the time `wake`. -/
  | loop (checkpoints : List Checkpoint) (wake : DateTime)
  | returned

namespace MockAdapter

/-- `validate_args`.  The text of an error of `serde` is left out. -/
def validateArgs (args : JsonValue) : Except AdapterError Unit :=
  match MockConfig.fromValue args with
  | none => .error (.invalidArguments "Invalid mock config: ")
  | some config =>
    if config.durationMs = 0 then .error (.invalidArguments "duration_ms must be > 0")
    else if 3600000 < config.durationMs then
      .error (.invalidArguments "duration_ms must be <= 3600000 (1 hour)")
    else if 100 < config.failurePercent then
      .error (.invalidArguments "failure_percent must be 0-100")
    else .ok ()

/-- The configuration that `execute` parses. -/
def config (args : JsonValue) : MockConfig := (MockConfig.fromValue args).getD {}

/-- The checkpoints. -/
def checkpoints : List Checkpoint :=
  [⟨25, "Initializing...", "Mock task starting..."⟩, ⟨50, "Processing...", "Processing data..."⟩,
    ⟨75, "Finalizing...", "Task complete!"⟩, ⟨100, "Done", ""⟩]

/-- The text of a simulated failure. -/
def simulatedFailure (percent : UInt8) : String :=
  "Simulated failure at " ++ toString percent.toNat ++ "%"

variable (config : MockConfig)

/-- `execute` starts. -/
def start : MockPc :=
  .emitting [.started (.object [("adapter", .string "mock"),
    ("duration_ms", .number (.posInt config.durationMs)),
    ("should_fail", .bool config.shouldFail)])] (.loop checkpoints 0)

/-- `step_duration`. -/
def stepDuration : ℕ := Duration.fromMillis (config.durationMs.toNat / 4)

/-- The next round of the loop, with the answer of `is_cancelled`; after the last one the task
is complete. -/
def round (cancelled : Bool) : List Checkpoint → MockPc
  | [] =>
    .emitting [.completed (.object [("duration_ms", .number (.posInt config.durationMs)),
      ("exit_code", .number (.posInt 0))])] (.ret (.ok ()))
  | c :: rest =>
    if cancelled then .emitting [.cancelled] (.ret (.ok ()))
    else if config.shouldFail && decide (config.failurePercent ≤ c.percent) then
      .emitting [.failed (simulatedFailure c.percent)]
        (.ret (.error (.executionFailed (simulatedFailure c.percent))))
    else
      .emitting
        (.progress c.percent (some c.progressMsg) ::
          if c.stdoutMsg.isEmpty then [] else [.stdout c.stdoutMsg])
        -- the last round does not sleep
        (.loop rest (if rest.isEmpty then 0 else stepDuration config))

/-- A step of `execute` at the time `now`, with the answer of `is_cancelled`: the event that
it sends, and where it stands afterwards.  The return is a step of its own. -/
def advance (cancelled : Bool) (now : DateTime) : MockPc → Option (Option AdapterEvent × MockPc)
  | .emitting (event :: events) next => some (some event, .emitting events next)
  | .emitting [] (.loop checkpoints pause) => some (none, .loop checkpoints (now + pause))
  | .loop checkpoints wake =>
    if wake ≤ now then some (none, round config cancelled checkpoints) else none
  | .emitting [] (.ret _) | .notStarted | .returned => none

/-- The defaults pass the checks. -/
example : validateArgs (.object []) = .ok () := by decide

end MockAdapter

end AxonTask
