import AxonTask.Shared.Basic

/-!
# What adapters emit and return (`axontask-worker/src/adapters/adapter_trait.rs`)

Adapters themselves are arbitrary code behind a trait; the worker sees the events they emit
and the result they return.
-/

namespace AxonTask

/-- `AdapterError`. -/
inductive AdapterError
  | executionFailed (msg : String)
  | cancelled
  | invalidArguments (msg : String)
  | timeout
  | resourceLimit (msg : String)
  | eventEmissionFailed (msg : String)
  | internal (msg : String)
deriving DecidableEq, Repr

/-- `impl Display for AdapterError`. -/
def AdapterError.toString : AdapterError → String
  | executionFailed msg => "Task execution failed: " ++ msg
  | cancelled => "Task was cancelled"
  | invalidArguments msg => "Invalid task arguments: " ++ msg
  | timeout => "Task timeout exceeded"
  | resourceLimit msg => "Resource limit exceeded: " ++ msg
  | eventEmissionFailed msg => "Failed to emit event: " ++ msg
  | internal msg => "Internal error: " ++ msg

/-- `AdapterEventKind`. -/
inductive AdapterEventKind
  | started | progress | stdout | stderr | completed | failed | cancelled | timeout | custom
deriving DecidableEq, Repr

/-- `impl Display for AdapterEventKind`. -/
def AdapterEventKind.toString : AdapterEventKind → String
  | started => "started"
  | progress => "progress"
  | stdout => "stdout"
  | stderr => "stderr"
  | completed => "completed"
  | failed => "failed"
  | cancelled => "cancelled"
  | timeout => "timeout"
  | custom => "custom"

/-- `AdapterEvent`. -/
structure AdapterEvent where
  kind : AdapterEventKind
  payload : JsonValue

namespace AdapterEvent

/-- `AdapterEvent::started`. -/
def started (metadata : JsonValue) : AdapterEvent := ⟨.started, metadata⟩

/-- `AdapterEvent::progress`. -/
def progress (percent : UInt8) (message : Option String) : AdapterEvent :=
  ⟨.progress, .object [("message", (message.map JsonValue.string).getD .null),
    ("percent", .number (.posInt percent.toUInt64))]⟩

/-- `AdapterEvent::stdout`. -/
def stdout (data : String) : AdapterEvent := ⟨.stdout, .object [("data", .string data)]⟩

/-- `AdapterEvent::completed`. -/
def completed (metadata : JsonValue) : AdapterEvent := ⟨.completed, metadata⟩

/-- `AdapterEvent::failed`. -/
def failed (error : String) : AdapterEvent := ⟨.failed, .object [("error", .string error)]⟩

/-- `AdapterEvent::cancelled`. -/
def cancelled : AdapterEvent := ⟨.cancelled, .object []⟩

end AdapterEvent

end AxonTask
