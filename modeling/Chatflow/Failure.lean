/-
# Failures

Every operation that can fail has an error type of its own that says what went wrong.  What users
see of it is the same everywhere: a kind, which decides the heading of the message and the status
of an HTTP answer, and the detail behind the heading.  `Failure` is that common form.  The detail
is left out where only a parser knows it.
-/

namespace Chatflow

/-- The kinds of failure. -/
inductive ErrorKind where
  | nodeNotFound
  | edgeNotFound
  | cycleDetected
  | stepLimitExceeded
  | invalidSnapshot
  | serializationError
  | ioError
  | configError
deriving DecidableEq, Repr

namespace ErrorKind

/-- All kinds. -/
def all : List ErrorKind :=
  [nodeNotFound, edgeNotFound, cycleDetected, stepLimitExceeded, invalidSnapshot,
    serializationError, ioError, configError]

/-- The name of a kind. -/
def name : ErrorKind → String
  | nodeNotFound => "NodeNotFound"
  | edgeNotFound => "EdgeNotFound"
  | cycleDetected => "CycleDetected"
  | stepLimitExceeded => "StepLimitExceeded"
  | invalidSnapshot => "InvalidSnapshot"
  | serializationError => "SerializationError"
  | ioError => "IoError"
  | configError => "ConfigError"

/-- The kind of a name. -/
def ofName? (s : String) : Option ErrorKind := all.find? (·.name == s)

/-- The message of a failure with a detail. -/
def message (kind : ErrorKind) (detail : String) : String :=
  match kind with
  | nodeNotFound => "Node not found: " ++ detail
  | edgeNotFound => "Edge not found: " ++ detail
  | cycleDetected => "Cycle detected at node " ++ detail
  | stepLimitExceeded => "Compiled tree exceeds " ++ detail ++ " steps"
  | invalidSnapshot => "Invalid snapshot: " ++ detail
  | serializationError => "Serialization error: " ++ detail
  | ioError => "I/O error: " ++ detail
  | configError => "Configuration error: " ++ detail

/-- The status of an HTTP answer: 404 for what is not there, 422 for a graph that cannot be
compiled, 400 for input that cannot be used, 500 for trouble of the server's own. -/
def status : ErrorKind → Nat
  | nodeNotFound | edgeNotFound => 404
  | cycleDetected | stepLimitExceeded => 422
  | invalidSnapshot | configError => 400
  | serializationError | ioError => 500

theorem ofName?_name (k : ErrorKind) : ofName? k.name = some k := by cases k <;> rfl

end ErrorKind

/-- What users see of an error. -/
structure Failure where
  /-- The kind of the failure. -/
  kind : ErrorKind
  /-- What the message says behind its heading, if that is known. -/
  detail : Option String
deriving DecidableEq, Repr

/-- The whole message. -/
def Failure.message? (f : Failure) : Option String := f.detail.map f.kind.message

end Chatflow
