import LogSequencing.EngineError
import LogSequencing.Sequencer.Status

/-!
# Failures of commands

Why a command did not do what it was asked to. A report has the failure itself and, below it, what
caused it.
-/

set_option autoImplicit false
set_option relaxedAutoImplicit false

namespace LogSequencing

/-- The error that the system reported. -/
def LogError.causes : LogError → List String
  | io reason => [reason]
  | _ => []

def EngineError.causes : EngineError → List String
  | storage error => [error.message]
  | log error => error.message :: error.causes
  | config _ | corrupted _ _ => []

inductive Failure where
  /-- The data directory could not be created. -/
  | dataDirectory (path reason : String)
  /-- The file of the checkpoints and the recovery points could not be opened. -/
  | views (error : StorageError)
  | configFile (path reason : String)
  | config (error : ConfigError)
  /-- The counters were not recovered within so many seconds. -/
  | notRecovered (partition : PartitionId) (timeout : UInt64)
  /-- No event could be started. -/
  | notReady (partition : PartitionId)
  /-- The event of that offset could not be written to the log. -/
  | notCommitted (offset : Offset) (error : LogError)
  | log (error : LogError)
  | engine (error : EngineError)
deriving DecidableEq, Repr

namespace Failure

/-- A number of seconds; none at all is written in nanoseconds. -/
def secondsText (n : UInt64) : String :=
  if n = 0 then "0ns" else Decimal.text n.toNat ++ "s"

def message : Failure → String
  | dataDirectory path _ => "creating " ++ path
  | views _ => "opening view storage"
  | configFile path _ => "reading config " ++ path
  | config error => (EngineError.config error).message
  | notRecovered partition timeout =>
    "partition " ++ partition.text ++ " did not recover within " ++ secondsText timeout
  | notReady partition => "sequencer of partition " ++ partition.text ++ " is not ready"
  | notCommitted offset _ => "committing offset " ++ offset.text
  | log error => error.message
  | engine error => error.message

/-- What caused a failure, the nearest cause first. -/
def causes : Failure → List String
  | dataDirectory _ reason | configFile _ reason => [reason]
  | views error => [error.message]
  | config _ | notRecovered _ _ | notReady _ => []
  | notCommitted _ error => error.message :: error.causes
  | log error => error.causes
  | engine error => error.causes

/-- A line for a cause among several. -/
def numberedLine (cause : String × Nat) : String :=
  let number := Decimal.digits cause.2
  "\n" ++ String.ofList (List.replicate (5 - number.length) ' ' ++ number) ++ ": " ++ cause.1

/-- The lines for the causes. A single one has no number. -/
def causeLines : List String → String
  | [] => ""
  | [cause] => "\n\nCaused by:\n    " ++ cause
  | causes => "\n\nCaused by:" ++ String.join (causes.zipIdx.map numberedLine)

def report (failure : Failure) : String := failure.message ++ causeLines failure.causes

end Failure

/-- How a command comes to an end before its work is done. -/
inductive Breakdown where
  | failure (failure : Failure)
  /-- The contract with a sequencer was violated, or a number space is exhausted. -/
  | violation (violation : Violation)
deriving DecidableEq, Repr

end LogSequencing
