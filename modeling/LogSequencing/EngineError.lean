import LogSequencing.Config
import LogSequencing.Log.Error
import LogSequencing.Storage.Backend

/-!
# Errors of the engine

Failures of the environment and of stored data. A transient one may go away by itself; the others
need someone to repair a row or the configuration.
-/

set_option autoImplicit false
set_option relaxedAutoImplicit false

namespace LogSequencing

/-- What is wrong with a stored row. -/
inductive Corruption where
  | checkpointKey
  | recoveryPointKey
  | workspace (fault : Decimal.Malformed)
deriving DecidableEq, Repr

def Corruption.reason : Corruption → String
  | checkpointKey => "expected partition:workspace:sequence"
  | recoveryPointKey => "expected partition:workspace"
  | workspace fault => "workspace id: " ++ fault.message

inductive EngineError where
  | storage (error : StorageError)
  | log (error : LogError)
  | config (error : ConfigError)
  | corrupted (key : String) (corruption : Corruption)
deriving DecidableEq, Repr

namespace EngineError

def message : EngineError → String
  | storage error => "view storage error: " ++ error.message
  | log error => "partition log error: " ++ error.message
  | config error => "invalid configuration: " ++ error.reason
  | corrupted key corruption => "corrupted row '" ++ key ++ "': " ++ corruption.reason

/-- Whether trying again may succeed without a repair. -/
def isTransient : EngineError → Bool
  | storage _ | log _ => true
  | config _ | corrupted _ _ => false

end EngineError

end LogSequencing
