import LogSequencing.Command.Arguments
import LogSequencing.Command.DataDirectory
import LogSequencing.Command.Deployment
import LogSequencing.Command.Report
import LogSequencing.Command.Sync

/-!
# Running commands

A command works on a store of checkpoints and recovery points and on the logs (`Command.run`). An
invocation first opens a data directory and the database in it, and then reads its configuration
(`Invocation.run`). What the arguments ask for is answered with an exit code and text for the two
output streams (`respond`).
-/

set_option autoImplicit false
set_option relaxedAutoImplicit false

namespace LogSequencing

open Json

namespace Command

variable {β : Type} [Backend β]

/-- Deploys a sequencer and goes on with it if it became ready in time. -/
def withReady (settings : Settings) (store : β) (log : FileLog) (partition : PartitionId)
    (action : Deployment β → Except Breakdown Counters × β × FileLog) :
    Except Breakdown Counters × β × FileLog :=
  match Deployment.start settings store log partition with
  | .error error => (.error (.failure (.config error)), store, log)
  | .ok (true, deployment) => action deployment
  | .ok (false, deployment) =>
    deployment.conclude
      (.error (.failure (.notRecovered partition settings.recoveryTimeout)))

/-- The counters after committing a load. -/
def commitLoad (settings : Settings) (store : β) (log : FileLog) (partition : PartitionId)
    (load : Load) : Except Breakdown Counters × β × FileLog :=
  withReady settings store log partition (·.append load)

/-- The counters as they are recovered. -/
def recoverCounters (settings : Settings) (store : β) (log : FileLog) (partition : PartitionId) :
    Except Breakdown Counters × β × FileLog :=
  withReady settings store log partition (·.conclude (.ok ()))

/-- The stored recovery point. -/
def loadPoint (store : β) (partition : PartitionId) : Except Breakdown RecoveryPoint × β :=
  let (result, store) := RecoveryPoint.load store partition
  (result.mapError fun error ↦ .failure (.engine error), store)

/-- Runs a command, with its report as the result. -/
def run (settings : Settings) (store : β) (log : FileLog) :
    Command → Except Breakdown Value × β × FileLog
  | .append partition load =>
    let (result, store, log) := commitLoad settings store log partition load
    (result.map (·.report partition), store, log)
  | .recover partition =>
    let (result, store, log) := recoverCounters settings store log partition
    (result.map (·.report partition), store, log)
  | .showPoint partition =>
    let (result, store) := loadPoint store partition
    (result.map RecoveryPoint.report, store, log)
  | .syncPoint partition =>
    let (result, store, log) := RecoveryPoint.sync store log partition
    (result.map RecoveryPoint.report, store, log)

end Command

/-! ### Invocations -/

namespace Invocation

/-- Reads a configuration from the contents of its file, provided that they could be read. -/
def readConfig (path : String) (contents : Except String Octets) : Except Failure Config := do
  let octets ← contents.mapError (.configFile path)
  if octets.toText?.isNone then
    throw (.configFile path "stream did not contain valid UTF-8")
  (Config.ofText octets).mapError .config

/-- The configuration that an invocation names, or the default. -/
def config (invocation : Invocation) (fileContents : String → Except String Octets) :
    Except Failure Config :=
  match invocation.configFile? with
  | none => .ok .default
  | some path => readConfig path (fileContents path)

/-- Runs the command of an invocation in its data directory. -/
def run (invocation : Invocation) (fileContents : String → Except String Octets)
    (directory : DataDirectory) : Except Breakdown Value × DataDirectory :=
  match directory.obstacle?, directory.openViews with
  | some reason, _ => (.error (.failure (.dataDirectory invocation.dataDirectory reason)), directory)
  | none, .error error => (.error (.failure (.views error)), directory)
  | none, .ok views =>
    match invocation.config fileContents with
    | .error failure => (.error (.failure failure), directory)
    | .ok config =>
      let settings : Settings := ⟨config, invocation.recoveryTimeout⟩
      let (result, views, log) := invocation.command.run settings views directory.log
      (result, { directory with views? := some views, log })

end Invocation

/-! ### Answers -/

/-- An exit code, and what is written to the output and to the error stream. -/
structure Answer where
  code : UInt32
  output : String
  complaint : String
deriving DecidableEq, Repr

namespace Answer

def version : String := "seqctl 0.1.0\n"

def usage : String :=
  "Sequence engine operator tool\n\n" ++
  "Usage: seqctl [--data-dir DIR] [--config FILE] [--recovery-timeout SECONDS] COMMAND\n\n" ++
  "Commands:\n" ++
  "  append --partition N --workspace N [--events N] [--records N] [--compacting N]\n" ++
  "  recover --partition N\n" ++
  "  prp show --partition N\n" ++
  "  prp sync --partition N\n" ++
  "  help [COMMAND]\n"

def ofInterruption : Interruption → Answer
  | .help => ⟨0, usage, ""⟩
  | .version => ⟨0, version, ""⟩
  | .misuse misuse => ⟨2, "", "error: " ++ misuse.message ++ "\n\n" ++ usage⟩

/-- A violation of the contract has an exit code of its own, and no report. -/
def ofBreakdown : Breakdown → Answer
  | .failure failure => ⟨1, "", "Error: " ++ failure.report ++ "\n"⟩
  | .violation violation => ⟨101, "", violation.message ++ "\n"⟩

/-- A report, indented, and a line break. -/
def ofReport (report : Value) : Answer :=
  ⟨0, Octets.toTextLossy (report.printIndented 0) ++ "\n", ""⟩

def ofResult : Except Breakdown Value → Answer
  | .ok report => ofReport report
  | .error breakdown => ofBreakdown breakdown

end Answer

/-- Answers to arguments in a data directory. -/
def respond (arguments : List String) (fileContents : String → Except String Octets)
    (directory : DataDirectory) : Answer × DataDirectory :=
  match Invocation.read arguments with
  | .error interruption => (.ofInterruption interruption, directory)
  | .ok invocation =>
    let (result, directory) := invocation.run fileContents directory
    (.ofResult result, directory)

end LogSequencing
