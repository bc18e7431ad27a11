import LogSequencing.Command.Run
import Std.Time.DateTime.Timestamp

/-!
# The command line

Loads from the data directory what a command works on, lets `respond` answer, and stores what has
changed: the log first and then the views, so that no checkpoint is ever ahead of the log.
-/

set_option autoImplicit false
set_option relaxedAutoImplicit false

namespace LogSequencing

namespace CommandLine

/-- The reason of a failure as the system words it. -/
def reason : IO.Error → String
  | .noFileOrDirectory .. => PathFault.missing.reason
  | .inappropriateType _ code details | .permissionDenied _ code details
  | .alreadyExists _ code details =>
    details ++ " (os error " ++ Decimal.text code.toNat ++ ")"
  | error => error.toString

/-- Does something that the system may refuse. -/
def attempt {α : Type} (action : IO α) : IO (Except String α) := do
  try
    return .ok (← action)
  catch error =>
    return .error (reason error)

def contents (path : String) : IO (Except String Octets) :=
  attempt do return (← IO.FS.readBinFile path).toList

def store (path : String) (octets : Octets) : IO Unit :=
  IO.FS.writeBinFile path ⟨octets.toArray⟩

def viewPath (invocation : Invocation) : String :=
  joinPath invocation.dataDirectory DataDirectory.viewFile

def loadViews (path : String) : IO (Option Database) := do
  match ← contents path with
  | .ok octets => return Database.ofOctets? octets
  | .error _ =>
    match ← attempt (store path []) with
    | .ok () => return some .empty
    | .error _ => return none

/-- The directory of a partition's log, if there is one. -/
def loadSegments (path : String) : IO (Option Directory) := do
  match ← attempt (System.mkFilePath [path]).readDir with
  | .error _ => return none
  | .ok entries =>
    let mut directory : Directory := ∅
    for entry in entries do
      let node ← contents (joinPath path entry.fileName)
      directory := directory.insert entry.fileName
        (match node with
          | .ok octets => .file octets
          | .error _ => .directory)
    return some directory

/-- Whether something else than a directory stands at a path. -/
def isTaken (path : String) : IO Bool := do
  let path := System.mkFilePath [path]
  return (← path.pathExists) && !(← path.isDir)

/-- The log of a partition, with what is in its way. -/
def loadLog (log : FileLog) (partition : PartitionId) : IO FileLog := do
  let path := partitionDirectory log.root partition
  let occupied := if ← isTaken path then [partition] else []
  let log := { log with rootIsFile := ← isTaken log.root, occupied }
  match ← loadSegments path with
  | none => return log
  | some segments => return log.setDirectory partition segments

/-- What the data directory of an invocation holds, as far as its command may look at it. It is created
if it is missing. -/
def loadDirectory (invocation : Invocation) : IO DataDirectory := do
  let now ← Std.Time.Timestamp.now
  let directory :=
    DataDirectory.empty invocation.dataDirectory (.ofMilliseconds now.toMillisecondsSinceUnixEpoch.val)
  match ← attempt (IO.FS.createDirAll invocation.dataDirectory) with
  | .error reason => return { directory with obstacle? := some reason }
  | .ok () =>
    let views? ← loadViews (viewPath invocation)
    let log ← loadLog directory.log invocation.command.partition
    return { directory with views?, log }

/-- Stores the files of a partition's log that differ from what they were. -/
def storeLog (partition : PartitionId) (before after : FileLog) : IO Unit := do
  match after.directory? partition with
  | none => return
  | some directory =>
    let path := partitionDirectory after.root partition
    let known := (before.directory? partition).getD ∅
    IO.FS.createDirAll path
    for (name, node) in directory.toList do
      match node with
      | .directory => pure ()
      | .file octets =>
        if known[name]? ≠ some node then
          store (joinPath path name) octets

/-- Puts a new file in the place of the old one at once. -/
def storeViews (path : String) (views : Database) : IO Unit := do
  let fresh := path ++ ".new"
  store fresh views.toOctets
  IO.FS.rename fresh path

/-- Stores what has changed in a data directory. -/
def storeDirectory (invocation : Invocation) (before after : DataDirectory) : IO Unit := do
  if after.obstacle?.isSome then
    return
  storeLog invocation.command.partition before.log after.log
  match after.views? with
  | none => return
  | some views => storeViews (viewPath invocation) views

/-- Answers to an invocation in its data directory. -/
def carryOut (invocation : Invocation) (arguments : List String) : IO Answer := do
  let before ← loadDirectory invocation
  let config ←
    match invocation.configFile? with
    | none => pure (.ok [])
    | some path => contents path
  let (answer, after) := respond arguments (fun _ ↦ config) before
  storeDirectory invocation before after
  return answer

end CommandLine

end LogSequencing

open LogSequencing in
def main (arguments : List String) : IO UInt32 := do
  let answer ←
    match Invocation.read arguments with
    | .error interruption => pure (Answer.ofInterruption interruption)
    | .ok invocation => CommandLine.carryOut invocation arguments
  IO.print answer.output
  IO.eprint answer.complaint
  return answer.code
