import LogSequencing.Log.Directory
import LogSequencing.Storage.Image

/-!
# Data directories

A data directory has a file with the checkpoints and the recovery points, and a folder with the logs,
in which each partition has a folder of its own. A file may stand in the place of any of the
directories, and a directory in that of a file.
-/

set_option autoImplicit false
set_option relaxedAutoImplicit false

namespace LogSequencing

structure DataDirectory where
  path : String
  /-- Why the directory cannot be created, if something is in its place. -/
  obstacle? : Option String
  /-- The rows of the view file; missing if there is something else than a database. -/
  views? : Option Database
  log : FileLog

namespace DataDirectory

def viewFile : String := "views.redb"

def logFolder : String := "plog"

/-- An empty data directory at a path, at the time of its reader. -/
def empty (path : String) (now : Instant) : DataDirectory :=
  ⟨path, none, some .empty, .empty (joinPath path logFolder) now⟩

/-- The rows of the view file, for a reader of its own. -/
def openViews (directory : DataDirectory) : Except StorageError Database :=
  match directory.obstacle?, directory.views? with
  | some reason, _ => .error (.unavailable ("create " ++ directory.path ++ ": " ++ reason))
  | none, none => .error (.unavailable "failed to open redb")
  | none, some views => .ok views

/-! ### Paths in a data directory -/

/-- The partition whose folder has this name. -/
def partitionOfFolder? (name : String) : Option PartitionId := do
  let number ← (Decimal.read (name.toList.drop 2)).toOption
  guard (partitionDirectory "" ⟨number⟩ = name)
  return ⟨number⟩

/-- The log after a file has been put to its place; its path is taken from the folder of a partition
on. -/
def placeInLog (log : FileLog) (partition : PartitionId) (path : List String) (octets : Octets) :
    FileLog :=
  let directory := (log.directory? partition).getD ∅
  match path with
  | [] => { log with occupied := partition :: log.occupied }
  | [name] => log.setDirectory partition (directory.insert name (.file octets))
  | name :: _ => log.setDirectory partition (directory.insert name .directory)

/-- Puts a file to its place; its path is taken from the data directory on. Files that have nothing to
do with the views and the logs have none. -/
def place? (directory : DataDirectory) (path : List String) (octets : Octets) :
    Option DataDirectory :=
  match path with
  | [] => some { directory with obstacle? := some PathFault.occupied.reason }
  | [name] =>
    if name = viewFile then
      some { directory with views? := Database.ofOctets? octets }
    else if name = logFolder then
      some { directory with log := { directory.log with rootIsFile := true } }
    else
      none
  | name :: folder :: path =>
    if name = viewFile then
      some { directory with views? := none }
    else if name = logFolder then
      (partitionOfFolder? folder).map fun partition ↦
        { directory with log := placeInLog directory.log partition path octets }
    else
      none

/-- The contents of a file of the views or the logs; its path is taken from the data directory on. -/
def contents (directory : DataDirectory) : List String → Except PathFault Octets
  | [] => .error .isDirectory
  | [name] =>
    if name = viewFile then
      (directory.views?.map Database.toOctets).elim (.error .missing) .ok
    else if name = logFolder ∧ ¬ directory.log.partitions.isEmpty then
      .error .isDirectory
    else
      .error .missing
  | name :: folder :: path =>
    let segments? :=
      if name = logFolder then
        (partitionOfFolder? folder).bind directory.log.directory?
      else
        none
    match segments?, path with
    | none, _ => .error .missing
    | some _, [] => .error .isDirectory
    | some segments, [name] => segments.contents name
    | some segments, name :: _ =>
      .error (if (segments.contents name).isOk then .notDirectory else .missing)

end DataDirectory

end LogSequencing
