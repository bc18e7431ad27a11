import LogSequencing.Checkpoint.View
import LogSequencing.Serial.Json
import Std.Data.ExtTreeSet

/-!
# Recovery points

A recovery point tells how far a consumer of a partition's log has come: the last offset in the log
of the partition, and for each workspace its last offset and its base record numbers. Updates
overwrite. Only workspaces changed since the last successful write are written again.
-/

set_option autoImplicit false
set_option relaxedAutoImplicit false

namespace LogSequencing

open Json

/-- How far a workspace has come. -/
structure WorkspacePoint where
  /-- The offset of its last event in the workspace's log. -/
  offset : Offset
  baseId : RecordId
  compactingBaseId : RecordId
deriving DecidableEq, Repr

structure RecoveryPoint where
  partition : PartitionId
  offset : Offset
  workspaces : Std.ExtTreeMap WorkspaceId WorkspacePoint compare
  /-- The workspaces changed since the last successful write. -/
  changed : Std.ExtTreeSet WorkspaceId compare
deriving DecidableEq

namespace RecoveryPoint

/-- The point before any event. -/
def empty (partition : PartitionId) : RecoveryPoint := ⟨partition, .null, ∅, ∅⟩

/-- Takes note of an event. The null workspace moves only the offset of the partition. -/
def update (point : RecoveryPoint) (offset : Offset) (workspace : WorkspaceId)
    (workspacePoint : WorkspacePoint) : RecoveryPoint :=
  if workspace.isNull then
    { point with offset }
  else
    { point with
      offset
      workspaces := point.workspaces.insert workspace workspacePoint
      changed := point.changed.insert workspace }

/-! ### Storage -/

def points : Namespace := ⟨"sys.prp"⟩

def rowKey (partition : PartitionId) (workspace : WorkspaceId) : Octets :=
  Key.partitionStart partition ++ Key.number workspace

def fieldNames : List String := ["offset", "base_record_id", "c_base_record_id"]

def pointToJson (point : WorkspacePoint) : Value :=
  .ofMembers [
    ("offset", Stored.toJson point.offset),
    ("base_record_id", Stored.toJson point.baseId),
    ("c_base_record_id", Stored.toJson point.compactingBaseId)]

def pointOfJson? (value : Value) : Option WorkspacePoint := do
  let [offset, baseId, compactingBaseId] ← value.toFields? fieldNames | none
  return {
    offset := ← required? Stored.ofJson? offset
    baseId := ← withDefault? .null Stored.ofJson? baseId
    compactingBaseId := ← withDefault? .null Stored.ofJson? compactingBaseId }

instance : Stored WorkspacePoint := ⟨pointToJson, pointOfJson?⟩

/-- The workspace in a key: all that follows the first colon. -/
def workspaceOfKey? (key : Octets) : Option WorkspaceId := do
  let (_, workspace) ← Key.cut? key
  (Key.readWorkspace workspace).toOption

/-- Puts a stored row into a point. The row of the null workspace holds the partition's offset. -/
def readRow (point : RecoveryPoint) (row : Octets × WorkspacePoint) :
    Except EngineError RecoveryPoint :=
  match workspaceOfKey? row.1 with
  | none => .error (.corrupted (Octets.toTextLossy row.1) .recoveryPointKey)
  | some workspace =>
    if workspace.isNull then
      .ok { point with offset := row.2.offset }
    else
      .ok { point with workspaces := point.workspaces.insert workspace row.2 }

variable {β : Type} [Backend β]

/-- The stored point of a partition. -/
def load (store : β) (partition : PartitionId) : Except EngineError RecoveryPoint × β :=
  let (result, store) := points.scan store (Key.partitionStart partition)
  ((result.mapError EngineError.storage).bind (·.foldlM readRow (empty partition)), store)

/-- The rows that are to be written: those of changed workspaces, then the one of the partition. -/
def changedRows (point : RecoveryPoint) : List (Octets × WorkspacePoint) :=
  (point.changed.toList.filterMap fun workspace ↦
    point.workspaces[workspace]?.map fun workspacePoint ↦
      (rowKey point.partition workspace, workspacePoint)) ++
  [(rowKey point.partition .null, ⟨point.offset, .null, .null⟩)]

/-- Writes what has changed in one batch. Only if it succeeds is nothing changed any more. -/
def save (store : β) (point : RecoveryPoint) :
    Except StorageError Unit × RecoveryPoint × β :=
  match points.putBatch store point.changedRows with
  | (.ok (), store) => (.ok (), { point with changed := ∅ }, store)
  | (.error error, store) => (.error error, point, store)

end RecoveryPoint

end LogSequencing
