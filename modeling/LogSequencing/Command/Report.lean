import LogSequencing.Counters
import LogSequencing.RecoveryPoint

/-!
# Reports

What a command prints: the counters of a partition or its recovery point, with the workspaces in
ascending order and the members of each record in alphabetical order.
-/

set_option autoImplicit false
set_option relaxedAutoImplicit false

namespace LogSequencing

open Json

/-- A record of a partition. -/
def partitionReport (partition : PartitionId) (offset : Offset) (workspaces : List Value) : Value :=
  .ofMembers [
    ("partition", Stored.toJson partition),
    ("plog_offset", Stored.toJson offset),
    ("workspaces", .array workspaces)]

namespace Counters

def workspaceReport (counters : Counters) (workspace : WorkspaceId) : Value :=
  .ofMembers [
    ("c_rec_id", Stored.toJson (counters.lastId .compacting workspace)),
    ("rec_id", Stored.toJson (counters.lastId .ordinary workspace)),
    ("wlog_offset", Stored.toJson (counters.workspaceOffset workspace)),
    ("workspace", Stored.toJson workspace)]

/-- The counters of a partition. Only workspaces that have an offset of their own are listed. -/
def report (counters : Counters) (partition : PartitionId) : Value :=
  partitionReport partition counters.offset
    (counters.workspaceOffsets.keys.map counters.workspaceReport)

end Counters

namespace RecoveryPoint

def workspaceReport (workspace : WorkspaceId) (point : WorkspacePoint) : Value :=
  .ofMembers [
    ("base_record_id", Stored.toJson point.baseId),
    ("c_base_record_id", Stored.toJson point.compactingBaseId),
    ("wlog_offset", Stored.toJson point.offset),
    ("workspace", Stored.toJson workspace)]

def report (point : RecoveryPoint) : Value :=
  partitionReport point.partition point.offset
    (point.workspaces.toList.map fun (workspace, point) ↦ workspaceReport workspace point)

end RecoveryPoint

end LogSequencing
