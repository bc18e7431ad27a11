import LogSequencing.Checkpoint.View

/-!
# Checkpoint batches

A batch merges what finished events leave to be checkpointed. Of each workspace only the last values
count, so a batch is as large as the set of workspaces it touches. `Batch.rows` are the rows that a
batch writes.
-/

set_option autoImplicit false
set_option relaxedAutoImplicit false

namespace LogSequencing

/-- The last numbers handed out in a workspace when one of its events was finished. -/
structure FinishedEvent where
  offset : Offset
  workspace : WorkspaceId
  workspaceOffset : Offset
  ordinaryId : RecordId
  compactingId : RecordId
deriving DecidableEq, Repr

structure Batch where
  /-- The last numbers of the workspaces that the batch touches. -/
  last : Counters
  /-- The number of events merged. -/
  count : Nat
deriving DecidableEq

namespace Batch

def empty : Batch := ⟨.empty, 0⟩

/-- Puts in what an event left, over what earlier events of its workspace left. -/
def merge (batch : Batch) (event : FinishedEvent) : Batch where
  last := {
    offset := event.offset
    workspaceOffsets := batch.last.workspaceOffsets.insert event.workspace event.workspaceOffset
    ordinaryIds := batch.last.ordinaryIds.insert event.workspace event.ordinaryId
    compactingIds := batch.last.compactingIds.insert event.workspace event.compactingId }
  count := batch.count + 1

/-- The row of a record sequence, unless nothing was allocated from it. -/
def idRow? (batch : Batch) (workspace : WorkspaceId) (sequence : IdSequence) :
    Option CheckpointRow :=
  let id := batch.last.lastId sequence workspace
  if id.isNull then none else some ⟨workspace, .id sequence, id.val⟩

def workspaceRows (batch : Batch) (workspace : WorkspaceId) (last : Offset) :
    List CheckpointRow :=
  ⟨workspace, .workspaceOffset, last.val⟩ ::
    ((batch.idRow? workspace .ordinary).toList ++ (batch.idRow? workspace .compacting).toList)

/-- The rows of each workspace, then the one of the partition. -/
def rows (batch : Batch) : List CheckpointRow :=
  batch.last.workspaceOffsets.toList.flatMap (fun (workspace, last) ↦
    batch.workspaceRows workspace last) ++
  [⟨.null, .offset, batch.last.offset.val⟩]

end Batch

end LogSequencing
