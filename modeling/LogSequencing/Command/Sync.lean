import LogSequencing.Command.Failure
import LogSequencing.Log.Reading
import LogSequencing.RecoveryPoint

/-!
# Bringing a recovery point up to date

The events that follow a stored recovery point are taken into it one after the other, and the point is
stored again. A workspace's offset is that of its last event; its base record numbers are the highest
ones that its events used.
-/

set_option autoImplicit false
set_option relaxedAutoImplicit false

namespace LogSequencing

namespace WorkspacePoint

def empty : WorkspacePoint := ⟨.null, .null, .null⟩

/-- Raises the base number of a sequence to cover a record number. -/
def cover (point : WorkspacePoint) (used : IdSequence × RecordId) : WorkspacePoint :=
  match used.1 with
  | .ordinary => { point with baseId := max point.baseId used.2 }
  | .compacting => { point with compactingBaseId := max point.compactingBaseId used.2 }

/-- The point of a workspace after one more event of it. -/
def follow (point : WorkspacePoint) (event : Event) : WorkspacePoint :=
  { event.usedIds.foldl cover point with offset := event.workspaceOffset }

end WorkspacePoint

namespace RecoveryPoint

/-- Takes an event into a point. -/
def incorporate (point : RecoveryPoint) (event : Event) : RecoveryPoint :=
  point.update event.offset event.workspace
    ((point.workspaces[event.workspace]?.getD .empty).follow event)

variable {β σ : Type} [Backend β] [LogSource σ]

/-- Takes events into a point and stores it, unless there are none. -/
def storeWith (store : β) (point : RecoveryPoint) (events : List Event) :
    Except Breakdown RecoveryPoint × β :=
  if events.isEmpty then
    (.ok point, store)
  else
    match save store (events.foldl incorporate point) with
    | (.ok (), point, store) => (.ok point, store)
    | (.error error, _, store) => (.error (.failure (.engine (.storage error))), store)

/-- Takes the events that follow the stored point of a partition into it. Nothing can follow the last
offset there is. -/
def sync (store : β) (log : σ) (partition : PartitionId) :
    Except Breakdown RecoveryPoint × β × σ :=
  match load store partition with
  | (.error error, store) => (.error (.failure (.engine error)), store, log)
  | (.ok point, store) =>
    match point.offset.next? with
    | none => (.error (.violation .offsetsExhausted), store, log)
    | some start =>
      let (reading, log) := LogSource.readFrom log partition start
      match reading.failure? with
      | some error => (.error (.failure (.log error)), store, log)
      | none =>
        let (result, store) := storeWith store point reading.visited
        (result, store, log)

end RecoveryPoint

end LogSequencing
