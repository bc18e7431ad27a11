import LogSequencing.Checkpoint.View
import LogSequencing.Log.Reading

/-!
# Replay

Checkpoints lag behind the log. Replay starts from the stored counters and observes the events from
the checkpointed offset on, so that the counters cover everything a committed event used.
-/

set_option autoImplicit false
set_option relaxedAutoImplicit false

namespace LogSequencing.Checkpoint

/-- The counters after a read of the log's tail, if it came to the end. -/
def observeReading (counters : Counters) (reading : Reading) : Except EngineError Counters :=
  match reading.failure? with
  | some error => .error (.log error)
  | none => .ok (counters.observeAll reading.visited)

/-- Rebuilds the counters of a partition from its checkpoint and its log. -/
def replay {β σ : Type} [Backend β] [LogSource σ] (store : β) (log : σ) (partition : PartitionId) :
    Except EngineError Counters × β × σ :=
  match readPartition store partition with
  | (.error error, store) => (.error error, store, log)
  | (.ok counters, store) =>
    let (reading, log) := LogSource.readFrom log partition counters.offset
    (observeReading counters reading, store, log)

end LogSequencing.Checkpoint
