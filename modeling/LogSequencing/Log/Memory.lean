import LogSequencing.Log.Reading

/-!
# Logs in memory

The committed events of every partition, and how many of the next reads are to fail.
-/

set_option autoImplicit false
set_option relaxedAutoImplicit false

namespace LogSequencing

structure MemoryLog where
  partitions : Std.ExtTreeMap PartitionId (List Event) compare
  /-- The number of reads that will fail. -/
  failingReads : Nat

namespace MemoryLog

def empty : MemoryLog := ⟨∅, 0⟩

def events (log : MemoryLog) (partition : PartitionId) : List Event :=
  log.partitions[partition]?.getD []

/-- The offset of the last event of a partition, or null. -/
def lastOffset (log : MemoryLog) (partition : PartitionId) : Offset :=
  ((log.events partition).getLast?.map Event.offset).getD .null

/-- Commits an event, which must follow the last one of its partition. -/
def append (log : MemoryLog) (partition : PartitionId) (event : Event) :
    Except LogError MemoryLog :=
  let last := log.lastOffset partition
  if event.offset ≤ last then
    .error (.offsetRegression event.offset last)
  else
    .ok { log with
      partitions := log.partitions.insert partition (log.events partition ++ [event]) }

/-- The events that a read from an offset would visit. -/
def select (log : MemoryLog) (partition : PartitionId) (start : Offset) (limit : ReadLimit) :
    List Event :=
  limit.take ((log.events partition).filter (start ≤ ·.offset))

/-- Reads a partition. A read that is to fail does so before it visits anything. -/
def read (log : MemoryLog) (partition : PartitionId) (start : Offset) (limit : ReadLimit)
    (objection? : Event → Option LogError) : Reading × MemoryLog :=
  match log.failingReads with
  | failing + 1 =>
    (.failed (.unavailable partition "injected read failure"), { log with failingReads := failing })
  | 0 => (.visit objection? (log.select partition start limit), log)

instance : LogSource MemoryLog where
  readFrom log partition start := log.read partition start .toTheEnd noObjection

end MemoryLog

end LogSequencing
