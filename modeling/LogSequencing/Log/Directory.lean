import LogSequencing.Log.Entry
import LogSequencing.Log.Reading
import LogSequencing.Log.Segment
import LogSequencing.Sorting

/-!
# Logs in files

The directory of a partition holds files and, for all the log knows, other directories. Reading
follows the segments in the order of their start offsets.

A segment is read entry by entry (`Scan.ofOctets`). An entry whose length field can be believed but
which cannot be decoded is skipped. A length of zero, one beyond every limit, or one that reaches past
the end of the file ends the scan; what lies there is a torn write.
-/

set_option autoImplicit false
set_option relaxedAutoImplicit false

namespace LogSequencing

/-- What a scan of a file found. -/
structure Scan where
  events : List Event
  /-- The octets up to the end of the last whole entry. -/
  readable : Nat
deriving DecidableEq, Repr

namespace Scan

/-- The length of the entry at the beginning of a file, and the octets after the length field;
`none` where a scan ends. -/
def frame? (octets : Octets) : Option (Nat × Octets) :=
  let length := Octets.toNatLE (octets.take 4)
  if octets.length < 8 ∨ length = 0 ∨ Entry.maxLength < length ∨ octets.length < 4 + length then
    none
  else
    some (length, octets.drop 4)

theorem length_drop_lt_of_frame? {octets rest : Octets} {length : Nat}
    (h : frame? octets = some (length, rest)) : (rest.drop length).length < octets.length := by
  simp only [frame?] at h
  split at h
  · contradiction
  · cases h
    simp only [List.length_drop]
    omega

/-- The scan with one more entry in front of it. -/
def cons (event? : Option Event) (size : Nat) (scan : Scan) : Scan :=
  ⟨event?.toList ++ scan.events, size + scan.readable⟩

/-- Scans the octets of a file, of which there are at most `fuel`. -/
def ofOctetsWithin (now : Instant) : (fuel : Nat) → Octets → Scan
  | 0, _ => ⟨[], 0⟩
  | fuel + 1, octets =>
    match frame? octets with
    | none => ⟨[], 0⟩
    | some (length, rest) =>
      cons (Entry.decode now rest length).toOption (4 + length)
        (ofOctetsWithin now fuel (rest.drop length))

def ofOctets (now : Instant) (octets : Octets) : Scan := ofOctetsWithin now octets.length octets

end Scan

/-- What a name in a directory stands for. -/
inductive Node where
  | file (octets : Octets)
  | directory
deriving DecidableEq, Repr

/-- The directory of one partition's log. -/
abbrev Directory := Std.ExtTreeMap String Node compare

namespace Node

def size : Node → Nat
  | file octets => octets.length
  | directory => 4096

end Node

namespace Directory

/-- The segments of a directory, in the order of their start offsets. Other names are ignored. -/
def segments (directory : Directory) : List Segment :=
  sortOn Segment.start (directory.toList.filterMap fun (name, node) ↦
    (Segment.ofFileName? name).map fun start ↦ ⟨name, start, node.size⟩)

/-- The contents of a file. -/
def contents (directory : Directory) (name : String) : Except PathFault Octets :=
  match directory[name]? with
  | none => .error .missing
  | some .directory => .error .isDirectory
  | some (.file octets) => .ok octets

def fileOctets (directory : Directory) (name : String) : Except LogError Octets :=
  (directory.contents name).mapError .ofPathFault

def scan (directory : Directory) (now : Instant) (name : String) : Except LogError Scan :=
  (directory.fileOctets name).map (Scan.ofOctets now)

/-- Adds the events of segments to those found so far. A segment whose successor begins at or
before `start` holds nothing that is wanted and is not opened; nor is one after the limit has been
reached. -/
def collect (directory : Directory) (now : Instant) (start : Offset) (limit : ReadLimit)
    (found : List Event) : List Segment → Except LogError (List Event)
  | [] => .ok found
  | segment :: rest =>
    if rest.head?.any (·.start ≤ start) then
      collect directory now start limit found rest
    else do
      let scan ← directory.scan now segment.name
      let found := limit.take (found ++ scan.events.filter (start ≤ ·.offset))
      if limit.isReached found.length then
        return found
      else
        collect directory now start limit found rest

/-- The events from an offset on, in the order of their offsets. -/
def readEvents (directory : Directory) (now : Instant) (start : Offset) (limit : ReadLimit) :
    Except LogError (List Event) :=
  (directory.collect now start limit [] directory.segments).map (sortOn Event.offset)

end Directory

/-- The logs of all partitions under one root. -/
structure FileLog where
  /-- The path of the root. -/
  root : String
  /-- The time of the reader, at which an event reads whose own time is not representable. -/
  now : Instant
  partitions : Std.ExtTreeMap PartitionId Directory compare
  /-- Whether a file stands in the place of the root. No partition has a directory then. -/
  rootIsFile : Bool
  /-- The partitions in the place of whose directories there are files. -/
  occupied : List PartitionId

namespace FileLog

def empty (root : String) (now : Instant) : FileLog := ⟨root, now, ∅, false, []⟩

def directory? (log : FileLog) (partition : PartitionId) : Option Directory :=
  log.partitions[partition]?

/-- The directory of a partition; where it is missing, an error that names its path. -/
def directory (log : FileLog) (partition : PartitionId) : Except LogError Directory :=
  match log.directory? partition with
  | some directory => .ok directory
  | none => .error (.directoryNotFound (partitionDirectory log.root partition))

/-- What meets an attempt to create a partition's directory where there is a file in the way. -/
def obstacle? (log : FileLog) (partition : PartitionId) : Option LogError :=
  if log.rootIsFile then
    some (.ofPathFault .notDirectory)
  else if log.occupied.contains partition then
    some (.directoryNotFound (partitionDirectory log.root partition))
  else
    none

def setDirectory (log : FileLog) (partition : PartitionId) (directory : Directory) : FileLog :=
  { log with partitions := log.partitions.insert partition directory }

/-- Reads a partition. One that was never written to is empty. -/
def read (log : FileLog) (partition : PartitionId) (start : Offset) (limit : ReadLimit)
    (objection? : Event → Option LogError) : Reading :=
  match log.directory? partition with
  | none => ⟨[], none⟩
  | some directory => .ofExcept objection? (directory.readEvents log.now start limit)

instance : LogSource FileLog where
  readFrom log partition start := (log.read partition start .toTheEnd noObjection, log)

end FileLog

end LogSequencing
