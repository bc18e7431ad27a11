import LogSequencing.Log.Directory

/-!
# Writing a log

A writer appends events to the last segment of a partition and begins a new segment, named for the
event's offset, where an entry would make the current one too large. Opening a writer cuts a torn
write off the last segment, so that new entries follow the last one that can be read.

An append may meet an I/O failure at four points (`AppendFault`); `Writer.append` tells what each
leaves behind.
-/

set_option autoImplicit false
set_option relaxedAutoImplicit false

namespace LogSequencing

structure Writer where
  segment : Segment
  /-- The offset of the last event written, or null. -/
  last : Offset
  /-- No entry makes a segment larger than this, unless it is the only one. -/
  maxSegmentSize : Nat
deriving DecidableEq, Repr

/-- Where an append meets an I/O failure. -/
inductive AppendFault where
  /-- Before a new segment is begun, while the current one is made durable. -/
  | rotationSync
  /-- While the file of a new segment is created. -/
  | rotationCreate
  /-- While the entry is written, when so many of its octets are stored. -/
  | write (stored : Nat)
  /-- While the written entry is made durable. -/
  | sync
deriving DecidableEq, Repr

namespace Writer

def defaultMaxSegmentSize : Nat := 64 * 1024 * 1024

/-- The fault that I/O meets where none is foreseen. -/
def ioFault : LogError := .io "Input/output error (os error 5)"

/-- Creates an empty file, or empties the one of that name. -/
def createFile (directory : Directory) (name : String) : Except LogError Directory :=
  match directory[name]? with
  | some .directory => .error (.ofPathFault .isDirectory)
  | _ => .ok (directory.insert name (.file []))

/-- A writer in a directory without segments, which gets its first. -/
def openFresh (directory : Directory) (maxSegmentSize : Nat) :
    Except LogError (Writer × Directory) := do
  let name := Segment.fileName .first
  let directory ← createFile directory name
  return (⟨⟨name, .first, 0⟩, .null, maxSegmentSize⟩, directory)

/-- The offset that an event must exceed to follow those of a segment. -/
def lastOffset (start : Offset) (events : List Event) : Offset :=
  match (events.map Event.offset).max? with
  | some offset => offset
  | none => if start.isNull then .null else ⟨start.val - 1⟩

/-- A writer that goes on after the last readable entry of a segment. -/
def openAfter (directory : Directory) (now : Instant) (segment : Segment) (maxSegmentSize : Nat) :
    Except LogError (Writer × Directory) := do
  let octets ← directory.fileOctets segment.name
  let scan := Scan.ofOctets now octets
  let directory :=
    if scan.readable < segment.size then
      directory.insert segment.name (.file (octets.take scan.readable))
    else
      directory
  return (
    { segment := { segment with size := scan.readable }
      last := lastOffset segment.start scan.events
      maxSegmentSize },
    directory)

/-- Opens a writer on a directory, which is created if it is missing. -/
def openIn (directory? : Option Directory) (now : Instant) (maxSegmentSize : Nat) :
    Except LogError (Writer × Directory) :=
  let directory := directory?.getD ∅
  match directory.segments.getLast? with
  | none => openFresh directory maxSegmentSize
  | some segment => openAfter directory now segment maxSegmentSize

/-- Begins a new segment. -/
def rotate (writer : Writer) (directory : Directory) (start : Offset)
    (fault? : Option AppendFault) : Except LogError (Writer × Directory) := do
  if fault? = some .rotationSync ∨ fault? = some .rotationCreate then
    throw ioFault
  let name := Segment.fileName start
  let directory ← createFile directory name
  return ({ writer with segment := ⟨name, start, 0⟩ }, directory)

/-- Adds octets to the end of the current segment's file. -/
def extendFile (writer : Writer) (directory : Directory) (octets : Octets) : Directory :=
  match directory[writer.segment.name]? with
  | some (.file stored) => directory.insert writer.segment.name (.file (stored ++ octets))
  | _ => directory.insert writer.segment.name (.file octets)

/-- Whether an entry of that size has to go to a new segment. -/
def mustRotate (writer : Writer) (size : Nat) : Bool :=
  decide (0 < writer.segment.size) && decide (writer.maxSegmentSize < writer.segment.size + size)

/-- Writes an entry to the current segment. A write that fails halfway leaves part of the entry in
the file, but the writer does not count it. An entry that was written but not made durable is counted. -/
def writeEntry (writer : Writer) (directory : Directory) (offset : Offset) (entry : Octets)
    (fault? : Option AppendFault) : Except LogError Unit × Writer × Directory :=
  match fault? with
  | some (.write stored) =>
    (.error ioFault, writer, writer.extendFile directory (entry.take stored))
  | _ =>
    let directory := writer.extendFile directory entry
    let segment := { writer.segment with size := writer.segment.size + entry.length }
    let result := if fault? = some .sync then .error ioFault else .ok ()
    (result, { writer with segment, last := offset }, directory)

/-- Appends an event, which must follow the last one written. -/
def append (writer : Writer) (directory : Directory) (event : Event)
    (fault? : Option AppendFault) : Except LogError Unit × Writer × Directory :=
  if event.offset ≤ writer.last then
    (.error (.offsetRegression event.offset writer.last), writer, directory)
  else
    match Entry.encode event with
    | .error error => (.error error, writer, directory)
    | .ok entry =>
      if writer.mustRotate entry.length then
        match writer.rotate directory event.offset fault? with
        | .error error => (.error error, writer, directory)
        | .ok (writer, directory) => writer.writeEntry directory event.offset entry fault?
      else
        writer.writeEntry directory event.offset entry fault?

end Writer

namespace FileLog

/-- Opens the writer of a partition. Its directory is created if it is missing and nothing is in the
way, even where opening fails after that. -/
def openWriter (log : FileLog) (partition : PartitionId) (maxSegmentSize : Nat) :
    Except LogError Writer × FileLog :=
  match log.obstacle? partition with
  | some error => (.error error, log)
  | none =>
    match Writer.openIn (log.directory? partition) log.now maxSegmentSize with
    | .ok (writer, directory) => (.ok writer, log.setDirectory partition directory)
    | .error error => (.error error, log.setDirectory partition ((log.directory? partition).getD ∅))

/-- Appends an event to the log of a partition. -/
def append (log : FileLog) (partition : PartitionId) (writer : Writer) (event : Event)
    (fault? : Option AppendFault) : Except LogError Unit × Writer × FileLog :=
  let (result, writer, directory) :=
    writer.append ((log.directory? partition).getD ∅) event fault?
  (result, writer, log.setDirectory partition directory)

end FileLog

end LogSequencing
