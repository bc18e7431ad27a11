import LogSequencing.PathFault
import LogSequencing.Serial

/-!
# Errors of a log

What can go wrong when an entry is read or written, or when a log is visited.
-/

set_option autoImplicit false
set_option relaxedAutoImplicit false

namespace LogSequencing

inductive LogError where
  /-- A file could not be read or written. -/
  | io (reason : String)
  /-- The checksum stored with an entry is not that of its payload. The offset is the one that the
  damaged payload holds, or null. -/
  | checksumMismatch (offset : Offset) (stored actual : UInt32)
  | entryTooLarge (length limit : Nat)
  /-- An entry ends inside the field that begins at `position`. -/
  | unexpectedEnd (position : Nat)
  /-- The body of an entry is no JSON text of the expected form. -/
  | malformedBody
  /-- An event does not follow the last one written. -/
  | offsetRegression (offset last : Offset)
  | directoryNotFound (path : String)
  | unavailable (partition : PartitionId) (reason : String)
  /-- The visitor of a read asked to stop at an event. -/
  | visitorAborted (offset : Offset) (reason : String)
deriving DecidableEq, Repr

namespace LogError

def ofPathFault (fault : PathFault) : LogError := .io fault.reason

/-- A 32-bit number as `0x` and eight digits. -/
def hexText (n : UInt32) : String :=
  let digits := Nat.toDigits 16 n.toNat
  "0x" ++ String.ofList (List.replicate (8 - digits.length) '0' ++ digits)

def message : LogError → String
  | io reason => "PLog I/O error: " ++ reason
  | checksumMismatch offset stored actual =>
    "CRC mismatch at offset " ++ offset.text ++ ": expected " ++ hexText stored ++ ", got " ++
      hexText actual
  | entryTooLarge length limit =>
    "Entry declares length " ++ Decimal.text length ++ " bytes, exceeding maximum " ++
      Decimal.text limit
  | unexpectedEnd position => "Unexpected end of entry at byte " ++ Decimal.text position
  | malformedBody => "JSON error in PLog entry body"
  | offsetRegression offset last =>
    "Offset " ++ offset.text ++ " does not follow last written offset " ++ last.text
  | directoryNotFound path => "PLog directory not found or inaccessible: " ++ path
  | unavailable partition reason =>
    "PLog of partition " ++ partition.text ++ " unavailable: " ++ reason
  | visitorAborted offset reason =>
    "PLog visitor aborted at offset " ++ offset.text ++ ": " ++ reason

end LogError

end LogSequencing
