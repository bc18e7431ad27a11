import LogSequencing.Serial
import LogSequencing.Text.Octets

/-!
# Segments

The log of a partition is a directory of its own and is cut into segments. A segment is one file,
named for the least offset it may hold; a name is read back also with other zeros in front of its
number, or a plus sign.
-/

set_option autoImplicit false
set_option relaxedAutoImplicit false

namespace LogSequencing

/-- The path of an entry of a directory. -/
def joinPath (directory name : String) : String :=
  match directory.toList.getLast? with
  | none | some '/' => directory ++ name
  | some _ => directory ++ "/" ++ name

/-- The directory of a partition's log under the root of all logs. -/
def partitionDirectory (root : String) (partition : PartitionId) : String :=
  joinPath root ("p-" ++ partition.text)

structure Segment where
  name : String
  /-- No event of the segment has a lesser offset. -/
  start : Offset
  /-- The octets of its file. -/
  size : Nat
deriving DecidableEq, Repr

namespace Segment

def nameStart : List Char := ['p', 'l', 'o', 'g', '-']

def nameEnd : List Char := ['.', 'l', 'o', 'g']

def fileName (start : Offset) : String :=
  String.ofList (nameStart ++ Decimal.padded 16 start.val.toNat ++ nameEnd)

/-- The least offset of a segment with this file name, if it names one. -/
def ofFileName? (name : String) : Option Offset := do
  guard (nameStart.isPrefixOf name.toList)
  let rest := name.toList.drop nameStart.length
  guard (nameEnd.isSuffixOf rest)
  let number ← (Decimal.read (rest.take (rest.length - nameEnd.length))).toOption
  return ⟨number⟩

end Segment

end LogSequencing
