import Std.Data.ExtTreeMap
import LogSequencing.Text.Decimal

/-!
# Serial numbers

Partitions, workspaces, log positions and records are all named by 64-bit numbers. They are kept
apart by the space they count in, so that a workspace cannot be handed to a function that expects
a record. Zero is the null number of every space: nothing has been allocated yet. A space never
wraps around; its last number has no successor (`Serial.next?`).
-/

set_option autoImplicit false
set_option relaxedAutoImplicit false

namespace LogSequencing

/-- What the numbers of a space count. -/
inductive Space where
  | partition
  | workspace
  | offset
  | record
deriving DecidableEq, Repr

structure Serial (space : Space) where
  val : UInt64
deriving DecidableEq, Repr

/-- A partition owns one log and one sequencer. -/
abbrev PartitionId := Serial .partition

/-- A workspace inside a partition. The null workspace addresses what belongs to the partition
as a whole. -/
abbrev WorkspaceId := Serial .workspace

/-- A position in the log of a partition or of a workspace. -/
abbrev Offset := Serial .offset

abbrev RecordId := Serial .record

namespace Serial

variable {space : Space}

def null : Serial space := ⟨0⟩

/-- The first number ever handed out. -/
def first : Serial space := ⟨1⟩

def isNull (n : Serial space) : Bool := n == null

/-- The last number of a space. -/
def last : Serial space := ⟨0xffffffffffffffff⟩

/-- The number immediately after this one, unless the space is exhausted. -/
def next? (n : Serial space) : Option (Serial space) :=
  if n = last then none else some ⟨n.val + 1⟩

def text (n : Serial space) : String := Decimal.text n.val.toNat

instance : Inhabited (Serial space) := ⟨null⟩

instance : ToString (Serial space) := ⟨text⟩

instance : LE (Serial space) := ⟨fun a b ↦ a.val ≤ b.val⟩

instance : LT (Serial space) := ⟨fun a b ↦ a.val < b.val⟩

instance : DecidableLE (Serial space) := fun a b ↦ inferInstanceAs (Decidable (a.val ≤ b.val))

instance : DecidableLT (Serial space) := fun a b ↦ inferInstanceAs (Decidable (a.val < b.val))

instance : Max (Serial space) := ⟨fun a b ↦ if a ≤ b then b else a⟩

instance : Ord (Serial space) := ⟨compareOn val⟩

instance : Std.TransOrd (Serial space) where
  eq_swap := Std.OrientedOrd.eq_swap (α := UInt64)
  isLE_trans := Std.TransOrd.isLE_trans (α := UInt64)

instance : Std.LawfulEqOrd (Serial space) where
  compare_self := Std.ReflOrd.compare_self (α := UInt64)
  eq_of_compare h := congrArg mk (Std.LawfulEqOrd.eq_of_compare (α := UInt64) h)

end Serial

end LogSequencing
