import LogSequencing.Storage.Table

/-!
# Database files

The file of a database begins with a mark of its own and an octet that tells whether the table exists.
The rows follow, each key and each value with its length in front. An empty file is a database without
a table, so that a file may be created before anything is written to it.
-/

set_option autoImplicit false
set_option relaxedAutoImplicit false

namespace LogSequencing

namespace Database

/-- The octets that every database file begins with. -/
def mark : Octets := [0x89, 0x76, 0x69, 0x65, 0x77, 0x73, 0x0d, 0x0a]

/-- Octets with their length in front. -/
def framed (octets : Octets) : Octets := Octets.ofNatLE 8 octets.length ++ octets

/-- The octets that a length in front tells of, and what follows them. -/
def unframe? (octets : Octets) : Option (Octets × Octets) :=
  let length := Octets.toNatLE (octets.take 8)
  let rest := octets.drop 8
  if octets.length < 8 ∨ rest.length < length then
    none
  else
    some (rest.take length, rest.drop length)

/-- Reads rows, of which there are at most `fuel`. -/
def readRowsWithin : (fuel : Nat) → Octets → Option (List Row)
  | _, [] => some []
  | 0, _ => none
  | fuel + 1, octets => do
    let (key, rest) ← unframe? octets
    let (value, rest) ← unframe? rest
    return (key, value) :: (← readRowsWithin fuel rest)

def tableOfOctets? : Octets → Option Database
  | [0] => some empty
  | 1 :: rows =>
    (readRowsWithin rows.length rows).map fun rows ↦ ⟨some (Rows.empty.insertAll rows)⟩
  | _ => none

/-- The database in a file, if it is one. -/
def ofOctets? (octets : Octets) : Option Database :=
  if octets.isEmpty then some empty
  else if mark.isPrefixOf octets then tableOfOctets? (octets.drop mark.length)
  else none

def tableOctets (database : Database) : Octets :=
  match database.table? with
  | none => [0]
  | some rows => 1 :: rows.toList.flatMap fun (key, value) ↦ framed key ++ framed value

def toOctets (database : Database) : Octets := mark ++ database.tableOctets

end Database

end LogSequencing
