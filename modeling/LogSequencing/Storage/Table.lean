import LogSequencing.Storage.Rows

/-!
# Rows in a database file

A database that persists as an ordered table of rows. The table is missing until the first write,
which creates it even if it writes no row. Each write is one transaction, and what was written is
there when the file is opened again.
-/

set_option autoImplicit false
set_option relaxedAutoImplicit false

namespace LogSequencing

structure Database where
  table? : Option Rows

namespace Database

def empty : Database := ⟨none⟩

/-- The rows, as if a missing table were an empty one. -/
def rows (database : Database) : Rows := database.table?.getD ∅

/-- Inserts rows inside one transaction. -/
def write (database : Database) (batch : List Row) : Database :=
  ⟨some (database.rows.insertAll batch)⟩

/-- Takes rows until one begins otherwise or the limit has been reached. -/
def takeMatching (start : Octets) (limit? : Option Nat) (taken : Nat) : List Row → List Row
  | [] => []
  | (key, value) :: rest =>
    if ¬ start.isPrefixOf key ∨ limit?.any (· ≤ taken) then
      []
    else
      (key, value) :: takeMatching start limit? (taken + 1) rest

instance : Backend Database where
  name _ := "redb"
  get database key := (.ok (database.table?.bind (·[key]?)), database)
  put database key value := (.ok (), database.write [(key, value)])
  scan database start limit? :=
    match database.table? with
    | none => (.ok [], database)
    | some rows => (.ok (takeMatching start limit? 0 (rows.startingAt start)), database)
  batch database batch := (.ok (), database.write batch)

end Database

end LogSequencing
