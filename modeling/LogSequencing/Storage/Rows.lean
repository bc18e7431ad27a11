import LogSequencing.Storage.Backend
import Std.Data.ExtTreeMap

/-!
# Rows in memory

The rows of a store as a map ordered by key. As a backend it never fails.
-/

set_option autoImplicit false
set_option relaxedAutoImplicit false

namespace LogSequencing

abbrev Rows := Std.ExtTreeMap Octets Octets compare

namespace Rows

def empty : Rows := ∅

/-- Writes rows one after the other. -/
def insertAll (rows : Rows) (batch : List Row) : Rows :=
  batch.foldl (fun rows (key, value) ↦ rows.insert key value) rows

/-- The rows from a key on. -/
def startingAt (rows : Rows) (start : Octets) : List Row :=
  rows.toList.dropWhile fun (key, _) ↦ decide (key < start)

def atMost {α : Type} (limit? : Option Nat) (items : List α) : List α :=
  match limit? with
  | none => items
  | some limit => items.take limit

/-- Keys that begin alike stand together, so the rows wanted are the first ones from `start` on. -/
def scan (rows : Rows) (start : Octets) (limit? : Option Nat) : List Row :=
  atMost limit? ((rows.startingAt start).takeWhile fun (key, _) ↦ start.isPrefixOf key)

instance : Backend Rows where
  name _ := "in-memory"
  get rows key := (.ok rows[key]?, rows)
  put rows key value := (.ok (), rows.insert key value)
  scan rows start limit? := (.ok (rows.scan start limit?), rows)
  batch rows batch := (.ok (), rows.insertAll batch)

end Rows

end LogSequencing
