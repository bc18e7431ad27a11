import LogSequencing.Storage.Backend

/-!
# Backends that count

A wrapper that counts calls, whether they succeed or not, the rows that were written and the writes
that failed.
-/

set_option autoImplicit false
set_option relaxedAutoImplicit false

namespace LogSequencing

structure Statistics where
  gets : Nat
  puts : Nat
  scans : Nat
  batches : Nat
  /-- Rows of the writes that succeeded. -/
  rowsWritten : Nat
  failedWrites : Nat
deriving DecidableEq, Repr

namespace Statistics

def zero : Statistics := ⟨0, 0, 0, 0, 0, 0⟩

/-- Counts how a write of so many rows ended. -/
def countWrite (statistics : Statistics) (rows : Nat) (result : Except StorageError Unit) :
    Statistics :=
  match result with
  | .ok _ => { statistics with rowsWritten := statistics.rowsWritten + rows }
  | .error _ => { statistics with failedWrites := statistics.failedWrites + 1 }

end Statistics

structure Metered (β : Type) where
  inner : β
  statistics : Statistics

namespace Metered

variable {β : Type}

def ofBackend (inner : β) : Metered β := ⟨inner, .zero⟩

def reset (store : Metered β) : Metered β := { store with statistics := .zero }

instance [Backend β] : Backend (Metered β) where
  name store := Backend.name store.inner
  get store key :=
    let (result, inner) := Backend.get store.inner key
    (result, ⟨inner, { store.statistics with gets := store.statistics.gets + 1 }⟩)
  put store key value :=
    let (result, inner) := Backend.put store.inner key value
    let statistics := { store.statistics with puts := store.statistics.puts + 1 }
    (result, ⟨inner, statistics.countWrite 1 result⟩)
  scan store start limit? :=
    let (result, inner) := Backend.scan store.inner start limit?
    (result, ⟨inner, { store.statistics with scans := store.statistics.scans + 1 }⟩)
  batch store rows :=
    let (result, inner) := Backend.batch store.inner rows
    let statistics := { store.statistics with batches := store.statistics.batches + 1 }
    (result, ⟨inner, statistics.countWrite rows.length result⟩)

end Metered

end LogSequencing
