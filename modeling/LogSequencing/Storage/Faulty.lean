import LogSequencing.Storage.Backend

/-!
# Backends that fail on demand

A wrapper with one budget of failures for reads and one for writes. An operation that fails never
reaches the backend inside.
-/

set_option autoImplicit false
set_option relaxedAutoImplicit false

namespace LogSequencing

/-- How many operations are to fail. -/
inductive FailureBudget where
  | times (n : Nat)
  | forever
deriving DecidableEq, Repr

namespace FailureBudget

/-- The greatest 64-bit count stands for all operations to come. -/
def ofCount (n : UInt64) : FailureBudget :=
  if n = 0xffffffffffffffff then forever else times n.toNat

def none : FailureBudget := times 0

/-- The budget after one more failure, if there is one left. -/
def spend? : FailureBudget → Option FailureBudget
  | times 0 => .none
  | times (n + 1) => some (times n)
  | forever => some forever

end FailureBudget

structure Faulty (β : Type) where
  inner : β
  reads : FailureBudget
  writes : FailureBudget

namespace Faulty

variable {β : Type}

def ofBackend (inner : β) : Faulty β := ⟨inner, .none, .none⟩

def failReads (n : UInt64) (store : Faulty β) : Faulty β := { store with reads := .ofCount n }

def failWrites (n : UInt64) (store : Faulty β) : Faulty β := { store with writes := .ofCount n }

def failForever (store : Faulty β) : Faulty β := { store with reads := .forever, writes := .forever }

/-- Cancels all failures to come. -/
def heal (store : Faulty β) : Faulty β := { store with reads := .none, writes := .none }

/-- A read, or its failure if the budget holds one. -/
def read {α : Type} (store : Faulty β) (operation : Operation)
    (action : β → Except StorageError α × β) : Except StorageError α × Faulty β :=
  match store.reads.spend? with
  | some reads => (.error (.injected operation), { store with reads })
  | none =>
    let (result, inner) := action store.inner
    (result, { store with inner })

/-- A write, or its failure if the budget holds one. -/
def write {α : Type} (store : Faulty β) (operation : Operation)
    (action : β → Except StorageError α × β) : Except StorageError α × Faulty β :=
  match store.writes.spend? with
  | some writes => (.error (.injected operation), { store with writes })
  | none =>
    let (result, inner) := action store.inner
    (result, { store with inner })

instance [Backend β] : Backend (Faulty β) where
  name store := Backend.name store.inner
  get store key := store.read .get (Backend.get · key)
  put store key value := store.write .put (Backend.put · key value)
  scan store start limit? := store.read .scan (Backend.scan · start limit?)
  batch store rows := store.write .batch (Backend.batch · rows)

end Faulty

end LogSequencing
