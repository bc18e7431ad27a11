import LogSequencing.Text.Octets

/-!
# Backends

A backend holds rows, each a key and a value of octets, and keeps them in the order of their keys.
Every operation may fail; a batch is written whole or not at all.
-/

set_option autoImplicit false
set_option relaxedAutoImplicit false

namespace LogSequencing

/-- The operations of a backend. -/
inductive Operation where
  | get
  | put
  | scan
  | batch
deriving DecidableEq, Repr

def Operation.name : Operation → String
  | get => "get"
  | put => "put"
  | scan => "scan_prefix"
  | batch => "batch_put"

inductive StorageError where
  /-- The value under a key is no JSON text of the expected form. -/
  | malformedValue (key : String)
  /-- The backend returned data that it cannot vouch for. -/
  | corruptedData (reason : String)
  | unavailable (reason : String)
  /-- A failure that was asked for. -/
  | injected (operation : Operation)
deriving DecidableEq, Repr

def StorageError.message : StorageError → String
  | malformedValue key =>
    "serialization error: failed to deserialize value for key '" ++ key ++ "'"
  | corruptedData reason => "corrupted data: " ++ reason
  | unavailable reason => "backend unavailable: " ++ reason
  | injected operation => "injected failure: " ++ operation.name

/-- A key and a value. -/
abbrev Row := Octets × Octets

/-- A store of rows. -/
class Backend (β : Type) where
  name : β → String
  get : β → (key : Octets) → Except StorageError (Option Octets) × β
  put : β → (key value : Octets) → Except StorageError Unit × β
  /-- The rows whose keys begin with the given octets, in the order of their keys, up to a limit. -/
  scan : β → (start : Octets) → (limit? : Option Nat) → Except StorageError (List Row) × β
  /-- Writes all rows, a later one over an earlier one of the same key, or none. -/
  batch : β → (rows : List Row) → Except StorageError Unit × β

end LogSequencing
