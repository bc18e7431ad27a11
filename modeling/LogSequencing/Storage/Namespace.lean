import LogSequencing.Json.Record
import LogSequencing.Storage.Backend

/-!
# Namespaces

Values of one kind are kept as JSON text in a namespace of a backend. The keys of a namespace begin
with its name and a colon, so several of them share one backend.
-/

set_option autoImplicit false
set_option relaxedAutoImplicit false

namespace LogSequencing

open Json

structure Namespace where
  name : String
deriving DecidableEq, Repr

namespace Namespace

variable {α β : Type} [Stored α] [Backend β]

/-- The octets that begin the keys of a namespace. -/
def start (ns : Namespace) : Octets := Octets.ofText ns.name ++ [0x3a]

def storedKey (ns : Namespace) (key : Octets) : Octets := ns.start ++ key

/-- The value of a row, whose key is told if it cannot be read. -/
def decode (key value : Octets) : Except StorageError α :=
  match Stored.decode? value with
  | some value => .ok value
  | none => .error (.malformedValue (Octets.toTextLossy key))

/-- A row as it is stored. -/
def encodeRow (ns : Namespace) (row : Octets × α) : Row :=
  (ns.storedKey row.1, Stored.encode row.2)

/-- A stored row with the part of its key that follows the namespace. -/
def decodeRow (ns : Namespace) (row : Row) : Except StorageError (Octets × α) :=
  let key := row.1.drop ns.start.length
  (decode key row.2).map (key, ·)

def get (ns : Namespace) (store : β) (key : Octets) : Except StorageError (Option α) × β :=
  let (result, store) := Backend.get store (ns.storedKey key)
  (result.bind fun
    | none => .ok none
    | some value => (decode key value).map some,
   store)

def put (ns : Namespace) (store : β) (key : Octets) (value : α) :
    Except StorageError Unit × β :=
  Backend.put store (ns.storedKey key) (Stored.encode value)

def putBatch (ns : Namespace) (store : β) (rows : List (Octets × α)) :
    Except StorageError Unit × β :=
  Backend.batch store (rows.map ns.encodeRow)

/-- The values whose keys begin with the given octets, in the order of their keys. The first value
that cannot be read is an error. -/
def scan (ns : Namespace) (store : β) (start : Octets) :
    Except StorageError (List (Octets × α)) × β :=
  let (result, store) := Backend.scan store (ns.storedKey start) none
  (result.bind (·.mapM ns.decodeRow), store)

end Namespace

end LogSequencing
