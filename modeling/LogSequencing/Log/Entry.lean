import LogSequencing.Checksum
import LogSequencing.Event.Json
import LogSequencing.Log.Error

/-!
# Entries of a log

How one event is stored. An entry is its length, the checksum of its payload and the payload; the
length counts what follows it. The payload has fields of fixed width, least significant octet
first, and a JSON body with the event's mutations and arguments:

    length 4 | checksum 4 | offset 8 | time 8 | workspace 8 | workspace offset 8 | length 4 | body

The time is a signed count of milliseconds. `Entry.encode` writes an entry and `Entry.decode` reads
what follows the length.
-/

set_option autoImplicit false
set_option relaxedAutoImplicit false

namespace LogSequencing

open Json

/-- What an entry keeps as JSON. -/
structure EntryBody where
  mutations : List Mutation
  arguments : List Argument
deriving DecidableEq, Repr

namespace EntryBody

def fieldNames : List String := ["cuds", "arg_objects"]

def toJson (body : EntryBody) : Value :=
  .ofMembers [
    ("cuds", Stored.listToJson body.mutations),
    ("arg_objects", Stored.listToJson body.arguments)]

def ofJson? (value : Value) : Option EntryBody := do
  let [mutations, arguments] ← value.toFields? fieldNames | none
  return {
    mutations := ← withDefault? [] Stored.listOfJson? mutations
    arguments := ← withDefault? [] Stored.listOfJson? arguments }

instance : Stored EntryBody := ⟨toJson, ofJson?⟩

end EntryBody

namespace Entry

/-- No entry has a greater length. -/
def maxLength : Nat := 64 * 1024 * 1024

/-! ### Writing -/

/-- A signed number as 64 bits. -/
def ofSigned (n : Int) : Octets := Octets.ofNatLE 8 (n % UInt64.size).toNat

def toSigned (octets : Octets) : Int := Int.bmod octets.toNatLE UInt64.size

def body (event : Event) : Octets :=
  Stored.encode (⟨event.mutations, event.arguments⟩ : EntryBody)

/-- All of an entry that its checksum covers. -/
def payload (event : Event) : Octets :=
  Octets.ofNatLE 8 event.offset.val.toNat ++
  ofSigned event.time.milliseconds ++
  Octets.ofNatLE 8 event.workspace.val.toNat ++
  Octets.ofNatLE 8 event.workspaceOffset.val.toNat ++
  Octets.ofNatLE 4 (body event).length ++
  body event

/-- What follows the length of an entry. -/
def content (event : Event) : Octets :=
  Octets.ofNatLE 4 (checksum (payload event)).toNat ++ payload event

/-- The length of an entry's content is counted in 32 bits. -/
def length (event : Event) : Nat := (content event).length % UInt32.size

def encode (event : Event) : Except LogError Octets :=
  if maxLength < length event then
    .error (.entryTooLarge (length event) maxLength)
  else
    .ok (Octets.ofNatLE 4 (length event) ++ content event)

/-! ### Reading -/

/-- The field of a payload at a position, if the payload reaches that far. -/
def field (payload : Octets) (position width : Nat) : Except LogError Octets :=
  if position + width ≤ payload.length then
    .ok ((payload.drop position).take width)
  else
    .error (.unexpectedEnd position)

def serialField {space : Space} (payload : Octets) (position : Nat) :
    Except LogError (Serial space) :=
  (field payload position 8).map fun octets ↦ ⟨UInt64.ofNat octets.toNatLE⟩

/-- The event that a payload holds. A time that is not representable reads as `now`. -/
def decodePayload (now : Instant) (payload : Octets) : Except LogError Event := do
  let offset ← serialField payload 0
  let milliseconds ← (field payload 8 8).map toSigned
  let workspace ← serialField payload 16
  let workspaceOffset ← serialField payload 24
  let bodyLength ← (field payload 32 4).map Octets.toNatLE
  let some (body : EntryBody) := Stored.decode? (← field payload 36 bodyLength)
    | .error .malformedBody
  return {
    offset, workspace, workspaceOffset
    time := (Instant.ofMilliseconds? milliseconds).getD now
    mutations := body.mutations
    arguments := body.arguments }

/-- The offset in a payload, even a damaged one. -/
def claimedOffset (payload : Octets) : Offset := (serialField payload 0).toOption.getD .null

/-- The event of an entry, from the octets after its length and that length. -/
def decode (now : Instant) (octets : Octets) (length : Nat) : Except LogError Event :=
  if octets.length < length ∨ length < 4 then
    .error (.unexpectedEnd octets.length)
  else
    let content := octets.take length
    let stored := UInt32.ofNat (Octets.toNatLE (content.take 4))
    let payload := content.drop 4
    let actual := checksum payload
    if stored = actual then
      decodePayload now payload
    else
      .error (.checksumMismatch (claimedOffset payload) stored actual)

end Entry

end LogSequencing
