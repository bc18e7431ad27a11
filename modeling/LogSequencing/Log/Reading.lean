import LogSequencing.Event
import LogSequencing.Log.Error

/-!
# Reading a log

A read visits the events from a given offset on, in order, up to a limit. It ends early when the
visitor objects to an event, which then was still visited.
-/

set_option autoImplicit false
set_option relaxedAutoImplicit false

namespace LogSequencing

/-- How many events a read may visit. -/
inductive ReadLimit where
  | toTheEnd
  | count (n : Nat)
deriving DecidableEq, Repr

namespace ReadLimit

/-- Whether so many events exhaust the limit. -/
def isReached : ReadLimit → (visited : Nat) → Bool
  | toTheEnd, _ => false
  | count n, visited => n ≤ visited

/-- The items at the beginning of a list that the limit admits. -/
def take {α : Type} : ReadLimit → List α → List α
  | toTheEnd, items => items
  | count n, items => items.take n

end ReadLimit

/-- The events that a read visited, in order, and the error it ended with. -/
structure Reading where
  visited : List Event
  failure? : Option LogError
deriving Repr

namespace Reading

/-- Visits events until the visitor objects to one. -/
def visit (objection? : Event → Option LogError) : List Event → Reading
  | [] => ⟨[], none⟩
  | event :: rest =>
    match objection? event with
    | some error => ⟨[event], some error⟩
    | none =>
      let reading := visit objection? rest
      ⟨event :: reading.visited, reading.failure?⟩

/-- A read that failed before it visited anything. -/
def failed (error : LogError) : Reading := ⟨[], some error⟩

def ofExcept (objection? : Event → Option LogError) :
    Except LogError (List Event) → Reading
  | .ok events => visit objection? events
  | .error error => failed error

end Reading

/-- A visitor that takes every event. -/
def noObjection (_ : Event) : Option LogError := none

/-- Logs that can be read from an offset to the end. -/
class LogSource (σ : Type) where
  readFrom : σ → PartitionId → (start : Offset) → Reading × σ

end LogSequencing
