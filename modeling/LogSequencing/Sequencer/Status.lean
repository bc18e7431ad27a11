import LogSequencing.Serial

/-!
# The status of a sequencer

    created → recovering → ready ⇄ eventing
    eventing → recovering      when an event is cancelled
    ready, recovering → finished

A client that calls a sequencer in the wrong status, or that exhausts a number space, violates its
contract.
-/

set_option autoImplicit false
set_option relaxedAutoImplicit false

namespace LogSequencing

inductive Status where
  /-- The counters have not been loaded. -/
  | created
  /-- The counters are being rebuilt, and allocation has to wait. -/
  | recovering
  /-- An event may start. -/
  | ready
  /-- Offsets are reserved for an event that is neither finished nor cancelled. -/
  | eventing
  /-- Shut down for good. -/
  | finished
deriving DecidableEq, Repr

def Status.name : Status → String
  | created => "None"
  | recovering => "Recover"
  | ready => "Ready"
  | eventing => "Eventing"
  | finished => "Finished"

/-- What a client calls in one status only. -/
inductive Request where
  | recovery
  | nextOrdinaryId
  | nextCompactingId
  | finishEvent
  | cancelEvent
deriving DecidableEq, Repr

namespace Request

def name : Request → String
  | recovery => "recovery"
  | nextOrdinaryId => "next_rec_id"
  | nextCompactingId => "next_crec_id"
  | finishEvent => "finish_event"
  | cancelEvent => "cancel_event"

/-- The status in which a request is allowed. -/
def status : Request → Status
  | recovery => .created
  | _ => .eventing

end Request

inductive Violation where
  | wrongStatus (partition : PartitionId) (request : Request) (actual : Status)
  | startInStatus (partition : PartitionId) (actual : Status)
  | shutdownDuringEvent (partition : PartitionId)
  | offsetsExhausted
  | recordIdsExhausted
deriving DecidableEq, Repr

namespace Violation

def ofSequencer (partition : PartitionId) (complaint : String) : String :=
  "sequencer of partition " ++ partition.text ++ ": " ++ complaint

def exhausted (what : String) : String :=
  what ++ " space exhausted at " ++ (Serial.last : Offset).text

def message : Violation → String
  | wrongStatus partition request actual =>
    ofSequencer partition (request.name ++ " called in status " ++ actual.name ++ ", expected " ++
      request.status.name)
  | startInStatus partition actual =>
    ofSequencer partition ("start_event called in status " ++ actual.name)
  | shutdownDuringEvent partition =>
    ofSequencer partition ("shutdown called in status " ++ Status.eventing.name)
  | offsetsExhausted => exhausted "offset"
  | recordIdsExhausted => exhausted "record id"

end Violation

end LogSequencing
