import LogSequencing.Engine

/-!
# Building events

What a client does with a sequencer: it starts an event and takes as many record numbers as the event
creates records.
-/

set_option autoImplicit false
set_option relaxedAutoImplicit false

namespace LogSequencing

/-- What was handed out for an event. -/
structure Allocation where
  offset : Offset
  workspaceOffset : Offset
  ordinaryIds : List RecordId
  compactingIds : List RecordId
deriving DecidableEq, Repr

/-- An event that creates a document for each record number handed out for it. -/
def Allocation.toEvent (allocation : Allocation) (workspace : WorkspaceId) (time : Instant) :
    Event where
  offset := allocation.offset
  time
  workspace
  workspaceOffset := allocation.workspaceOffset
  mutations :=
    allocation.ordinaryIds.map (⟨·, .wDoc, true⟩) ++ allocation.compactingIds.map (⟨·, .cDoc, true⟩)
  arguments := []

namespace Engine

variable {β σ : Type} [Backend β] [LogSource σ]

/-- Takes so many record numbers of a sequence. -/
def takeIds (number : Nat) (sequence : IdSequence) :
    (count : Nat) → Engine β σ → Except Violation (List RecordId) × Engine β σ
  | 0, engine => (.ok [], engine)
  | count + 1, engine =>
    match engine.request number (·.nextId sequence) with
    | (none, engine) => (.ok [], engine)
    | (some (.error violation), engine) => (.error violation, engine)
    | (some (.ok id), engine) =>
      let (ids, engine) := takeIds number sequence count engine
      (ids.map (id :: ·), engine)

/-- Starts an event and takes its record numbers; nothing is handed out if no event could be
started. -/
def allocate (engine : Engine β σ) (number : Nat) (workspace : WorkspaceId)
    (patience ordinary compacting : Nat) : Except Violation (Option Allocation) × Engine β σ :=
  match engine.perform number (.start workspace patience) with
  | (some (.started (some (offset, workspaceOffset))), engine) =>
    match engine.takeIds number .ordinary ordinary with
    | (.error violation, engine) => (.error violation, engine)
    | (.ok ordinaryIds, engine) =>
      let (compactingIds, engine) := engine.takeIds number .compacting compacting
      (compactingIds.map fun compactingIds ↦
        some ⟨offset, workspaceOffset, ordinaryIds, compactingIds⟩, engine)
  | (some (.violated violation), engine) => (.error violation, engine)
  | (_, engine) => (.ok none, engine)

end Engine

end LogSequencing
