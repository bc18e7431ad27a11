import LogSequencing.Proofs.Checkpoint.Batch
import LogSequencing.Proofs.Storage.Lawful

/-!
# Batches that land

What a store that never fails holds after a batch has landed on it (`Checkpoint.landOn`). The rows of
the batch's partition have the batch put in (`Stores.landOn`), and those of any other partition are
what they were (`Stores.landOn_elsewhere`).
-/

set_option autoImplicit false
set_option relaxedAutoImplicit false

namespace LogSequencing.Checkpoint

/-- The store after a batch has landed, if there is one. -/
def landOn {β : Type} [Backend β] (store : β) (partition : PartitionId) : Option Batch → β
  | none => store
  | some batch => (putBatch store partition batch.rows).2

variable {β : Type} [Backend β] [LawfulBackend β] {store : β} {rows : Rows}
  {partition other : PartitionId} {counters : Counters}

theorem putBatch_eq_landOn (store : β) (partition : PartitionId) (batch : Batch) :
    putBatch store partition batch.rows = (.ok (), landOn store partition (some batch)) ∧
      LawfulBackend.rows (landOn store partition (some batch)) =
        (LawfulBackend.rows store).insertAll (batch.rows.map (storedRow partition)) := by
  obtain ⟨after, hbatch, hrows⟩ := LawfulBackend.batch_eq store
    ((batch.rows.map (encodeRow partition)).map sequences.encodeRow)
  have hput : putBatch store partition batch.rows = (.ok (), after) := hbatch
  rw [landOn, hput]
  refine ⟨rfl, hrows.trans ?_⟩
  rw [map_encodeRow]

theorem Stores.insertAll_elsewhere (h : Stores rows other counters) (hne : other ≠ partition)
    (batch : List CheckpointRow) :
    Stores (rows.insertAll (batch.map (storedRow partition))) other counters := by
  have hkeeps : ∀ key, sequences.storedKey (Key.partitionStart other) <+: key →
      (rows.insertAll (batch.map (storedRow partition)))[key]? = rows[key]? := by
    intro key hstarts
    refine Rows.getElem?_insertAll_of_ne fun row hrow hkey ↦ hne ?_
    obtain ⟨row, -, rfl⟩ := List.mem_map.mp hrow
    rw [← hkey] at hstarts
    have hkeys := (List.prefix_append_right_inj sequences.start).mp hstarts
    rw [encodeRow, sequenceKey, List.append_assoc] at hkeys
    exact Key.eq_of_partitionStart_isPrefix hkeys
  have hlast : ∀ workspace kind,
      storedLast? (rows.insertAll (batch.map (storedRow partition))) other workspace kind =
        storedLast? rows other workspace kind := by
    intro workspace kind
    rw [storedLast?, hkeeps _ (partitionStart_isPrefix other workspace kind)]
    rfl
  refine ⟨fun key value hvalue hstarts ↦ ?_, ?_, fun workspace kind hkind ↦ ?_⟩
  · rw [hkeeps key hstarts] at hvalue
    exact h.isWritten key value hvalue hstarts
  · rw [hlast]
    exact h.offset
  · rw [hlast]
    exact h.kept workspace kind hkind

theorem Stores.landOn (h : Stores (LawfulBackend.rows store) partition counters) (batch : Batch) :
    Stores (LawfulBackend.rows (landOn store partition (some batch))) partition
      (batch.putRows counters) := by
  rw [(putBatch_eq_landOn store partition batch).2]
  exact h.insertAll fun row hrow ↦ Batch.isPlaced_of_mem_rows hrow

theorem Stores.landOn_elsewhere (h : Stores (LawfulBackend.rows store) other counters)
    (hne : other ≠ partition) (batch? : Option Batch) :
    Stores (LawfulBackend.rows (Checkpoint.landOn store partition batch?)) other counters := by
  cases batch? with
  | none => exact h
  | some batch =>
    rw [(putBatch_eq_landOn store partition batch).2]
    exact h.insertAll_elsewhere hne batch.rows

end LogSequencing.Checkpoint
