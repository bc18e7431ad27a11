import LogSequencing.Proofs.Checkpoint.Rows
import LogSequencing.Storage.Faulty
import LogSequencing.Storage.Metered
import LogSequencing.Storage.Table

/-!
# Stores that keep what is written

A lawful backend never fails and behaves like the rows that it holds. Around it, `Faulty` may refuse
any operation, but then nothing has changed: a checkpoint is read as it stands in the rows or not at
all (`Checkpoint.readPartition_cases`), and a batch lands whole or not at all
(`Checkpoint.putBatch_cases`).
-/

set_option autoImplicit false
set_option relaxedAutoImplicit false

namespace LogSequencing

/-- A backend that never fails and behaves like the rows that it holds. -/
class LawfulBackend (β : Type) [Backend β] where
  rows : β → Rows
  scan_eq (store : β) (start : Octets) :
    ∃ after, Backend.scan store start none = (.ok ((rows store).scan start none), after) ∧
      rows after = rows store
  batch_eq (store : β) (batch : List Row) :
    ∃ after, Backend.batch store batch = (.ok (), after) ∧
      rows after = (rows store).insertAll batch

instance : LawfulBackend Rows where
  rows := id
  scan_eq store _ := ⟨store, rfl, rfl⟩
  batch_eq store batch := ⟨store.insertAll batch, rfl, rfl⟩

namespace Database

/-- Taking rows until the limit has been reached takes the first of those that begin as asked. -/
theorem takeMatching_eq (start : Octets) (limit? : Option Nat) (taken : Nat) (items : List Row) :
    takeMatching start limit? taken items = Rows.atMost (limit?.map (· - taken))
      (items.takeWhile fun row ↦ start.isPrefixOf row.1) := by
  induction items generalizing taken with
  | nil => cases limit? <;> simp [takeMatching, Rows.atMost]
  | cons row items ih =>
    rw [takeMatching, List.takeWhile_cons, ih]
    by_cases hstarts : start.isPrefixOf row.1
    · rw [if_pos hstarts]
      cases limit? with
      | none => simp [hstarts, Rows.atMost]
      | some limit =>
        by_cases hfull : limit ≤ taken
        · simp [hfull, Rows.atMost]
        · have hleft : limit - taken = limit - (taken + 1) + 1 := by omega
          simp [hstarts, hfull, Rows.atMost, hleft]
    · rw [if_neg hstarts, if_pos (Or.inl hstarts)]
      cases limit? <;> simp [Rows.atMost]

theorem scan_missing (start : Octets) (limit? : Option Nat) : Rows.scan ∅ start limit? = [] := by
  have hnone : Rows.scan ∅ start none = [] := by
    refine List.eq_nil_iff_forall_not_mem.mpr fun row hrow ↦ Option.some_ne_none row.2 ?_
    exact (Rows.mem_scan_iff.mp hrow).1.symm.trans Std.ExtTreeMap.getElem?_empty
  cases limit? with
  | none => exact hnone
  | some limit => exact (congrArg (List.take limit) hnone).trans List.take_nil

/-- A database is scanned like its rows, also where the table is missing. -/
theorem scan_eq (database : Database) (start : Octets) (limit? : Option Nat) :
    Backend.scan database start limit? = (.ok (database.rows.scan start limit?), database) := by
  obtain ⟨table?⟩ := database
  cases table? with
  | none => exact congrArg (fun items ↦ (Except.ok items, _)) (scan_missing start limit?).symm
  | some table =>
    refine congrArg (fun items ↦ (Except.ok items, _)) ((takeMatching_eq start limit? 0 _).trans ?_)
    cases limit? <;> rfl

instance : LawfulBackend Database where
  rows := rows
  scan_eq store start := ⟨store, store.scan_eq start none, rfl⟩
  batch_eq store batch := ⟨store.write batch, rfl, rfl⟩

end Database

instance {β : Type} [Backend β] [LawfulBackend β] : LawfulBackend (Metered β) where
  rows store := LawfulBackend.rows store.inner
  scan_eq store start := by
    obtain ⟨after, hscan, hrows⟩ := LawfulBackend.scan_eq store.inner start
    refine ⟨⟨after, { store.statistics with scans := store.statistics.scans + 1 }⟩, ?_, hrows⟩
    simp only [Backend.scan, hscan]
  batch_eq store batch := by
    obtain ⟨after, hbatch, hrows⟩ := LawfulBackend.batch_eq store.inner batch
    refine ⟨⟨after, Statistics.countWrite
      { store.statistics with batches := store.statistics.batches + 1 } batch.length (.ok ())⟩,
      ?_, hrows⟩
    simp only [Backend.batch, hbatch]

variable {β : Type} [Backend β] [LawfulBackend β]

/-- A scan of a namespace finds what is in the rows and leaves them as they are. -/
theorem Namespace.scan_eq_rows {α : Type} [Json.Stored α] (ns : Namespace) (store : β)
    (start : Octets) :
    ∃ after, ns.scan (α := α) store start = ((ns.scan (LawfulBackend.rows store) start).1, after) ∧
      LawfulBackend.rows after = LawfulBackend.rows store := by
  obtain ⟨after, hscan, hrows⟩ := LawfulBackend.scan_eq store (ns.storedKey start)
  refine ⟨after, ?_, hrows⟩
  simp only [Namespace.scan, hscan]
  rfl

namespace Faulty

/-- The rows behind the failures. -/
def rows (store : Faulty β) : Rows := LawfulBackend.rows store.inner

@[simp]
theorem rows_heal (store : Faulty β) : store.heal.rows = store.rows := rfl

/-- A scan fails before it has begun, or finds what is in the rows. -/
theorem scan_cases (store : Faulty β) (start : Octets) :
    ∃ after : Faulty β, after.rows = store.rows ∧
      ((∃ error, store.reads.spend? ≠ none ∧
          Backend.scan store start none = (.error error, after)) ∨
        Backend.scan store start none = (.ok (store.rows.scan start none), after)) := by
  have hread : Backend.scan store start none = store.read .scan (Backend.scan · start none) := rfl
  rw [hread, read]
  cases hspend : store.reads.spend? with
  | some reads => exact ⟨{ store with reads }, rfl, Or.inl ⟨_, Option.some_ne_none _, rfl⟩⟩
  | none =>
    obtain ⟨after, hscan, hrows⟩ := LawfulBackend.scan_eq store.inner start
    refine ⟨{ store with inner := after }, hrows, Or.inr ?_⟩
    simp only [hscan, rows]

/-- A batch fails before it has begun, or lands whole. -/
theorem batch_cases (store : Faulty β) (batch : List Row) :
    (∃ error after, Backend.batch store batch = (.error error, after) ∧
        after.rows = store.rows) ∨
      ∃ after : Faulty β, Backend.batch store batch = (.ok (), after) ∧
        after.rows = store.rows.insertAll batch := by
  have hwrite : Backend.batch store batch = store.write .batch (Backend.batch · batch) := rfl
  rw [hwrite, write]
  cases hspend : store.writes.spend? with
  | some writes => exact Or.inl ⟨_, { store with writes }, rfl, rfl⟩
  | none =>
    obtain ⟨after, hbatch, hrows⟩ := LawfulBackend.batch_eq store.inner batch
    refine Or.inr ⟨{ store with inner := after }, ?_, hrows⟩
    simp only [hbatch]

end Faulty

namespace Checkpoint

variable {partition : PartitionId}

theorem readPartition_eq_rows (store : β) (partition : PartitionId) :
    ∃ after, readPartition store partition =
        ((readPartition (LawfulBackend.rows store) partition).1, after) ∧
      LawfulBackend.rows after = LawfulBackend.rows store := by
  obtain ⟨after, hscan, hrows⟩ :=
    sequences.scan_eq_rows (α := StoredLast) store (Key.partitionStart partition)
  refine ⟨after, ?_, hrows⟩
  simp only [readPartition, hscan]

/-- A checkpoint is read as it stands in the rows, unless the read fails. -/
theorem readPartition_cases (store : Faulty β) (partition : PartitionId) :
    ∃ after : Faulty β, after.rows = store.rows ∧
      ((∃ error, store.reads.spend? ≠ none ∧
          readPartition store partition = (.error error, after)) ∨
        readPartition store partition = ((readPartition store.rows partition).1, after)) := by
  obtain ⟨after, hrows, ⟨error, hspend, hscan⟩ | hscan⟩ := store.scan_cases
    (sequences.storedKey (Key.partitionStart partition))
  · refine ⟨after, hrows, Or.inl ⟨.storage error, hspend, ?_⟩⟩
    simp only [readPartition, Namespace.scan, hscan]
    rfl
  · refine ⟨after, hrows, Or.inr ?_⟩
    simp only [readPartition, Namespace.scan, hscan]
    rfl

theorem map_encodeRow (partition : PartitionId) (batch : List CheckpointRow) :
    (batch.map (encodeRow partition)).map sequences.encodeRow = batch.map (storedRow partition) :=
  List.map_map

/-- A checkpoint batch is not written at all, or lands whole. -/
theorem putBatch_cases (store : Faulty β) (partition : PartitionId) (batch : List CheckpointRow) :
    (∃ error after, putBatch store partition batch = (.error error, after) ∧
        after.rows = store.rows) ∨
      ∃ after : Faulty β, putBatch store partition batch = (.ok (), after) ∧
        after.rows = store.rows.insertAll (batch.map (storedRow partition)) := by
  rw [putBatch, Namespace.putBatch, map_encodeRow]
  exact store.batch_cases _

theorem rows_of_putBatch_ok {store after : Faulty β} {batch : List CheckpointRow}
    (h : putBatch store partition batch = (.ok (), after)) :
    after.rows = store.rows.insertAll (batch.map (storedRow partition)) := by
  rcases putBatch_cases store partition batch with ⟨error, other, herror, -⟩ | ⟨other, hok, hrows⟩
  · exact absurd (h.symm.trans herror) (by simp)
  · obtain rfl : after = other := congrArg Prod.snd (h.symm.trans hok)
    exact hrows

theorem rows_of_putBatch_error {store after : Faulty β} {batch : List CheckpointRow}
    {error : StorageError} (h : putBatch store partition batch = (.error error, after)) :
    after.rows = store.rows := by
  rcases putBatch_cases store partition batch with ⟨other, _, herror, hrows⟩ | ⟨other, hok, -⟩
  · obtain rfl : after = _ := congrArg Prod.snd (h.symm.trans herror)
    exact hrows
  · exact absurd (h.symm.trans hok) (by simp)

end Checkpoint

end LogSequencing
