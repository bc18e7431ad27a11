import LogSequencing.Proofs.Checkpoint.Key
import LogSequencing.Proofs.Counters
import LogSequencing.Proofs.Storage.Scan

/-!
# Counters in rows

`Stores rows partition counters` says that the rows of a partition are what its counters come to when
they are checkpointed, whatever other rows there are. Writing rows keeps this (`Stores.insertAll`),
and reading the partition finds those counters and no others (`Stores.readPartition_eq`).
-/

set_option autoImplicit false
set_option relaxedAutoImplicit false

namespace LogSequencing

/-- The offset in the partition's log is kept under the null workspace. -/
def CheckpointRow.IsPlaced (row : CheckpointRow) : Prop :=
  row.kind = .offset → row.workspace = .null

namespace Checkpoint

/-- A row as it stands in the store. -/
def storedRow (partition : PartitionId) (row : CheckpointRow) : Row :=
  sequences.encodeRow (encodeRow partition row)

/-- Counters with a row put in. -/
def putRow (counters : Counters) (row : CheckpointRow) : Counters :=
  setLast counters row.workspace row.kind row.last

/-- The number stored for a sequence. -/
def storedLast? (rows : Rows) (partition : PartitionId) (workspace : WorkspaceId)
    (kind : SequenceKind) : Option UInt64 :=
  (rows[sequences.storedKey (sequenceKey partition workspace kind)]?.bind Json.Stored.decode?).map
    StoredLast.last

/-- All rows of a partition are checkpoint rows. -/
def IsWritten (rows : Rows) (partition : PartitionId) : Prop :=
  ∀ key value, rows[key]? = some value →
    sequences.storedKey (Key.partitionStart partition) <+: key →
      ∃ row, CheckpointRow.IsPlaced row ∧ (key, value) = storedRow partition row

structure Stores (rows : Rows) (partition : PartitionId) (counters : Counters) : Prop where
  isWritten : IsWritten rows partition
  offset : counters.offset.val = (storedLast? rows partition .null .offset).getD 0
  kept : ∀ workspace kind, kind ≠ .offset →
    counters.kept? workspace kind = storedLast? rows partition workspace kind

variable {partition : PartitionId} {rows : Rows} {counters : Counters}

theorem stores_empty (partition : PartitionId) : Stores ∅ partition .empty where
  isWritten key value hvalue := by simp at hvalue
  offset := by simp [storedLast?, Counters.empty, Serial.null]
  kept workspace kind hkind := by
    rcases kind with _ | _ | sequence
    · exact absurd rfl hkind
    · simp [storedLast?, Counters.kept?, Counters.empty]
    · cases sequence <;> simp [storedLast?, Counters.kept?, Counters.ids, Counters.empty]

/-- The rows determine the counters. -/
theorem Stores.unique {other : Counters} (h : Stores rows partition counters)
    (hother : Stores rows partition other) : counters = other := by
  refine Counters.ext_kept? fun workspace kind ↦ ?_
  by_cases hkind : kind = .offset
  · rw [hkind]
    exact congrArg some (h.offset.trans hother.offset.symm)
  · rw [h.kept workspace kind hkind, hother.kept workspace kind hkind]

/-! ### Writing -/

theorem compare_storedRow_eq_iff (row : CheckpointRow) (workspace : WorkspaceId)
    (kind : SequenceKind) :
    compare (storedRow partition row).1
        (sequences.storedKey (sequenceKey partition workspace kind)) = .eq ↔
      row.kind = kind ∧ row.workspace = workspace := by
  refine Std.LawfulEqCmp.compare_eq_iff_eq.trans ⟨fun hkey ↦ (storedKey_inj hkey).symm, ?_⟩
  rintro ⟨rfl, rfl⟩
  rfl

theorem storedLast?_insert (rows : Rows) (partition : PartitionId) (row : CheckpointRow)
    (workspace : WorkspaceId) (kind : SequenceKind) :
    storedLast? (rows.insert (storedRow partition row).1 (storedRow partition row).2) partition
        workspace kind =
      if row.kind = kind ∧ row.workspace = workspace then some row.last
      else storedLast? rows partition workspace kind := by
  rw [storedLast?, Std.ExtTreeMap.getElem?_insert]
  by_cases hsame : row.kind = kind ∧ row.workspace = workspace
  · rw [if_pos ((compare_storedRow_eq_iff row workspace kind).mpr hsame), if_pos hsame]
    exact congrArg (Option.map _) (Json.Stored.decode?_encode (⟨row.last⟩ : StoredLast))
  · rw [if_neg fun hkey ↦ hsame ((compare_storedRow_eq_iff row workspace kind).mp hkey),
      if_neg hsame]
    rfl

theorem Stores.insert (h : Stores rows partition counters) {row : CheckpointRow}
    (hplaced : row.IsPlaced) :
    Stores (rows.insert (storedRow partition row).1 (storedRow partition row).2) partition
      (putRow counters row) := by
  refine ⟨fun key value hvalue hstarts ↦ ?_, ?_, fun workspace kind hkind ↦ ?_⟩
  · rw [getElem?_insert_eq_ite] at hvalue
    by_cases hkey : key = (storedRow partition row).1
    · rw [if_pos hkey] at hvalue
      exact ⟨row, hplaced, Prod.ext hkey (Option.some.inj hvalue).symm⟩
    · rw [if_neg hkey] at hvalue
      exact h.isWritten key value hvalue hstarts
  · have hoffset := Counters.kept?_setLast counters row.workspace row.kind row.last .null .offset
    rw [storedLast?_insert, ← Option.some_inj]
    refine hoffset.trans ?_
    by_cases hkind : row.kind = .offset
    · rw [if_pos ⟨hkind, Or.inl hkind⟩, if_pos ⟨hkind, hplaced hkind⟩]
      rfl
    · rw [if_neg fun hsame ↦ hkind hsame.1, if_neg fun hsame ↦ hkind hsame.1, ← h.offset]
      rfl
  · rw [storedLast?_insert, putRow, Counters.kept?_setLast, h.kept workspace kind hkind]
    refine if_congr (and_congr_right fun hsame ↦ ?_) rfl rfl
    rw [hsame]
    exact or_iff_right hkind

theorem Stores.insertAll (h : Stores rows partition counters) {batch : List CheckpointRow}
    (hplaced : ∀ row ∈ batch, row.IsPlaced) :
    Stores (rows.insertAll (batch.map (storedRow partition))) partition
      (batch.foldl putRow counters) := by
  induction batch generalizing rows counters with
  | nil => exact h
  | cons row batch ih =>
    exact ih (h.insert (hplaced row List.mem_cons_self))
      fun other hother ↦ hplaced other (List.mem_cons_of_mem row hother)

/-! ### Reading -/

/-- A row whose key can be read changes the counters if its sequence is known. -/
theorem readRow_of_readKey {row : Octets × StoredLast} {workspace : WorkspaceId} {name : Octets}
    (hkey : readKey row.1 = .ok (workspace, name)) (counters : Counters) :
    readRow counters row = .ok ((SequenceKind.ofName? name).elim counters
      (setLast counters workspace · row.2.last)) := by
  simp only [readRow, hkey, bind, Except.bind]
  cases SequenceKind.ofName? name <;> rfl

theorem readRow_encodeRow (counters : Counters) (row : CheckpointRow) :
    readRow counters (encodeRow partition row) = .ok (putRow counters row) := by
  have hkey : readKey (encodeRow partition row).1 =
      .ok (row.workspace, Octets.ofText row.kind.name) :=
    readKey_sequenceKey partition row.workspace row.kind
  rw [readRow_of_readKey hkey, SequenceKind.ofName?_name]
  rfl

theorem ofRows_map_encodeRow (batch : List CheckpointRow) :
    ofRows (batch.map (encodeRow partition)) = .ok (batch.foldl putRow .empty) := by
  unfold ofRows
  generalize Counters.empty = counters
  induction batch generalizing counters with
  | nil => rfl
  | cons row batch ih =>
    rw [List.map_cons, List.foldlM_cons, readRow_encodeRow]
    exact ih _

theorem mapM_decodeRow_storedRow (batch : List CheckpointRow) :
    (batch.map (storedRow partition)).mapM sequences.decodeRow =
      (.ok (batch.map (encodeRow partition)) : Except StorageError _) := by
  have hstored : batch.map (storedRow partition) =
      (batch.map (encodeRow partition)).map sequences.encodeRow := by
    rw [List.map_map]
    rfl
  rw [hstored, Namespace.mapM_decodeRow]

/-- The rows that a scan of the partition finds. -/
theorem IsWritten.scan_eq_map (h : IsWritten rows partition) :
    ∃ batch : List CheckpointRow, (∀ row ∈ batch, row.IsPlaced) ∧
      rows.scan (sequences.storedKey (Key.partitionStart partition)) none =
        batch.map (storedRow partition) := by
  have hrows : ∀ item ∈ rows.scan (sequences.storedKey (Key.partitionStart partition)) none,
      ∃ row, CheckpointRow.IsPlaced row ∧ item = storedRow partition row := by
    rintro ⟨key, value⟩ hitem
    obtain ⟨hvalue, hstarts⟩ := Rows.mem_scan_iff.mp hitem
    exact h key value hvalue hstarts
  generalize rows.scan _ none = items at hrows
  induction items with
  | nil => exact ⟨[], by simp, rfl⟩
  | cons item items ih =>
    obtain ⟨row, hplaced, rfl⟩ := hrows item List.mem_cons_self
    obtain ⟨batch, hbatch, rfl⟩ := ih fun other hother ↦ hrows other (List.mem_cons_of_mem _ hother)
    exact ⟨row :: batch, List.forall_mem_cons.mpr ⟨hplaced, hbatch⟩, rfl⟩

/-- Rows that hold just what a scan of others found. -/
theorem getElem?_insertAll_scan (rows : Rows) {start key : Octets} (hstarts : start <+: key) :
    (Rows.empty.insertAll (rows.scan start none))[key]? = rows[key]? := by
  have hdistinct : (rows.scan start none).Pairwise fun a b ↦ ¬ compare a.1 b.1 = .eq := by
    rw [Rows.scan_eq_filter]
    exact List.Pairwise.sublist List.filter_sublist rows.distinct_keys_toList
  have hmany : Rows.empty.insertAll (rows.scan start none) =
      Rows.empty.insertMany (rows.scan start none) := Std.ExtTreeMap.insertMany_list_eq_foldl.symm
  rw [hmany]
  cases hvalue : rows[key]? with
  | some value =>
    exact Std.ExtTreeMap.getElem?_insertMany_list_of_mem Std.ReflCmp.compare_self hdistinct
      (Rows.mem_scan_iff.mpr ⟨hvalue, hstarts⟩)
  | none =>
    have hmissing : ((rows.scan start none).map Prod.fst).contains key = false := by
      rw [← Bool.not_eq_true, List.contains_iff_mem]
      rintro hmem
      obtain ⟨⟨other, value⟩, hitem, rfl⟩ := List.mem_map.mp hmem
      rw [(Rows.mem_scan_iff.mp hitem).1] at hvalue
      exact absurd hvalue (by simp)
    rw [Std.ExtTreeMap.getElem?_insertMany_list_of_contains_eq_false hmissing]
    simp [Rows.empty]

/-- Checkpoint rows are read as the counters that they store. -/
theorem IsWritten.readPartition_eq (h : IsWritten rows partition) :
    ∃ counters, readPartition rows partition = (.ok counters, rows) ∧
      Stores rows partition counters := by
  obtain ⟨batch, hplaced, hscan⟩ := h.scan_eq_map
  have hread : readPartition rows partition = (.ok (batch.foldl putRow .empty), rows) := by
    have hresult : sequences.scan rows (Key.partitionStart partition) =
        ((.ok (batch.map (encodeRow partition)) : Except StorageError _), rows) := by
      unfold Namespace.scan
      change ((Except.ok (rows.scan (sequences.storedKey (Key.partitionStart partition)) none)).bind
        _, rows) = _
      rw [hscan]
      exact congrArg (·, rows) (mapM_decodeRow_storedRow batch)
    rw [readPartition, hresult]
    exact congrArg (·, rows) (ofRows_map_encodeRow batch)
  have hsame : ∀ workspace kind,
      storedLast? (Rows.empty.insertAll (batch.map (storedRow partition))) partition workspace kind =
        storedLast? rows partition workspace kind := by
    intro workspace kind
    rw [storedLast?, ← hscan,
      getElem?_insertAll_scan rows (partitionStart_isPrefix partition workspace kind)]
    rfl
  have hstores := (stores_empty partition).insertAll hplaced
  refine ⟨_, hread, h, hstores.offset.trans ?_, fun workspace kind hkind ↦
    (hstores.kept workspace kind hkind).trans (hsame workspace kind)⟩
  exact congrArg (·.getD 0) (hsame .null .offset)

/-- Reading a partition finds the counters stored. -/
theorem Stores.readPartition_eq (h : Stores rows partition counters) :
    readPartition rows partition = (.ok counters, rows) := by
  obtain ⟨found, hread, hfound⟩ := h.isWritten.readPartition_eq
  rw [hread, hfound.unique h]

end Checkpoint

end LogSequencing
