import LogSequencing.Proofs.Checkpoint.Key
import LogSequencing.Proofs.Event.Json
import LogSequencing.Proofs.Storage.KeyRange
import LogSequencing.RecoveryPoint

/-!
# Recovery points in rows

The recovery point of a partition is a range of rows, one for each workspace and one for the
partition itself, in the order of the workspaces (`RecoveryPoint.range`, `range_key_lt`). Loading
finds exactly the rows that the range keeps (`load_of_keeps`).
-/

set_option autoImplicit false
set_option relaxedAutoImplicit false

namespace LogSequencing.RecoveryPoint

open Json

theorem areNames : AreNames fieldNames := by decide +kernel

instance : LawfulStored WorkspacePoint where
  ofJson?_toJson point := by
    have hfields : (Stored.toJson point).toFields? fieldNames = _ :=
      toFields?_ofMembers [("offset", Stored.toJson point.offset),
        ("base_record_id", Stored.toJson point.baseId),
        ("c_base_record_id", Stored.toJson point.compactingBaseId)] areNames
    change pointOfJson? (Stored.toJson point) = some point
    unfold pointOfJson?
    simp [hfields, required?, withDefault?, LawfulStored.ofJson?_toJson]
  isPlain_toJson point := by
    refine isPlain_ofMembers areNames.1 ?_
    simp [LawfulStored.isPlain_toJson]

/-- The keys of a partition's recovery point. -/
def range (partition : PartitionId) : KeyRange WorkspaceId where
  ns := points
  start := Key.partitionStart partition
  key := rowKey partition
  start_isPrefix _ := List.prefix_append _ _
  key_injective _ _ hkey := Key.number_inj (List.append_cancel_left hkey)

/-- What saving a point writes: the workspaces changed, then the offset of the partition. -/
def writtenRows (point : RecoveryPoint) : List (WorkspaceId × WorkspacePoint) :=
  (point.changed.toList.filterMap fun workspace ↦
    point.workspaces[workspace]?.map fun workspacePoint ↦ (workspace, workspacePoint)) ++
  [(.null, ⟨point.offset, .null, .null⟩)]

/-- A point with a row put in. -/
def putRow (point : RecoveryPoint) (row : WorkspaceId × WorkspacePoint) : RecoveryPoint :=
  if row.1.isNull then
    { point with offset := row.2.offset }
  else
    { point with workspaces := point.workspaces.insert row.1 row.2 }

/-- The point of a partition is what the rows tell, with nothing changed since. -/
structure Tells (point : RecoveryPoint) (partition : PartitionId)
    (content : WorkspaceId → Option WorkspacePoint) : Prop where
  partition : point.partition = partition
  offset : point.offset = ((content .null).map WorkspacePoint.offset).getD .null
  workspaces : ∀ workspace, point.workspaces[workspace]? =
    if workspace = .null then none else content workspace
  changed : point.changed = ∅

variable {partition : PartitionId} {rows : Rows} {content : WorkspaceId → Option WorkspacePoint}

theorem map_changedRows (point : RecoveryPoint) :
    point.changedRows.map points.encodeRow =
      point.writtenRows.map (range point.partition).row := by
  simp only [changedRows, writtenRows, List.map_append, List.map_filterMap, Option.map_map]
  rfl

/-- The rows of a partition stand in the order of their workspaces. -/
theorem range_key_lt {a b : WorkspaceId} (h : (range partition).key a < (range partition).key b) :
    a < b := by
  change rowKey partition a < rowKey partition b at h
  have hnumbers : Key.number a ++ [] < Key.number b ++ [] := by
    rw [List.append_nil, List.append_nil]
    exact Octets.append_lt_append_iff.mp h
  have hle : a.val ≤ b.val := Key.le_of_number_lt hnumbers
  refine UInt64.lt_of_le_of_ne hle fun hval ↦ ?_
  obtain rfl : a = b := congrArg Serial.mk hval
  exact List.lt_irrefl _ h

/-! ### Reading -/

theorem readRow_rowKey (point : RecoveryPoint) (row : WorkspaceId × WorkspacePoint) :
    readRow point (rowKey partition row.1, row.2) = .ok (point.putRow row) := by
  have hcut : Key.cut? (rowKey partition row.1) =
      some (Key.number partition, Key.number row.1) := by
    rw [rowKey, Key.partitionStart, List.append_assoc]
    exact Key.cut?_append (Key.colon_notMem_number partition) (Key.number row.1)
  have hworkspace : workspaceOfKey? (rowKey partition row.1) = some row.1 := by
    simp only [workspaceOfKey?, hcut, Option.bind_eq_bind, Option.bind_some,
      Key.readWorkspace_number]
    rfl
  simp only [readRow, hworkspace, putRow]
  split <;> rfl

theorem foldlM_readRow (point : RecoveryPoint) (items : List (WorkspaceId × WorkspacePoint)) :
    (items.map fun item ↦ (rowKey partition item.1, item.2)).foldlM readRow point =
      .ok (items.foldl putRow point) := by
  induction items generalizing point with
  | nil => rfl
  | cons item items ih =>
    rw [List.map_cons, List.foldlM_cons, readRow_rowKey]
    exact ih _

theorem tells_empty (partition : PartitionId) : (empty partition).Tells partition fun _ ↦ none where
  partition := rfl
  offset := rfl
  workspaces workspace := by simp [empty]
  changed := rfl

theorem Tells.putRow {point : RecoveryPoint} (h : point.Tells partition content)
    (row : WorkspaceId × WorkspacePoint) :
    (point.putRow row).Tells partition fun workspace ↦
      if workspace == row.1 then some row.2 else content workspace := by
  obtain ⟨workspace, last⟩ := row
  simp only [beq_iff_eq]
  by_cases hnull : workspace = .null
  · subst hnull
    refine ⟨h.partition, by simp [RecoveryPoint.putRow, Serial.isNull], fun other ↦ ?_, h.changed⟩
    refine (h.workspaces other).trans ?_
    by_cases hother : other = .null <;> simp [hother]
  · have hput : point.putRow (workspace, last) =
        { point with workspaces := point.workspaces.insert workspace last } := by
      simp [RecoveryPoint.putRow, Serial.isNull, hnull]
    rw [hput]
    refine ⟨h.partition, ?_, fun other ↦ ?_, h.changed⟩
    · rw [if_neg fun hsame ↦ hnull hsame.symm]
      exact h.offset
    · rw [getElem?_insert_eq_ite, h.workspaces]
      by_cases hsame : other = workspace
      · subst hsame
        rw [if_pos rfl, if_neg hnull, if_pos rfl]
      · rw [if_neg hsame, if_neg hsame]

theorem Tells.putRows {point : RecoveryPoint} (h : point.Tells partition content)
    (items : List (WorkspaceId × WorkspacePoint)) :
    (items.foldl RecoveryPoint.putRow point).Tells partition fun workspace ↦
      (items.reverse.lookup workspace).or (content workspace) := by
  induction items generalizing point content with
  | nil => exact h
  | cons item items ih =>
    rw [funext (KeyRange.lookup_reverse_cons item items content)]
    exact ih (h.putRow item)

/-- Loading finds the rows that the range keeps and no others. -/
theorem load_of_keeps (h : (range partition).Keeps rows content) :
    ∃ point, load rows partition = (.ok point, rows) ∧ point.Tells partition content := by
  obtain ⟨items, hscan, -, hmem⟩ := h.scan
  refine ⟨items.foldl RecoveryPoint.putRow (empty partition), ?_, ?_⟩
  · have hrows : points.scan rows (Key.partitionStart partition) =
        ((.ok (items.map fun item ↦ (rowKey partition item.1, item.2)) :
          Except StorageError _), rows) := hscan
    rw [load, hrows]
    exact congrArg (·, rows) (foldlM_readRow (empty partition) items)
  · have htells := (tells_empty partition).putRows items
    simpa only [Option.or_none, KeyRange.lookup_reverse_of_mem_iff hmem] using htells

end LogSequencing.RecoveryPoint
