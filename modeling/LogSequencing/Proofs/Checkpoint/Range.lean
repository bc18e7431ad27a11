import LogSequencing.Proofs.Checkpoint.Rows
import LogSequencing.Proofs.Storage.KeyRange

/-!
# The range of a partition's checkpoint rows

The checkpoint rows of a partition are a range of keys (`Checkpoint.range`) in the order of their
workspaces (`range_key_le`). Whatever else a store holds, reading the partition finds the counters
that its range keeps (`readPartition_of_keeps`).
-/

set_option autoImplicit false
set_option relaxedAutoImplicit false

namespace LogSequencing.Checkpoint

/-- The keys of a partition's sequences. -/
def range (partition : PartitionId) : KeyRange (WorkspaceId × SequenceKind) where
  ns := sequences
  start := Key.partitionStart partition
  key sequence := sequenceKey partition sequence.1 sequence.2
  start_isPrefix sequence := by
    rw [sequenceKey, List.append_assoc]
    exact List.prefix_append _ _
  key_injective a b hkey := by
    obtain ⟨hworkspace, hkind⟩ := storedKey_inj (congrArg sequences.storedKey hkey)
    exact Prod.ext hworkspace hkind

/-- A row, told by its sequence. -/
def entry (row : CheckpointRow) : (WorkspaceId × SequenceKind) × StoredLast :=
  ((row.workspace, row.kind), ⟨row.last⟩)

variable {partition : PartitionId} {rows : Rows}
  {content : WorkspaceId × SequenceKind → Option StoredLast}

theorem map_storedRow (partition : PartitionId) (batch : List CheckpointRow) :
    batch.map (storedRow partition) = (batch.map entry).map (range partition).row := by
  rw [List.map_map]
  rfl

/-- The rows of a partition stand in the order of their workspaces. -/
theorem range_key_le {a b : WorkspaceId × SequenceKind}
    (h : (range partition).key a < (range partition).key b) : a.1 ≤ b.1 := by
  change sequenceKey partition a.1 a.2 < sequenceKey partition b.1 b.2 at h
  simp only [sequenceKey, List.append_assoc] at h
  exact Key.le_of_number_lt (Octets.append_lt_append_iff.mp h)

theorem isWritten_of_keeps (h : (range partition).Keeps rows content)
    (hplaced : ∀ workspace last, content (workspace, .offset) = some last → workspace = .null) :
    IsWritten rows partition := by
  intro key value hvalue hstarts
  obtain ⟨item, hitem⟩ := h.written key value hvalue hstarts
  refine ⟨⟨item.1.1, item.1.2, item.2.last⟩, fun hkind ↦ ?_, hitem⟩
  obtain ⟨rfl, rfl⟩ := Prod.mk.inj hitem
  obtain ⟨last, hlast, -⟩ := Option.map_eq_some_iff.mp ((h.value item.1).symm.trans hvalue)
  refine hplaced item.1.1 last ?_
  rw [← hlast]
  exact congrArg content (Prod.ext rfl hkind.symm)

theorem storedLast?_of_keeps (h : (range partition).Keeps rows content) (workspace : WorkspaceId)
    (kind : SequenceKind) :
    storedLast? rows partition workspace kind =
      (content (workspace, kind)).map StoredLast.last := by
  refine congrArg (Option.map StoredLast.last) ?_
  refine (congrArg (Option.bind · Json.Stored.decode?) (h.value (workspace, kind))).trans ?_
  cases content (workspace, kind) with
  | none => rfl
  | some last => exact Json.Stored.decode?_encode last

/-- Reading a partition finds the numbers that its range keeps and no others. -/
theorem readPartition_of_keeps (h : (range partition).Keeps rows content)
    (hplaced : ∀ workspace last, content (workspace, .offset) = some last → workspace = .null) :
    ∃ counters, readPartition rows partition = (.ok counters, rows) ∧
      counters.offset.val = ((content (.null, .offset)).map StoredLast.last).getD 0 ∧
      ∀ workspace kind, kind ≠ .offset →
        counters.kept? workspace kind = (content (workspace, kind)).map StoredLast.last := by
  obtain ⟨counters, hread, hstores⟩ := (isWritten_of_keeps h hplaced).readPartition_eq
  refine ⟨counters, hread, ?_, fun workspace kind hkind ↦ ?_⟩
  · rw [hstores.offset, storedLast?_of_keeps h]
  · rw [hstores.kept workspace kind hkind, storedLast?_of_keeps h]

end LogSequencing.Checkpoint
