import LogSequencing.Proofs.Checkpoint.Range
import LogSequencing.Proofs.RecoveryPoint
import LogSequencing.Proofs.Storage.Lawful

/-!
# Two views on one backend

The checkpoints of all partitions and their recovery points share a backend. Each view of a partition
is a range of keys, and what is written through another view or for another partition stays outside
of it (`Namespace.Apart`, `Key.eq_of_partitionStart_isPrefix`). So a write changes what a range keeps
exactly by the rows that it has for this range (`keeps_write`), and after any writes a partition is
read, through either view, as what was last written for it (`writeAll_readsBack`).
-/

set_option autoImplicit false
set_option relaxedAutoImplicit false

namespace LogSequencing

/-- No key of one namespace is a key of the other. -/
def Namespace.Apart (ns other : Namespace) : Prop :=
  ¬ ns.start <+: other.start ∧ ¬ other.start <+: ns.start

theorem Namespace.Apart.not_isPrefix {ns other : Namespace} (h : ns.Apart other)
    (key otherKey : Octets) : ¬ ns.storedKey key <+: other.storedKey otherKey := by
  intro hkeys
  have hstart : ns.start <+: other.storedKey otherKey := (List.prefix_append _ _).trans hkeys
  rcases List.prefix_or_prefix_of_prefix hstart (List.prefix_append other.start otherKey) with
    hfirst | hsecond
  · exact h.1 hfirst
  · exact h.2 hsecond

theorem sequences_apart_points : Checkpoint.sequences.Apart RecoveryPoint.points := by
  unfold Namespace.Apart
  decide +kernel

/-- What is written to a backend that both views share. -/
inductive ViewWrite where
  | putBatch (partition : PartitionId) (rows : List CheckpointRow)
  | save (point : RecoveryPoint)

namespace ViewWrite

/-- The offset in a partition's log is written under the null workspace. -/
def IsPlaced : ViewWrite → Prop
  | putBatch _ rows => ∀ row ∈ rows, row.IsPlaced
  | save _ => True

/-- The rows as they are stored. -/
def rows : ViewWrite → List Row
  | putBatch partition rows => rows.map (Checkpoint.storedRow partition)
  | save point => point.changedRows.map RecoveryPoint.points.encodeRow

/-- The numbers that a write has for the checkpoint of a partition. -/
def lastsOf (partition : PartitionId) :
    ViewWrite → List ((WorkspaceId × SequenceKind) × StoredLast)
  | putBatch other rows => if other = partition then rows.map Checkpoint.entry else []
  | save _ => []

/-- The rows that a write has for the recovery point of a partition. -/
def pointsOf (partition : PartitionId) : ViewWrite → List (WorkspaceId × WorkspacePoint)
  | putBatch _ _ => []
  | save point => if point.partition = partition then point.writtenRows else []

/-- What the last batch of a partition that wrote a sequence gave it. -/
def last? (writes : List ViewWrite) (partition : PartitionId)
    (sequence : WorkspaceId × SequenceKind) : Option StoredLast :=
  (writes.flatMap (lastsOf partition)).reverse.lookup sequence

/-- What the last point of a partition that wrote the row of a workspace gave it. -/
def lastPoint? (writes : List ViewWrite) (partition : PartitionId) (workspace : WorkspaceId) :
    Option WorkspacePoint :=
  (writes.flatMap (pointsOf partition)).reverse.lookup workspace

/-! ### One write -/

section Range

variable {ι α : Type} [BEq ι] [LawfulBEq ι] [Json.Stored α] {range : KeyRange ι} {rows : Rows}
  {content : ι → Option α}

/-- A write has items for a range if it stores them and nothing else in the range. -/
def Gives (write : ViewWrite) (range : KeyRange ι) (items : List (ι × α)) : Prop :=
  write.rows = items.map range.row ∨
    items = [] ∧ ∀ row ∈ write.rows, ¬ range.storedStart <+: row.1

theorem keeps_write {write : ViewWrite} {items : List (ι × α)} (hgives : write.Gives range items)
    (h : range.Keeps rows content) :
    range.Keeps (rows.insertAll write.rows) fun i ↦ (items.reverse.lookup i).or (content i) := by
  rcases hgives with hinside | ⟨rfl, helsewhere⟩
  · rw [hinside]
    exact h.insertAll items
  · exact h.insertAll_elsewhere helsewhere

theorem keeps_writes {itemsOf : ViewWrite → List (ι × α)}
    (hgives : ∀ write : ViewWrite, write.Gives range (itemsOf write)) (writes : List ViewWrite)
    (h : range.Keeps rows content) :
    range.Keeps (rows.insertAll (writes.flatMap ViewWrite.rows)) fun i ↦
      ((writes.flatMap itemsOf).reverse.lookup i).or (content i) := by
  induction writes generalizing rows content with
  | nil => exact h
  | cons write writes ih =>
    have hrest := ih (keeps_write (hgives write) h)
    have hrows : rows.insertAll ((write :: writes).flatMap ViewWrite.rows) =
        (rows.insertAll write.rows).insertAll (writes.flatMap ViewWrite.rows) := by
      rw [List.flatMap_cons]
      exact List.foldl_append
    rw [hrows]
    simpa only [List.flatMap_cons, List.reverse_append, List.lookup_append, Option.or_assoc]
      using hrest

/-- Where a range is empty at first, it keeps what the writes have for it. -/
theorem keeps_of_writes {itemsOf : ViewWrite → List (ι × α)}
    (hgives : ∀ write : ViewWrite, write.Gives range (itemsOf write)) (writes : List ViewWrite)
    (hfree : ∀ key, range.ns.start <+: key → rows[key]? = none) :
    range.Keeps (rows.insertAll (writes.flatMap ViewWrite.rows)) fun i ↦
      (writes.flatMap itemsOf).reverse.lookup i := by
  have hnothing : range.Keeps rows fun _ ↦ (none : Option α) :=
    KeyRange.keeps_nothing fun key hstarts ↦ hfree key ((List.prefix_append _ _).trans hstarts)
  simpa only [Option.or_none] using keeps_writes hgives writes hnothing

end Range

theorem gives_lasts (partition : PartitionId) (write : ViewWrite) :
    write.Gives (Checkpoint.range partition) (write.lastsOf partition) := by
  cases write with
  | putBatch other rows =>
    by_cases hsame : other = partition
    · subst hsame
      refine Or.inl ?_
      rw [lastsOf, if_pos rfl]
      exact Checkpoint.map_storedRow other rows
    · refine Or.inr ⟨by rw [lastsOf, if_neg hsame], fun row hrow hstarts ↦ hsame ?_⟩
      obtain ⟨checkpointRow, -, rfl⟩ := List.mem_map.mp hrow
      have hkeys : Key.partitionStart partition <+:
          Checkpoint.sequenceKey other checkpointRow.workspace checkpointRow.kind :=
        (List.prefix_append_right_inj Checkpoint.sequences.start).mp hstarts
      rw [Checkpoint.sequenceKey, List.append_assoc] at hkeys
      exact (Key.eq_of_partitionStart_isPrefix hkeys).symm
  | save point =>
    refine Or.inr ⟨rfl, fun row hrow hstarts ↦ ?_⟩
    obtain ⟨item, -, rfl⟩ := List.mem_map.mp hrow
    exact sequences_apart_points.not_isPrefix _ _ hstarts

theorem gives_points (partition : PartitionId) (write : ViewWrite) :
    write.Gives (RecoveryPoint.range partition) (write.pointsOf partition) := by
  cases write with
  | putBatch other rows =>
    refine Or.inr ⟨rfl, fun row hrow hstarts ↦ ?_⟩
    obtain ⟨checkpointRow, -, rfl⟩ := List.mem_map.mp hrow
    exact Namespace.Apart.not_isPrefix sequences_apart_points.symm _ _ hstarts
  | save point =>
    by_cases hsame : point.partition = partition
    · subst hsame
      refine Or.inl ?_
      rw [pointsOf, if_pos rfl]
      exact point.map_changedRows
    · refine Or.inr ⟨by rw [pointsOf, if_neg hsame], fun row hrow hstarts ↦ hsame ?_⟩
      rw [ViewWrite.rows, point.map_changedRows] at hrow
      obtain ⟨item, -, rfl⟩ := List.mem_map.mp hrow
      have hkeys := (List.prefix_append_right_inj RecoveryPoint.points.start).mp hstarts
      exact (Key.eq_of_partitionStart_isPrefix hkeys).symm

/-! ### Several writes -/

variable {β : Type} [Backend β]

/-- Writes to a backend and tells whether it succeeded. -/
def write (store : β) : ViewWrite → Except StorageError Unit × β
  | putBatch partition rows => Checkpoint.putBatch store partition rows
  | save point => ((point.save store).1, (point.save store).2.2)

/-- Writes one after the other, with the results. -/
def writeAll (store : β) : List ViewWrite → List (Except StorageError Unit) × β
  | [] => ([], store)
  | first :: rest =>
    let (result, store) := write store first
    let (results, store) := writeAll store rest
    (result :: results, store)

variable [LawfulBackend β]

theorem write_eq (store : β) (w : ViewWrite) :
    ∃ after, write store w = (.ok (), after) ∧
      LawfulBackend.rows after = (LawfulBackend.rows store).insertAll w.rows := by
  cases w with
  | putBatch partition rows =>
    rw [write, Checkpoint.putBatch, Namespace.putBatch, Checkpoint.map_encodeRow]
    exact LawfulBackend.batch_eq store _
  | save point =>
    obtain ⟨after, hbatch, hrows⟩ := LawfulBackend.batch_eq store
      (point.changedRows.map RecoveryPoint.points.encodeRow)
    refine ⟨after, ?_, hrows⟩
    simp only [write, RecoveryPoint.save, Namespace.putBatch, hbatch]

theorem writeAll_eq (store : β) (writes : List ViewWrite) :
    (∀ result ∈ (writeAll store writes).1, result = .ok ()) ∧
      LawfulBackend.rows (writeAll store writes).2 =
        (LawfulBackend.rows store).insertAll (writes.flatMap ViewWrite.rows) := by
  induction writes generalizing store with
  | nil => exact ⟨fun result hresult ↦ absurd hresult List.not_mem_nil, rfl⟩
  | cons w writes ih =>
    obtain ⟨after, hwrite, hrows⟩ := write_eq store w
    obtain ⟨hresults, hrest⟩ := ih after
    simp only [writeAll, hwrite]
    refine ⟨List.forall_mem_cons.mpr ⟨rfl, hresults⟩, hrest.trans ?_⟩
    rw [hrows, List.flatMap_cons]
    exact List.foldl_append.symm

theorem null_of_last? {writes : List ViewWrite} (hplaced : ∀ w ∈ writes, w.IsPlaced)
    {partition : PartitionId} {workspace : WorkspaceId} {last : StoredLast}
    (hlast : last? writes partition (workspace, .offset) = some last) : workspace = .null := by
  obtain ⟨before, after, hitems, -⟩ := List.lookup_eq_some_iff.mp hlast
  have hmem : ((workspace, SequenceKind.offset), last) ∈ writes.flatMap (lastsOf partition) := by
    rw [← List.mem_reverse, hitems]
    exact List.mem_append_right _ List.mem_cons_self
  obtain ⟨w, hw, hitem⟩ := List.mem_flatMap.mp hmem
  cases w with
  | save point => exact absurd hitem List.not_mem_nil
  | putBatch other rows =>
    rw [lastsOf] at hitem
    split at hitem
    · obtain ⟨row, hrow, hentry⟩ := List.mem_map.mp hitem
      obtain ⟨hsequence, -⟩ := Prod.mk.inj hentry
      obtain ⟨rfl, hkind⟩ := Prod.mk.inj hsequence
      exact hplaced _ hw row hrow hkind
    · exact absurd hitem List.not_mem_nil

/-- After some writes, both views of a partition show what was last written for it. -/
structure ReadsBack (store : β) (writes : List ViewWrite) (partition : PartitionId) : Prop where
  /-- The checkpoint holds the last number of each sequence and nothing else. -/
  counters : ∃ counters after, Checkpoint.readPartition store partition = (.ok counters, after) ∧
    LawfulBackend.rows after = LawfulBackend.rows store ∧
    counters.offset.val =
      ((last? writes partition (.null, .offset)).map StoredLast.last).getD 0 ∧
    ∀ workspace kind, kind ≠ .offset →
      counters.kept? workspace kind =
        (last? writes partition (workspace, kind)).map StoredLast.last
  /-- The recovery point holds the last row of each workspace and nothing else. -/
  point : ∃ point after, RecoveryPoint.load store partition = (.ok point, after) ∧
    LawfulBackend.rows after = LawfulBackend.rows store ∧
    point.Tells partition (lastPoint? writes partition)
  /-- A scan finds the checkpoint rows in the order of their workspaces. -/
  checkpointRows : ∃ items : List ((WorkspaceId × SequenceKind) × StoredLast),
    (Checkpoint.sequences.scan store (Key.partitionStart partition)).1 =
      .ok (items.map fun item ↦
        (Checkpoint.sequenceKey partition item.1.1 item.1.2, item.2)) ∧
    items.Pairwise (fun a b ↦ a.1.1 ≤ b.1.1) ∧
    ∀ item, item ∈ items ↔ last? writes partition item.1 = some item.2
  /-- A scan finds the rows of the recovery point in the order of their workspaces. -/
  pointRows : ∃ items : List (WorkspaceId × WorkspacePoint),
    (RecoveryPoint.points.scan store (Key.partitionStart partition)).1 =
      .ok (items.map fun item ↦ (RecoveryPoint.rowKey partition item.1, item.2)) ∧
    items.Pairwise (fun a b ↦ a.1 < b.1) ∧
    ∀ item, item ∈ items ↔ lastPoint? writes partition item.1 = some item.2

/-- Whatever is written through the two views of any partitions, each view of each partition is read
as what was last written for it. Before the first write the store may hold rows of its own, but none
in the namespaces of the views. -/
theorem writeAll_readsBack {store : β}
    (hfresh : ∀ key, Checkpoint.sequences.start <+: key ∨ RecoveryPoint.points.start <+: key →
      (LawfulBackend.rows store)[key]? = none)
    {writes : List ViewWrite} (hplaced : ∀ w ∈ writes, w.IsPlaced) :
    (∀ result ∈ (writeAll store writes).1, result = .ok ()) ∧
      ∀ partition, ReadsBack (writeAll store writes).2 writes partition := by
  obtain ⟨hresults, hrows⟩ := writeAll_eq store writes
  refine ⟨hresults, fun partition ↦ ?_⟩
  have hcheckpoint : (Checkpoint.range partition).Keeps
      (LawfulBackend.rows (writeAll store writes).2) (last? writes partition) := by
    rw [hrows]
    exact keeps_of_writes (gives_lasts partition) writes fun key hkey ↦ hfresh key (Or.inl hkey)
  have hpoints : (RecoveryPoint.range partition).Keeps
      (LawfulBackend.rows (writeAll store writes).2) (lastPoint? writes partition) := by
    rw [hrows]
    exact keeps_of_writes (gives_points partition) writes fun key hkey ↦ hfresh key (Or.inr hkey)
  generalize (writeAll store writes).2 = after at hcheckpoint hpoints
  obtain ⟨checkpointAfter, hcheckpointScan, hcheckpointRows⟩ :=
    Checkpoint.sequences.scan_eq_rows (α := StoredLast) after (Key.partitionStart partition)
  obtain ⟨pointAfter, hpointScan, hpointRows⟩ :=
    RecoveryPoint.points.scan_eq_rows (α := WorkspacePoint) after (Key.partitionStart partition)
  constructor
  case counters =>
    obtain ⟨counters, hread, hoffset, hkept⟩ := Checkpoint.readPartition_of_keeps hcheckpoint
      fun _ _ ↦ null_of_last? hplaced
    refine ⟨counters, checkpointAfter, Prod.ext ?_ ?_, hcheckpointRows, hoffset, hkept⟩
    · rw [← congrArg Prod.fst hread]
      simp only [Checkpoint.readPartition, hcheckpointScan]
    · simp only [Checkpoint.readPartition, hcheckpointScan]
  case point =>
    obtain ⟨point, hload, htells⟩ := RecoveryPoint.load_of_keeps hpoints
    refine ⟨point, pointAfter, Prod.ext ?_ ?_, hpointRows, htells⟩
    · rw [← congrArg Prod.fst hload]
      simp only [RecoveryPoint.load, hpointScan]
    · simp only [RecoveryPoint.load, hpointScan]
  case checkpointRows =>
    obtain ⟨items, hscan, hsorted, hmem⟩ := hcheckpoint.scan
    refine ⟨items, ?_, hsorted.imp Checkpoint.range_key_le, hmem⟩
    rw [hcheckpointScan]
    exact congrArg Prod.fst hscan
  case pointRows =>
    obtain ⟨items, hscan, hsorted, hmem⟩ := hpoints.scan
    refine ⟨items, ?_, hsorted.imp RecoveryPoint.range_key_lt, hmem⟩
    rw [hpointScan]
    exact congrArg Prod.fst hscan

/-- Writes for three partitions whose keys begin much alike, through both views. -/
def neighbours : List ViewWrite :=
  [.putBatch ⟨1⟩ [⟨⟨2⟩, .workspaceOffset, 7⟩, ⟨⟨10⟩, .workspaceOffset, 8⟩, ⟨.null, .offset, 15⟩],
   .save ((RecoveryPoint.empty ⟨11⟩).update ⟨3⟩ ⟨10⟩ ⟨⟨1⟩, ⟨2⟩, .null⟩),
   .putBatch ⟨11⟩ [⟨⟨2⟩, .id .ordinary, 4⟩],
   .putBatch .last [⟨.last, .workspaceOffset, 1⟩, ⟨.null, .offset, 1⟩],
   .save ((RecoveryPoint.empty ⟨1⟩).update ⟨9⟩ ⟨2⟩ ⟨⟨5⟩, .null, ⟨6⟩⟩),
   .putBatch ⟨1⟩ [⟨⟨2⟩, .workspaceOffset, 9⟩, ⟨.null, .offset, 16⟩]]

theorem neighbours_readsBack :
    (∀ w ∈ neighbours, w.IsPlaced) ∧
      ∀ partition, ReadsBack (writeAll Rows.empty neighbours).2 neighbours partition := by
  have hplaced : ∀ w ∈ neighbours, w.IsPlaced := by
    simp [neighbours, IsPlaced, CheckpointRow.IsPlaced]
  refine ⟨hplaced, (writeAll_readsBack (fun key _ ↦ ?_) hplaced).2⟩
  exact Std.ExtTreeMap.getElem?_empty

end ViewWrite

end LogSequencing
