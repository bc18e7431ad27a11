import LogSequencing.Proofs.Checkpoint.Landing

/-!
# Batches that coalesce

A batch of finished events has one row for each sequence that the events left a number of, with the
number that the last of them left (`Batch.mem_rows_ofEvents_iff`, `Batch.nodup_keys`). Where record
numbers do not decrease, writing it leaves the rows that writing each event alone would leave, one
after the other (`Checkpoint.putBatch_coalesces`).

Only record numbers that fall back to null would make a difference. A null number is not written, so
that a batch that ends with one would leave what was stored before all of its events.
-/

set_option autoImplicit false
set_option relaxedAutoImplicit false

namespace LogSequencing

namespace FinishedEvent

/-- The last of some events that was in a workspace. -/
def lastIn? (events : List FinishedEvent) (workspace : WorkspaceId) : Option FinishedEvent :=
  (events.filter (·.workspace = workspace)).getLast?

/-- The last of some events that left a number of a sequence. The offset in the partition's log is
left by the events of all workspaces. -/
def latest? (events : List FinishedEvent) (workspace : WorkspaceId) :
    SequenceKind → Option FinishedEvent
  | .offset => events.getLast?
  | _ => lastIn? events workspace

/-- In no workspace does a record number lie below an earlier one. -/
def IdsAscend (events : List FinishedEvent) : Prop :=
  events.Pairwise fun event later ↦ event.workspace = later.workspace →
    event.ordinaryId ≤ later.ordinaryId ∧ event.compactingId ≤ later.compactingId

/-- The number that is written for a sequence. -/
def written? (event : FinishedEvent) : SequenceKind → Option UInt64
  | .id sequence =>
    if event.number (.id sequence) = 0 then none else some (event.number (.id sequence))
  | kind => some (event.number kind)

theorem latest?_append_singleton (events : List FinishedEvent) (event : FinishedEvent)
    (workspace : WorkspaceId) (kind : SequenceKind) :
    latest? (events ++ [event]) workspace kind =
      if kind = .offset ∨ event.workspace = workspace then some event
      else latest? events workspace kind := by
  have hlast : lastIn? (events ++ [event]) workspace =
      if event.workspace = workspace then some event else lastIn? events workspace := by
    rw [lastIn?, List.filter_append]
    by_cases hhere : event.workspace = workspace
    · rw [if_pos hhere, List.filter_cons_of_pos (by simpa using hhere), List.filter_nil,
        List.getLast?_concat]
    · rw [if_neg hhere, List.filter_cons_of_neg (by simpa using hhere), List.filter_nil,
        List.append_nil, lastIn?]
  rcases kind with _ | _ | sequence
  · rw [if_pos (Or.inl rfl), latest?, List.getLast?_concat]
  · simpa [latest?] using hlast
  · simpa [latest?] using hlast

theorem written?_id_eq_some_iff {event : FinishedEvent} {sequence : IdSequence} {last : UInt64} :
    event.written? (.id sequence) = some last ↔ event.number (.id sequence) = last ∧ last ≠ 0 := by
  rw [written?]
  split_ifs with hnull
  · refine iff_of_false nofun ?_
    rintro ⟨rfl, hne⟩
    exact hne hnull
  · rw [Option.some_inj]
    refine ⟨?_, And.left⟩
    rintro rfl
    exact ⟨rfl, hnull⟩

/-- Only a null record number is not written. -/
theorem written?_eq_none {event : FinishedEvent} {kind : SequenceKind}
    (h : event.written? kind = none) :
    ∃ sequence, kind = .id sequence ∧ event.number (.id sequence) = 0 := by
  rcases kind with _ | _ | sequence
  · exact absurd h nofun
  · exact absurd h nofun
  · refine ⟨sequence, rfl, ?_⟩
    by_contra hnumber
    exact absurd (h.symm.trans (written?_id_eq_some_iff.mpr ⟨rfl, hnumber⟩)) nofun

/-- A null record number comes before all others of its workspace. -/
theorem IdsAscend.latest?_eq_none {events : List FinishedEvent} {event : FinishedEvent}
    (h : IdsAscend (events ++ [event])) {sequence : IdSequence}
    (hnull : event.number (.id sequence) = 0) :
    (latest? events event.workspace (.id sequence)).bind (·.written? (.id sequence)) = none := by
  refine Option.bind_eq_none_iff.mpr fun previous hprevious ↦ if_pos ?_
  obtain ⟨hmem, hworkspace⟩ := List.mem_filter.mp (List.mem_of_getLast? hprevious)
  obtain ⟨hordinary, hcompacting⟩ := (List.pairwise_append.mp h).2.2 previous hmem event
    List.mem_cons_self (of_decide_eq_true hworkspace)
  have hle : previous.number (.id sequence) ≤ event.number (.id sequence) := by
    cases sequence with
    | ordinary => exact hordinary
    | compacting => exact hcompacting
  rw [hnull] at hle
  exact UInt64.le_antisymm hle (UInt64.le_iff_toNat_le.mpr (Nat.zero_le _))

end FinishedEvent

theorem Counters.lastId_eq (counters : Counters) (sequence : IdSequence) (workspace : WorkspaceId) :
    counters.lastId sequence workspace = ⟨(counters.kept? workspace (.id sequence)).getD 0⟩ := by
  rw [lastId, PerWorkspace.last, kept?]
  cases (counters.ids sequence)[workspace]? <;> rfl

namespace Batch

theorem numberOf?_merge (batch : Batch) (event : FinishedEvent) (workspace : WorkspaceId)
    (kind : SequenceKind) :
    (batch.merge event).numberOf? workspace kind =
      if kind = .offset ∨ event.workspace = workspace then event.written? kind
      else batch.numberOf? workspace kind := by
  have hkept := kept?_merge batch event workspace kind
  rcases kind with _ | _ | sequence
  · exact hkept
  · exact hkept
  · have hnull (n : UInt64) : (⟨n⟩ : RecordId) = .null ↔ n = 0 := Serial.mk.injEq .. ▸ Iff.rfl
    simp only [numberOf?, touches_merge_iff, Counters.lastId_eq, hkept, reduceCtorEq, false_or]
    by_cases hhere : event.workspace = workspace
    · simp only [hhere, true_or, if_true, true_and, Option.getD_some, FinishedEvent.written?, ne_eq,
        hnull, ite_not]
    · simp only [hhere, false_or, if_false]

theorem numberOf?_empty (workspace : WorkspaceId) {kind : SequenceKind} (h : kind ≠ .offset) :
    empty.numberOf? workspace kind = none := by
  have hnothing : empty.last.workspaceOffsets = ∅ := rfl
  rcases kind with _ | _ | sequence
  · exact absurd rfl h
  · simp only [numberOf?, hnothing, Std.ExtTreeMap.getElem?_empty, Option.map_none]
  · simp only [numberOf?, Touches, hnothing, Std.ExtTreeMap.not_mem_empty, false_and, if_false]

theorem numberOf?_singleton (event : FinishedEvent) (workspace : WorkspaceId) (kind : SequenceKind) :
    (ofEvents [event]).numberOf? workspace kind =
      if kind = .offset ∨ event.workspace = workspace then event.written? kind else none := by
  refine (numberOf?_merge empty event workspace kind).trans (ite_congr rfl (fun _ ↦ rfl) ?_)
  exact fun hhere ↦ numberOf?_empty workspace fun hkind ↦ hhere (Or.inl hkind)

/-- A batch writes what its last events left. -/
theorem numberOf?_ofEvents {events : List FinishedEvent} {kind : SequenceKind}
    (h : events ≠ [] ∨ kind ≠ .offset) (workspace : WorkspaceId) :
    (ofEvents events).numberOf? workspace kind =
      (FinishedEvent.latest? events workspace kind).bind (·.written? kind) := by
  induction events using List.reverseRecOn with
  | nil =>
    have hkind : kind ≠ .offset := h.resolve_left fun hne ↦ hne rfl
    refine (numberOf?_empty workspace hkind).trans ?_
    rcases kind with _ | _ | sequence <;> rfl
  | append_singleton events event ih =>
    rw [ofEvents_append_singleton, numberOf?_merge, FinishedEvent.latest?_append_singleton]
    split_ifs with hhere
    · rfl
    · exact ih (Or.inr fun hkind ↦ hhere (Or.inl hkind))

/-- The rows of a workspace are about different sequences of it. -/
theorem pairwise_workspaceRows (batch : Batch) (workspace : WorkspaceId) (last : Offset) :
    (batch.workspaceRows workspace last).Pairwise fun row other ↦ row.kind ≠ other.kind := by
  simp only [workspaceRows, idRow?]
  split_ifs <;> simp

theorem mem_workspaceRows {batch : Batch} {workspace : WorkspaceId} {last : Offset}
    {row : CheckpointRow} (h : row ∈ batch.workspaceRows workspace last) :
    row.workspace = workspace ∧ row.kind ≠ .offset := by
  simp only [workspaceRows, List.mem_cons, List.mem_append, mem_idRow?_iff] at h
  rcases h with rfl | ⟨-, rfl⟩ | ⟨-, rfl⟩ <;> exact ⟨rfl, by simp⟩

/-- No two rows of a batch are about the same sequence. -/
theorem pairwise_rows (batch : Batch) : batch.rows.Pairwise fun row other ↦
    ¬ (row.kind = other.kind ∧ row.workspace = other.workspace) := by
  refine List.pairwise_append.mpr ⟨List.pairwise_flatMap.mpr ⟨?_, ?_⟩,
    List.pairwise_singleton _ _, ?_⟩
  · rintro ⟨workspace, last⟩ -
    exact (pairwise_workspaceRows batch workspace last).imp fun hne hsame ↦ hne hsame.1
  · refine Std.ExtTreeMap.distinct_keys_toList.imp ?_
    rintro ⟨workspace, last⟩ ⟨other, otherLast⟩ hne row hrow otherRow hother ⟨-, hsame⟩
    rw [(mem_workspaceRows hrow).1, (mem_workspaceRows hother).1] at hsame
    exact hne (Std.LawfulEqCmp.compare_eq_iff_eq.mpr hsame)
  · rintro row hrow other hother ⟨hkind, -⟩
    obtain ⟨⟨workspace, last⟩, -, hrow⟩ := List.mem_flatMap.mp hrow
    rw [List.mem_singleton.mp hother] at hkind
    exact (mem_workspaceRows hrow).2 hkind

end Batch

namespace Checkpoint

/-- The keys of the rows of a batch are distinct. -/
theorem nodup_keys (partition : PartitionId) (batch : Batch) :
    (batch.rows.map fun row ↦ sequenceKey partition row.workspace row.kind).Nodup := by
  refine List.pairwise_map.mpr (batch.pairwise_rows.imp fun {row other} hne hkey ↦ hne ?_)
  exact (storedKey_inj (congrArg sequences.storedKey hkey)).symm

/-- A batch replaces what is stored of the sequences that it writes. -/
theorem getElem?_insertAll_rows (rows : Rows) (partition : PartitionId) (batch : Batch)
    {workspace : WorkspaceId} {kind : SequenceKind} (hplaced : kind = .offset → workspace = .null) :
    (rows.insertAll (batch.rows.map (storedRow partition)))[sequences.storedKey
        (sequenceKey partition workspace kind)]? =
      ((batch.numberOf? workspace kind).map fun last ↦
          (storedRow partition ⟨workspace, kind, last⟩).2).or
        rows[sequences.storedKey (sequenceKey partition workspace kind)]? := by
  have hsame {row : CheckpointRow} (hkey : (storedRow partition row).1 =
      sequences.storedKey (sequenceKey partition workspace kind)) :
      row.kind = kind ∧ row.workspace = workspace :=
    (compare_storedRow_eq_iff row workspace kind).mp (Std.LawfulEqCmp.compare_eq_iff_eq.mpr hkey)
  cases hnumber : batch.numberOf? workspace kind with
  | none =>
    refine Rows.getElem?_insertAll_of_ne fun row hrow hkey ↦ ?_
    obtain ⟨row, hmem, rfl⟩ := List.mem_map.mp hrow
    obtain ⟨rfl, rfl⟩ := hsame hkey
    exact absurd (hnumber.symm.trans ((Batch.mem_rows_iff batch row).mp hmem).2) nofun
  | some last =>
    have hrow : storedRow partition ⟨workspace, kind, last⟩ ∈ batch.rows.map (storedRow partition) :=
      List.mem_map_of_mem ((Batch.mem_rows_iff batch _).mpr ⟨hplaced, hnumber⟩)
    refine Rows.getElem?_insertAll_of_mem hrow fun other hother hkey ↦ ?_
    obtain ⟨row, hmem, rfl⟩ := List.mem_map.mp hother
    obtain ⟨rfl, rfl⟩ := hsame hkey
    obtain rfl := Option.some.inj (hnumber.symm.trans ((Batch.mem_rows_iff batch row).mp hmem).2)
    rfl

/-- The rows after those of each event have been written alone, one event after the other. -/
def writeEach (rows : Rows) (partition : PartitionId) (events : List FinishedEvent) : Rows :=
  events.foldl (fun rows event ↦
    rows.insertAll ((Batch.ofEvents [event]).rows.map (storedRow partition))) rows

theorem writeEach_append_singleton (rows : Rows) (partition : PartitionId)
    (events : List FinishedEvent) (event : FinishedEvent) :
    writeEach rows partition (events ++ [event]) =
      (writeEach rows partition events).insertAll
        ((Batch.ofEvents [event]).rows.map (storedRow partition)) :=
  List.foldl_append

/-- Events that are written one after the other leave what the last of them left. -/
theorem getElem?_writeEach (rows : Rows) (partition : PartitionId) {events : List FinishedEvent}
    (hids : FinishedEvent.IdsAscend events) {workspace : WorkspaceId} {kind : SequenceKind}
    (hplaced : kind = .offset → workspace = .null) :
    (writeEach rows partition events)[sequences.storedKey
        (sequenceKey partition workspace kind)]? =
      (((FinishedEvent.latest? events workspace kind).bind (·.written? kind)).map fun last ↦
          (storedRow partition ⟨workspace, kind, last⟩).2).or
        rows[sequences.storedKey (sequenceKey partition workspace kind)]? := by
  induction events using List.reverseRecOn with
  | nil => rcases kind with _ | _ | sequence <;> rfl
  | append_singleton events event ih =>
    rw [writeEach_append_singleton, getElem?_insertAll_rows _ partition _ hplaced,
      ih (List.pairwise_append.mp hids).1, Batch.numberOf?_singleton,
      FinishedEvent.latest?_append_singleton]
    by_cases hhere : kind = .offset ∨ event.workspace = workspace
    · rw [if_pos hhere, if_pos hhere, Option.bind_some]
      cases hwritten : event.written? kind with
      | some last => rfl
      | none =>
        -- Nothing is written of a null record number, and nothing was before.
        obtain ⟨sequence, rfl, hnull⟩ := FinishedEvent.written?_eq_none hwritten
        obtain rfl := hhere.resolve_left nofun
        rw [hids.latest?_eq_none hnull]
        rfl
    · rw [if_neg hhere, if_neg hhere]
      rfl

theorem getElem?_writeEach_of_ne (rows : Rows) {partition : PartitionId} {key : Octets}
    (hother : ∀ batch : Batch, ∀ row ∈ batch.rows.map (storedRow partition), row.1 ≠ key)
    (events : List FinishedEvent) : (writeEach rows partition events)[key]? = rows[key]? := by
  induction events using List.reverseRecOn with
  | nil => rfl
  | append_singleton events event ih =>
    rw [writeEach_append_singleton, Rows.getElem?_insertAll_of_ne (hother _), ih]

/-- A batch leaves the rows that its events leave one after the other. -/
theorem insertAll_eq_writeEach (rows : Rows) (partition : PartitionId) {events : List FinishedEvent}
    (hne : events ≠ []) (hids : FinishedEvent.IdsAscend events) :
    rows.insertAll ((Batch.ofEvents events).rows.map (storedRow partition)) =
      writeEach rows partition events := by
  refine Std.ExtTreeMap.ext_getElem? fun key ↦ ?_
  by_cases hkey : ∃ workspace kind, (kind = .offset → workspace = .null) ∧
      key = sequences.storedKey (sequenceKey partition workspace kind)
  · obtain ⟨workspace, kind, hplaced, rfl⟩ := hkey
    rw [getElem?_insertAll_rows rows partition _ hplaced,
      getElem?_writeEach rows partition hids hplaced, Batch.numberOf?_ofEvents (Or.inl hne)]
  · have hother (batch : Batch) : ∀ row ∈ batch.rows.map (storedRow partition), row.1 ≠ key := by
      intro row hrow hsame
      obtain ⟨row, hmem, rfl⟩ := List.mem_map.mp hrow
      exact hkey ⟨row.workspace, row.kind, Batch.isPlaced_of_mem_rows hmem, hsame.symm⟩
    rw [Rows.getElem?_insertAll_of_ne (hother _), getElem?_writeEach_of_ne rows hother]

/-- Writes the rows of each event alone, one event after the other, until a write fails. -/
def putEach {β : Type} [Backend β] (store : β) (partition : PartitionId) :
    List FinishedEvent → Except StorageError Unit × β
  | [] => (.ok (), store)
  | event :: events =>
    match putBatch store partition (Batch.ofEvents [event]).rows with
    | (.ok (), store) => putEach store partition events
    | (.error error, store) => (.error error, store)

variable {β : Type} [Backend β] [LawfulBackend β]

theorem putEach_eq (store : β) (partition : PartitionId) (events : List FinishedEvent) :
    ∃ after, putEach store partition events = (.ok (), after) ∧
      LawfulBackend.rows after = writeEach (LawfulBackend.rows store) partition events := by
  induction events generalizing store with
  | nil => exact ⟨store, rfl, rfl⟩
  | cons event events ih =>
    obtain ⟨hput, hrows⟩ := putBatch_eq_landOn store partition (Batch.ofEvents [event])
    obtain ⟨after, hafter, hevents⟩ := ih (landOn store partition (some (Batch.ofEvents [event])))
    refine ⟨after, ?_, ?_⟩
    · simp only [putEach, hput, hafter]
    · rw [hevents, hrows]
      rfl

/-- A batch of events whose record numbers do not decrease leaves the same rows as each event alone,
one after the other, whatever was stored before. Its rows have different keys: one is about the
offsets of each workspace touched, one about each of its record sequences whose last number is not
null, and one about the partition. -/
theorem putBatch_coalesces {events : List FinishedEvent} (hne : events ≠ [])
    (hids : FinishedEvent.IdsAscend events) (store : β) (partition : PartitionId) :
    (∃ merged separate,
      putBatch store partition (Batch.ofEvents events).rows = (.ok (), merged) ∧
      putEach store partition events = (.ok (), separate) ∧
      LawfulBackend.rows merged = LawfulBackend.rows separate) ∧
    ((Batch.ofEvents events).rows.map fun row ↦
      sequenceKey partition row.workspace row.kind).Nodup ∧
    (∀ workspace last, ⟨workspace, .workspaceOffset, last⟩ ∈ (Batch.ofEvents events).rows ↔
      ∃ event, FinishedEvent.lastIn? events workspace = some event ∧
        event.workspaceOffset.val = last) ∧
    (∀ workspace sequence last, ⟨workspace, .id sequence, last⟩ ∈ (Batch.ofEvents events).rows ↔
      ∃ event, FinishedEvent.lastIn? events workspace = some event ∧
        event.number (.id sequence) = last ∧ last ≠ 0) ∧
    ∀ workspace last, ⟨workspace, .offset, last⟩ ∈ (Batch.ofEvents events).rows ↔
      workspace = .null ∧ ∃ event, events.getLast? = some event ∧ event.offset.val = last := by
  have hmem (workspace : WorkspaceId) (kind : SequenceKind) (last : UInt64) :
      ⟨workspace, kind, last⟩ ∈ (Batch.ofEvents events).rows ↔
        (kind = .offset → workspace = .null) ∧ ∃ event,
          FinishedEvent.latest? events workspace kind = some event ∧
            event.written? kind = some last := by
    rw [Batch.mem_rows_iff, Batch.numberOf?_ofEvents (Or.inl hne), Option.bind_eq_some_iff]
    rfl
  refine ⟨?_, nodup_keys partition _, fun workspace last ↦ ?_, fun workspace sequence last ↦ ?_,
    fun workspace last ↦ ?_⟩
  · obtain ⟨hput, hrows⟩ := putBatch_eq_landOn store partition (Batch.ofEvents events)
    obtain ⟨separate, hseparate, heach⟩ := putEach_eq store partition events
    refine ⟨_, separate, hput, hseparate, ?_⟩
    rw [hrows, heach, insertAll_eq_writeEach _ partition hne hids]
  · rw [hmem, and_iff_right nofun]
    exact exists_congr fun event ↦ and_congr_right fun _ ↦ Option.some_inj
  · rw [hmem, and_iff_right nofun]
    exact exists_congr fun event ↦ and_congr_right fun _ ↦ FinishedEvent.written?_id_eq_some_iff
  · rw [hmem]
    exact and_congr (forall_prop_of_true rfl)
      (exists_congr fun event ↦ and_congr_right fun _ ↦ Option.some_inj)

/-- Two events of a workspace, and one of another between them that took no record number. -/
def interleaved : List FinishedEvent :=
  [⟨⟨2⟩, ⟨10⟩, ⟨2⟩, ⟨7⟩, .null⟩, ⟨⟨3⟩, ⟨20⟩, ⟨1⟩, .null, .null⟩, ⟨⟨5⟩, ⟨10⟩, ⟨4⟩, ⟨9⟩, ⟨3⟩⟩]

/-- The rows of an earlier event, and a row that is none. -/
def writtenBefore : Rows :=
  Rows.insertAll ∅ ((sequences.storedKey (Key.partitionStart ⟨1⟩), [0xff]) ::
    (Batch.ofEvents [⟨⟨1⟩, ⟨10⟩, ⟨1⟩, ⟨7⟩, .null⟩]).rows.map (storedRow ⟨1⟩))

theorem putBatch_interleaved :
    (Batch.ofEvents interleaved).rows =
        [⟨⟨10⟩, .workspaceOffset, 4⟩, ⟨⟨10⟩, .id .ordinary, 9⟩, ⟨⟨10⟩, .id .compacting, 3⟩,
          ⟨⟨20⟩, .workspaceOffset, 1⟩, ⟨.null, .offset, 5⟩] ∧
      ∃ merged separate : Rows,
        putBatch writtenBefore ⟨1⟩ (Batch.ofEvents interleaved).rows = (.ok (), merged) ∧
        putEach writtenBefore ⟨1⟩ interleaved = (.ok (), separate) ∧ merged = separate := by
  have hids : FinishedEvent.IdsAscend interleaved := by
    unfold FinishedEvent.IdsAscend
    decide
  have hne : interleaved ≠ [] := List.cons_ne_nil _ _
  exact ⟨by decide +kernel, (putBatch_coalesces hne hids writtenBefore ⟨1⟩).1⟩

end Checkpoint

end LogSequencing
