import LogSequencing.Checkpoint.Replay
import LogSequencing.Log.Memory
import LogSequencing.Proofs.Counters
import LogSequencing.Proofs.Log.Memory
import LogSequencing.Proofs.RecoveryPoint.Sync
import LogSequencing.Storage.Rows

/-!
# Replay finds the least counters

Counters cover an event if they are at least the numbers that it used (`Counters.Covers`). A replay
comes to the least counters that are at least the checkpoint and cover the events from the
checkpointed offset on, and it would come to them in whatever order it observed these events, and
however often (`Checkpoint.replay_least`).
-/

set_option autoImplicit false
set_option relaxedAutoImplicit false

namespace LogSequencing

/-! ### What events use -/

theorem Event.mem_usedIds_iff {event : Event} {sequence : IdSequence} {id : RecordId} :
    (sequence, id) ∈ event.usedIds ↔
      (∃ mutation ∈ event.mutations, mutation.isNew = true ∧
        mutation.category.idSequence? = some sequence ∧ mutation.id = id) ∨
      sequence = .ordinary ∧ ∃ argument ∈ event.arguments, argument.id = id := by
  have hmutation (mutation : Mutation) : mutation.usedId? = some (sequence, id) ↔
      mutation.isNew = true ∧ mutation.category.idSequence? = some sequence ∧ mutation.id = id := by
    unfold Mutation.usedId?
    split_ifs with hnew <;> simp [hnew]
  simp only [usedIds, List.mem_append, List.mem_filterMap, List.mem_map, hmutation, Prod.mk.injEq]
  refine or_congr_right ⟨?_, ?_⟩
  · rintro ⟨argument, hargument, rfl, rfl⟩
    exact ⟨rfl, argument, hargument, rfl⟩
  · rintro ⟨rfl, argument, hargument, rfl⟩
    exact ⟨argument, hargument, rfl, rfl⟩

namespace Counters

/-- The counters are at least the numbers that an event used. -/
structure Covers (counters : Counters) (event : Event) : Prop where
  offset : event.offset ≤ counters.offset
  workspaceOffset : event.workspaceOffset ≤ counters.workspaceOffset event.workspace
  /-- An update used no number, and neither did a view. -/
  created : ∀ mutation ∈ event.mutations, mutation.isNew = true →
    ∀ sequence, mutation.category.idSequence? = some sequence →
      mutation.id ≤ counters.lastId sequence event.workspace
  arguments : ∀ argument ∈ event.arguments,
    argument.id ≤ counters.lastId .ordinary event.workspace

theorem covers_iff {counters : Counters} {event : Event} : counters.Covers event ↔
    ∀ workspace kind taken, event.usage.Takes workspace kind taken →
      taken ≤ counters.lastOf workspace kind := by
  have hid (sequence : IdSequence) (id : RecordId) :
      id ≤ counters.lastId sequence event.workspace ↔
        id.val.toNat ≤ counters.lastOf event.workspace (.id sequence) := by
    rw [lastOf_id]
    exact UInt64.le_iff_toNat_le
  constructor
  · rintro ⟨hoffset, hworkspaceOffset, hcreated, harguments⟩ workspace kind taken htaken
    rcases kind with _ | _ | sequence
    · obtain rfl : taken = event.offset.val.toNat := htaken
      exact UInt64.le_iff_toNat_le.mp hoffset
    · obtain ⟨rfl, rfl⟩ := htaken
      rw [lastOf_workspaceOffset]
      exact UInt64.le_iff_toNat_le.mp hworkspaceOffset
    · obtain ⟨rfl, id, hused, rfl⟩ := htaken
      refine (hid sequence id).mp ?_
      rcases Event.mem_usedIds_iff.mp hused with
        ⟨mutation, hmutation, hnew, hcategory, rfl⟩ | ⟨rfl, argument, hargument, rfl⟩
      · exact hcreated mutation hmutation hnew sequence hcategory
      · exact harguments argument hargument
  · intro h
    refine ⟨UInt64.le_iff_toNat_le.mpr (h event.workspace .offset _ rfl), ?_, ?_, ?_⟩
    · refine UInt64.le_iff_toNat_le.mpr ?_
      have htaken := h event.workspace .workspaceOffset _ ⟨rfl, rfl⟩
      rwa [lastOf_workspaceOffset] at htaken
    · intro mutation hmutation hnew sequence hcategory
      refine (hid sequence mutation.id).mpr (h event.workspace (.id sequence) _ ⟨rfl, _, ?_, rfl⟩)
      exact Event.mem_usedIds_iff.mpr (Or.inl ⟨mutation, hmutation, hnew, hcategory, rfl⟩)
    · intro argument hargument
      refine (hid .ordinary argument.id).mpr (h event.workspace (.id .ordinary) _ ⟨rfl, _, ?_, rfl⟩)
      exact Event.mem_usedIds_iff.mpr (Or.inr ⟨rfl, argument, hargument, rfl⟩)

/-- The least of all counters that are at least `base` and cover the events. -/
structure IsLeastCover (base : Counters) (events : List Event) (counters : Counters) : Prop where
  above : base.Below counters
  covers : ∀ event ∈ events, counters.Covers event
  least : ∀ other : Counters, base.Below other → (∀ event ∈ events, other.Covers event) →
    counters.Below other

theorem isLeastCover_observeAll (base : Counters) (events : List Event) :
    base.IsLeastCover events (base.observeAll events) where
  above := lastOf_le_observeAll base events
  covers _ hevent := covers_iff.mpr fun _ _ _ htaken ↦ taken_le_observeAll base hevent htaken
  least other habove hcovers workspace kind := by
    refine (lastOf_observeAll_le_iff base events workspace kind _).mpr
      ⟨habove workspace kind, fun event hevent ↦ ?_⟩
    exact covers_iff.mp (hcovers event hevent) workspace kind

end Counters

theorem MemoryLog.readsAs {log : MemoryLog} (h : log.failingReads = 0) (partition : PartitionId) :
    RecoveryPoint.ReadsAs log partition (log.events partition) := by
  intro start
  change log.read partition start .toTheEnd noObjection = _
  rw [read, h]
  dsimp only
  rw [Reading.visit_noObjection]
  rfl

namespace Checkpoint

/-- What a replay comes to is told by the checkpoint and the log's tail. -/
theorem replay_fst {β σ : Type} [Backend β] [LogSource σ] (store : β) (log : σ)
    (partition : PartitionId) :
    (replay store log partition).1 = (readPartition store partition).1.bind fun counters ↦
      observeReading counters (LogSource.readFrom log partition counters.offset).1 := by
  rw [replay]
  rcases readPartition store partition with ⟨_ | _, _⟩ <;> rfl

/-- Where the checkpoint and the log can be read, a replay comes to the least counters that are at
least the checkpoint and cover the log from the checkpointed offset on. These events may as well be
observed in any other order, and any of them more than once. -/
theorem replay_least {β σ : Type} [Backend β] [LogSource σ] {store : β} {log : σ}
    {partition : PartitionId} {checkpoint : Counters} {events : List Event}
    (hcheckpoint : (readPartition store partition).1 = .ok checkpoint)
    (hlog : RecoveryPoint.ReadsAs log partition events) :
    ∃ counters after, replay store log partition = (.ok counters, after, log) ∧
      checkpoint.IsLeastCover (events.filter (checkpoint.offset ≤ ·.offset)) counters ∧
      ∀ observed : List Event,
        (∀ event, event ∈ observed ↔ event ∈ events ∧ checkpoint.offset ≤ event.offset) →
        checkpoint.observeAll observed = counters := by
  refine ⟨checkpoint.observeAll (events.filter (checkpoint.offset ≤ ·.offset)),
    (readPartition store partition).2, ?_, checkpoint.isLeastCover_observeAll _, ?_⟩
  · have hread : readPartition store partition =
        (.ok checkpoint, (readPartition store partition).2) := Prod.ext hcheckpoint rfl
    rw [replay, hread]
    simp only [hlog checkpoint.offset, observeReading]
  · intro observed hobserved
    refine checkpoint.observeAll_congr fun event ↦ (hobserved event).trans ?_
    rw [List.mem_filter, decide_eq_true_iff]

/-- A checkpoint of a partition and of one of its two workspaces. -/
def laggingRows : List CheckpointRow :=
  [⟨⟨10⟩, .workspaceOffset, 2⟩, ⟨⟨10⟩, .id .ordinary, 6⟩, ⟨.null, .offset, 2⟩]

/-- An event with a record, an update and a view, all with higher numbers than the checkpoint has. -/
def checkpointedEvent : Event :=
  ⟨⟨2⟩, .ofMilliseconds 0, ⟨10⟩, ⟨2⟩,
    [⟨⟨7⟩, .wDoc, true⟩, ⟨⟨900⟩, .oDoc, false⟩, ⟨⟨900⟩, .view, true⟩], []⟩

def laterEvent : Event :=
  ⟨⟨3⟩, .ofMilliseconds 0, ⟨20⟩, ⟨1⟩, [⟨⟨4⟩, .cDoc, true⟩], [⟨⟨5⟩, .cDoc⟩]⟩

/-- The first event lies before the checkpoint, which knows nothing of its record. -/
def laggingLog : MemoryLog :=
  ⟨(∅ : Std.ExtTreeMap PartitionId (List Event) compare).insert ⟨1⟩
    [⟨⟨1⟩, .ofMilliseconds 0, ⟨10⟩, ⟨1⟩, [⟨⟨500⟩, .wDoc, true⟩], []⟩, checkpointedEvent, laterEvent],
    0⟩

theorem lagging_replayed :
    let store := (∅ : Rows).insertAll (laggingRows.map (storedRow ⟨1⟩))
    let checkpoint := laggingRows.foldl putRow .empty
    let counters := checkpoint.observeAll [laterEvent, checkpointedEvent, laterEvent]
    ∃ after, replay store laggingLog ⟨1⟩ = (.ok counters, after, laggingLog) ∧
      checkpoint.IsLeastCover [checkpointedEvent, laterEvent] counters ∧
      counters.lastId .ordinary ⟨10⟩ = ⟨7⟩ := by
  intro store checkpoint counters
  have hplaced : ∀ row ∈ laggingRows, row.IsPlaced := by
    unfold CheckpointRow.IsPlaced
    decide
  have hread : readPartition store ⟨1⟩ = (.ok checkpoint, store) :=
    ((stores_empty ⟨1⟩).insertAll hplaced).readPartition_eq
  have hlog : RecoveryPoint.ReadsAs laggingLog ⟨1⟩ (laggingLog.events ⟨1⟩) :=
    MemoryLog.readsAs rfl ⟨1⟩
  obtain ⟨replayed, after, hreplay, hleast, hany⟩ := replay_least (congrArg Prod.fst hread) hlog
  have htail : (laggingLog.events ⟨1⟩).filter (checkpoint.offset ≤ ·.offset) =
      [checkpointedEvent, laterEvent] := by decide +kernel
  have hmembers (event : Event) : event ∈ [laterEvent, checkpointedEvent, laterEvent] ↔
      event ∈ laggingLog.events ⟨1⟩ ∧ checkpoint.offset ≤ event.offset := by
    have hmem : event ∈ (laggingLog.events ⟨1⟩).filter (checkpoint.offset ≤ ·.offset) ↔
        event ∈ laggingLog.events ⟨1⟩ ∧ decide (checkpoint.offset ≤ event.offset) = true :=
      List.mem_filter
    rw [htail, decide_eq_true_iff] at hmem
    rw [← hmem]
    simp only [List.mem_cons, List.not_mem_nil, or_false]
    rw [or_left_comm, or_self]
  obtain rfl : counters = replayed := hany _ hmembers
  rw [htail] at hleast
  exact ⟨after, hreplay, hleast, by decide +kernel⟩

end Checkpoint

end LogSequencing
