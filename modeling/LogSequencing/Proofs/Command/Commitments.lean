import LogSequencing.Proofs.Command.Load
import LogSequencing.Proofs.Log.Partitions
import Mathlib.Algebra.GroupWithZero.Nat
import Mathlib.Algebra.Order.BigOperators.Group.List

/-!
# What was committed

A commitment is a load of which all events are in the log of a partition. The numbers that they take
add up (`Commitments.taken`). Where the counters of a log agree with these sums (`Accounts`), they are
the totals of what was committed (`Totals`).
-/

set_option autoImplicit false
set_option relaxedAutoImplicit false

namespace LogSequencing

/-- Loads whose events are in the logs of these partitions, in the order they were committed in. -/
abbrev Commitments := List (PartitionId × Load)

/-- How many records an event of the load creates with numbers of a sequence. -/
def Load.records (load : Load) : IdSequence → Nat
  | .ordinary => load.ordinary
  | .compacting => load.compacting

theorem Load.share_withEvents (load : Load) (n : Nat) (workspace : WorkspaceId)
    (kind : SequenceKind) :
    Load.share { load with events := n } workspace kind = load.share workspace kind := by
  cases kind <;> rfl

namespace Commitments

/-- The loads that were committed to a partition. -/
def on (committed : Commitments) (partition : PartitionId) : List Load :=
  (committed.filter (·.1 = partition)).map Prod.snd

/-- How many numbers the committed events take from a sequence of a workspace. -/
def taken (committed : Commitments) (partition : PartitionId) (workspace : WorkspaceId)
    (kind : SequenceKind) : Nat :=
  ((committed.on partition).map fun load ↦ load.events * load.share workspace kind).sum

variable (committed more : Commitments) (partition : PartitionId) (workspace : WorkspaceId)
  (kind : SequenceKind)

theorem on_append : (committed ++ more).on partition = committed.on partition ++ more.on partition := by
  rw [on, List.filter_append, List.map_append]
  rfl

theorem taken_append : (committed ++ more).taken partition workspace kind =
    committed.taken partition workspace kind + more.taken partition workspace kind := by
  rw [taken, on_append, List.map_append, List.sum_append]
  rfl

theorem taken_singleton (load : Load) :
    taken [(partition, load)] partition workspace kind =
      load.events * load.share workspace kind := by
  simp [taken, on]

theorem taken_singleton_of_ne {other : PartitionId} (hne : other ≠ partition) (load : Load) :
    taken [(partition, load)] other workspace kind = 0 := by
  simp [taken, on, hne.symm]

/-- The events of a load take no more numbers from a sequence than they have records, and one each. -/
theorem taken_singleton_le (other : PartitionId) (load : Load) :
    taken [(partition, load)] other workspace kind ≤ load.events * (load.size + 1) := by
  by_cases hother : other = partition
  · rw [hother, taken_singleton]
    refine Nat.mul_le_mul_left _ ?_
    rcases kind with _ | _ | _ | _ <;> simp only [Load.share, Load.size] <;> (try split_ifs) <;> omega
  · rw [taken_singleton_of_ne _ _ _ hother]
    exact Nat.zero_le _

theorem on_append_singleton (load : Load) :
    (committed ++ [(partition, load)]).on partition = committed.on partition ++ [load] := by
  simp [on]

/-- Committing fewer events of a load takes no more numbers. -/
theorem taken_le_of_le {n : Nat} {load : Load} (hle : n ≤ load.events) (other : PartitionId) :
    (committed ++ [(partition, { load with events := n })]).taken other workspace kind ≤
      (committed ++ [(partition, load)]).taken other workspace kind := by
  rw [taken_append, taken_append]
  refine Nat.add_le_add_left ?_ _
  by_cases hother : other = partition
  · rw [hother, taken_singleton, taken_singleton, Load.share_withEvents]
    exact Nat.mul_le_mul_right _ hle
  · rw [taken_singleton_of_ne _ _ _ hother]
    exact Nat.zero_le _

end Commitments

/-! ### Totals -/

/-- The counters of a partition are the totals of the loads that were committed to it. -/
structure Totals (loads : List Load) (counters : Counters) : Prop where
  offset : counters.offset.val.toNat = (loads.map Load.events).sum
  workspaceOffset (workspace : WorkspaceId) : (counters.workspaceOffset workspace).val.toNat =
    ((loads.filter (·.workspace = workspace)).map Load.events).sum
  lastId (sequence : IdSequence) (workspace : WorkspaceId) :
    (counters.lastId sequence workspace).val.toNat = ((loads.filter (·.workspace = workspace)).map
      fun load ↦ load.events * load.records sequence).sum
  listed (workspace : WorkspaceId) : workspace ∈ counters.workspaceOffsets ↔
    ∃ load ∈ loads, load.workspace = workspace ∧ 0 < load.events

theorem Load.sum_of_workspace (loads : List Load) (workspace : WorkspaceId) (amount : Load → Nat) :
    (loads.map fun load ↦
        load.events * if load.workspace = workspace then amount load else 0).sum =
      ((loads.filter (·.workspace = workspace)).map fun load ↦ load.events * amount load).sum := by
  induction loads with
  | nil => rfl
  | cons load loads ih =>
    rw [List.map_cons, List.sum_cons, ih]
    by_cases hhere : load.workspace = workspace
    · rw [if_pos hhere, List.filter_cons_of_pos (by simpa using hhere), List.map_cons, List.sum_cons]
    · rw [if_neg hhere, List.filter_cons_of_neg (by simpa using hhere), Nat.mul_zero, Nat.zero_add]

theorem Counters.IsTight.mem_workspaceOffsets_iff {counters : Counters} (h : counters.IsTight)
    (workspace : WorkspaceId) : workspace ∈ counters.workspaceOffsets ↔
      0 < (counters.workspaceOffset workspace).val.toNat := by
  have hzero := h workspace .workspaceOffset (by decide)
  rw [← lastOf_workspaceOffset, lastOf, kept?] at *
  rw [Std.ExtTreeMap.mem_iff_isSome_getElem?]
  cases hlast : counters.workspaceOffsets[workspace]? with
  | none => exact iff_of_false Bool.false_ne_true (Nat.lt_irrefl 0)
  | some last =>
    rw [hlast] at hzero
    refine iff_of_true rfl (Nat.pos_of_ne_zero fun hnull ↦ hzero (congrArg some ?_))
    exact UInt64.toNat_inj.mp hnull

theorem Commitments.taken_workspaceOffset (committed : Commitments) (partition : PartitionId)
    (workspace : WorkspaceId) : committed.taken partition workspace .workspaceOffset =
      (((committed.on partition).filter (·.workspace = workspace)).map Load.events).sum := by
  have hsum := Load.sum_of_workspace (committed.on partition) workspace fun _ ↦ 1
  simp only [Nat.mul_one] at hsum
  exact hsum

theorem totals_of_lastOf {committed : Commitments} {partition : PartitionId} {counters : Counters}
    (htight : counters.IsTight)
    (h : ∀ workspace kind,
      counters.lastOf workspace kind = committed.taken partition workspace kind) :
    Totals (committed.on partition) counters := by
  have hworkspace (workspace : WorkspaceId) : (counters.workspaceOffset workspace).val.toNat =
      (((committed.on partition).filter (·.workspace = workspace)).map Load.events).sum := by
    rw [← Counters.lastOf_workspaceOffset, h, Commitments.taken_workspaceOffset]
  refine ⟨?_, hworkspace, fun sequence workspace ↦ ?_, fun workspace ↦ ?_⟩
  · have hoffset := h .null .offset
    simp only [Counters.lastOf_offset, Commitments.taken, Load.share, Nat.mul_one] at hoffset
    exact hoffset
  · rw [← Counters.lastOf_id, h, ← Load.sum_of_workspace]
    cases sequence <;> rfl
  · rw [htight.mem_workspaceOffsets_iff, hworkspace, List.sum_pos_iff_exists_pos_nat]
    simp [and_assoc]

/-! ### Logs -/

/-- The logs account for what was committed: their counters are the sums, and each event that was
committed is in its log. -/
structure Accounts (committed : Commitments) (history : PartitionId → List Event) : Prop where
  lastOf (partition : PartitionId) (workspace : WorkspaceId) (kind : SequenceKind) :
    (observed (history partition)).lastOf workspace kind = committed.taken partition workspace kind
  count (partition : PartitionId) (workspace : WorkspaceId) :
    ((history partition).filter (·.workspace = workspace)).length =
      committed.taken partition workspace .workspaceOffset

theorem accounts_nil : Accounts [] fun _ ↦ [] where
  lastOf _ workspace kind := Counters.lastOf_empty workspace kind
  count _ _ := rfl

theorem Accounts.totals {committed : Commitments} {history : PartitionId → List Event}
    (h : Accounts committed history) {partition : PartitionId}
    (hproper : ∀ event ∈ history partition, event.usage.IsProper) :
    Totals (committed.on partition) (observed (history partition)) :=
  totals_of_lastOf (observed_tight hproper) (h.lastOf partition)

/-- Each event of a load counts in its workspace. -/
theorem Load.Grows.count {load : Load} {events grown : List Event} {n : Nat}
    (h : load.Grows events n grown) (workspace : WorkspaceId) :
    (grown.filter (·.workspace = workspace)).length =
      (events.filter (·.workspace = workspace)).length +
        n * load.share workspace .workspaceOffset := by
  induction h with
  | nothing => rw [Nat.zero_mul, Nat.add_zero]
  | @add events grown event n hnext _ ih =>
    have hevent : ([event].filter (·.workspace = workspace)).length =
        load.share workspace .workspaceOffset := by
      simp only [List.filter_singleton, hnext.workspace, Load.share]
      split_ifs <;> simp_all
    rw [ih, List.filter_append, List.length_append, hevent, Nat.succ_mul]
    omega

/-- The logs still account for what was committed when one of them has grown by events of a load. -/
theorem Accounts.commit {committed : Commitments} {history : PartitionId → List Event}
    (h : Accounts committed history) {partition : PartitionId} {load : Load} {n : Nat}
    {grown : List Event} (hgrows : load.Grows (history partition) n grown) :
    Accounts (committed ++ [(partition, { load with events := n })])
      (Function.update history partition grown) := by
  refine ⟨fun other workspace kind ↦ ?_, fun other workspace ↦ ?_⟩
  · rw [Commitments.taken_append]
    by_cases hother : other = partition
    · rw [hother, Function.update_self, Commitments.taken_singleton, Load.share_withEvents,
        hgrows.lastOf, h.lastOf]
    · rw [Function.update_of_ne hother, Commitments.taken_singleton_of_ne _ _ _ hother, Nat.add_zero,
        h.lastOf]
  · rw [Commitments.taken_append]
    by_cases hother : other = partition
    · rw [hother, Function.update_self, Commitments.taken_singleton, Load.share_withEvents,
        hgrows.count, h.count]
    · rw [Function.update_of_ne hother, Commitments.taken_singleton_of_ne _ _ _ hother, Nat.add_zero,
        h.count]

/-- A log that is read as the events of these loads, with no record number twice in a workspace. -/
structure FileLog.Records (log : FileLog) (partition : PartitionId) (loads : List Load)
    (events : List Event) : Prop where
  reads (start : Offset) : LogSource.readFrom log partition start =
    (⟨events.filter (start ≤ ·.offset), none⟩, log)
  count (workspace : WorkspaceId) : (events.filter (·.workspace = workspace)).length =
    ((loads.filter (·.workspace = workspace)).map Load.events).sum
  nodup (workspace : WorkspaceId) :
    ((events.filter (·.workspace = workspace)).flatMap Event.usedIds).Nodup

theorem Accounts.records {committed : Commitments} {history : PartitionId → List Event}
    (h : Accounts committed history) {log : FileLog} {partition : PartitionId}
    (hlog : log.Holds partition none history) (hunrepeating : Unrepeating (history partition)) :
    log.Records partition (committed.on partition)
      ((history partition).map (Event.kept log.now)) := by
  have hhere (workspace : WorkspaceId) :
      ((history partition).map (Event.kept log.now)).filter (·.workspace = workspace) =
        ((history partition).filter (·.workspace = workspace)).map (Event.kept log.now) := by
    rw [List.filter_map]
    rfl
  refine ⟨hlog.readFrom_eq, fun workspace ↦ ?_, fun workspace ↦ ?_⟩
  · rw [hhere, List.length_map, h.count, Commitments.taken_workspaceOffset]
  · rw [hhere, List.flatMap_map]
    exact hunrepeating.nodup workspace

end LogSequencing
