import LogSequencing.Checkpoint.Replay
import LogSequencing.Proofs.Checkpoint.Range
import LogSequencing.Proofs.Counters
import LogSequencing.Proofs.RecoveryPoint.Sync
import Mathlib.Data.List.Induction

/-!
# Recovery points and replay

A sync and a replay read the same log in two ways: a sync overwrites what the point tells of a
workspace, a replay raises counters. `Mirrors` says that a point and counters tell the same of all
workspaces but the null one. Where an event lies behind all that the counters know, taking it in and
observing it keep them so (`Mirrors.incorporate`), and then both read the whole log alike
(`sync_mirrors_replay`).
-/

set_option autoImplicit false
set_option relaxedAutoImplicit false

namespace LogSequencing

/-! ### Observing one event -/

namespace Counters

theorem workspaceOffsets_foldl_coverId (workspace : WorkspaceId)
    (used : List (IdSequence × RecordId)) (counters : Counters) :
    (used.foldl (coverId workspace) counters).workspaceOffsets = counters.workspaceOffsets := by
  induction used generalizing counters with
  | nil => rfl
  | cons id used ih =>
    rw [List.foldl_cons, ih]
    obtain ⟨sequence, id⟩ := id
    cases sequence <;> rfl

theorem workspaceOffsets_observe (counters : Counters) (event : Event) :
    (counters.observe event).workspaceOffsets =
      PerWorkspace.raise counters.workspaceOffsets event.workspace event.workspaceOffset := by
  rw [observe, workspaceOffsets_foldl_coverId]

theorem ids_coverId (workspace : WorkspaceId) (counters : Counters)
    (used : IdSequence × RecordId) (sequence : IdSequence) :
    (coverId workspace counters used).ids sequence =
      if used.1 = sequence then PerWorkspace.raise (counters.ids sequence) workspace used.2
      else counters.ids sequence := by
  obtain ⟨kind, id⟩ := used
  cases kind <;> cases sequence <;> rfl

end Counters

theorem PerWorkspace.last_raise {space : Space} (numbers : PerWorkspace space)
    (workspace : WorkspaceId) (n : Serial space) (other : WorkspaceId) :
    (numbers.raise workspace n).last other =
      if other = workspace then max (numbers.last other) n else numbers.last other := by
  rw [last, raise, getElem?_insert_eq_ite]
  by_cases hsame : other = workspace
  · subst hsame
    rw [if_pos rfl, if_pos rfl, Option.getD_some]
  · rw [if_neg hsame, if_neg hsame, last]

namespace Counters

theorem lastId_coverId (workspace : WorkspaceId) (counters : Counters)
    (used : IdSequence × RecordId) (sequence : IdSequence) (other : WorkspaceId) :
    (coverId workspace counters used).lastId sequence other =
      if other = workspace ∧ used.1 = sequence then max (counters.lastId sequence other) used.2
      else counters.lastId sequence other := by
  rw [lastId, ids_coverId]
  by_cases hsequence : used.1 = sequence
  · rw [if_pos hsequence, PerWorkspace.last_raise]
    simp only [hsequence, and_true]
    rfl
  · rw [if_neg hsequence, if_neg fun hboth ↦ hsequence hboth.2]
    rfl

/-- A counter of record numbers rises to the highest number that its workspace used. -/
theorem lastId_foldl_coverId (workspace : WorkspaceId) (used : List (IdSequence × RecordId))
    (counters : Counters) (sequence : IdSequence) (other : WorkspaceId) :
    (used.foldl (coverId workspace) counters).lastId sequence other =
      if other = workspace then (idsOf sequence used).foldl max (counters.lastId sequence other)
      else counters.lastId sequence other := by
  induction used generalizing counters with
  | nil => exact (ite_self _).symm
  | cons first used ih =>
    rw [List.foldl_cons, ih, lastId_coverId, idsOf, idsOf, List.filter_cons]
    by_cases hsame : other = workspace <;> by_cases hsequence : first.1 = sequence <;>
      simp [hsame, hsequence]

theorem lastId_observe (counters : Counters) (event : Event) (sequence : IdSequence)
    (workspace : WorkspaceId) :
    (counters.observe event).lastId sequence workspace =
      if workspace = event.workspace then
        (idsOf sequence event.usedIds).foldl max (counters.lastId sequence workspace)
      else counters.lastId sequence workspace := by
  rw [observe, lastId_foldl_coverId]
  cases sequence <;> rfl

/-- Every workspace with a counter of record numbers has one of its offsets. -/
def IsListed (counters : Counters) : Prop :=
  ∀ sequence workspace, workspace ∈ counters.ids sequence → workspace ∈ counters.workspaceOffsets

theorem mem_ids_foldl_coverId {workspace other : WorkspaceId}
    {used : List (IdSequence × RecordId)} {counters : Counters} {sequence : IdSequence}
    (h : other ∈ (used.foldl (coverId workspace) counters).ids sequence) :
    other = workspace ∨ other ∈ counters.ids sequence := by
  induction used generalizing counters with
  | nil => exact Or.inr h
  | cons first used ih =>
    rcases ih h with hsame | hmem
    · exact Or.inl hsame
    · rw [ids_coverId] at hmem
      split at hmem
      · exact mem_keys_insert_iff.mp hmem
      · exact Or.inr hmem

theorem IsListed.observe {counters : Counters} (h : counters.IsListed) (event : Event) :
    (counters.observe event).IsListed := by
  intro sequence workspace hmem
  rw [workspaceOffsets_observe, PerWorkspace.raise, mem_keys_insert_iff]
  rw [Counters.observe] at hmem
  rcases mem_ids_foldl_coverId hmem with rfl | hmem
  · exact Or.inl rfl
  · refine Or.inr (h sequence workspace ?_)
    cases sequence <;> exact hmem

end Counters

theorem Counters.IsListed.observeAll {counters : Counters} (h : counters.IsListed)
    (events : List Event) : (counters.observeAll events).IsListed := by
  induction events generalizing counters with
  | nil => exact h
  | cons event events ih => exact ih (h.observe event)

theorem Counters.isListed_empty : empty.IsListed := by
  intro sequence workspace hmem
  cases sequence <;> exact absurd hmem Std.ExtTreeMap.not_mem_empty

namespace RecoveryPoint

/-! ### The same told in two ways -/

/-- A point and counters tell the same of the partition and of all workspaces but the null one. -/
structure Mirrors (point : RecoveryPoint) (counters : Counters) : Prop where
  offset : point.offset = counters.offset
  /-- They list the same workspaces, with the same offsets. -/
  workspaceOffset : ∀ workspace : WorkspaceId, workspace ≠ .null →
    point.workspaces[workspace]?.map WorkspacePoint.offset = counters.workspaceOffsets[workspace]?
  /-- A missing number counts as null. -/
  base : ∀ workspace : WorkspaceId, workspace ≠ .null → ∀ sequence,
    (point.workspaces[workspace]?.getD .empty).base sequence = counters.lastId sequence workspace

variable {point : RecoveryPoint} {counters : Counters} {event : Event}

theorem mirrors_empty (partition : PartitionId) : (empty partition).Mirrors .empty where
  offset := rfl
  workspaceOffset workspace _ := by simp [empty, Counters.empty]
  base workspace _ sequence := by
    cases sequence <;>
      simp [empty, Counters.empty, Counters.lastId, Counters.ids, PerWorkspace.last,
        WorkspacePoint.empty, WorkspacePoint.base]

theorem Mirrors.incorporate (h : point.Mirrors counters) (hoffset : counters.offset ≤ event.offset)
    (hworkspaceOffset : counters.workspaceOffset event.workspace ≤ event.workspaceOffset) :
    (point.incorporate event).Mirrors (counters.observe event) := by
  refine ⟨?_, fun workspace hnull ↦ ?_, fun workspace hnull sequence ↦ ?_⟩
  · rw [RecoveryPoint.incorporate, offset_update, Counters.offset_observe_of_le hoffset]
  · rw [RecoveryPoint.incorporate, getElem?_update, Counters.workspaceOffsets_observe,
      PerWorkspace.raise, getElem?_insert_eq_ite]
    by_cases hsame : workspace = event.workspace
    · subst hsame
      have hmax : max (PerWorkspace.last counters.workspaceOffsets event.workspace)
          event.workspaceOffset = event.workspaceOffset :=
        if_pos hworkspaceOffset
      rw [if_pos ⟨rfl, hnull⟩, if_pos rfl, hmax]
      rfl
    · rw [if_neg fun hboth ↦ hsame hboth.1, if_neg hsame]
      exact h.workspaceOffset workspace hnull
  · rw [RecoveryPoint.incorporate, getElem?_update, Counters.lastId_observe]
    by_cases hsame : workspace = event.workspace
    · subst hsame
      rw [if_pos ⟨rfl, hnull⟩, if_pos rfl, Option.getD_some, WorkspacePoint.base_follow,
        h.base _ hnull]
    · rw [if_neg fun hboth ↦ hsame hboth.1, if_neg hsame]
      exact h.base workspace hnull sequence

/-- Within each workspace the offsets of events increase. -/
def IncreasesWithin (events : List Event) : Prop :=
  events.Pairwise fun event later ↦
    event.workspace = later.workspace → event.workspaceOffset < later.workspaceOffset

theorem mirrors_of_increasing (partition : PartitionId) {events : List Event}
    (hincreasing : IsIncreasing events) (hwithin : IncreasesWithin events) :
    (events.foldl RecoveryPoint.incorporate (empty partition)).Mirrors
      (Counters.empty.observeAll events) := by
  induction events using List.reverseRecOn with
  | nil => exact mirrors_empty partition
  | append_singleton events event ih =>
    obtain ⟨hincreasingFront, -, hbefore⟩ := List.pairwise_append.mp hincreasing.pairwise
    obtain ⟨hwithinFront, -, hwithinBefore⟩ := List.pairwise_append.mp hwithin
    have hfront := ih ⟨fun event hevent ↦ hincreasing.null_lt event (List.mem_append_left _ hevent),
      hincreasingFront⟩ hwithinFront
    rw [List.foldl_append, Counters.observeAll_append]
    refine hfront.incorporate (UInt64.le_iff_toNat_le.mpr ?_) (UInt64.le_iff_toNat_le.mpr ?_)
    · refine (Counters.lastOf_observeAll_le_iff .empty events .null .offset _).mpr
        ⟨Nat.zero_le _, ?_⟩
      rintro other hother taken rfl
      have hlt := hbefore other hother event List.mem_cons_self
      exact Nat.le_of_lt (UInt64.lt_iff_toNat_lt.mp hlt)
    · rw [← Counters.lastOf_workspaceOffset]
      refine (Counters.lastOf_observeAll_le_iff .empty events _ .workspaceOffset _).mpr
        ⟨(Counters.lastOf_empty _ _).symm ▸ Nat.zero_le _, ?_⟩
      rintro other hother taken ⟨hsame, rfl⟩
      have hlt := hwithinBefore other hother event List.mem_cons_self hsame
      exact Nat.le_of_lt (UInt64.lt_iff_toNat_lt.mp hlt)

end RecoveryPoint

/-! ### Sync and replay -/

variable {β γ σ : Type} [Backend β] [LawfulBackend β] [Backend γ] [LawfulBackend γ] [LogSource σ]
  {partition : PartitionId}

namespace Checkpoint

/-- A checkpoint without rows is read as counters that know nothing. -/
theorem readPartition_of_free {store : γ}
    (hfree : ∀ key, (range partition).storedStart <+: key →
      (LawfulBackend.rows store)[key]? = none) :
    ∃ after, readPartition store partition = (.ok .empty, after) := by
  have hnothing : (range partition).Keeps (LawfulBackend.rows store)
      fun _ ↦ (none : Option StoredLast) := KeyRange.keeps_nothing hfree
  obtain ⟨counters, hread, hoffset, hkept⟩ :=
    readPartition_of_keeps hnothing fun _ _ hnone ↦ nomatch hnone
  obtain rfl : counters = .empty := by
    refine Counters.ext_kept? fun workspace kind ↦ ?_
    rcases kind with _ | _ | sequence
    · exact congrArg some hoffset
    · rw [hkept workspace .workspaceOffset (by simp)]
      simp [Counters.kept?, Counters.empty]
    · rw [hkept workspace (.id sequence) (by simp)]
      cases sequence <;> simp [Counters.kept?, Counters.ids, Counters.empty]
  obtain ⟨after, heq, -⟩ := readPartition_eq_rows store partition
  exact ⟨after, by rw [heq, hread]⟩

/-- A replay without a checkpoint observes the whole log. -/
theorem replay_of_free {store : γ}
    (hfree : ∀ key, (range partition).storedStart <+: key →
      (LawfulBackend.rows store)[key]? = none)
    {log : σ} {events : List Event} (hlog : RecoveryPoint.ReadsAs log partition events) :
    ∃ after, replay store log partition = (.ok (Counters.empty.observeAll events), after, log) := by
  obtain ⟨after, hread⟩ := readPartition_of_free hfree
  have hall : events.filter (Counters.empty.offset ≤ ·.offset) = events :=
    List.filter_eq_self.mpr fun event _ ↦ decide_eq_true UInt64.zero_le
  have hevents := hlog Counters.empty.offset
  rw [hall] at hevents
  refine ⟨after, ?_⟩
  simp only [replay, hread, hevents, observeReading]

end Checkpoint

namespace RecoveryPoint

theorem Mirrors.of_summarizes {point other : RecoveryPoint} {counters : Counters}
    {events : List Event} (h : point.Mirrors counters) (hpoint : point.Summarizes events)
    (hother : other.Summarizes events) : other.Mirrors counters := by
  have hworkspace (workspace : WorkspaceId) :
      other.workspaces[workspace]? = point.workspaces[workspace]? :=
    (hother.workspaces workspace).trans (hpoint.workspaces workspace).symm
  refine ⟨(hother.offset.trans hpoint.offset.symm).trans h.offset, ?_, ?_⟩
  · simpa only [hworkspace] using h.workspaceOffset
  · simpa only [hworkspace] using h.base

/-- **Recovery points and replayed counters agree.** Where offsets increase in the log and within each
workspace, the point that a sync stores where none was stored and the counters that a replay finds
without a checkpoint have the same offset, list the same workspaces besides the null one, and have the
same offset and the same numbers for each of them. -/
theorem sync_mirrors_replay {store : β} {checkpoints : γ}
    (hfree : ∀ key, (range partition).storedStart <+: key →
      (LawfulBackend.rows store)[key]? = none)
    (hcheckpoint : ∀ key, (Checkpoint.range partition).storedStart <+: key →
      (LawfulBackend.rows checkpoints)[key]? = none)
    {log : σ} {events : List Event} (hlog : ReadsAs log partition events)
    (hincreasing : IsIncreasing events) (hwithin : IncreasesWithin events) :
    ∃ reached synced stored counters replayed,
      RecoveryPoint.sync store log partition = (.ok reached, synced, log) ∧
      (RecoveryPoint.load synced partition).1 = .ok stored ∧
      Checkpoint.replay checkpoints log partition = (.ok counters, replayed, log) ∧
      stored.Mirrors counters ∧ counters.IsListed := by
  obtain ⟨reached, synced, hsync, hcovers⟩ := (covers_nothing hfree).sync
    (hlog : ReadsAs log partition ([] ++ events)) hincreasing
    fun _ hevent ↦ absurd hevent List.not_mem_nil
  obtain ⟨stored, hstored, -, -, hsummarizes⟩ := hcovers.load
  obtain ⟨_, hload, -⟩ := load_eq_rows synced partition
  obtain ⟨replayed, hreplay⟩ := Checkpoint.replay_of_free hcheckpoint hlog
  refine ⟨reached, synced, stored, _, replayed, hsync, ?_, hreplay, ?_, ?_⟩
  · rw [hload, hstored]
  · exact (mirrors_of_increasing partition hincreasing hwithin).of_summarizes
      ((summarizes_empty partition).foldl_incorporate events) hsummarizes
  · exact Counters.isListed_empty.observeAll events

/-- What the `scattered` rounds leave. -/
def scatteredSession : FileSession :=
  (runActions (FileSession.act ⟨1⟩) ⟨.empty "logs" default, none⟩ scattered.flatten).2

theorem readsAs_scattered : ReadsAs scatteredSession.log ⟨1⟩ varied := by
  have hkeeps (now : Instant) : ∃ last, scatteredSession.Keeps ⟨1⟩ now varied last := by
    obtain ⟨last, hstart⟩ := (synced_empty (rows_empty_free (range ⟨1⟩)) "logs" default).keeps now
    obtain ⟨last, hrun⟩ := hstart.run fun _ hevent ↦ (isStorable_scattered hevent).1
    have hkept : varied.map (Event.kept now) = varied := rfl
    rw [accepted_scattered, hkept, List.map_nil, List.nil_append] at hrun
    rw [scatteredSession]
    exact ⟨last, hrun⟩
  obtain ⟨last, hnow⟩ := hkeeps scatteredSession.log.now
  exact readsAs_of_keeps hnow

theorem scattered_mirrored :
    ∃ reached synced stored counters replayed,
      RecoveryPoint.sync Rows.empty scatteredSession.log ⟨1⟩ =
        (.ok reached, synced, scatteredSession.log) ∧
      (RecoveryPoint.load synced ⟨1⟩).1 = .ok stored ∧
      Checkpoint.replay Rows.empty scatteredSession.log ⟨1⟩ =
        (.ok counters, replayed, scatteredSession.log) ∧
      stored.Mirrors counters ∧ counters.IsListed := by
  have hincreasing : IsIncreasing varied := ⟨by decide, by decide⟩
  have hwithin : IncreasesWithin varied := by
    unfold IncreasesWithin
    decide
  exact sync_mirrors_replay (rows_empty_free (range ⟨1⟩))
    (rows_empty_free (Checkpoint.range ⟨1⟩)) readsAs_scattered hincreasing hwithin

end RecoveryPoint

end LogSequencing
