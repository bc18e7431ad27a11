import LogSequencing.Checkpoint.Batch
import LogSequencing.Proofs.Checkpoint.Rows
import Mathlib.Data.List.Induction

/-!
# What a batch writes

A batch writes the last numbers of the workspaces that it touches, null record numbers left out, and
the last offset of the partition (`Batch.numberOf?`). Written over stored counters, those numbers
replace the ones stored and leave all others alone (`Batch.kept?_putRows`).

Events leave the counters as they stood when each was finished (`Counters.leavings`). A batch of what
a stretch of a log left brings the counters of the log before the stretch up to those of the log with
the stretch (`Counters.putRows_batchOf`).
-/

set_option autoImplicit false
set_option relaxedAutoImplicit false

namespace LogSequencing

/-- What is left of a sequence to be checkpointed. -/
def FinishedEvent.number (event : FinishedEvent) : SequenceKind → UInt64
  | .offset => event.offset.val
  | .workspaceOffset => event.workspaceOffset.val
  | .id .ordinary => event.ordinaryId.val
  | .id .compacting => event.compactingId.val

namespace Batch

/-- Some event merged was in the workspace. -/
def Touches (batch : Batch) (workspace : WorkspaceId) : Prop :=
  workspace ∈ batch.last.workspaceOffsets

instance (batch : Batch) (workspace : WorkspaceId) : Decidable (batch.Touches workspace) :=
  inferInstanceAs (Decidable (workspace ∈ batch.last.workspaceOffsets))

/-- The number that the batch writes for a sequence, if any. -/
def numberOf? (batch : Batch) (workspace : WorkspaceId) : SequenceKind → Option UInt64
  | .offset => some batch.last.offset.val
  | .workspaceOffset => batch.last.workspaceOffsets[workspace]?.map Serial.val
  | .id sequence =>
    if batch.Touches workspace ∧ batch.last.lastId sequence workspace ≠ .null then
      some (batch.last.lastId sequence workspace).val
    else none

/-- A batch of finished events. -/
def ofEvents (events : List FinishedEvent) : Batch := events.foldl merge empty

/-- Counters with all rows of a batch put in. -/
def putRows (batch : Batch) (counters : Counters) : Counters :=
  batch.rows.foldl Checkpoint.putRow counters

theorem ofEvents_append_singleton (events : List FinishedEvent) (event : FinishedEvent) :
    ofEvents (events ++ [event]) = (ofEvents events).merge event := List.foldl_append

/-- The length of the list is in the batch, so the events of successive batches can be told apart. -/
theorem count_ofEvents (events : List FinishedEvent) : (ofEvents events).count = events.length := by
  induction events using List.reverseRecOn with
  | nil => rfl
  | append_singleton events event ih =>
    rw [ofEvents_append_singleton, List.length_append, ← ih]
    rfl

/-! ### The rows of a batch -/

theorem mem_idRow?_iff (batch : Batch) (workspace : WorkspaceId) (sequence : IdSequence)
    (row : CheckpointRow) : row ∈ (batch.idRow? workspace sequence).toList ↔
      batch.last.lastId sequence workspace ≠ .null ∧
        row = ⟨workspace, .id sequence, (batch.last.lastId sequence workspace).val⟩ := by
  have hisNull : (batch.last.lastId sequence workspace).isNull = true ↔
      batch.last.lastId sequence workspace = .null := beq_iff_eq
  simp only [idRow?]
  split_ifs with hnull
  · rw [hisNull] at hnull
    exact iff_of_false List.not_mem_nil fun h ↦ h.1 hnull
  · rw [hisNull] at hnull
    rw [and_iff_right hnull, Option.toList_some, List.mem_singleton]

/-- The rows of a batch are the numbers that it writes. -/
theorem mem_rows_iff (batch : Batch) (row : CheckpointRow) :
    row ∈ batch.rows ↔ row.IsPlaced ∧ batch.numberOf? row.workspace row.kind = some row.last := by
  obtain ⟨workspace, kind, last⟩ := row
  have htouched : ∀ number : Offset,
      (workspace, number) ∈ batch.last.workspaceOffsets.toList ↔
        batch.last.workspaceOffsets[workspace]? = some number := fun _ ↦
    Std.ExtTreeMap.mem_toList_iff_getElem?_eq_some
  rw [rows, List.mem_append, List.mem_flatMap, List.mem_singleton, Prod.exists]
  simp only [workspaceRows, List.mem_cons, List.mem_append, mem_idRow?_iff, CheckpointRow.mk.injEq]
  rcases kind with _ | _ | sequence
  · simp [CheckpointRow.IsPlaced, numberOf?, eq_comm]
  · simp only [reduceCtorEq, false_and, and_false, or_false, CheckpointRow.IsPlaced,
      IsEmpty.forall_iff, true_and, numberOf?, Option.map_eq_some_iff]
    refine ⟨?_, fun ⟨number, hnumber, hlast⟩ ↦
      ⟨workspace, number, (htouched number).mpr hnumber, rfl, hlast.symm⟩⟩
    rintro ⟨_, number, hmem, rfl, rfl⟩
    exact ⟨number, (htouched number).mp hmem, rfl⟩
  · have htouches : batch.Touches workspace ↔
        ∃ number : Offset, (workspace, number) ∈ batch.last.workspaceOffsets.toList := by
      simp only [htouched]
      exact Std.ExtTreeMap.mem_iff_isSome_getElem?.trans Option.isSome_iff_exists
    have hnumber : batch.numberOf? workspace (.id sequence) = some last ↔
        batch.Touches workspace ∧ batch.last.lastId sequence workspace ≠ .null ∧
          last = (batch.last.lastId sequence workspace).val := by
      rw [numberOf?]
      split_ifs with hwritten
      · rw [Option.some_inj, ← and_assoc, and_iff_right hwritten, eq_comm]
      · rw [← and_assoc]
        exact iff_of_false not_false fun h ↦ hwritten h.1
    rw [hnumber, htouches]
    cases sequence <;>
      simp only [CheckpointRow.IsPlaced, reduceCtorEq, SequenceKind.id.injEq, false_and, and_false,
        false_or, or_false, IsEmpty.forall_iff, true_and]
    all_goals
      constructor
      · rintro ⟨_, number, hmem, hnull, rfl, hlast⟩
        exact ⟨⟨number, hmem⟩, hnull, hlast⟩
      · rintro ⟨⟨number, hmem⟩, hnull, hlast⟩
        exact ⟨workspace, number, hmem, hnull, rfl, hlast⟩

theorem isPlaced_of_mem_rows {batch : Batch} {row : CheckpointRow} (h : row ∈ batch.rows) :
    row.IsPlaced := ((mem_rows_iff batch row).mp h).1

/-! ### Writing a batch over counters -/

theorem kept?_foldl_putRow (rows : List CheckpointRow) (counters : Counters)
    (workspace : WorkspaceId) (kind : SequenceKind) (number? : Option UInt64)
    (hrows : ∀ row ∈ rows, row.kind = kind → (kind = .offset ∨ row.workspace = workspace) →
      number? = some row.last)
    (hnumber : ∀ last, number? = some last → counters.kept? workspace kind = some last ∨
      ∃ row ∈ rows, row.kind = kind ∧ (kind = .offset ∨ row.workspace = workspace)) :
    (rows.foldl Checkpoint.putRow counters).kept? workspace kind =
      number?.or (counters.kept? workspace kind) := by
  induction rows generalizing counters with
  | nil =>
    cases number? with
    | none => rfl
    | some last => exact (hnumber last rfl).resolve_right fun ⟨_, hmem, _⟩ ↦ nomatch hmem
  | cons row rows ih =>
    have hput : (Checkpoint.putRow counters row).kept? workspace kind =
        if row.kind = kind ∧ (kind = .offset ∨ row.workspace = workspace) then some row.last
        else counters.kept? workspace kind := by
      refine (Counters.kept?_setLast ..).trans (if_congr (and_congr_right fun hkind ↦ ?_) rfl rfl)
      rw [hkind]
    have hrest := fun other hother ↦ hrows other (List.mem_cons_of_mem row hother)
    rw [List.foldl_cons]
    by_cases hhere : row.kind = kind ∧ (kind = .offset ∨ row.workspace = workspace)
    · have hlast := hrows row List.mem_cons_self hhere.1 hhere.2
      rw [if_pos hhere] at hput
      rw [ih _ hrest fun last hsome ↦ Or.inl (hput.trans (hlast.symm.trans hsome)), hlast]
      rfl
    · rw [if_neg hhere] at hput
      rw [ih _ hrest, hput]
      intro last hsome
      rw [hput]
      refine (hnumber last hsome).imp_right ?_
      rintro ⟨other, hother, hthere⟩
      rcases List.mem_cons.mp hother with rfl | hother
      · exact absurd hthere hhere
      · exact ⟨other, hother, hthere⟩

/-- What a batch writes replaces what was kept, and all else is kept. -/
theorem kept?_putRows (batch : Batch) (counters : Counters) (workspace : WorkspaceId)
    (kind : SequenceKind) : (batch.putRows counters).kept? workspace kind =
      (batch.numberOf? workspace kind).or (counters.kept? workspace kind) := by
  refine kept?_foldl_putRow _ counters workspace kind _ (fun row hrow hkind hplace ↦ ?_)
    fun last hnumber ↦ Or.inr ?_
  · have hlast := ((mem_rows_iff batch row).mp hrow).2
    rcases hplace with rfl | rfl
    · rw [hkind] at hlast
      exact hlast
    · rw [← hkind]
      exact hlast
  · by_cases hkind : kind = .offset
    · subst hkind
      exact ⟨⟨.null, .offset, last⟩, (mem_rows_iff batch _).mpr ⟨fun _ ↦ rfl, hnumber⟩, rfl,
        Or.inl rfl⟩
    · exact ⟨⟨workspace, kind, last⟩, (mem_rows_iff batch _).mpr
        ⟨fun h ↦ absurd h hkind, hnumber⟩, rfl, Or.inr rfl⟩

theorem lastOf_of_numberOf? {batch : Batch} {workspace : WorkspaceId} {kind : SequenceKind}
    {last : UInt64} (h : batch.numberOf? workspace kind = some last) :
    batch.last.lastOf workspace kind = last.toNat := by
  rcases kind with _ | _ | sequence
  · rw [Counters.lastOf, ← Option.some.inj h]
    rfl
  · have hkept : batch.last.kept? workspace .workspaceOffset = some last := h
    rw [Counters.lastOf, hkept]
    rfl
  · rw [numberOf?] at h
    split_ifs at h
    rw [Counters.lastOf_id, Option.some.inj h]

/-- A batch either sets the last number of a sequence or leaves it alone. -/
theorem lastOf_putRows_cases (batch : Batch) (counters : Counters) (workspace : WorkspaceId)
    (kind : SequenceKind) :
    (batch.numberOf? workspace kind = none ∧
        (batch.putRows counters).lastOf workspace kind = counters.lastOf workspace kind) ∨
      (batch.putRows counters).lastOf workspace kind = batch.last.lastOf workspace kind := by
  rw [Counters.lastOf, kept?_putRows]
  cases hnumber : batch.numberOf? workspace kind with
  | none => exact Or.inl ⟨rfl, rfl⟩
  | some last => exact Or.inr (lastOf_of_numberOf? hnumber).symm

theorem lastOf_putRows_le {batch : Batch} {counters : Counters} {workspace : WorkspaceId}
    {kind : SequenceKind} {n : Nat} (hcounters : counters.lastOf workspace kind ≤ n)
    (hbatch : batch.last.lastOf workspace kind ≤ n) :
    (batch.putRows counters).lastOf workspace kind ≤ n := by
  rcases batch.lastOf_putRows_cases counters workspace kind with ⟨-, h⟩ | h
  · exact h.trans_le hcounters
  · exact h.trans_le hbatch

theorem lastOf_putRows_of_not_touches {batch : Batch} {workspace : WorkspaceId}
    (h : ¬ batch.Touches workspace) (counters : Counters) {kind : SequenceKind}
    (hkind : kind ≠ .offset) :
    (batch.putRows counters).lastOf workspace kind = counters.lastOf workspace kind := by
  have hnone : batch.numberOf? workspace kind = none := by
    rcases kind with _ | _ | sequence
    · exact absurd rfl hkind
    · exact Option.map_eq_none_iff.mpr (Std.ExtTreeMap.getElem?_eq_none h)
    · exact if_neg fun hwritten ↦ h hwritten.1
  rw [Counters.lastOf, kept?_putRows, hnone]
  rfl

theorem lastOf_putRows_of_touches {batch : Batch} {counters : Counters} {workspace : WorkspaceId}
    {kind : SequenceKind} (h : kind = .offset ∨ batch.Touches workspace)
    (hle : counters.lastOf workspace kind ≤ batch.last.lastOf workspace kind) :
    (batch.putRows counters).lastOf workspace kind = batch.last.lastOf workspace kind := by
  rcases batch.lastOf_putRows_cases counters workspace kind with ⟨hnone, hsame⟩ | hset
  · rw [hsame]
    refine Nat.le_antisymm hle ?_
    -- Nothing is written for a workspace that the batch touches only where the number is null.
    rcases kind with _ | _ | sequence
    · exact absurd hnone (Option.some_ne_none _)
    · have htouches : batch.last.workspaceOffsets[workspace]?.isSome :=
        Std.ExtTreeMap.mem_iff_isSome_getElem?.mp (h.resolve_left nofun)
      rw [Option.map_eq_none_iff.mp hnone] at htouches
      exact absurd htouches Bool.false_ne_true
    · rw [numberOf?] at hnone
      split_ifs at hnone with hwritten
      rw [Counters.lastOf_id, not_not.mp fun hnull ↦ hwritten ⟨h.resolve_left nofun, hnull⟩]
      exact Nat.zero_le _
  · exact hset

/-! ### What events leave -/

theorem kept?_merge (batch : Batch) (event : FinishedEvent) (workspace : WorkspaceId)
    (kind : SequenceKind) : (batch.merge event).last.kept? workspace kind =
      if kind = .offset ∨ event.workspace = workspace then some (event.number kind)
      else batch.last.kept? workspace kind := by
  have hlast : (batch.merge event).last =
      SequenceKind.all.foldl
        (fun last kind ↦ Checkpoint.setLast last event.workspace kind (event.number kind))
        batch.last := rfl
  rw [hlast]
  simp only [SequenceKind.all, List.foldl_cons, List.foldl_nil, Counters.kept?_setLast]
  rcases kind with _ | _ | _ | _ <;> by_cases hworkspace : event.workspace = workspace <;>
    simp [hworkspace]

theorem touches_merge_iff (batch : Batch) (event : FinishedEvent) (workspace : WorkspaceId) :
    (batch.merge event).Touches workspace ↔
      event.workspace = workspace ∨ batch.Touches workspace :=
  Std.ExtTreeMap.mem_insert.trans (or_congr_left Std.LawfulEqCmp.compare_eq_iff_eq)

end Batch

namespace Counters

/-- What is left to be checkpointed when an event of a workspace is finished. -/
def leaving (counters : Counters) (workspace : WorkspaceId) : FinishedEvent where
  offset := counters.offset
  workspace
  workspaceOffset := counters.workspaceOffset workspace
  ordinaryId := counters.lastId .ordinary workspace
  compactingId := counters.lastId .compacting workspace

theorem toNat_number_leaving (counters : Counters) (workspace : WorkspaceId)
    (kind : SequenceKind) :
    ((counters.leaving workspace).number kind).toNat = counters.lastOf workspace kind := by
  rcases kind with _ | _ | _ | _
  · rfl
  · exact (lastOf_workspaceOffset counters workspace).symm
  · exact (lastOf_id counters workspace .ordinary).symm
  · exact (lastOf_id counters workspace .compacting).symm

/-- What events leave one after the other. -/
def leavings : Counters → List Event → List FinishedEvent
  | _, [] => []
  | counters, event :: events =>
    (counters.observe event).leaving event.workspace :: leavings (counters.observe event) events

theorem leavings_append (counters : Counters) (first second : List Event) :
    counters.leavings (first ++ second) =
      counters.leavings first ++ (counters.observeAll first).leavings second := by
  induction first generalizing counters with
  | nil => rfl
  | cons event first ih => exact congrArg (_ :: ·) (ih (counters.observe event))

/-- The batch of what events leave one after the other. -/
def batchOf (counters : Counters) (events : List Event) : Batch :=
  .ofEvents (counters.leavings events)

theorem count_batchOf (counters : Counters) (events : List Event) :
    (counters.batchOf events).count = events.length := by
  have hlength : ∀ counters : Counters, (counters.leavings events).length = events.length := by
    induction events with
    | nil => exact fun _ ↦ rfl
    | cons event events ih => exact fun counters ↦ congrArg (· + 1) (ih (counters.observe event))
  rw [batchOf, Batch.count_ofEvents, hlength]

theorem batchOf_append_singleton (counters : Counters) (events : List Event) (event : Event) :
    counters.batchOf (events ++ [event]) = (counters.batchOf events).merge
      ((counters.observeAll (events ++ [event])).leaving event.workspace) := by
  rw [batchOf, leavings_append, observeAll_append]
  exact Batch.ofEvents_append_singleton _ _

theorem lastOf_observe_of_ne (counters : Counters) {event : Event} {workspace : WorkspaceId}
    (h : event.workspace ≠ workspace) {kind : SequenceKind} (hkind : kind ≠ .offset) :
    (counters.observe event).lastOf workspace kind = counters.lastOf workspace kind := by
  have hnone : ∀ taken, ¬ event.usage.Takes workspace kind taken := by
    rcases kind with _ | _ | sequence
    · exact absurd rfl hkind
    · exact fun _ htakes ↦ h htakes.1
    · exact fun _ htakes ↦ h htakes.1
  have hraised := fun n ↦ raised_observe counters event workspace kind n
  exact Nat.le_antisymm
    ((hraised _).mpr ⟨Nat.le_refl _, fun taken htakes ↦ absurd htakes (hnone taken)⟩)
    ((hraised _).mp (Nat.le_refl _)).1

theorem touches_batchOf_iff (counters : Counters) (events : List Event)
    (workspace : WorkspaceId) : (counters.batchOf events).Touches workspace ↔
      ∃ event ∈ events, event.workspace = workspace := by
  induction events using List.reverseRecOn with
  | nil =>
    have hempty : ¬ (counters.batchOf []).Touches workspace := Std.ExtTreeMap.not_mem_empty
    simp [hempty]
  | append_singleton events event ih =>
    rw [batchOf_append_singleton, Batch.touches_merge_iff, ih, or_comm]
    simp [leaving, or_and_right, exists_or]

/-- A batch holds the last numbers of the workspaces that it touches. -/
theorem lastOf_batchOf {counters : Counters} {events : List Event} {workspace : WorkspaceId}
    {kind : SequenceKind}
    (h : (kind = .offset ∧ events ≠ []) ∨ (counters.batchOf events).Touches workspace) :
    (counters.batchOf events).last.lastOf workspace kind =
      (counters.observeAll events).lastOf workspace kind := by
  induction events using List.reverseRecOn with
  | nil =>
    exact (h.elim (fun h ↦ h.2 rfl) Std.ExtTreeMap.not_mem_empty).elim
  | append_singleton events event ih =>
    rw [batchOf_append_singleton, Batch.touches_merge_iff] at h
    rw [batchOf_append_singleton, lastOf, Batch.kept?_merge]
    split_ifs with hhere
    · refine (toNat_number_leaving _ event.workspace kind).trans ?_
      rcases hhere with rfl | rfl
      · rfl
      · rfl
    · obtain ⟨hkind, hne⟩ := not_or.mp hhere
      have htouches : (counters.batchOf events).Touches workspace :=
        (h.resolve_left fun h ↦ hkind h.1).resolve_left hne
      rw [observeAll_append]
      exact (ih (Or.inr htouches)).trans (lastOf_observe_of_ne _ hne hkind).symm

theorem pos_of_mem (counters : Counters) {events : List Event} {event : Event}
    (hevent : event ∈ events) (hproper : event.usage.IsProper) :
    0 < (counters.observeAll events).lastOf event.workspace .workspaceOffset := by
  have htaken : event.workspaceOffset.val.toNat ≤
      (counters.observeAll events).lastOf event.workspace .workspaceOffset :=
    taken_le_observeAll counters hevent ⟨rfl, rfl⟩
  have hne : event.workspaceOffset.val.toNat ≠ 0 := fun hzero ↦
    hproper.1 (Serial.eq_of_toNat_eq hzero)
  exact Nat.lt_of_lt_of_le (Nat.pos_of_ne_zero hne) htaken

/-- Counters stay tight when a batch of what proper events left is written over them. -/
theorem IsTight.putRows {base : Counters} (h : base.IsTight) (counters : Counters)
    {events : List Event} (hproper : ∀ event ∈ events, event.usage.IsProper) :
    ((counters.batchOf events).putRows base).IsTight := by
  intro workspace kind hkind
  rw [Batch.kept?_putRows]
  cases hnumber : (counters.batchOf events).numberOf? workspace kind with
  | none => exact h workspace kind hkind
  | some last =>
    rintro hzero
    obtain rfl : last = 0 := Option.some.inj hzero
    have hlast := Batch.lastOf_of_numberOf? hnumber
    rcases kind with _ | _ | sequence
    · exact hkind rfl
    · have htouches : (counters.batchOf events).Touches workspace := by
        obtain ⟨number, hsome, -⟩ := Option.map_eq_some_iff.mp hnumber
        exact Std.ExtTreeMap.mem_iff_isSome_getElem?.mpr (hsome ▸ rfl)
      obtain ⟨event, hevent, rfl⟩ := (touches_batchOf_iff ..).mp htouches
      have hpos := pos_of_mem counters hevent (hproper event hevent)
      rw [← lastOf_batchOf (Or.inr htouches), hlast] at hpos
      exact Nat.lt_irrefl 0 hpos
    · rw [Batch.numberOf?] at hnumber
      split_ifs at hnumber with hwritten
      exact hwritten.2 (congrArg Serial.mk (Option.some.inj hnumber))

/-- A batch of what a stretch of a log left brings the counters up to the end of the stretch. -/
theorem putRows_batchOf {counters : Counters} (htight : counters.IsTight) {events : List Event}
    (hproper : ∀ event ∈ events, event.usage.IsProper) (hne : events ≠ []) :
    (counters.batchOf events).putRows counters = counters.observeAll events := by
  refine (htight.putRows counters hproper).ext (htight.observeAll hproper) fun workspace kind ↦ ?_
  have hle := lastOf_le_observeAll counters events workspace kind
  by_cases hwritten : kind = .offset ∨ (counters.batchOf events).Touches workspace
  · have hlast := lastOf_batchOf (hwritten.imp_left fun hkind ↦ ⟨hkind, hne⟩)
    rw [Batch.lastOf_putRows_of_touches hwritten (hlast ▸ hle), hlast]
  · obtain ⟨hkind, htouches⟩ := not_or.mp hwritten
    rw [Batch.lastOf_putRows_of_not_touches htouches _ hkind]
    rw [touches_batchOf_iff] at htouches
    refine Nat.le_antisymm hle ((lastOf_observeAll_le_iff ..).mpr ⟨Nat.le_refl _, ?_⟩)
    intro event hevent taken htakes
    rcases kind with _ | _ | sequence
    · exact absurd rfl hkind
    · exact absurd ⟨event, hevent, htakes.1⟩ htouches
    · exact absurd ⟨event, hevent, htakes.1⟩ htouches

end Counters

end LogSequencing
