import LogSequencing.Proofs.Checkpoint.Batch
import LogSequencing.Proofs.Life

/-!
# Events in the making

While an event is built, the counters run ahead of the log: they are those from before the event,
raised to cover what has been handed out for it (`Drafted`). Each number handed out is the next one of
its sequence, so the numbers of the event are new to its base, differ from one another and leave no
gap. Once an event that fits is in the log, the counters are again those that the log comes to.
-/

set_option autoImplicit false
set_option relaxedAutoImplicit false

namespace LogSequencing

namespace Counters

theorem Below.trans {first second third : Counters} (h : first.Below second)
    (hother : second.Below third) : first.Below third :=
  fun workspace kind ↦ (h workspace kind).trans (hother workspace kind)

theorem Below.observe {counters other : Counters} (h : counters.Below other) (event : Event) :
    (counters.observe event).Below (other.observe event) := fun workspace kind ↦ by
  obtain ⟨hother, htaken⟩ :=
    (raised_observe other event workspace kind _).mp (Nat.le_refl _)
  exact (raised_observe counters event workspace kind _).mpr
    ⟨(h workspace kind).trans hother, htaken⟩

theorem below_observeAll (counters : Counters) (events : List Event) :
    counters.Below (counters.observeAll events) := lastOf_le_observeAll counters events

end Counters

/-- The counters while an event is built on `base`. -/
structure Drafted (base : Counters) (usage : Usage) (counters : Counters) : Prop where
  raised : base.Raised usage counters
  offset : usage.offset.val.toNat = base.offset.val.toNat + 1
  workspaceOffset :
    usage.workspaceOffset.val.toNat = base.lastOf usage.workspace .workspaceOffset + 1
  fresh : ∀ used ∈ usage.ids, base.lastOf usage.workspace (.id used.1) < used.2.val.toNat
  nodup : usage.ids.Nodup
  full : ∀ sequence n, base.lastOf usage.workspace (.id sequence) < n →
    n ≤ counters.lastOf usage.workspace (.id sequence) →
    ∃ id, (sequence, id) ∈ usage.ids ∧ id.val.toNat = n
  tight : base.IsTight → counters.IsTight

theorem Serial.ne_null_of_pos {space : Space} {n : Serial space} (h : 0 < n.val.toNat) :
    n ≠ .null := by
  rintro rfl
  exact Nat.lt_irrefl 0 h

theorem val_ne_zero_of_next? {space : Space} {n next : Serial space} (h : n.next? = some next) :
    next.val ≠ 0 := by
  have hpos : 0 < next.val.toNat := Serial.toNat_of_next? h ▸ Nat.succ_pos _
  exact fun hzero ↦ Serial.ne_null_of_pos hpos (congrArg Serial.mk hzero)

/-- The counters when an event's offsets are taken. -/
theorem reserved_eq_setLast (base : Counters) (workspace : WorkspaceId) (offset last : Offset) :
    { base with offset, workspaceOffsets := base.workspaceOffsets.insert workspace last } =
      Checkpoint.setLast (Checkpoint.setLast base workspace .offset offset.val)
        workspace .workspaceOffset last.val := rfl

theorem drafted_reserve {base : Counters} {workspace : WorkspaceId} {offset last : Offset}
    (hoffset : base.offset.next? = some offset)
    (hlast : (base.workspaceOffset workspace).next? = some last) :
    Drafted base ⟨offset, workspace, last, []⟩
      { base with
        offset, workspaceOffsets := base.workspaceOffsets.insert workspace last } := by
  have hoffsetNat := Serial.toNat_of_next? hoffset
  have hlastNat := Serial.toNat_of_next? hlast
  rw [← Counters.lastOf_workspaceOffset] at hlastNat
  rw [reserved_eq_setLast]
  refine ⟨fun other kind n ↦ ?_, hoffsetNat, hlastNat, nofun, List.nodup_nil,
    fun sequence n hlt hle ↦ ?_, fun htight ↦ ?_⟩
  · rw [Counters.lastOf_setLast, Counters.lastOf_setLast]
    rcases kind with _ | _ | sequence
    · simp only [reduceCtorEq, false_and, if_false, true_or, and_self, if_true, Usage.Takes,
        forall_eq, Counters.lastOf_offset]
      omega
    · by_cases hworkspace : workspace = other
      · subst hworkspace
        simp only [or_true, and_self, if_true, Usage.Takes, true_and, forall_eq]
        omega
      · simp [Usage.Takes, hworkspace]
    · simp [Usage.Takes]
  · rw [Counters.lastOf_setLast, Counters.lastOf_setLast] at hle
    simp only [reduceCtorEq, false_and, if_false] at hle
    exact absurd hlt (Nat.not_lt_of_le hle)
  · exact (htight.setLast workspace fun h ↦ absurd rfl h).setLast workspace
      fun _ ↦ val_ne_zero_of_next? hlast

/-- The counters when a record number is taken. -/
theorem taken_eq_setLast (counters : Counters) (workspace : WorkspaceId) (sequence : IdSequence)
    (id : RecordId) :
    counters.setIds sequence ((counters.ids sequence).insert workspace id) =
      Checkpoint.setLast counters workspace (.id sequence) id.val := rfl

theorem Drafted.takeId {base counters : Counters} {usage : Usage}
    (h : Drafted base usage counters) {sequence : IdSequence} {id : RecordId}
    (hid : (counters.lastId sequence usage.workspace).next? = some id) :
    Drafted base { usage with ids := usage.ids ++ [(sequence, id)] }
      (counters.setIds sequence ((counters.ids sequence).insert usage.workspace id)) := by
  have hidNat := Serial.toNat_of_next? hid
  rw [← Counters.lastOf_id] at hidNat
  obtain ⟨hbase, htaken⟩ := (h.raised usage.workspace (.id sequence) _).mp (Nat.le_refl _)
  rw [taken_eq_setLast]
  refine ⟨fun other kind n ↦ ?_, h.offset, h.workspaceOffset, fun used hused ↦ ?_, ?_,
    fun otherSequence n hlt hle ↦ ?_, fun htight ↦ (h.tight htight).setLast usage.workspace
      fun _ ↦ val_ne_zero_of_next? hid⟩
  · have hraised := h.raised other kind n
    rw [Counters.lastOf_setLast]
    by_cases hhere : .id sequence = kind ∧ usage.workspace = other
    · rw [if_pos ⟨hhere.1, Or.inr hhere.2⟩]
      obtain ⟨rfl, rfl⟩ := hhere
      refine ⟨fun hle ↦ ?_, fun hall ↦ ?_⟩
      · obtain ⟨hbaseLe, htakenLe⟩ := hraised.mp (by omega)
        refine ⟨hbaseLe, ?_⟩
        rintro taken ⟨hworkspace, other, hother, rfl⟩
        rcases List.mem_append.mp hother with hother | hother
        · exact htakenLe _ ⟨hworkspace, other, hother, rfl⟩
        · obtain ⟨-, rfl⟩ := Prod.mk.inj (List.mem_singleton.mp hother)
          exact hle
      · exact hall.2 _ ⟨rfl, id, List.mem_append_right _ List.mem_cons_self, rfl⟩
    · rw [if_neg fun hsame ↦ hhere ⟨hsame.1, hsame.2.resolve_left nofun⟩, hraised]
      refine and_congr_right fun _ ↦ forall_congr' fun taken ↦ imp_congr_left ?_
      rcases kind with _ | _ | otherSequence
      · rfl
      · rfl
      · refine and_congr_right fun hworkspace ↦ exists_congr fun other ↦ and_congr_left fun _ ↦ ?_
        rw [List.mem_append, List.mem_singleton, or_iff_left]
        rintro hsame
        exact hhere ⟨congrArg SequenceKind.id (Prod.mk.inj hsame).1.symm, hworkspace⟩
  · rcases List.mem_append.mp hused with hused | hused
    · exact h.fresh used hused
    · rw [List.mem_singleton.mp hused, hidNat]
      exact Nat.lt_succ_of_le hbase
  · refine List.nodup_append.mpr ⟨h.nodup, List.nodup_singleton _, fun used hused other hother ↦ ?_⟩
    rintro rfl
    rw [List.mem_singleton.mp hother] at hused
    have hle := htaken _ ⟨rfl, id, hused, rfl⟩
    omega
  · rw [Counters.lastOf_setLast] at hle
    by_cases hsequence : sequence = otherSequence
    · subst hsequence
      rw [if_pos ⟨rfl, Or.inr rfl⟩] at hle
      by_cases hlast : n = id.val.toNat
      · exact ⟨id, List.mem_append_right _ List.mem_cons_self, hlast.symm⟩
      · obtain ⟨other, hother, hnumber⟩ := h.full sequence n hlt (by omega)
        exact ⟨other, List.mem_append_left _ hother, hnumber⟩
    · rw [if_neg fun hsame ↦ hsequence (SequenceKind.id.inj hsame.1)] at hle
      obtain ⟨other, hother, hnumber⟩ := h.full otherSequence n hlt hle
      exact ⟨other, List.mem_append_left _ hother, hnumber⟩

/-! ### Commits -/

/-- A category of the sequence. -/
def IdSequence.category : IdSequence → Category
  | ordinary => .wDoc
  | compacting => .cDoc

/-- An event that creates a record for each number handed out for it. -/
def Usage.toEvent (usage : Usage) : Event where
  offset := usage.offset
  time := default
  workspace := usage.workspace
  workspaceOffset := usage.workspaceOffset
  mutations := usage.ids.map fun used ↦ ⟨used.2, used.1.category, true⟩
  arguments := []

theorem Usage.usage_toEvent (usage : Usage) : usage.toEvent.usage = usage := by
  have hused : ∀ used : IdSequence × RecordId,
      Mutation.usedId? ⟨used.2, used.1.category, true⟩ = some used := by
    rintro ⟨_ | _, _⟩ <;> rfl
  have hids : usage.toEvent.usedIds = usage.ids := by
    simp only [Event.usedIds, toEvent, List.filterMap_map, Function.comp_def, hused,
      List.filterMap_some, List.map_nil, List.append_nil]
  rw [Event.usage, hids]
  rfl

theorem Usage.toEvent_fits (usage : Usage) : usage.toEvent.Fits usage :=
  ⟨rfl, rfl, rfl, .of_eq (congrArg Usage.ids usage.usage_toEvent)⟩

theorem Event.Fits.takes_iff {event : Event} {usage : Usage} (h : event.Fits usage)
    (workspace : WorkspaceId) (kind : SequenceKind) (n : Nat) :
    event.usage.Takes workspace kind n ↔ usage.Takes workspace kind n := by
  obtain ⟨hoffset, hworkspace, hworkspaceOffset, hids⟩ := h
  rcases kind with _ | _ | sequence
  · simp only [Usage.Takes, Event.usage, hoffset]
  · simp only [Usage.Takes, Event.usage, hworkspace, hworkspaceOffset]
  · simp only [Usage.Takes, Event.usage, hworkspace, hids.mem_iff]

/-- The event that fits takes what brings the counters from the base to where they are. -/
theorem Drafted.raised_event {base counters : Counters} {usage : Usage} {event : Event}
    (h : Drafted base usage counters) (hfits : event.Fits usage) :
    base.Raised event.usage counters := fun workspace kind n ↦ by
  rw [h.raised workspace kind n]
  simp only [hfits.takes_iff]

theorem Drafted.isProper {base counters : Counters} {usage : Usage} {event : Event}
    (h : Drafted base usage counters) (hfits : event.Fits usage) : event.usage.IsProper := by
  obtain ⟨-, -, hworkspaceOffset, hids⟩ := hfits
  refine ⟨Serial.ne_null_of_pos ?_, fun used hused ↦ Serial.ne_null_of_pos ?_⟩
  · rw [show event.usage.workspaceOffset = _ from hworkspaceOffset, h.workspaceOffset]
    exact Nat.succ_pos _
  · exact Nat.zero_lt_of_lt (h.fresh used (hids.mem_iff.mp hused))

theorem Drafted.below_observe {base counters : Counters} {usage : Usage} {event : Event}
    (h : Drafted base usage counters) (hfits : event.Fits usage) :
    counters.Below (base.observe event) ∧ (base.observe event).Below counters := by
  have hraised := h.raised_event hfits
  have hobserve := Counters.raised_observe base event
  exact ⟨fun workspace kind ↦ (hraised ..).mpr ((hobserve ..).mp (Nat.le_refl _)),
    fun workspace kind ↦ (hobserve ..).mpr ((hraised ..).mp (Nat.le_refl _))⟩

theorem Drafted.eq_observe {base counters : Counters} {usage : Usage} {event : Event}
    (h : Drafted base usage counters) (hfits : event.Fits usage) (htight : base.IsTight) :
    counters = base.observe event :=
  (h.raised_event hfits).eq (Counters.raised_observe base event) (h.tight htight)
    (htight.observe (h.isProper hfits))

end LogSequencing
