import LogSequencing.Checkpoint.View
import LogSequencing.Proofs.Serial
import Mathlib.Order.Lattice.Nat
import Mathlib.Order.MinMax
import Mathlib.Order.WithBot

/-!
# What counters know

Counters are read sequence by sequence: `kept?` is the number that they hold for a sequence, if any,
and `held` the same as a natural number, with nothing below zero. Counters are determined by what they
hold. In `lastOf` nothing counts as zero, which determines only counters that hold no null number
(`IsTight`).

Observing an event raises the counters just enough to cover what the event took
(`held_observe_le_iff`), and observing a log just enough to cover what its events took
(`held_observeAll_le_iff`). So neither the order of events nor how often one is observed matters
(`observeAll_congr`).
-/

set_option autoImplicit false
set_option relaxedAutoImplicit false

namespace LogSequencing

/-- The numbers that an event takes from the sequences of its partition and its workspace. -/
structure Usage where
  offset : Offset
  workspace : WorkspaceId
  workspaceOffset : Offset
  ids : List (IdSequence × RecordId)
deriving DecidableEq, Repr

namespace Usage

/-- The usage takes a number from a sequence. -/
def Takes (usage : Usage) (workspace : WorkspaceId) : SequenceKind → Nat → Prop
  | .offset, n => n = usage.offset.val.toNat
  | .workspaceOffset, n => usage.workspace = workspace ∧ n = usage.workspaceOffset.val.toNat
  | .id sequence, n =>
    usage.workspace = workspace ∧ ∃ id, (sequence, id) ∈ usage.ids ∧ n = id.val.toNat

/-- None of the numbers taken is null. -/
def IsProper (usage : Usage) : Prop :=
  usage.workspaceOffset ≠ .null ∧ ∀ used ∈ usage.ids, used.2 ≠ .null

end Usage

/-- What an event took. -/
def Event.usage (event : Event) : Usage :=
  ⟨event.offset, event.workspace, event.workspaceOffset, event.usedIds⟩

namespace Counters

/-- The number held for a sequence. The offset in the partition's log is held in any case. -/
def kept? (counters : Counters) (workspace : WorkspaceId) : SequenceKind → Option UInt64
  | .offset => some counters.offset.val
  | .workspaceOffset => counters.workspaceOffsets[workspace]?.map Serial.val
  | .id sequence => (counters.ids sequence)[workspace]?.map Serial.val

/-- The last number of a sequence. -/
def lastOf (counters : Counters) (workspace : WorkspaceId) (kind : SequenceKind) : Nat :=
  ((counters.kept? workspace kind).getD 0).toNat

/-- The number held for a sequence, or something below all numbers. -/
def held (counters : Counters) (workspace : WorkspaceId) (kind : SequenceKind) : WithBot Nat :=
  (counters.kept? workspace kind).map UInt64.toNat

/-- No counter is greater than in other counters. -/
def Below (counters other : Counters) : Prop :=
  ∀ workspace kind, counters.lastOf workspace kind ≤ other.lastOf workspace kind

/-- No null number is held for a workspace. -/
def IsTight (counters : Counters) : Prop :=
  ∀ workspace kind, kind ≠ .offset → counters.kept? workspace kind ≠ some 0

theorem ext_kept? {counters other : Counters}
    (h : ∀ workspace kind, counters.kept? workspace kind = other.kept? workspace kind) :
    counters = other := by
  have hval : ∀ {space : Space} {a b : Option (Serial space)},
      a.map Serial.val = b.map Serial.val → a = b := fun hmap ↦
    Option.map_injective (fun _ _ heq ↦ congrArg Serial.mk heq) hmap
  have hoffset : counters.offset = other.offset :=
    congrArg Serial.mk (Option.some.inj (h .null .offset))
  have hworkspaces : counters.workspaceOffsets = other.workspaceOffsets :=
    Std.ExtTreeMap.ext_getElem? fun workspace ↦ hval (h workspace .workspaceOffset)
  have hids : ∀ sequence, counters.ids sequence = other.ids sequence := fun sequence ↦
    Std.ExtTreeMap.ext_getElem? fun workspace ↦ hval (h workspace (.id sequence))
  have hordinary : counters.ordinaryIds = other.ordinaryIds := hids .ordinary
  have hcompacting : counters.compactingIds = other.compactingIds := hids .compacting
  cases counters
  cases other
  simp_all only

/-- Counters that hold the same hold it for the same workspaces. -/
theorem ext_held {counters other : Counters}
    (h : ∀ workspace kind, counters.held workspace kind = other.held workspace kind) :
    counters = other :=
  ext_kept? fun workspace kind ↦
    Option.map_injective (fun _ _ heq ↦ UInt64.toNat_inj.mp heq) (h workspace kind)

theorem lastOf_le_iff_held_le (counters : Counters) (workspace : WorkspaceId) (kind : SequenceKind)
    (n : Nat) : counters.lastOf workspace kind ≤ n ↔ counters.held workspace kind ≤ .some n := by
  unfold lastOf held
  cases counters.kept? workspace kind with
  | none => exact iff_of_true (Nat.zero_le n) bot_le
  | some last => exact WithBot.coe_le_coe.symm

/-- Where nothing is held, a maximum with the last number is the other number. -/
theorem some_max_lastOf (counters : Counters) (workspace : WorkspaceId) (kind : SequenceKind)
    (n : Nat) : WithBot.some (max (counters.lastOf workspace kind) n) =
      max (counters.held workspace kind) (.some n) := by
  unfold lastOf held
  cases counters.kept? workspace kind with
  | none => exact (congrArg _ (Nat.zero_max n)).trans (max_eq_right bot_le).symm
  | some last => exact WithBot.coe_max _ _

/-- Tight counters are determined by the last numbers of the sequences. -/
theorem IsTight.ext {counters other : Counters} (h : counters.IsTight) (hother : other.IsTight)
    (hlast : ∀ workspace kind, counters.lastOf workspace kind = other.lastOf workspace kind) :
    counters = other := by
  refine ext_kept? fun workspace kind ↦ ?_
  have hsame : (counters.kept? workspace kind).getD 0 = (other.kept? workspace kind).getD 0 :=
    UInt64.toNat_inj.mp (hlast workspace kind)
  by_cases hkind : kind = .offset
  · subst hkind
    exact congrArg some hsame
  · have hfull := h workspace kind hkind
    have hotherFull := hother workspace kind hkind
    cases hkept : counters.kept? workspace kind <;> cases hotherKept : other.kept? workspace kind <;>
      simp_all

/-! ### Putting in one number -/

theorem kept?_setLast (counters : Counters) (workspace : WorkspaceId) (kind : SequenceKind)
    (last : UInt64) (other : WorkspaceId) (otherKind : SequenceKind) :
    (Checkpoint.setLast counters workspace kind last).kept? other otherKind =
      if kind = otherKind ∧ (kind = .offset ∨ workspace = other) then some last
      else counters.kept? other otherKind := by
  have hinsert : ∀ {space : Space} (numbers : PerWorkspace space),
      (numbers.insert workspace ⟨last⟩)[other]?.map Serial.val =
        if workspace = other then some last else numbers[other]?.map Serial.val := by
    intro space numbers
    rw [Std.ExtTreeMap.getElem?_insert, apply_ite (Option.map Serial.val)]
    exact if_congr Std.LawfulEqCmp.compare_eq_iff_eq rfl rfl
  rcases kind with _ | _ | sequence
  · rcases otherKind with _ | _ | otherSequence
    · simp [Checkpoint.setLast, kept?]
    · simp [Checkpoint.setLast, kept?]
    · cases otherSequence <;> simp [Checkpoint.setLast, kept?, ids]
  · rcases otherKind with _ | _ | otherSequence
    · simp [Checkpoint.setLast, kept?]
    · simp only [Checkpoint.setLast, kept?, hinsert]
      simp
    · cases otherSequence <;> simp [Checkpoint.setLast, kept?, ids]
  · rcases otherKind with _ | _ | otherSequence
    · cases sequence <;> simp [Checkpoint.setLast, kept?, setIds]
    · cases sequence <;> simp [Checkpoint.setLast, kept?, setIds]
    · cases sequence <;> cases otherSequence <;>
        simp only [Checkpoint.setLast, kept?, setIds, ids, hinsert] <;> simp

theorem lastOf_setLast (counters : Counters) (workspace : WorkspaceId) (kind : SequenceKind)
    (last : UInt64) (other : WorkspaceId) (otherKind : SequenceKind) :
    (Checkpoint.setLast counters workspace kind last).lastOf other otherKind =
      if kind = otherKind ∧ (kind = .offset ∨ workspace = other) then last.toNat
      else counters.lastOf other otherKind := by
  rw [lastOf, kept?_setLast]
  split_ifs <;> rfl

theorem IsTight.setLast {counters : Counters} (h : counters.IsTight) (workspace : WorkspaceId)
    {kind : SequenceKind} {last : UInt64} (hlast : kind ≠ .offset → last ≠ 0) :
    (Checkpoint.setLast counters workspace kind last).IsTight := by
  intro other otherKind hkind
  rw [kept?_setLast]
  split_ifs with hsame
  · exact fun hzero ↦ hlast (hsame.1 ▸ hkind) (Option.some.inj hzero)
  · exact h other otherKind hkind

theorem isTight_empty : empty.IsTight := by
  intro workspace kind hkind
  rcases kind with _ | _ | sequence
  · exact absurd rfl hkind
  · simp [kept?, empty]
  · cases sequence <;> simp [kept?, ids, empty]

theorem lastOf_empty (workspace : WorkspaceId) (kind : SequenceKind) :
    empty.lastOf workspace kind = 0 := by
  rcases kind with _ | _ | sequence
  · rfl
  · simp [lastOf, kept?, empty]
  · cases sequence <;> simp [lastOf, kept?, ids, empty]

theorem lastOf_offset (counters : Counters) (workspace : WorkspaceId) :
    counters.lastOf workspace .offset = counters.offset.val.toNat := rfl

theorem lastOf_workspaceOffset (counters : Counters) (workspace : WorkspaceId) :
    counters.lastOf workspace .workspaceOffset =
      (counters.workspaceOffset workspace).val.toNat := by
  rw [lastOf, kept?, workspaceOffset, PerWorkspace.last]
  cases counters.workspaceOffsets[workspace]? <;> rfl

theorem lastOf_id (counters : Counters) (workspace : WorkspaceId) (sequence : IdSequence) :
    counters.lastOf workspace (.id sequence) = (counters.lastId sequence workspace).val.toNat := by
  rw [lastOf, kept?, lastId, PerWorkspace.last]
  cases (counters.ids sequence)[workspace]? <;> rfl

/-! ### Observing events -/

/-- The counters are those of `base` raised just enough to cover a usage. -/
def Raised (base : Counters) (usage : Usage) (counters : Counters) : Prop :=
  ∀ workspace kind n, counters.lastOf workspace kind ≤ n ↔
    base.lastOf workspace kind ≤ n ∧ ∀ taken, usage.Takes workspace kind taken → taken ≤ n

theorem coverId_eq_setLast (workspace : WorkspaceId) (counters : Counters)
    (used : IdSequence × RecordId) : coverId workspace counters used =
      Checkpoint.setLast counters workspace (.id used.1)
        (max (counters.lastId used.1 workspace) used.2).val := rfl

/-- What a counter is set to bounds it from below, just as what it was. -/
theorem held_setLast_max_le_iff (counters : Counters) (workspace : WorkspaceId)
    (kind : SequenceKind) {last : UInt64} {n : Nat}
    (hlast : last.toNat = max (counters.lastOf workspace kind) n) (other : WorkspaceId)
    (otherKind : SequenceKind) (bound : WithBot Nat) :
    (Checkpoint.setLast counters workspace kind last).held other otherKind ≤ bound ↔
      counters.held other otherKind ≤ bound ∧
        (kind = otherKind → kind = .offset ∨ workspace = other → WithBot.some n ≤ bound) := by
  rw [held, kept?_setLast]
  split_ifs with hsame
  · obtain ⟨rfl, hwhere⟩ := hsame
    have hheld : counters.held workspace kind = counters.held other kind := by
      rcases hwhere with rfl | rfl <;> rfl
    have hraised : (some last).map UInt64.toNat =
        max (counters.held workspace kind) (.some n) :=
      (congrArg WithBot.some hlast).trans (counters.some_max_lastOf workspace kind n)
    rw [hraised, max_le_iff, hheld]
    exact and_congr_right fun _ ↦ ⟨fun hn _ _ ↦ hn, fun hn ↦ hn rfl hwhere⟩
  · exact ⟨fun h ↦ ⟨h, fun hkind hwhere ↦ absurd ⟨hkind, hwhere⟩ hsame⟩, fun h ↦ h.1⟩

theorem held_coverId_le_iff (workspace : WorkspaceId) (counters : Counters)
    (used : IdSequence × RecordId) (other : WorkspaceId) (kind : SequenceKind)
    (bound : WithBot Nat) :
    (coverId workspace counters used).held other kind ≤ bound ↔
      counters.held other kind ≤ bound ∧
        (workspace = other → kind = .id used.1 → WithBot.some used.2.val.toNat ≤ bound) := by
  have hlast : (max (counters.lastId used.1 workspace) used.2).val.toNat =
      max (counters.lastOf workspace (.id used.1)) used.2.val.toNat := by
    rw [Serial.toNat_max, lastOf_id]
  rw [coverId_eq_setLast, held_setLast_max_le_iff counters workspace _ hlast]
  refine and_congr_right fun _ ↦ ⟨fun h hsame hkind ↦ h hkind.symm (Or.inr hsame), ?_⟩
  exact fun h hkind hwhere ↦ h (hwhere.resolve_left nofun) hkind.symm

theorem held_foldl_coverId_le_iff (workspace : WorkspaceId) (used : List (IdSequence × RecordId))
    (counters : Counters) (other : WorkspaceId) (kind : SequenceKind) (bound : WithBot Nat) :
    (used.foldl (coverId workspace) counters).held other kind ≤ bound ↔
      counters.held other kind ≤ bound ∧ ∀ id ∈ used, workspace = other → kind = .id id.1 →
        WithBot.some id.2.val.toNat ≤ bound := by
  induction used generalizing counters with
  | nil => simp
  | cons id used ih =>
    rw [List.foldl_cons, ih, held_coverId_le_iff, List.forall_mem_cons, and_assoc]

/-- Counters with the offsets of an event taken notice of. -/
theorem observe_eq (counters : Counters) (event : Event) : counters.observe event =
    event.usedIds.foldl (coverId event.workspace)
      (Checkpoint.setLast
        (Checkpoint.setLast counters event.workspace .offset
          (max counters.offset event.offset).val) event.workspace .workspaceOffset
        (max (counters.workspaceOffset event.workspace) event.workspaceOffset).val) := rfl

/-- An event raises the counters just enough to cover what it took. -/
theorem held_observe_le_iff (counters : Counters) (event : Event) (workspace : WorkspaceId)
    (kind : SequenceKind) (bound : WithBot Nat) :
    (counters.observe event).held workspace kind ≤ bound ↔
      counters.held workspace kind ≤ bound ∧
        ∀ taken, event.usage.Takes workspace kind taken → WithBot.some taken ≤ bound := by
  have hoffset : (max counters.offset event.offset).val.toNat =
      max (counters.lastOf event.workspace .offset) event.offset.val.toNat := Serial.toNat_max _ _
  have hworkspaceOffset :
      (max (counters.workspaceOffset event.workspace) event.workspaceOffset).val.toNat =
        max ((Checkpoint.setLast counters event.workspace .offset
          (max counters.offset event.offset).val).lastOf event.workspace .workspaceOffset)
          event.workspaceOffset.val.toNat := by
    rw [Serial.toNat_max, lastOf_setLast, if_neg (by simp), lastOf_workspaceOffset]
  rw [observe_eq, held_foldl_coverId_le_iff, held_setLast_max_le_iff _ _ _ hworkspaceOffset,
    held_setLast_max_le_iff _ _ _ hoffset, and_assoc, and_assoc]
  refine and_congr_right fun _ ↦ ?_
  rcases kind with _ | _ | sequence
  · simp [Usage.Takes, Event.usage]
  · simp [Usage.Takes, Event.usage]
  · refine ⟨?_, fun htaken ↦ ⟨nofun, nofun, fun id hid hsame hkind ↦ ?_⟩⟩
    · rintro ⟨-, -, hids⟩ taken ⟨hsame, id, hid, rfl⟩
      exact hids (sequence, id) hid hsame rfl
    · obtain ⟨otherSequence, id⟩ := id
      obtain rfl : sequence = otherSequence := SequenceKind.id.inj hkind
      exact htaken _ ⟨hsame, id, hid, rfl⟩

theorem raised_observe (counters : Counters) (event : Event) :
    Raised counters event.usage (counters.observe event) := by
  intro workspace kind n
  simpa only [lastOf_le_iff_held_le, WithBot.coe_le_coe] using
    held_observe_le_iff counters event workspace kind (.some n)

theorem offset_observe_of_le {counters : Counters} {event : Event}
    (h : counters.offset ≤ event.offset) : (counters.observe event).offset = event.offset := by
  have hle : counters.offset.val.toNat ≤ event.offset.val.toNat := UInt64.le_iff_toNat_le.mp h
  have hraised := raised_observe counters event .null .offset
  refine Serial.eq_of_toNat_eq (Nat.le_antisymm ((hraised _).mpr ⟨hle, ?_⟩) ?_)
  · rintro taken rfl
    exact Nat.le_refl _
  · exact ((hraised _).mp (Nat.le_refl _)).2 _ rfl

/-- What a counter is raised to by an event, the event took. -/
theorem exists_taken {counters : Counters} {event : Event} {workspace : WorkspaceId}
    {kind : SequenceKind} {n : Nat} (hlt : counters.lastOf workspace kind < n)
    (hle : n ≤ (counters.observe event).lastOf workspace kind) :
    ∃ taken, event.usage.Takes workspace kind taken ∧ n ≤ taken := by
  by_contra hnone
  have hbelow : (counters.observe event).lastOf workspace kind ≤ n - 1 := by
    refine (raised_observe counters event workspace kind _).mpr ⟨by omega, fun taken htakes ↦ ?_⟩
    have hlt : taken < n := Nat.lt_of_not_le fun hn ↦ hnone ⟨taken, htakes, hn⟩
    omega
  omega

theorem IsTight.coverId {counters : Counters} (h : counters.IsTight) (workspace : WorkspaceId)
    {used : IdSequence × RecordId} (hused : used.2 ≠ .null) :
    (Counters.coverId workspace counters used).IsTight := by
  rw [coverId_eq_setLast]
  exact h.setLast workspace fun _ ↦ Serial.max_val_ne_zero _ hused

/-- Counters stay tight when they cover an event that took no null number. -/
theorem IsTight.observe {counters : Counters} (h : counters.IsTight) {event : Event}
    (hevent : event.usage.IsProper) : (counters.observe event).IsTight := by
  have hoffsets : (Checkpoint.setLast
      (Checkpoint.setLast counters event.workspace .offset (max counters.offset event.offset).val)
      event.workspace .workspaceOffset
      (max (counters.workspaceOffset event.workspace) event.workspaceOffset).val).IsTight :=
    (h.setLast event.workspace fun hkind ↦ absurd rfl hkind).setLast event.workspace
      fun _ ↦ Serial.max_val_ne_zero _ hevent.1
  have hids : ∀ used ∈ event.usedIds, used.2 ≠ Serial.null := hevent.2
  rw [observe_eq]
  generalize Checkpoint.setLast _ _ _ _ = base at hoffsets
  generalize event.usedIds = ids at hids
  induction ids generalizing base with
  | nil => exact hoffsets
  | cons used ids ih =>
    exact ih (Counters.coverId event.workspace base used)
      (hoffsets.coverId _ (hids used List.mem_cons_self))
      fun other hother ↦ hids other (List.mem_cons_of_mem used hother)

/-- Two ways to raise the same counters to cover the same usage come to the same. -/
theorem Raised.eq {base counters other : Counters} {usage : Usage}
    (h : Raised base usage counters) (hother : Raised base usage other) (htight : counters.IsTight)
    (hotherTight : other.IsTight) : counters = other := by
  refine htight.ext hotherTight fun workspace kind ↦ ?_
  exact Nat.le_antisymm ((h workspace kind _).mpr ((hother workspace kind _).mp (Nat.le_refl _)))
    ((hother workspace kind _).mpr ((h workspace kind _).mp (Nat.le_refl _)))

/-! ### Observing logs -/

theorem observeAll_append (counters : Counters) (first second : List Event) :
    counters.observeAll (first ++ second) = (counters.observeAll first).observeAll second :=
  List.foldl_append

theorem held_observeAll_le_iff (counters : Counters) (events : List Event)
    (workspace : WorkspaceId) (kind : SequenceKind) (bound : WithBot Nat) :
    (counters.observeAll events).held workspace kind ≤ bound ↔
      counters.held workspace kind ≤ bound ∧ ∀ event ∈ events, ∀ taken,
        event.usage.Takes workspace kind taken → WithBot.some taken ≤ bound := by
  induction events generalizing counters with
  | nil => simp [observeAll]
  | cons event events ih =>
    have hrest := ih (counters.observe event)
    rw [held_observe_le_iff, and_assoc] at hrest
    rw [List.forall_mem_cons]
    exact hrest

theorem lastOf_observeAll_le_iff (counters : Counters) (events : List Event)
    (workspace : WorkspaceId) (kind : SequenceKind) (n : Nat) :
    (counters.observeAll events).lastOf workspace kind ≤ n ↔
      counters.lastOf workspace kind ≤ n ∧
        ∀ event ∈ events, ∀ taken, event.usage.Takes workspace kind taken → taken ≤ n := by
  simpa only [lastOf_le_iff_held_le, WithBot.coe_le_coe] using
    held_observeAll_le_iff counters events workspace kind (.some n)

/-- Neither the order of events nor how often one is observed matters. -/
theorem observeAll_congr (counters : Counters) {events others : List Event}
    (h : ∀ event, event ∈ events ↔ event ∈ others) :
    counters.observeAll events = counters.observeAll others := by
  refine ext_held fun workspace kind ↦ eq_of_forall_ge_iff fun bound ↦ ?_
  rw [held_observeAll_le_iff, held_observeAll_le_iff]
  simp only [h]

theorem IsTight.observeAll {counters : Counters} (h : counters.IsTight) {events : List Event}
    (hevents : ∀ event ∈ events, event.usage.IsProper) : (counters.observeAll events).IsTight := by
  induction events generalizing counters with
  | nil => exact h
  | cons event events ih =>
    exact ih (h.observe (hevents event List.mem_cons_self))
      fun other hother ↦ hevents other (List.mem_cons_of_mem event hother)

theorem lastOf_le_observeAll (counters : Counters) (events : List Event) (workspace : WorkspaceId)
    (kind : SequenceKind) :
    counters.lastOf workspace kind ≤ (counters.observeAll events).lastOf workspace kind :=
  ((lastOf_observeAll_le_iff counters events workspace kind _).mp (Nat.le_refl _)).1

theorem offset_le_observeAll (counters : Counters) {events : List Event} {event : Event}
    (hevent : event ∈ events) :
    event.offset.val.toNat ≤ (counters.observeAll events).offset.val.toNat :=
  ((lastOf_observeAll_le_iff counters events .null .offset _).mp (Nat.le_refl _)).2 event hevent _ rfl

theorem taken_le_observeAll (counters : Counters) {events : List Event} {event : Event}
    (hevent : event ∈ events) {workspace : WorkspaceId} {kind : SequenceKind} {taken : Nat}
    (htaken : event.usage.Takes workspace kind taken) :
    taken ≤ (counters.observeAll events).lastOf workspace kind :=
  ((lastOf_observeAll_le_iff counters events workspace kind _).mp (Nat.le_refl _)).2 event hevent
    taken htaken

/-- Nothing changes when counters observe events that they cover already. -/
theorem IsTight.observeAll_eq_self {counters : Counters} (h : counters.IsTight)
    {events : List Event} (hevents : ∀ event ∈ events, event.usage.IsProper)
    (hcovered : ∀ event ∈ events, ∀ workspace kind taken,
      event.usage.Takes workspace kind taken → taken ≤ counters.lastOf workspace kind) :
    counters.observeAll events = counters := by
  refine (h.observeAll hevents).ext h fun workspace kind ↦ ?_
  refine Nat.le_antisymm ?_ (lastOf_le_observeAll counters events workspace kind)
  exact (lastOf_observeAll_le_iff counters events workspace kind _).mpr
    ⟨Nat.le_refl _, fun event hevent ↦ hcovered event hevent workspace kind⟩

end Counters

end LogSequencing
