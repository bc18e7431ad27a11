import LogSequencing.Proofs.Life.Ledger

/-!
# Batches that overtake others

A batch that is given up leaves a gap. A batch that lands afterwards moves the stored offset past the
gap, so that a recovery no longer reads the events of the gap from the log. What they used is then
known only as far as the later batch touches the same workspaces (`replayed_overtaken_iff`).
-/

set_option autoImplicit false
set_option relaxedAutoImplicit false

namespace LogSequencing

/-- Events of other workspaces leave the numbers of a workspace alone. -/
theorem Counters.lastOf_observeAll_of_ne (counters : Counters) {events : List Event}
    {workspace : WorkspaceId} (h : ∀ event ∈ events, event.workspace ≠ workspace)
    {kind : SequenceKind} (hkind : kind ≠ .offset) :
    (counters.observeAll events).lastOf workspace kind = counters.lastOf workspace kind := by
  induction events generalizing counters with
  | nil => rfl
  | cons event events ih =>
    have hrest := ih (counters.observe event) fun other hother ↦
      h other (List.mem_cons_of_mem event hother)
    exact hrest.trans (counters.lastOf_observe_of_ne (h event List.mem_cons_self) hkind)

section Overtaking

variable {landed missed overtaking : List Event}

/-- The counters stored when a batch has landed after others were given up. -/
def overtaken (landed missed overtaking : List Event) : Counters :=
  ((observed (landed ++ missed)).batchOf overtaking).putRows (observed landed)

/-- Of what the last batch touches, all is stored. -/
theorem lastOf_overtaken {workspace : WorkspaceId} {kind : SequenceKind} (hne : overtaking ≠ [])
    (h : kind = .offset ∨ ∃ event ∈ overtaking, event.workspace = workspace) :
    (overtaken landed missed overtaking).lastOf workspace kind =
      (observed (landed ++ missed ++ overtaking)).lastOf workspace kind := by
  have htouches := h.imp_right (Counters.touches_batchOf_iff (observed (landed ++ missed)) _ _).mpr
  have hlast := Counters.lastOf_batchOf (htouches.imp_left fun hkind ↦ ⟨hkind, hne⟩)
  rw [← observed_append] at hlast
  have hle := observed_below_append landed (missed ++ overtaking) workspace kind
  rw [← List.append_assoc, ← hlast] at hle
  exact (Batch.lastOf_putRows_of_touches htouches hle).trans hlast

/-- Of what it does not touch, only what landed before is stored. -/
theorem lastOf_overtaken_of_ne {workspace : WorkspaceId} {kind : SequenceKind}
    (hkind : kind ≠ .offset) (h : ∀ event ∈ overtaking, event.workspace ≠ workspace) :
    (overtaken landed missed overtaking).lastOf workspace kind =
      (observed landed).lastOf workspace kind := by
  refine Batch.lastOf_putRows_of_not_touches (fun htouches ↦ ?_) _ hkind
  obtain ⟨event, hevent, hworkspace⟩ := (Counters.touches_batchOf_iff ..).mp htouches
  exact h event hevent hworkspace

theorem overtaken_below (hne : overtaking ≠ []) :
    (overtaken landed missed overtaking).Below (observed (landed ++ missed ++ overtaking)) := by
  intro workspace kind
  by_cases h : kind = .offset ∨ ∃ event ∈ overtaking, event.workspace = workspace
  · exact (lastOf_overtaken hne h).le
  · have hnone : ∀ event ∈ overtaking, event.workspace ≠ workspace := fun event hevent hworkspace ↦
      h (Or.inr ⟨event, hevent, hworkspace⟩)
    rw [lastOf_overtaken_of_ne (fun hkind ↦ h (Or.inl hkind)) hnone, List.append_assoc]
    exact observed_below_append landed _ workspace kind

/-- A replay then visits nothing that came before the last batch. -/
theorem mem_overtaking_of_visited (hgrounded : Grounded (landed ++ missed ++ overtaking))
    (hne : overtaking ≠ []) {event : Event}
    (hevent : event ∈ (landed ++ missed ++ overtaking).filter
      ((overtaken landed missed overtaking).offset ≤ ·.offset)) : event ∈ overtaking := by
  obtain ⟨hmem, hvisited⟩ := List.mem_filter.mp hevent
  refine (List.mem_append.mp hmem).resolve_left fun hearly ↦ ?_
  obtain ⟨later, hlater⟩ := List.exists_mem_of_ne_nil _ hne
  have hbefore := (List.pairwise_append.mp hgrounded.ascending).2.2 event hearly later hlater
  have hcovers : later.offset.val.toNat ≤
      (observed (landed ++ missed ++ overtaking)).offset.val.toNat :=
    Counters.offset_le_observeAll .empty (List.mem_append_right _ hlater)
  have hoffset : (overtaken landed missed overtaking).lastOf .null .offset =
      (observed (landed ++ missed ++ overtaking)).lastOf .null .offset :=
    lastOf_overtaken hne (Or.inl rfl)
  rw [Counters.lastOf_offset, Counters.lastOf_offset] at hoffset
  have hle := UInt64.le_iff_toNat_le.mp (of_decide_eq_true hvisited)
  omega

/-- So it leaves alone what the last batch does not touch. -/
theorem lastOf_replayed_overtaken_of_ne {o : Outline}
    (hevents : o.events = landed ++ missed ++ overtaking) (hgrounded : Grounded o.events)
    (hne : overtaking ≠ []) {workspace : WorkspaceId} {kind : SequenceKind}
    (hkind : kind ≠ .offset) (h : ∀ event ∈ overtaking, event.workspace ≠ workspace) :
    (o.replayed (overtaken landed missed overtaking)).lastOf workspace kind =
      (observed landed).lastOf workspace kind := by
  rw [hevents] at hgrounded
  refine (Counters.lastOf_observeAll_of_ne _ (fun event hevent ↦ h event ?_) hkind).trans
    (lastOf_overtaken_of_ne hkind h)
  rw [hevents] at hevent
  exact mem_overtaking_of_visited hgrounded hne hevent

/-- What was given up is not in the counters of what landed before. -/
theorem lastOf_landed_lt (hgrounded : Grounded (landed ++ missed ++ overtaking))
    (hincreasing : Increasing (landed ++ missed ++ overtaking)) {event : Event}
    (hevent : event ∈ missed) : (observed landed).lastOf event.workspace .workspaceOffset <
      event.workspaceOffset.val.toNat := by
  have hpos : 0 < event.workspaceOffset.val.toNat := Nat.pos_of_ne_zero fun hzero ↦
    (hgrounded.proper event (List.mem_append_left _ (List.mem_append_right _ hevent))).1
      (Serial.eq_of_toNat_eq hzero)
  refine Nat.lt_of_le_pred hpos ((Counters.lastOf_observeAll_le_iff ..).mpr ⟨?_, ?_⟩)
  · rw [Counters.lastOf_empty]
    exact Nat.zero_le _
  · rintro earlier hearlier _ ⟨hworkspace, rfl⟩
    have hbefore := (List.pairwise_append.mp hincreasing.workspaceOffsets).1
    have hlt := (List.pairwise_append.mp hbefore).2.2 earlier hearlier event hevent hworkspace
    exact Nat.le_pred_of_lt hlt

/-- A recovery comes to the counters of the log just if the last batch touches all that was given
up. -/
theorem replayed_overtaken_iff {o : Outline} (hevents : o.events = landed ++ missed ++ overtaking)
    (hgrounded : Grounded o.events) (hincreasing : Increasing o.events) (hne : overtaking ≠ []) :
    o.replayed (overtaken landed missed overtaking) = observed o.events ↔
      ∀ event ∈ missed, ∃ later ∈ overtaking, later.workspace = event.workspace := by
  constructor
  · intro hreplayed event hevent
    by_contra hnone
    have hother : ∀ later ∈ overtaking, later.workspace ≠ event.workspace := fun later hlater hsame ↦
      hnone ⟨later, hlater, hsame⟩
    have hkept : (o.replayed (overtaken landed missed overtaking)).lastOf event.workspace
        .workspaceOffset = (observed landed).lastOf event.workspace .workspaceOffset :=
      lastOf_replayed_overtaken_of_ne hevents hgrounded hne nofun hother
    rw [hreplayed] at hkept
    rw [hevents] at hgrounded hincreasing hkept
    have hcounted : event.workspaceOffset.val.toNat ≤
        (observed (landed ++ missed ++ overtaking)).lastOf event.workspace .workspaceOffset :=
      Counters.taken_le_observeAll .empty
        (List.mem_append_left _ (List.mem_append_right _ hevent)) ⟨rfl, rfl⟩
    have hlt := lastOf_landed_lt hgrounded hincreasing hevent
    omega
  · intro htouched
    have hbelow : (overtaken landed missed overtaking).Below (observed o.events) :=
      hevents ▸ overtaken_below hne
    have hproper := hgrounded.proper
    have htight : (o.replayed (overtaken landed missed overtaking)).IsTight := by
      refine Counters.IsTight.observeAll ?_ fun event hevent ↦
        hproper event (List.mem_filter.mp hevent).1
      rw [hevents] at hproper
      refine (observed_tight fun event hevent ↦ ?_).putRows _ fun event hevent ↦ ?_
      · exact hproper event (List.mem_append_left _ (List.mem_append_left _ hevent))
      · exact hproper event (List.mem_append_right _ hevent)
    refine htight.ext (observed_tight hproper) fun workspace kind ↦ ?_
    refine Nat.le_antisymm ((bounded_replayed hbelow).below workspace kind)
      (Nat.le_trans (Nat.le_of_eq ?_) (Counters.below_observeAll _ _ workspace kind))
    rw [hevents]
    by_cases h : kind = .offset ∨ ∃ event ∈ overtaking, event.workspace = workspace
    · exact (lastOf_overtaken hne h).symm
    · have hkind : kind ≠ .offset := fun hkind ↦ h (Or.inl hkind)
      have hnone : ∀ event ∈ overtaking, event.workspace ≠ workspace :=
        fun event hevent hsame ↦ h (Or.inr ⟨event, hevent, hsame⟩)
      have hrest : ∀ event ∈ missed ++ overtaking, event.workspace ≠ workspace := by
        intro event hevent hsame
        rcases List.mem_append.mp hevent with hevent | hevent
        · obtain ⟨later, hlater, hworkspace⟩ := htouched event hevent
          exact hnone later hlater (hworkspace.trans hsame)
        · exact hnone event hevent hsame
      rw [lastOf_overtaken_of_ne hkind hnone, List.append_assoc, observed_append,
        Counters.lastOf_observeAll_of_ne _ hrest hkind]

end Overtaking

/-! ### Batches given up -/

/-- A batch was given up and a later one landed, and the batches that landed after it miss a workspace
that it touches. -/
def Hides (settled : List (Batch × Fate)) : Prop :=
  ∃ before lost after, settled = before ++ (lost, .abandoned) :: after ∧
    (∃ later, (later, .landed) ∈ after) ∧
    ∃ workspace, lost.Touches workspace ∧
      ∀ later, (later, .landed) ∈ after → ¬ later.Touches workspace

/-- Nothing is hidden if all that landed did so before anything was given up. -/
theorem not_hides_of_first (written lost : List Batch) :
    ¬ Hides (ended .landed written ++ ended .abandoned lost) := by
  rintro ⟨before, batch, after, hsettled, ⟨later, hlater⟩, -⟩
  have hordered : (ended .landed written ++ ended .abandoned lost).Pairwise
      fun earlier later : Batch × Fate ↦ earlier.2 = .abandoned → later.2 = .abandoned := by
    refine List.pairwise_append.mpr ⟨?_, ?_, ?_⟩
    · exact List.pairwise_map.mpr (List.pairwise_of_forall fun _ _ h ↦ nomatch h)
    · exact List.pairwise_map.mpr (List.pairwise_of_forall fun _ _ _ ↦ rfl)
    · intro earlier hearlier _ _ habandoned
      obtain ⟨_, -, rfl⟩ := List.mem_map.mp hearlier
      exact nomatch habandoned
  rw [hsettled] at hordered
  have hafter := (List.pairwise_cons.mp (List.pairwise_append.mp hordered).2.1).1
  exact nomatch hafter _ hlater rfl

/-- A last batch hides what it does not touch itself. -/
theorem hides_last_iff (written lost : List Batch) (last : Batch) :
    Hides (ended .landed written ++ ended .abandoned lost ++ [(last, .landed)]) ↔
      ∃ batch ∈ lost, ∃ workspace, batch.Touches workspace ∧ ¬ last.Touches workspace := by
  constructor
  · rintro ⟨before, batch, after, hsettled, ⟨later, hlater⟩, workspace, htouches, hmisses⟩
    have hbatch : batch ∈ lost := by
      have hmem : (batch, Fate.abandoned) ∈
          ended .landed written ++ ended .abandoned lost ++ [(last, .landed)] := by
        rw [hsettled]
        exact List.mem_append_right _ List.mem_cons_self
      simpa [ended] using hmem
    have hlast : (last, Fate.landed) ∈ after := by
      have hends := congrArg List.getLast? hsettled
      rw [List.getLast?_concat, List.getLast?_append, List.getLast?_cons_of_ne_nil
        (List.ne_nil_of_mem hlater), List.getLast?_eq_some_getLast (List.ne_nil_of_mem hlater)]
        at hends
      exact Option.some.inj hends ▸ List.getLast_mem _
    exact ⟨batch, hbatch, workspace, htouches, hmisses last hlast⟩
  · rintro ⟨batch, hbatch, workspace, htouches, hmisses⟩
    obtain ⟨first, second, rfl⟩ := List.append_of_mem hbatch
    refine ⟨ended .landed written ++ ended .abandoned first, batch,
      ended .abandoned second ++ [(last, .landed)], by simp [ended], ⟨last, by simp⟩, workspace,
      htouches, fun later hlater ↦ ?_⟩
    obtain rfl : later = last := by simpa [ended] using hlater
    exact hmisses

end LogSequencing
