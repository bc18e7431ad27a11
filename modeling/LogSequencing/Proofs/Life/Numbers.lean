import LogSequencing.Proofs.Life.Bounds

/-!
# Numbers handed out once

As long as events are built on counters that cover the log (`Covering`), the numbers of each sequence
increase from event to event (`Increasing`), so that none is ever in the log twice (`IssuedOnce`).
-/

set_option autoImplicit false
set_option relaxedAutoImplicit false

namespace LogSequencing

/-- The numbers taken in a workspace increase from event to event. -/
structure Increasing (events : List Event) : Prop where
  workspaceOffsets : events.Pairwise fun earlier later ↦ earlier.workspace = later.workspace →
    earlier.workspaceOffset.val.toNat < later.workspaceOffset.val.toNat
  ids : events.Pairwise fun earlier later ↦ earlier.workspace = later.workspace →
    ∀ used ∈ earlier.usedIds, ∀ other ∈ later.usedIds, used.1 = other.1 →
      used.2.val.toNat < other.2.val.toNat
  nodup : ∀ event ∈ events, event.usedIds.Nodup

/-- No offset of the partition is in the log twice, no offset of a workspace twice for the workspace,
and no record number of a sequence is created twice in a workspace. -/
structure IssuedOnce (events : List Event) : Prop where
  offsets : (events.map Event.offset).Nodup
  workspaceOffsets : ∀ workspace,
    ((events.filter (·.workspace = workspace)).map Event.workspaceOffset).Nodup
  ids : ∀ workspace, ((events.filter (·.workspace = workspace)).flatMap Event.usedIds).Nodup

theorem increasing_nil : Increasing [] := ⟨.nil, .nil, nofun⟩

theorem Increasing.issuedOnce {events : List Event} (h : Increasing events)
    (hgrounded : Grounded events) : IssuedOnce events where
  offsets := by
    refine List.pairwise_map.mpr (hgrounded.ascending.imp fun hlt heq ↦ ?_)
    exact Nat.ne_of_lt hlt (congrArg (fun offset : Offset ↦ offset.val.toNat) heq)
  workspaceOffsets workspace := by
    refine List.pairwise_map.mpr (List.Pairwise.imp_of_mem ?_
      (h.workspaceOffsets.sublist List.filter_sublist))
    intro earlier later hearlier hlater hlt heq
    have hsame : earlier.workspace = later.workspace :=
      (of_decide_eq_true (List.mem_filter.mp hearlier).2).trans
        (of_decide_eq_true (List.mem_filter.mp hlater).2).symm
    exact Nat.ne_of_lt (hlt hsame) (congrArg (fun offset : Offset ↦ offset.val.toNat) heq)
  ids workspace := by
    refine List.nodup_flatMap.mpr ⟨fun event hevent ↦ h.nodup event (List.mem_filter.mp hevent).1, ?_⟩
    refine List.Pairwise.imp_of_mem ?_ (h.ids.sublist List.filter_sublist)
    intro earlier later hearlier hlater hlt used hused hother
    have hsame : earlier.workspace = later.workspace :=
      (of_decide_eq_true (List.mem_filter.mp hearlier).2).trans
        (of_decide_eq_true (List.mem_filter.mp hlater).2).symm
    exact Nat.lt_irrefl _ (hlt hsame used hused used hother rfl)

theorem Increasing.commit {base counters : Counters} {events : List Event} {usage : Usage}
    {event : Event} (h : Increasing events) (habove : (observed events).Below base)
    (hdrafted : Drafted base usage counters) (hfits : event.Fits usage) :
    Increasing (events ++ [event]) := by
  obtain ⟨-, hworkspace, hworkspaceOffset, hids⟩ := hfits
  constructor
  · refine List.pairwise_append.mpr ⟨h.workspaceOffsets, List.pairwise_singleton _ _, ?_⟩
    intro earlier hearlier last hlast hsame
    obtain rfl := List.mem_singleton.mp hlast
    have htakes : earlier.usage.Takes earlier.workspace .workspaceOffset
      earlier.workspaceOffset.val.toNat := ⟨rfl, rfl⟩
    have htaken := Counters.taken_le_observeAll .empty hearlier htakes
    have hcovered := habove earlier.workspace .workspaceOffset
    rw [hworkspaceOffset, hdrafted.workspaceOffset, ← hworkspace, ← hsame]
    exact Nat.lt_succ_of_le (htaken.trans hcovered)
  · refine List.pairwise_append.mpr ⟨h.ids, List.pairwise_singleton _ _, ?_⟩
    intro earlier hearlier last hlast hsame used hused other hother hsequence
    obtain rfl := List.mem_singleton.mp hlast
    have htakes : earlier.usage.Takes earlier.workspace (.id used.1) used.2.val.toNat :=
      ⟨rfl, used.2, hused, rfl⟩
    have htaken := Counters.taken_le_observeAll .empty hearlier htakes
    have hcovered := habove earlier.workspace (.id used.1)
    have hfresh := hdrafted.fresh other (hids.mem_iff.mp hother)
    rw [← hworkspace, ← hsame, ← hsequence] at hfresh
    exact (htaken.trans hcovered).trans_lt hfresh
  · intro other hother
    rcases List.mem_append.mp hother with hother | hother
    · exact h.nodup other hother
    · rw [List.mem_singleton.mp hother]
      exact hids.nodup_iff.mpr hdrafted.nodup

/-- Numbers go on to increase if events are drafted on counters that cover the log. -/
theorem Increasing.move {partition : PartitionId} {o after : Outline} (h : Increasing o.events)
    (hmove : Move partition o after)
    (hdrafts : ∀ usage, o.draft? = some ⟨usage, false⟩ →
      ∃ base, (observed o.events).Below base ∧ Drafted base usage o.counters) :
    Increasing after.events := by
  cases hmove with
  | commit event usage hdraft hfits =>
    obtain ⟨base, habove, hdrafted⟩ := hdrafts usage hdraft
    exact h.commit habove hdrafted hfits
  | _ => exact h

/-- The counters are those of the log, but for sequences that were not used. -/
structure Covering (counters : Counters) (events : List Event) : Prop
    extends Bounded counters events where
  above : (observed events).Below counters

theorem agreement_covering : Agreement Covering where
  bounded h := h.toBounded
  commit h hdrafted hfits := by
    refine ⟨h.toBounded.commit hdrafted hfits, ?_⟩
    rw [observed_append_singleton]
    exact (h.above.observe _).trans (hdrafted.below_observe hfits).2

/-- The counters are exactly those of the log. -/
structure Exact (counters : Counters) (events : List Event) : Prop where
  eq_observed : counters = observed events
  tight : counters.IsTight

theorem Exact.covering {counters : Counters} {events : List Event} (h : Exact counters events) :
    Covering counters events := by
  obtain ⟨rfl, -⟩ := h
  exact ⟨⟨fun _ _ ↦ Nat.le_refl _, Nat.le_refl _⟩, fun _ _ ↦ Nat.le_refl _⟩

theorem agreement_exact : Agreement Exact where
  bounded h := h.covering.toBounded
  commit h hdrafted hfits := by
    refine ⟨?_, hdrafted.tight h.tight⟩
    rw [observed_append_singleton, ← h.eq_observed]
    exact hdrafted.eq_observe hfits h.tight

end LogSequencing
