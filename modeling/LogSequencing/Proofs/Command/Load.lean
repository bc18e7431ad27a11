import LogSequencing.Proofs.Engine.Building
import LogSequencing.Proofs.Life.Serving

/-!
# Loads on a log

An event continues a log if it takes the next numbers of all its sequences (`Load.Continues`), as an
event that was drafted on the counters of the log does (`continues_of_drafted`). A log that grows by
events of a load (`Load.Grows`) raises its counters by what each of them takes (`Grows.lastOf`), and no
record number comes to be in it twice (`Grows.unrepeating`).
-/

set_option autoImplicit false
set_option relaxedAutoImplicit false

namespace LogSequencing

/-- The events take no null numbers, and no record number of a workspace twice. -/
structure Unrepeating (events : List Event) : Prop where
  proper : ∀ event ∈ events, event.usage.IsProper
  nodup : ∀ workspace : WorkspaceId,
    ((events.filter (·.workspace = workspace)).flatMap Event.usedIds).Nodup

theorem unrepeating_nil : Unrepeating [] where
  proper _ hevent := nomatch hevent
  nodup _ := List.nodup_nil

namespace Load

/-- The number of records that an event of the load creates. -/
def size (load : Load) : Nat := load.ordinary + load.compacting

/-- An event of the load takes the next numbers of all its sequences. -/
structure Continues (load : Load) (events : List Event) (event : Event) : Prop where
  workspace : event.workspace = load.workspace
  offset : (observed events).offset < event.offset
  proper : event.usage.IsProper
  fresh : ∀ used ∈ event.usedIds,
    (observed events).lastOf event.workspace (.id used.1) < used.2.val.toNat
  nodup : event.usedIds.Nodup
  last : ∀ workspace kind, (observed (events ++ [event])).lastOf workspace kind =
    (observed events).lastOf workspace kind + load.share workspace kind

/-- A log grows by so many events of the load. -/
inductive Grows (load : Load) : List Event → Nat → List Event → Prop
  | nothing (events : List Event) : Grows load events 0 events
  | add {events grown : List Event} {event : Event} {n : Nat} (hnext : load.Continues events event)
    (hgrows : Grows load (events ++ [event]) n grown) : Grows load events (n + 1) grown

variable {load : Load} {events grown : List Event} {event : Event} {n : Nat}

theorem continues_of_drafted {usage : Usage} {counters : Counters}
    (hdrafted : Drafted (observed events) usage counters) (hfits : event.Fits usage)
    (hworkspace : event.workspace = load.workspace) (htight : (observed events).IsTight)
    (hlast : ∀ workspace kind, counters.lastOf workspace kind =
      (observed events).lastOf workspace kind + load.share workspace kind) :
    counters = observed (events ++ [event]) ∧ load.Continues events event := by
  have hcounters : counters = observed (events ++ [event]) := by
    rw [observed_append_singleton]
    exact hdrafted.eq_observe hfits htight
  obtain ⟨hoffset, hsame, -, hids⟩ := id hfits
  refine ⟨hcounters, hworkspace, ?_, hdrafted.isProper hfits, fun used hused ↦ ?_,
    hids.nodup_iff.mpr hdrafted.nodup, fun workspace kind ↦ ?_⟩
  · refine UInt64.lt_iff_toNat_lt.mpr ?_
    rw [hoffset, hdrafted.offset]
    exact Nat.lt_succ_self _
  · rw [hsame]
    exact hdrafted.fresh used (hids.mem_iff.mp hused)
  · rw [← hcounters]
    exact hlast workspace kind

theorem Continues.offset_eq (h : load.Continues events event) :
    event.offset.val.toNat = (observed events).offset.val.toNat + 1 := by
  have hlast := h.last .null .offset
  rwa [Counters.lastOf_offset, observed_append_singleton,
    Counters.offset_observe_of_le (Std.le_of_lt h.offset)] at hlast

theorem Continues.unrepeating (h : load.Continues events event) (hevents : Unrepeating events) :
    Unrepeating (events ++ [event]) := by
  refine ⟨fun other hother ↦ ?_, fun workspace ↦ ?_⟩
  · rcases List.mem_append.mp hother with hbefore | hlast
    · exact hevents.proper other hbefore
    · rw [List.mem_singleton.mp hlast]
      exact h.proper
  · rw [List.filter_append, List.flatMap_append]
    by_cases hhere : event.workspace = workspace
    · rw [List.filter_cons_of_pos (by simpa using hhere), List.filter_nil, List.flatMap_singleton]
      refine List.nodup_append.mpr ⟨hevents.nodup workspace, h.nodup, ?_⟩
      rintro used hused _ hnew rfl
      obtain ⟨other, hother, hused⟩ := List.mem_flatMap.mp hused
      obtain ⟨hbefore, hworkspace⟩ := List.mem_filter.mp hother
      have hsame : other.workspace = event.workspace :=
        (of_decide_eq_true hworkspace).trans hhere.symm
      have htaken : used.2.val.toNat ≤ (observed events).lastOf event.workspace (.id used.1) :=
        Counters.taken_le_observeAll .empty hbefore ⟨hsame, used.2, hused, rfl⟩
      exact absurd (h.fresh used hnew) (Nat.not_lt_of_le htaken)
    · rw [List.filter_cons_of_neg (by simpa using hhere), List.filter_nil, List.flatMap_nil,
        List.append_nil]
      exact hevents.nodup workspace

theorem Grows.unrepeating (h : load.Grows events n grown) (hevents : Unrepeating events) :
    Unrepeating grown := by
  induction h with
  | nothing => exact hevents
  | add hnext _ ih => exact ih (hnext.unrepeating hevents)

/-- The counters grow by what each event takes. -/
theorem Grows.lastOf (h : load.Grows events n grown) (workspace : WorkspaceId)
    (kind : SequenceKind) : (observed grown).lastOf workspace kind =
      (observed events).lastOf workspace kind + n * load.share workspace kind := by
  induction h with
  | nothing => rw [Nat.zero_mul, Nat.add_zero]
  | add hnext _ ih =>
    rw [ih, hnext.last, Nat.succ_mul]
    omega

end Load

end LogSequencing
