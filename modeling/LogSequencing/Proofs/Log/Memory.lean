import LogSequencing.Log.Memory
import Mathlib.Tactic.SplitIfs

/-!
# Logs in memory keep their order

An event is appended behind all events of its partition and only with a greater offset than the last
one has. A read fails without having seen anything, or finds all events from an offset on.
-/

set_option autoImplicit false
set_option relaxedAutoImplicit false

namespace LogSequencing

theorem Reading.visit_noObjection (events : List Event) :
    Reading.visit noObjection events = ⟨events, none⟩ := by
  induction events with
  | nil => rfl
  | cons event events ih =>
    simp only [visit, noObjection]
    rw [show Reading.visit _ events = ⟨events, none⟩ from ih]

namespace MemoryLog

theorem readFrom_cases (log : MemoryLog) (partition : PartitionId) (start : Offset) :
    ∃ after : MemoryLog, after.partitions = log.partitions ∧
      ((∃ error, log.failingReads ≠ 0 ∧
          LogSource.readFrom log partition start = (.failed error, after)) ∨
        LogSource.readFrom log partition start =
          (⟨(log.events partition).filter (start ≤ ·.offset), none⟩, after)) := by
  have hread : LogSource.readFrom log partition start =
    log.read partition start .toTheEnd noObjection := rfl
  rw [hread, read]
  cases hfailing : log.failingReads with
  | succ failing =>
    exact ⟨{ log with failingReads := failing }, rfl, Or.inl ⟨_, Nat.succ_ne_zero _, rfl⟩⟩
  | zero =>
    refine ⟨log, rfl, Or.inr ?_⟩
    rw [Reading.visit_noObjection]
    rfl

theorem append_ok {log after : MemoryLog} {partition : PartitionId} {event : Event}
    (h : log.append partition event = .ok after) :
    log.lastOffset partition < event.offset ∧
      after.events partition = log.events partition ++ [event] := by
  rw [append] at h
  split_ifs at h with hregression
  obtain rfl := Except.ok.inj h
  refine ⟨UInt64.not_le.mp hregression, ?_⟩
  rw [events, Std.ExtTreeMap.getElem?_insert_self]
  rfl

theorem append_of_lt {log : MemoryLog} {partition : PartitionId} {event : Event}
    (h : log.lastOffset partition < event.offset) :
    ∃ after, log.append partition event = .ok after := by
  have hregression : ¬ event.offset ≤ log.lastOffset partition :=
    UInt64.not_le.mpr h
  exact ⟨_, if_neg hregression⟩

end MemoryLog

end LogSequencing
