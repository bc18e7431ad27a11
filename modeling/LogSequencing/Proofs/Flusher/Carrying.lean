import LogSequencing.Proofs.Checkpoint.Landing
import LogSequencing.Proofs.Life.Serving

/-!
# A flusher whose worker has not had its turn

While a client builds event after event, the worker does not come to its turn. So at most one batch is
handed off, and the log falls into three stretches: what the store covers, what was sent, and what
waits (`Flusher.carrying`). An event that is collected joins what waits, which is then sent if it is
due and nothing was sent before (`collect_carrying`). Both batches, landed in this order, bring the
store up to the end of the log (`Stores.landOn_carrying`).
-/

set_option autoImplicit false
set_option relaxedAutoImplicit false

namespace LogSequencing

/-- The batch of a stretch of a log, unless nothing is in it. -/
def stretchBatch? (base stretch : List Event) : Option Batch :=
  if stretch = [] then none else some ((observed base).batchOf stretch)

namespace Flusher

/-- A flusher that has sent a stretch of a log, while the next one waits. -/
def carrying (base sent waiting : List Event) : Flusher where
  pending := (observed (base ++ sent)).batchOf waiting
  active := (stretchBatch? base sent).isSome
  isOpen := true
  handedOff? := stretchBatch? base sent
  worker := .idle
  workerUnclaimed := true

theorem carrying_nothing (events : List Event) : carrying events [] [] = .start := by
  rw [carrying, stretchBatch?, if_pos rfl]
  rfl

theorem collect_carrying (threshold : Nat) (base sent waiting : List Event) (event : Event) :
    ∃ sent' waiting', sent' ++ waiting' = sent ++ waiting ++ [event] ∧
      (sent = [] ∨ sent' = sent) ∧
      (carrying base sent waiting).collect threshold
          ((observed (base ++ (sent ++ waiting ++ [event]))).leaving event.workspace) =
        carrying base sent' waiting' := by
  have hmerged : ((observed (base ++ sent)).batchOf waiting).merge
      ((observed (base ++ (sent ++ waiting ++ [event]))).leaving event.workspace) =
        (observed (base ++ sent)).batchOf (waiting ++ [event]) := by
    rw [Counters.batchOf_append_singleton, ← observed_append]
    simp only [List.append_assoc]
  unfold collect
  simp only [carrying, hmerged]
  split_ifs with hdue
  · have hsent : sent = [] := by
      by_contra hsent
      exact hdue.2 (by rw [stretchBatch?, if_neg hsent, Option.isSome_some])
    subst hsent
    refine ⟨waiting ++ [event], [], by simp, Or.inl rfl, ?_⟩
    simp only [handOff, stretchBatch?, if_true, List.append_nil, not_true_eq_false, if_false,
      reduceCtorEq, List.append_eq_nil_iff, List.cons_ne_nil, and_false, Option.isSome_some]
    rfl
  · exact ⟨sent, waiting ++ [event], (List.append_assoc ..).symm, Or.inr rfl, rfl⟩

end Flusher

namespace Checkpoint

variable {β : Type} [Backend β] [LawfulBackend β] {store : β} {partition : PartitionId}
  {base stretch sent waiting : List Event}

theorem Stores.landOn_stretch (h : Stores (LawfulBackend.rows store) partition (observed base))
    (hproper : ∀ event ∈ base ++ stretch, event.usage.IsProper) :
    Stores (LawfulBackend.rows (Checkpoint.landOn store partition (stretchBatch? base stretch)))
      partition (observed (base ++ stretch)) := by
  by_cases hstretch : stretch = []
  · subst hstretch
    rw [stretchBatch?, if_pos rfl, List.append_nil]
    exact h
  · have htight : (observed base).IsTight :=
      observed_tight fun event hevent ↦ hproper event (List.mem_append_left _ hevent)
    have hstretchProper : ∀ event ∈ stretch, event.usage.IsProper :=
      fun event hevent ↦ hproper event (List.mem_append_right _ hevent)
    rw [stretchBatch?, if_neg hstretch, observed_append,
      ← Counters.putRows_batchOf htight hstretchProper hstretch]
    exact h.landOn _

/-- What was sent and then what waits brings the rows up to the end of the log. -/
theorem Stores.landOn_carrying (h : Stores (LawfulBackend.rows store) partition (observed base))
    (hproper : ∀ event ∈ base ++ (sent ++ waiting), event.usage.IsProper) :
    Stores (LawfulBackend.rows (Checkpoint.landOn
        (Checkpoint.landOn store partition (stretchBatch? base sent)) partition
          (stretchBatch? (base ++ sent) waiting)))
      partition (observed (base ++ (sent ++ waiting))) := by
  rw [← List.append_assoc] at hproper ⊢
  exact (h.landOn_stretch fun event hevent ↦ hproper event (List.mem_append_left _ hevent))
    |>.landOn_stretch hproper

end Checkpoint

end LogSequencing
