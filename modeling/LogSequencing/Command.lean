import LogSequencing.Serial

/-!
# Commands

What an operator may ask for, each on one partition: to commit synthetic events, to recover the
counters, to show a recovery point, or to bring one up to date with the log.
-/

set_option autoImplicit false
set_option relaxedAutoImplicit false

namespace LogSequencing

/-- Synthetic events: how many, in which workspace, and how many records each of them creates. -/
structure Load where
  workspace : WorkspaceId
  events : Nat
  ordinary : Nat
  compacting : Nat
deriving DecidableEq, Repr

inductive Command where
  | append (partition : PartitionId) (load : Load)
  | recover (partition : PartitionId)
  | showPoint (partition : PartitionId)
  | syncPoint (partition : PartitionId)
deriving DecidableEq, Repr

def Command.partition : Command → PartitionId
  | append partition _ | recover partition | showPoint partition | syncPoint partition => partition

end LogSequencing
