import Std.Data.ExtTreeMap
import Std.Data.ExtTreeSet

/-!
# Ordered maps and sets

Where only equal keys compare equal, an insertion is found under its own key and leaves the others
alone.
-/

set_option autoImplicit false
set_option relaxedAutoImplicit false

namespace LogSequencing

variable {κ α : Type} [Ord κ] [Std.LawfulEqOrd κ] [Std.TransOrd κ] {key other : κ}

omit [Std.TransOrd κ] in
theorem compare_eq_iff_eq_swap : compare key other = .eq ↔ other = key :=
  Std.LawfulEqCmp.compare_eq_iff_eq.trans eq_comm

theorem getElem?_insert_eq_ite [DecidableEq κ] (map : Std.ExtTreeMap κ α compare) (key : κ)
    (value : α) (other : κ) :
    (map.insert key value)[other]? = if other = key then some value else map[other]? := by
  rw [Std.ExtTreeMap.getElem?_insert]
  simp only [compare_eq_iff_eq_swap]

theorem mem_insert_iff_eq_or_mem {set : Std.ExtTreeSet κ compare} :
    other ∈ set.insert key ↔ other = key ∨ other ∈ set :=
  Std.ExtTreeSet.mem_insert.trans (or_congr_left compare_eq_iff_eq_swap)

theorem mem_keys_insert_iff {map : Std.ExtTreeMap κ α compare} {value : α} :
    other ∈ map.insert key value ↔ other = key ∨ other ∈ map :=
  Std.ExtTreeMap.mem_insert.trans (or_congr_left compare_eq_iff_eq_swap)

end LogSequencing
