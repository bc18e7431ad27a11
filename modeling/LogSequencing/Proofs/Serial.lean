import LogSequencing.Serial
import Mathlib.Algebra.Group.Nat.Defs
import Mathlib.Order.Basic
import Mathlib.Order.Nat
import Mathlib.Tactic.SplitIfs

/-!
# Serial numbers as natural numbers

Order and successor of serial numbers are those of the natural numbers they stand for. Only the last
number of a space has no successor.
-/

set_option autoImplicit false
set_option relaxedAutoImplicit false

namespace LogSequencing

namespace Serial

variable {space : Space}

instance : Std.IsLinearOrder (Serial space) where
  le_refl a := UInt64.le_refl a.val
  le_trans _ _ _ := UInt64.le_trans
  le_antisymm _ _ hle hge := congrArg mk (UInt64.le_antisymm hle hge)
  le_total a b := UInt64.le_total a.val b.val

instance : Std.LawfulOrderLT (Serial space) where
  lt_iff a b := Std.lt_iff_le_and_not_ge (a := a.val) (b := b.val)

instance : Std.LawfulOrderMax (Serial space) where
  max_eq_or a b := by
    change (if a ≤ b then b else a) = a ∨ (if a ≤ b then b else a) = b
    split_ifs
    · exact Or.inr rfl
    · exact Or.inl rfl
  max_le_iff a b c := by
    change (if a ≤ b then b else a) ≤ c ↔ a ≤ c ∧ b ≤ c
    split_ifs with hle
    · exact ⟨fun h ↦ ⟨Std.le_trans hle h, h⟩, fun h ↦ h.2⟩
    · exact ⟨fun h ↦ ⟨h, Std.le_trans (Std.le_total.resolve_left hle) h⟩, fun h ↦ h.1⟩

theorem toNat_max (a b : Serial space) :
    (max a b).val.toNat = max a.val.toNat b.val.toNat := by
  change (if a ≤ b then b else a).val.toNat = _
  have hle : a ≤ b ↔ a.val.toNat ≤ b.val.toNat := UInt64.le_iff_toNat_le
  split_ifs with h
  · exact (Nat.max_eq_right (hle.mp h)).symm
  · exact (Nat.max_eq_left (Nat.le_of_lt (Nat.lt_of_not_le fun hn ↦ h (hle.mpr hn)))).symm

theorem eq_of_toNat_eq {a b : Serial space} (h : a.val.toNat = b.val.toNat) : a = b :=
  congrArg mk (UInt64.toNat_inj.mp h)

theorem max_val_ne_zero (a : Serial space) {b : Serial space} (h : b ≠ null) :
    (max a b).val ≠ 0 := by
  intro hzero
  have hmax := toNat_max a b
  have hle := Nat.le_max_right a.val.toNat b.val.toNat
  rw [← hmax, hzero] at hle
  exact h (eq_of_toNat_eq (Nat.le_zero.mp hle))

/-- The first number comes right after null. -/
theorem first_le_of_ne_null {n : Serial space} (h : n ≠ null) : first ≤ n := by
  refine UInt64.le_iff_toNat_le.mpr (Nat.pos_of_ne_zero fun hzero ↦ h ?_)
  exact eq_of_toNat_eq hzero

theorem toNat_last : (last : Serial space).val.toNat = 2 ^ 64 - 1 := rfl

theorem lt_of_ne_last {n : Serial space} (h : n ≠ last) : n.val.toNat < 2 ^ 64 - 1 := by
  have hlt := n.val.toNat_lt
  have hne : n.val.toNat ≠ 2 ^ 64 - 1 := fun heq ↦ h (eq_of_toNat_eq (heq.trans toNat_last.symm))
  omega

theorem toNat_of_next? {n next : Serial space} (h : n.next? = some next) :
    next.val.toNat = n.val.toNat + 1 := by
  unfold next? at h
  split_ifs at h with hlast
  obtain rfl := Option.some.inj h
  have hlt := lt_of_ne_last hlast
  rw [UInt64.toNat_add, UInt64.toNat_one]
  omega

theorem toNat_of_next?_eq_none {n : Serial space} (h : n.next? = none) :
    n.val.toNat = 2 ^ 64 - 1 := by
  unfold next? at h
  split_ifs at h with hlast
  rw [hlast, toNat_last]

theorem lt_of_next? {n next : Serial space} (h : n.next? = some next) :
    n.val.toNat < 2 ^ 64 - 1 := by
  have hnext := toNat_of_next? h
  have hlt := next.val.toNat_lt
  omega

theorem lt_next {n next : Serial space} (h : n.next? = some next) : n < next := by
  refine UInt64.lt_iff_toNat_lt.mpr ?_
  rw [toNat_of_next? h]
  exact Nat.lt_succ_self _

theorem exists_next? {n : Serial space} (h : n.val.toNat < 2 ^ 64 - 1) :
    ∃ next, n.next? = some next := by
  cases hnext : n.next? with
  | none => exact absurd (toNat_of_next?_eq_none hnext) (Nat.ne_of_lt h)
  | some next => exact ⟨next, rfl⟩

end Serial

end LogSequencing
