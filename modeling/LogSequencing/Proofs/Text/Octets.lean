import LogSequencing.Text.Octets
import Mathlib.Algebra.Group.Nat.Defs

/-!
# Fixed-width numbers read back

A number written in so many octets is read back up to the power of 256 that they can tell apart, and
the octets of a number are the only ones of their width that spell it.
-/

set_option autoImplicit false
set_option relaxedAutoImplicit false

namespace LogSequencing.Octets

@[simp] theorem length_ofNatLE (width n : Nat) : (ofNatLE width n).length = width := by
  induction width generalizing n with
  | zero => rfl
  | succ width ih => rw [ofNatLE, List.length_cons, ih]

theorem toNatLE_ofNatLE (width n : Nat) : toNatLE (ofNatLE width n) = n % 256 ^ width := by
  induction width generalizing n with
  | zero => rw [ofNatLE, toNatLE, Nat.pow_zero, Nat.mod_one]
  | succ width ih =>
    have hlow : (UInt8.ofNat n).toNat = n % 256 := UInt8.toNat_ofNat'
    rw [ofNatLE, toNatLE, ih, hlow, Nat.pow_succ', Nat.mod_mul]

theorem toNatLE_ofNatLE_of_lt {width n : Nat} (h : n < 256 ^ width) :
    toNatLE (ofNatLE width n) = n := by
  rw [toNatLE_ofNatLE, Nat.mod_eq_of_lt h]

theorem ofNatLE_toNatLE (octets : Octets) : ofNatLE octets.length (toNatLE octets) = octets := by
  induction octets with
  | nil => rfl
  | cons octet rest ih =>
    have hoctet := octet.toNat_lt
    have hrest : (octet.toNat + 256 * toNatLE rest) / 256 = toNatLE rest := by omega
    have hfirst : UInt8.ofNat (octet.toNat + 256 * toNatLE rest) = octet := by
      apply UInt8.toNat_inj.mp
      rw [UInt8.toNat_ofNat']
      omega
    rw [List.length_cons, toNatLE, ofNatLE, hrest, hfirst, ih]

theorem toNatLE_lt (octets : Octets) : toNatLE octets < 256 ^ octets.length := by
  have hback := congrArg toNatLE (ofNatLE_toNatLE octets)
  rw [toNatLE_ofNatLE] at hback
  rw [← hback]
  exact Nat.mod_lt _ (Nat.pow_pos (by decide))

theorem toNatLE_inj {octets others : Octets} (h : octets.length = others.length) :
    toNatLE octets = toNatLE others ↔ octets = others := by
  refine ⟨fun hvalue ↦ ?_, congrArg toNatLE⟩
  rw [← ofNatLE_toNatLE octets, ← ofNatLE_toNatLE others, hvalue, h]

/-- Up to four octets of one length are told apart by 32 bits. -/
theorem eq_of_ofNat_toNatLE {octets others : Octets} (hlength : octets.length = others.length)
    (hfour : octets.length ≤ 4)
    (h : UInt32.ofNat (toNatLE octets) = UInt32.ofNat (toNatLE others)) : octets = others := by
  have hsmall (octets : Octets) (hfour : octets.length ≤ 4) : toNatLE octets < UInt32.size :=
    Nat.lt_of_lt_of_le (toNatLE_lt octets) (Nat.pow_le_pow_right (n := 256) (by decide) hfour)
  have hvalues := congrArg UInt32.toNat h
  rw [UInt32.toNat_ofNat_of_lt' (hsmall octets hfour),
    UInt32.toNat_ofNat_of_lt' (hsmall others (hlength ▸ hfour))] at hvalues
  exact (toNatLE_inj hlength).mp hvalues

end LogSequencing.Octets
