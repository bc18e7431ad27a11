import LogSequencing.Checksum
import LogSequencing.Proofs.Text.Octets

/-!
# What the checksum detects

The register of a checksum is shifted by a linear map (`Checksum.shifts_xor`) that loses nothing, as
the generator has its top bit set (`Checksum.shifts_injective`). So the octets of a text act on the
register one to one: a difference that is in the register stays there
(`Checksum.foldl_update_injective`), and up to four octets enter the register as a whole, before
any of it is shifted out (`Checksum.foldl_update_eq`).

A change within four successive octets of a text, which is a burst of at most 32 bits, is therefore
always detected, whatever stands before and after them (`checksum_ne_of_burst`).
-/

set_option autoImplicit false
set_option relaxedAutoImplicit false

namespace LogSequencing.Checksum

/-! ### Shifts -/

theorem and_one_eq_one_iff (register : UInt32) :
    register &&& 1 = 1 ↔ register.toNat % 2 = 1 := by
  rw [← UInt32.toNat_inj, UInt32.toNat_and]
  exact Eq.congr_left (Nat.and_one_is_mod _)

/-- A shift halves the register and adds the generator for the bit that left it. -/
theorem shift_eq (register : UInt32) :
    shift register =
      (register >>> 1) ^^^ (if register.toNat % 2 = 1 then generator else 0) := by
  unfold shift
  by_cases h : register.toNat % 2 = 1
  · rw [if_pos ((and_one_eq_one_iff register).mpr h), if_pos h]
  · rw [if_neg (mt (and_one_eq_one_iff register).mp h), if_neg h, UInt32.xor_zero]

theorem toNat_half (register : UInt32) : (register >>> 1).toNat = register.toNat / 2 := by
  rw [UInt32.toNat_shiftRight]
  exact Nat.shiftRight_eq_div_pow _ 1

theorem shift_xor (register other : UInt32) :
    shift (register ^^^ other) = shift register ^^^ shift other := by
  rw [shift_eq, shift_eq, shift_eq, UInt32.shiftRight_xor, UInt32.toNat_xor]
  simp only [Nat.xor_mod_two_eq_one]
  have hmove (a b c d : UInt32) : (a ^^^ c) ^^^ (b ^^^ d) = (a ^^^ b) ^^^ (c ^^^ d) := by ac_rfl
  rw [hmove]
  congr 1
  by_cases h : register.toNat % 2 = 1 <;> by_cases h' : other.toNat % 2 = 1 <;>
    simp only [h, h', if_true, if_false, not_true, not_false_eq_true, iff_true, iff_false] <;> rfl

/-- Only zero is shifted to zero: the generator, which has 32 bits, is not half of a register. -/
theorem eq_zero_of_shift {register : UInt32} (h : shift register = 0) : register = 0 := by
  have hlt := register.toNat_lt
  have hhalf := toNat_half register
  rw [shift_eq] at h
  by_cases hodd : register.toNat % 2 = 1
  · rw [if_pos hodd, UInt32.xor_eq_zero_iff] at h
    rw [h] at hhalf
    have hgenerator : generator.toNat = 3988292384 := rfl
    omega
  · rw [if_neg hodd, UInt32.xor_zero] at h
    rw [h] at hhalf
    have hzero : (0 : UInt32).toNat = 0 := rfl
    apply UInt32.toNat_inj.mp
    omega

theorem shifts_xor (count : Nat) (register other : UInt32) :
    shifts count (register ^^^ other) = shifts count register ^^^ shifts count other := by
  induction count generalizing register other with
  | zero => rfl
  | succ count ih => rw [shifts, shifts, shifts, shift_xor, ih]

theorem eq_zero_of_shifts {count : Nat} {register : UInt32} (h : shifts count register = 0) :
    register = 0 := by
  induction count generalizing register with
  | zero => exact h
  | succ count ih => exact eq_zero_of_shift (ih h)

theorem shifts_injective (count : Nat) : Function.Injective (shifts count) := by
  intro register other h
  have hzero : shifts count (register ^^^ other) = 0 := by
    rw [shifts_xor, h, UInt32.xor_self]
  exact UInt32.xor_eq_zero_iff.mp (eq_zero_of_shifts hzero)

theorem shifts_shifts (first second : Nat) (register : UInt32) :
    shifts second (shifts first register) = shifts (first + second) register := by
  induction first generalizing register with
  | zero => rw [Nat.zero_add, shifts]
  | succ first ih => rw [shifts, ih, Nat.succ_add, shifts]

/-- Bits that are clear leave the register without a trace. -/
theorem shifts_ofNat {count n : Nat} (h : 2 ^ count * n < UInt32.size) :
    shifts count (UInt32.ofNat (2 ^ count * n)) = UInt32.ofNat n := by
  induction count with
  | zero => rw [Nat.pow_zero, Nat.one_mul, shifts]
  | succ count ih =>
    have hdouble : 2 ^ (count + 1) * n = 2 * (2 ^ count * n) := by
      rw [Nat.pow_succ', Nat.mul_assoc]
    rw [hdouble] at h ⊢
    have hvalue : (UInt32.ofNat (2 * (2 ^ count * n))).toNat = 2 * (2 ^ count * n) :=
      UInt32.toNat_ofNat_of_lt' h
    have hhalf : shift (UInt32.ofNat (2 * (2 ^ count * n))) = UInt32.ofNat (2 ^ count * n) := by
      rw [shift_eq, hvalue, if_neg (by omega), UInt32.xor_zero]
      apply UInt32.toNat_inj.mp
      rw [toNat_half, hvalue, UInt32.toNat_ofNat_of_lt' (by omega)]
      omega
    rw [shifts, hhalf, ih (by omega)]

/-! ### Octets -/

theorem update_injective (octet : UInt8) : Function.Injective (update · octet) := by
  intro register other h
  exact (UInt32.xor_left_inj _).mp (shifts_injective 8 h)

/-- A difference in the register is never lost. -/
theorem foldl_update_injective (octets : Octets) : Function.Injective (octets.foldl update) := by
  induction octets with
  | nil => exact Function.injective_id
  | cons octet rest ih =>
    intro register other h
    exact update_injective octet (ih h)

theorem xor_toUInt32 (octet : UInt8) {n : Nat} (h : 2 ^ 8 * n < UInt32.size) :
    octet.toUInt32 ^^^ UInt32.ofNat (2 ^ 8 * n) = UInt32.ofNat (octet.toNat + 2 ^ 8 * n) := by
  have hoctet : octet.toNat < 2 ^ 8 := octet.toNat_lt
  have hsum : octet.toNat + 2 ^ 8 * n < UInt32.size := by
    have hsize : UInt32.size = 2 ^ 8 * 2 ^ 24 := rfl
    omega
  apply UInt32.toNat_inj.mp
  rw [UInt32.toNat_xor, UInt8.toNat_toUInt32, UInt32.toNat_ofNat_of_lt' h,
    UInt32.toNat_ofNat_of_lt' hsum, Nat.add_comm, Nat.two_pow_add_eq_or_of_lt hoctet]
  apply Nat.eq_of_testBit_eq
  intro i
  rw [Nat.testBit_xor, Nat.testBit_or, Nat.testBit_two_pow_mul]
  by_cases hi : 8 ≤ i
  · rw [Nat.testBit_lt_two_pow (Nat.lt_of_lt_of_le hoctet (Nat.pow_le_pow_right (by decide) hi)),
      Bool.false_xor, Bool.or_false]
  · simp only [hi, decide_false, Bool.false_and, Bool.xor_false, Bool.false_or]

/-- Up to four octets are shifted through the register as one number. -/
theorem foldl_update_eq {octets : Octets} (h : octets.length ≤ 4) (register : UInt32) :
    octets.foldl update register =
      shifts (8 * octets.length) (register ^^^ UInt32.ofNat (Octets.toNatLE octets)) := by
  induction octets generalizing register with
  | nil => exact (UInt32.xor_zero).symm
  | cons octet rest ih =>
    rw [List.length_cons] at h
    have hrest : Octets.toNatLE rest < 256 ^ 3 :=
      Nat.lt_of_lt_of_le (Octets.toNatLE_lt rest) (Nat.pow_le_pow_right (by decide) (by omega))
    have hsize : 2 ^ 8 * Octets.toNatLE rest < UInt32.size := by
      have hbytes : UInt32.size = 2 ^ 8 * 256 ^ 3 := rfl
      omega
    rw [List.foldl_cons, ih (by omega), update, ← shifts_ofNat hsize, ← shifts_xor, shifts_shifts,
      UInt32.xor_assoc, xor_toUInt32 octet hsize, List.length_cons, Nat.mul_succ, Nat.add_comm 8]
    rfl

theorem foldl_update_ne {octets others : Octets} (hlength : others.length = octets.length)
    (hfour : octets.length ≤ 4) (hne : others ≠ octets) (register : UInt32) :
    others.foldl update register ≠ octets.foldl update register := by
  intro h
  have hothers : others.length ≤ 4 := hlength ▸ hfour
  rw [foldl_update_eq hfour, foldl_update_eq hothers, hlength] at h
  have hnumbers := (UInt32.xor_right_inj _).mp (shifts_injective _ h)
  exact hne (Octets.eq_of_ofNat_toNatLE hlength hothers hnumbers)

end Checksum

/-- A change within four successive octets changes the checksum. -/
theorem checksum_ne_of_burst (front back : Octets) {octets others : Octets}
    (hlength : others.length = octets.length) (hfour : octets.length ≤ 4) (hne : others ≠ octets) :
    checksum (front ++ others ++ back) ≠ checksum (front ++ octets ++ back) := by
  intro h
  have hfold := (UInt32.xor_left_inj _).mp h
  simp only [List.foldl_append] at hfold
  exact Checksum.foldl_update_ne hlength hfour hne _ (Checksum.foldl_update_injective back hfold)

end LogSequencing
