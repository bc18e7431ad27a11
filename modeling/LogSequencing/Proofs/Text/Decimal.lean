import LogSequencing.Text.Decimal
import LogSequencing.Text.Octets
import Mathlib.Algebra.Group.Nat.Defs

/-!
# Decimal numbers read back

A 64-bit number is read back from its plain digits (`read_digits`) and from its digits filled up with
zeros (`read_padded`). Digits are octets of their own, so nothing is lost when they are stored
(`toChars_ofAscii`), and numbers filled up to one width stand in the order of their values
(`ofDigitChars_le_of_lt`).
-/

set_option autoImplicit false
set_option relaxedAutoImplicit false

namespace LogSequencing

namespace Decimal

theorem isDigit_of_mem_digits {n : Nat} {c : Char} (h : c ∈ digits n) : c.isDigit = true :=
  Nat.isDigit_of_mem_toDigits (by decide) (by decide) h

theorem isDigit_of_mem_padded {width n : Nat} {c : Char} (h : c ∈ padded width n) :
    c.isDigit = true := by
  rcases List.mem_append.mp h with hzero | hdigit
  · rw [List.eq_of_mem_replicate hzero]
    decide
  · exact isDigit_of_mem_digits hdigit

theorem digits_ne_nil (n : Nat) : digits n ≠ [] := Nat.toDigits_ne_nil

theorem padded_ne_nil (width n : Nat) : padded width n ≠ [] := by
  simp [padded, digits_ne_nil]

/-- Only zero is written with a zero in front. -/
theorem digits_eq_zero_or (n : Nat) :
    digits n = ['0'] ∨ ∃ c rest, digits n = c :: rest ∧ c ≠ '0' := by
  induction n using Nat.base_induction 10 (by decide) with
  | single n hn =>
    by_cases hzero : n = 0
    · exact Or.inl (by rw [hzero]; rfl)
    · refine Or.inr ⟨n.digitChar, [], Nat.toDigits_of_lt_base hn, ?_⟩
      rwa [Ne, Nat.digitChar_eq_zero]
  | digit n d hd hn ih =>
    have happend : digits (10 * n + d) = digits n ++ digits d :=
      (Nat.toDigits_append_toDigits (by decide) hn hd).symm
    rcases ih with hlone | ⟨c, rest, hdigits, hc⟩
    · have hvalue := Nat.ofDigitChars_ten_toDigits (n := n)
      rw [show Nat.toDigits 10 n = ['0'] from hlone] at hvalue
      exact absurd hvalue.symm (by simpa [Nat.ofDigitChars_cons] using (Nat.ne_of_gt hn))
    · exact Or.inr ⟨c, rest ++ digits d, by rw [happend, hdigits]; rfl, hc⟩

/-- More digits never make a number smaller. -/
theorem le_ofDigitChars (cs : List Char) (value : Nat) :
    value ≤ Nat.ofDigitChars 10 cs value := by
  rw [Nat.ofDigitChars_eq_ofDigitChars_zero]
  have hpow : 0 < 10 ^ cs.length := Nat.pow_pos (by decide)
  exact Nat.le_trans (Nat.le_mul_of_pos_left value hpow) (Nat.le_add_right _ _)

theorem readFrom_eq_ok (cs : List Char) (value : Nat) (hdigits : ∀ c ∈ cs, c.isDigit = true)
    (hsize : Nat.ofDigitChars 10 cs value < UInt64.size) :
    readFrom value cs = .ok (Nat.ofDigitChars 10 cs value) := by
  induction cs generalizing value with
  | nil => rw [readFrom, Nat.ofDigitChars_nil]
  | cons c rest ih =>
    rw [Nat.ofDigitChars_cons] at hsize ⊢
    have hnext : 10 * value + (c.toNat - '0'.toNat) < UInt64.size :=
      Nat.lt_of_le_of_lt (le_ofDigitChars rest _) hsize
    rw [readFrom, if_neg (by simp [hdigits c List.mem_cons_self]), if_pos hnext]
    exact ih _ (fun d hd ↦ hdigits d (List.mem_cons_of_mem c hd)) hsize

/-- A text of digits is read as the number that they spell. -/
theorem read_eq_ok {cs : List Char} (hnonempty : cs ≠ []) (hdigits : ∀ c ∈ cs, c.isDigit = true)
    (hsize : Nat.ofDigitChars 10 cs 0 < UInt64.size) :
    read cs = .ok (UInt64.ofNat (Nat.ofDigitChars 10 cs 0)) := by
  have hsign : ∀ rest, cs ≠ '+' :: rest := by
    intro rest hplus
    have hdigit := hdigits '+' (by rw [hplus]; exact List.mem_cons_self)
    exact absurd hdigit (by decide)
  unfold read
  split
  · exact absurd rfl hnonempty
  · exact absurd rfl (hsign [])
  · exact absurd rfl (hsign _)
  · rw [readFrom_eq_ok cs 0 hdigits hsize]
    rfl

theorem read_digits (n : UInt64) : read (digits n.toNat) = .ok n := by
  have hvalue : Nat.ofDigitChars 10 (digits n.toNat) 0 = n.toNat := Nat.ofDigitChars_ten_toDigits
  rw [read_eq_ok (digits_ne_nil _) (fun _ ↦ isDigit_of_mem_digits)
    (by rw [hvalue]; exact n.toNat_lt), hvalue, UInt64.ofNat_toNat]

theorem ofDigitChars_padded (width n : Nat) : Nat.ofDigitChars 10 (padded width n) 0 = n := by
  rw [padded, Nat.ofDigitChars_append, Nat.ofDigitChars_replicate_zero, Nat.mul_zero]
  exact Nat.ofDigitChars_ten_toDigits

theorem read_padded (width : Nat) (n : UInt64) : read (padded width n.toNat) = .ok n := by
  have hvalue := ofDigitChars_padded width n.toNat
  rw [read_eq_ok (padded_ne_nil _ _) (fun _ ↦ isDigit_of_mem_padded)
    (by rw [hvalue]; exact n.toNat_lt), hvalue, UInt64.ofNat_toNat]

/-! ### Width and size -/

theorem length_padded {width n : Nat} (hwidth : 0 < width) (h : n < 10 ^ width) :
    (padded width n).length = width := by
  have hlength : (digits n).length ≤ width :=
    (Nat.length_toDigits_le_iff (by decide) hwidth).mpr h
  rw [padded, List.length_append, List.length_replicate, Nat.sub_add_cancel hlength]

theorem ofDigitChars_lt {cs : List Char} (hdigits : ∀ c ∈ cs, c.isDigit = true) :
    Nat.ofDigitChars 10 cs 0 < 10 ^ cs.length := by
  induction cs with
  | nil =>
    rw [Nat.ofDigitChars_nil]
    exact Nat.one_pos
  | cons c cs ih =>
    have hrest := ih fun d hd ↦ hdigits d (List.mem_cons_of_mem c hd)
    have hrange : 48 ≤ c.toNat ∧ c.toNat ≤ 57 :=
      Char.isDigit_iff_toNat.mp (hdigits c List.mem_cons_self)
    have hdigit : c.toNat - '0'.toNat ≤ 9 := Nat.sub_le_iff_le_add.mpr hrange.2
    have hfirst := Nat.mul_le_mul_left (10 ^ cs.length) hdigit
    rw [Nat.ofDigitChars_cons, Nat.mul_zero, Nat.zero_add, Nat.ofDigitChars_eq_ofDigitChars_zero,
      List.length_cons, Nat.pow_succ]
    omega

end Decimal

namespace Octets

/-- The ten digits, as characters and as octets. -/
theorem digit_octet {c : Char} (h : c.isDigit = true) :
    Char.ofUInt8 c.toUInt8 = c ∧ 0x30 ≤ c.toUInt8 ∧ c.toUInt8 ≤ 0x39 := by
  have hrange : 48 ≤ c.toNat ∧ c.toNat ≤ 57 := Char.isDigit_iff_toNat.mp h
  obtain ⟨d, hd, rfl⟩ : ∃ d, d < 10 ∧ c = Char.ofNat (48 + d) :=
    ⟨c.toNat - 48, by omega, by rw [Nat.add_sub_cancel' hrange.1, Char.ofNat_toNat]⟩
  clear h hrange
  revert d
  decide

/-- Digits survive being stored. -/
theorem toChars_ofAscii {cs : List Char} (hdigits : ∀ c ∈ cs, c.isDigit = true) :
    toChars (ofAscii cs) = cs := by
  rw [toChars, ofAscii, List.map_map]
  refine (List.map_congr_left fun c hc ↦ ?_).trans (List.map_id cs)
  exact (digit_octet (hdigits c hc)).1

/-! ### Order -/

theorem toNat_toUInt8 {c : Char} (h : c.isDigit = true) : c.toUInt8.toNat = c.toNat := by
  have hrange : 48 ≤ c.toNat ∧ c.toNat ≤ 57 := Char.isDigit_iff_toNat.mp h
  have hmod : c.toUInt8.toNat = c.toNat % 256 := rfl
  rw [hmod, Nat.mod_eq_of_lt (by omega)]

/-- Of two texts with as many digits, the one that stands first spells no greater number, whatever
follows them. -/
theorem ofDigitChars_le_of_lt {cs ds : List Char} (hcs : ∀ c ∈ cs, c.isDigit = true)
    (hds : ∀ d ∈ ds, d.isDigit = true) (hlength : cs.length = ds.length) {after other : Octets}
    (h : ofAscii cs ++ after < ofAscii ds ++ other) :
    Nat.ofDigitChars 10 cs 0 ≤ Nat.ofDigitChars 10 ds 0 := by
  induction cs generalizing ds with
  | nil =>
    obtain rfl := List.length_eq_zero_iff.mp hlength.symm
    exact Nat.le_refl _
  | cons c cs ih =>
    cases ds with
    | nil => exact absurd hlength (by simp)
    | cons d ds =>
      obtain ⟨hc, hcs⟩ := List.forall_mem_cons.mp hcs
      obtain ⟨hd, hds⟩ := List.forall_mem_cons.mp hds
      have hrest : cs.length = ds.length := Nat.succ.inj hlength
      simp only [Nat.ofDigitChars_cons, Nat.mul_zero, Nat.zero_add]
      rw [Nat.ofDigitChars_eq_ofDigitChars_zero (l := cs),
        Nat.ofDigitChars_eq_ofDigitChars_zero (l := ds), hrest]
      rcases List.cons_lt_cons_iff.mp h with hless | ⟨hsame, htail⟩
      · have hdigit : c.toNat - '0'.toNat + 1 ≤ d.toNat - '0'.toNat := by
          have hnumbers := UInt8.lt_iff_toNat_lt.mp hless
          rw [toNat_toUInt8 hc, toNat_toUInt8 hd] at hnumbers
          have hrange : 48 ≤ c.toNat := (Char.isDigit_iff_toNat.mp hc).1
          have hzero : '0'.toNat = 48 := rfl
          omega
        have hfirst := Nat.mul_le_mul_left (10 ^ ds.length) hdigit
        have hbelow := Decimal.ofDigitChars_lt hcs
        rw [hrest] at hbelow
        rw [Nat.mul_succ] at hfirst
        omega
      · have hchar : c = d := by
          rw [← (digit_octet hc).1, ← (digit_octet hd).1]
          exact congrArg Char.ofUInt8 hsame
        rw [hchar]
        exact Nat.add_le_add_left (ih hcs hds hrest htail) _

end Octets

end LogSequencing
