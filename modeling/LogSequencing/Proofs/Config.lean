import LogSequencing.Config
import Mathlib.Algebra.Group.Nat.Defs
import Mathlib.Order.Monotone.Basic
import Mathlib.Tactic.SplitIfs

/-!
# How long to wait

The delay between two attempts is worked out in counts of 64 bits. A product that is too large for a
count exceeds every greatest delay, so nothing is lost there (`retryDelay_eq`). But the base delay is
doubled no more than `maxDoublings` times: where the greatest delay has not been reached by then, it
never is, and the delay stays behind the exponential (`retryDelay_capped`).
-/

set_option autoImplicit false
set_option relaxedAutoImplicit false

namespace LogSequencing.Config

variable {config : Config}

theorem toNat_saturatingMul (a b : UInt64) :
    (saturatingMul a b).toNat = min (a.toNat * b.toNat) (2 ^ 64 - 1) := by
  have hsize : UInt64.size = 2 ^ 64 := rfl
  have hgreatest : (0xffffffffffffffff : UInt64).toNat = 2 ^ 64 - 1 := rfl
  unfold saturatingMul
  split_ifs with hfits
  · rw [UInt64.toNat_mul, Nat.mod_eq_of_lt (hsize ▸ hfits)]
    omega
  · omega

theorem toNat_one_shiftLeft {doublings : Nat} (h : doublings < 64) :
    ((1 : UInt64) <<< UInt64.ofNat doublings).toNat = 2 ^ doublings := by
  have hpow : 2 ^ doublings < 2 ^ 64 := Nat.pow_lt_pow_right (by decide) h
  have hshift : (UInt64.ofNat doublings).toNat % 64 = doublings := by
    rw [UInt64.toNat_ofNat']
    omega
  rw [UInt64.toNat_shiftLeft, hshift, UInt64.toNat_one, Nat.shiftLeft_eq, Nat.one_mul,
    Nat.mod_eq_of_lt hpow]

/-- In counts of 64 bits the delay comes to the same as in natural numbers. -/
theorem retryDelay_eq (config : Config) (attempt : Nat) :
    config.retryDelay attempt = min (config.retryBaseDelay.toNat * 2 ^ min (attempt - 1) maxDoublings)
      config.retryMaxDelay.toNat := by
  have hdoublings : min (attempt - 1) maxDoublings < 64 :=
    Nat.lt_of_le_of_lt (Nat.min_le_right _ _) (by decide)
  have hgreatest := config.retryMaxDelay.toNat_lt
  rw [retryDelay, toNat_saturatingMul, toNat_one_shiftLeft hdoublings, Nat.min_assoc,
    Nat.min_eq_right (a := 2 ^ 64 - 1) (by omega)]

theorem validate_eq_ok_iff : config.validate = .ok () ↔ config.flushThreshold ≠ 0 ∧
    config.retryBaseDelay ≠ 0 ∧ config.retryBaseDelay ≤ config.retryMaxDelay := by
  rw [← UInt64.not_lt]
  unfold validate
  split_ifs <;> simp_all

/-- The delay never falls. -/
theorem monotone_retryDelay (config : Config) : Monotone config.retryDelay := by
  intro attempt later hle
  have hdoublings : min (attempt - 1) maxDoublings ≤ min (later - 1) maxDoublings := by omega
  have hproduct := Nat.mul_le_mul_left config.retryBaseDelay.toNat
    (Nat.pow_le_pow_right Nat.two_pos hdoublings)
  rw [retryDelay_eq, retryDelay_eq]
  omega

theorem retryDelay_of_maxDoublings_lt {attempt : Nat} (h : maxDoublings < attempt) :
    config.retryDelay attempt =
      min (config.retryBaseDelay.toNat * 2 ^ maxDoublings) config.retryMaxDelay.toNat := by
  rw [retryDelay_eq, Nat.min_eq_right (Nat.le_sub_one_of_lt h)]

theorem retryDelay_le (config : Config) (attempt : Nat) : config.retryDelay attempt ≤
    min (config.retryBaseDelay.toNat * 2 ^ maxDoublings) config.retryMaxDelay.toNat := by
  rw [← retryDelay_of_maxDoublings_lt (Nat.lt_succ_of_le (Nat.le_add_left maxDoublings attempt))]
  exact config.monotone_retryDelay (by omega)

/-- Doubling goes on to change the delay exactly where the greatest delay is out of reach. -/
theorem min_mul_two_pow_eq_iff {base greatest doublings more : Nat} (hpos : 0 < base)
    (hmore : doublings < more) : min (base * 2 ^ doublings) greatest = min (base * 2 ^ more) greatest ↔
      greatest ≤ base * 2 ^ doublings := by
  have hlt : base * 2 ^ doublings < base * 2 ^ more :=
    Nat.mul_lt_mul_of_pos_left (Nat.pow_lt_pow_right (by decide) hmore) hpos
  omega

/-- **The delay is the capped exponential as far as the doublings go.** It lies between the base delay
and the greatest delay and never falls. On the first attempts it is the base delay, doubled with each of
them and cut to the greatest delay. On later ones it is so exactly if the greatest delay is within reach
of the doublings; otherwise the delay never reaches it. -/
theorem retryDelay_capped (hvalid : config.validate = .ok ()) :
    let base := config.retryBaseDelay.toNat
    let greatest := config.retryMaxDelay.toNat
    (∀ attempt, 1 ≤ attempt →
      (config.retryDelay attempt = min (base * 2 ^ (attempt - 1)) greatest ↔
        attempt ≤ maxDoublings + 1 ∨ greatest ≤ base * 2 ^ maxDoublings)) ∧
    (∀ attempt, base ≤ config.retryDelay attempt ∧ config.retryDelay attempt ≤ greatest) ∧
    Monotone config.retryDelay ∧
    (∀ attempt, maxDoublings < attempt →
      config.retryDelay attempt = min (base * 2 ^ maxDoublings) greatest) ∧
    ((∃ attempt, config.retryDelay attempt = greatest) ↔ greatest ≤ base * 2 ^ maxDoublings) := by
  intro base greatest
  obtain ⟨-, hzero, hle⟩ := validate_eq_ok_iff.mp hvalid
  have hpos : 0 < base := Nat.pos_of_ne_zero fun h ↦ hzero (UInt64.toNat_inj.mp h)
  have hbase : base ≤ greatest := UInt64.le_iff_toNat_le.mp hle
  refine ⟨fun attempt hfirst ↦ ?_, fun attempt ↦ ⟨?_, ?_⟩, config.monotone_retryDelay,
    fun attempt ↦ retryDelay_of_maxDoublings_lt, ?_, ?_⟩
  · rcases Nat.lt_or_ge (maxDoublings + 1) attempt with hlate | hearly
    · rw [retryDelay_of_maxDoublings_lt (by omega), min_mul_two_pow_eq_iff hpos (by omega)]
      exact (or_iff_right (Nat.not_le_of_lt hlate)).symm
    · rw [retryDelay_eq, Nat.min_eq_left (a := attempt - 1) (by omega)]
      exact iff_of_true rfl (Or.inl hearly)
  · rw [retryDelay_eq]
    exact Nat.le_min.mpr ⟨Nat.le_mul_of_pos_right _ (Nat.two_pow_pos _), hbase⟩
  · exact Nat.le_trans (config.retryDelay_le attempt) (Nat.min_le_right _ _)
  · rintro ⟨attempt, hreached⟩
    exact hreached ▸ Nat.le_trans (config.retryDelay_le attempt) (Nat.min_le_left _ _)
  · intro hreach
    refine ⟨maxDoublings + 1, ?_⟩
    rw [retryDelay_of_maxDoublings_lt (Nat.lt_succ_self _)]
    exact Nat.min_eq_right hreach

/-- The least base delay and the greatest of all delays. -/
def widest : Config := ⟨1, 1, 0xffffffffffffffff⟩

/-- On the eighteenth attempt the delay is doubled no more, though it is far from the greatest one. -/
theorem widest_capped :
    let greatest := widest.retryMaxDelay.toNat
    widest.validate = .ok () ∧ greatest = 2 ^ 64 - 1 ∧ widest.retryDelay 18 = 2 ^ 16 ∧
      widest.retryDelay 18 ≠ min (1 * 2 ^ (18 - 1)) greatest ∧
      ∀ attempt, widest.retryDelay attempt ≠ greatest := by
  intro greatest
  have hvalid : widest.validate = .ok () := rfl
  have hgreatest : greatest = 2 ^ 64 - 1 := rfl
  obtain ⟨hexponential, -, -, hlast, hreached⟩ := retryDelay_capped hvalid
  have hfar : ¬ greatest ≤ 1 * 2 ^ maxDoublings := by
    rw [hgreatest]
    decide
  have hcapped : min (1 * 2 ^ maxDoublings) greatest = 2 ^ 16 :=
    Nat.min_eq_left (Nat.le_of_lt (Nat.lt_of_not_le hfar))
  refine ⟨hvalid, hgreatest, (hlast 18 (by decide)).trans hcapped, fun hequal ↦ ?_,
    fun attempt hattempt ↦ ?_⟩
  · exact ((hexponential 18 (by decide)).mp hequal).elim (by decide) hfar
  · exact hfar (hreached.mp ⟨attempt, hattempt⟩)

end LogSequencing.Config
