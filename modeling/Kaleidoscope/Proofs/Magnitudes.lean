import Kaleidoscope.Number.Decimal
import Mathlib.Algebra.Ring.Nat
import Mathlib.Data.Nat.Log

set_option autoImplicit false

/- A magnitude is a significand of at most 53 binary digits, shifted by some number of places, and
with a shift the significand has all of its digits. -/

namespace Kaleidoscope

section Rounding

variable {numerator denominator factor : Nat}

theorem roundHalfEven_mul (positive : 0 < factor) :
    roundHalfEven (numerator * factor) (denominator * factor) =
      roundHalfEven numerator denominator := by
  have below : 2 * (numerator % denominator * factor) < denominator * factor ↔
      2 * (numerator % denominator) < denominator := by
    rw [← Nat.mul_assoc, Nat.mul_lt_mul_right positive]
  have half : 2 * (numerator % denominator * factor) = denominator * factor ↔
      2 * (numerator % denominator) = denominator := by
    rw [← Nat.mul_assoc, Nat.mul_left_inj (Nat.ne_of_gt positive)]
  simp only [roundHalfEven, Nat.mul_div_mul_right _ _ positive, Nat.mul_mod_mul_right, below, half]

theorem roundHalfEven_of_whole (whole : Nat) (positive : 0 < denominator) :
    roundHalfEven (whole * denominator) denominator = whole := by
  simp [roundHalfEven, Nat.mul_div_cancel _ positive, positive]

end Rounding

namespace Magnitude

/-- One is a positive number of units. -/
theorem one_units_pos : 0 < Nat.pow 2 1074 := by decide +kernel

theorem nearest_of_dropped {numerator denominator dropped : Nat}
    (width : (numerator * Nat.pow 2 1074 / denominator).log2 - 52 = dropped) :
    nearest numerator denominator = ofRank (dropped * Nat.pow 2 52 +
      roundHalfEven (numerator * Nat.pow 2 1074) (denominator * Nat.pow 2 dropped)) := by
  rw [← width]
  rfl

/-- The magnitude nearest to a fraction is the same in all terms. -/
theorem nearest_mul {factor : Nat} (numerator denominator : Nat) (positive : 0 < factor) :
    nearest (numerator * factor) (denominator * factor) = nearest numerator denominator := by
  rw [nearest_of_dropped rfl, nearest_of_dropped rfl, Nat.mul_right_comm numerator,
    Nat.mul_div_mul_right _ _ positive, Nat.mul_right_comm denominator, roundHalfEven_mul positive]

/-- The value is the significand with `shift` zeros behind it in binary. -/
structure Splits (magnitude : Magnitude) (shift significand : Nat) : Prop where
  rank : magnitude.rank = shift * 2 ^ 52 + significand
  units : magnitude.units = significand * 2 ^ shift
  short : significand < 2 ^ 53
  full : shift = 0 ∨ 2 ^ 52 ≤ significand

theorem exists_splits (magnitude : Magnitude) :
    ∃ shift significand, magnitude.Splits shift significand := by
  by_cases small : magnitude.rank < 2 ^ 52
  · have even : magnitude.units = magnitude.rank := if_pos small
    exact ⟨0, magnitude.rank, by omega, by rw [even, Nat.pow_zero, Nat.mul_one], by omega, .inl rfl⟩
  · have wide : magnitude.units =
        (2 ^ 52 + magnitude.rank % 2 ^ 52) * 2 ^ (magnitude.rank / 2 ^ 52 - 1) := if_neg small
    exact ⟨magnitude.rank / 2 ^ 52 - 1, 2 ^ 52 + magnitude.rank % 2 ^ 52, by omega, wide, by omega,
      .inr (by omega)⟩

variable {magnitude other : Magnitude} {shift significand : Nat}

theorem Splits.log2_units (splits : magnitude.Splits shift significand) :
    magnitude.units.log2 - 52 = shift := by
  rw [splits.units, Nat.log2_eq_log_two]
  rcases splits.full with rfl | full
  · have small : Nat.log 2 significand < 53 := Nat.log_lt_of_lt_pow' (by decide) splits.short
    rw [Nat.pow_zero, Nat.mul_one]
    omega
  · have digits : Nat.log 2 (significand * 2 ^ shift) = 52 + shift := by
      apply (Nat.log_eq_iff (.inl (by omega))).2
      rw [Nat.add_right_comm, Nat.pow_add, Nat.pow_add]
      exact ⟨Nat.mul_le_mul_right _ full,
        Nat.mul_lt_mul_of_pos_right splits.short (Nat.two_pow_pos shift)⟩
    rw [digits]
    omega

/-- The order of ranks is the order of values. -/
theorem units_le (less : magnitude.rank ≤ other.rank) : magnitude.units ≤ other.units := by
  obtain ⟨shift, significand, first⟩ := magnitude.exists_splits
  obtain ⟨wider, leading, second⟩ := other.exists_splits
  have ranks : shift * 2 ^ 52 + significand ≤ wider * 2 ^ 52 + leading := by
    rw [← first.rank, ← second.rank]
    exact less
  rw [first.units, second.units]
  rcases Nat.lt_trichotomy shift wider with below | rfl | above
  · -- A significand of 53 digits is below the smallest one of the next shift.
    have normal : 2 ^ 52 ≤ leading := second.full.resolve_left (by omega)
    calc significand * 2 ^ shift ≤ 2 ^ 53 * 2 ^ shift :=
          Nat.mul_le_mul_right _ (Nat.le_of_lt first.short)
      _ = 2 ^ 52 * 2 ^ (shift + 1) := by rw [← Nat.pow_add, ← Nat.pow_add]; congr 1; omega
      _ ≤ leading * 2 ^ wider :=
          Nat.mul_le_mul normal (Nat.pow_le_pow_right (by decide) below)
  · exact Nat.mul_le_mul_right _ (by omega)
  · have normal : 2 ^ 52 ≤ significand := first.full.resolve_left (by omega)
    have short := second.short
    omega

theorem floor_le (less : magnitude.rank ≤ other.rank) : magnitude.floor ≤ other.floor :=
  Nat.div_le_div_right (units_le less)

/-- The value of a magnitude has no other magnitude nearest to it. -/
theorem nearest_units (magnitude : Magnitude) :
    nearest magnitude.units (Nat.pow 2 1074) = magnitude := by
  obtain ⟨shift, significand, splits⟩ := magnitude.exists_splits
  have whole (unit : Nat) (positive : 0 < unit) :
      roundHalfEven (magnitude.units * unit) (unit * Nat.pow 2 shift) = significand := by
    rw [splits.units, Nat.mul_comm unit, Nat.mul_assoc]
    exact roundHalfEven_of_whole significand (Nat.mul_pos (Nat.two_pow_pos shift) positive)
  have width (unit : Nat) (positive : 0 < unit) :
      (magnitude.units * unit / unit).log2 - 52 = shift := by
    rw [Nat.mul_div_cancel _ positive, splits.log2_units]
  have rank : shift * Nat.pow 2 52 + significand = magnitude.rank := splits.rank.symm
  rw [nearest_of_dropped (width _ one_units_pos), whole _ one_units_pos, rank, ofRank_rank]

end Magnitude

end Kaleidoscope
