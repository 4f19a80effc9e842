import Mathlib.Algebra.Order.Field.Power
import ItemExpr.Proofs.Decimal.Rounding
import ItemExpr.Proofs.Text.Padding

/-!
# Rounding at significant digits

A decimal other than zero is its significand, a number from one to less than ten in magnitude, times a power of ten. To
round a number at one of its significant digits is to round its significand at the place of that digit
(`Decimal.roundsAt_round`). What a significand is rounded to may be ten, but no more (`Decimal.natAbs_round_bounds`).
-/

namespace ItemExpr

namespace Text

theorem exists_length_digits (n : ℕ) : ∃ more, (digits n).length = more + 1 :=
  Nat.exists_eq_add_one.2 (List.length_pos_of_ne_nil Nat.toDigits_ne_nil)

/-- The digits of a number are as many as the powers of ten on both sides of it say. -/
theorem pow_length_digits {n more : ℕ} (positive : 0 < n) (length : (digits n).length = more + 1) :
    10 ^ more ≤ n ∧ n < 10 ^ (more + 1) := by
  refine ⟨?_, (Nat.length_toDigits_le_iff (by decide) (Nat.succ_pos more)).1 length.le⟩
  cases more with
  | zero => exact positive
  | succ fewer =>
    -- A smaller number would have fewer digits.
    by_contra less
    have short := (Nat.length_toDigits_le_iff (by decide) (Nat.succ_pos fewer)).2 (not_le.1 less)
    change (digits n).length ≤ fewer + 1 at short
    omega

end Text

namespace Decimal

/-- What a number other than zero is when it is rounded half away from zero at a significant digit, with so many digits
behind its first one. Measured in the power of ten of its first digit, it is rounded to so many places. -/
def RoundsAt (x : ℚ) (behind : ℕ) (y : ℚ) : Prop :=
  ∃ lead : ℤ, 10 ^ lead ≤ |x| ∧ |x| < 10 ^ (lead + 1) ∧ RoundsTo (x / 10 ^ lead) behind (y / 10 ^ lead)

/-- The digits of a decimal with the point behind the first of them. -/
def significand (d : Decimal) : Decimal :=
  ⟨d.unscaled, (Text.digits d.unscaled.natAbs).length - 1⟩

/-- The power of ten of the first digit of a decimal. -/
def lead (d : Decimal) : ℤ :=
  (Text.digits d.unscaled.natAbs).length - 1 - d.places

variable {d : Decimal} {places : ℕ}

theorem toRat_eq_significand (d : Decimal) : d.toRat = d.significand.toRat * 10 ^ d.lead := by
  obtain ⟨more, length⟩ := Text.exists_length_digits d.unscaled.natAbs
  have lead : d.lead = more - d.places := by
    rw [Decimal.lead, length]
    push_cast
    ring
  rw [lead, zpow_sub₀ (by norm_num), zpow_natCast, zpow_natCast, toRat, toRat, significand, length]
  simp only [Nat.add_sub_cancel]
  field_simp

theorem abs_significand (nonzero : d.unscaled ≠ 0) : 1 ≤ |d.significand.toRat| ∧ |d.significand.toRat| < 10 := by
  obtain ⟨more, length⟩ := Text.exists_length_digits d.unscaled.natAbs
  obtain ⟨low, high⟩ := Text.pow_length_digits (Int.natAbs_pos.2 nonzero) length
  have unit : (0 : ℚ) < 10 ^ more := by positivity
  have magnitude : |d.significand.toRat| = d.unscaled.natAbs / 10 ^ more := by
    rw [abs_toRat, significand, length]
    simp only [Nat.add_sub_cancel]
  rw [magnitude, le_div_iff₀ unit, div_lt_iff₀ unit, one_mul, ← pow_succ']
  exact ⟨by exact_mod_cast low, by exact_mod_cast high⟩

/-- A decimal is rounded at a significant digit by rounding its significand. -/
theorem roundsAt_round (nonzero : d.unscaled ≠ 0) (places : ℕ) :
    RoundsAt d.toRat places ((d.significand.round places).toRat * 10 ^ d.lead) := by
  obtain ⟨low, high⟩ := abs_significand nonzero
  have unit : (0 : ℚ) < 10 ^ d.lead := zpow_pos (by norm_num) _
  have magnitude : |d.toRat| = |d.significand.toRat| * 10 ^ d.lead := by
    rw [toRat_eq_significand, abs_mul, abs_of_pos unit]
  refine ⟨d.lead, ?_, ?_, ?_⟩
  · rw [magnitude]
    exact le_mul_of_one_le_left unit.le low
  · rw [magnitude, zpow_add_one₀ (by norm_num), mul_comm]
    exact mul_lt_mul_of_pos_left high unit
  · rw [toRat_eq_significand, mul_div_cancel_right₀ _ unit.ne', mul_div_cancel_right₀ _ unit.ne']
    exact roundsTo_round d.significand places

/-- Of a number from one to less than ten, at least one and at most ten is left after rounding. -/
theorem natAbs_round_bounds (low : 1 ≤ |d.toRat|) (high : |d.toRat| < 10) (places : ℕ) :
    10 ^ places ≤ (d.round places).unscaled.natAbs ∧ (d.round places).unscaled.natAbs ≤ 10 ^ (places + 1) := by
  have near := (roundsTo_round d places).near
  have unit : (0 : ℚ) < 10 ^ places := by positivity
  have magnitude : |(d.round places).toRat| = (d.round places).unscaled.natAbs / 10 ^ places := by
    rw [abs_toRat, round_places]
  have less := (abs_sub_abs_le_abs_sub d.toRat (d.round places).toRat).trans near
  have more := (abs_sub_abs_le_abs_sub (d.round places).toRat d.toRat).trans (abs_sub_comm d.toRat _ ▸ near)
  rw [magnitude] at less more
  generalize (d.round places).unscaled.natAbs = z at less more
  generalize |d.toRat| = x at low high less more
  have half : (1 : ℚ) / (2 * 10 ^ places) * 10 ^ places = 1 / 2 := by field_simp
  have cancel : (z : ℚ) / 10 ^ places * 10 ^ places = z := div_mul_cancel₀ _ unit.ne'
  -- In units of the last place, rounding moves a number by half a unit at most.
  have lower : x * 10 ^ places - z ≤ 1 / 2 := by
    have scaled := mul_le_mul_of_nonneg_right less unit.le
    rwa [sub_mul, half, cancel] at scaled
  have upper : z - x * 10 ^ places ≤ 1 / 2 := by
    have scaled := mul_le_mul_of_nonneg_right more unit.le
    rwa [sub_mul, half, cancel] at scaled
  have fromOne : (10 : ℚ) ^ places ≤ x * 10 ^ places := le_mul_of_one_le_left unit.le low
  have belowTen : x * 10 ^ places < 10 ^ (places + 1) := by
    rw [pow_succ']
    exact mul_lt_mul_of_pos_right high unit
  have least : (10 : ℚ) ^ places < z + 1 := by linarith
  have most : (z : ℚ) < 10 ^ (places + 1) + 1 := by linarith
  refine ⟨Nat.lt_succ_iff.1 ?_, Nat.lt_succ_iff.1 ?_⟩
  · exact_mod_cast least
  · exact_mod_cast most

/-- Rounding keeps the sign of what is not rounded to zero. -/
theorem sign_round (nonzero : (d.round places).unscaled ≠ 0) :
    (d.round places).unscaled.sign = d.unscaled.sign := by
  revert nonzero
  unfold round
  split
  case isTrue =>
    intro _
    have positive : (0 : ℤ) < Nat.pow 10 (places - d.places) := by
      exact_mod_cast Nat.pow_pos (by decide)
    rw [Int.sign_mul, Int.sign_eq_one_of_pos positive, mul_one]
  case isFalse =>
    intro nonzero
    unfold roundQuotient at nonzero ⊢
    dsimp only at nonzero ⊢
    generalize (2 * d.unscaled.natAbs + Nat.pow 10 (d.places - places)) / _ = quotient at nonzero ⊢
    have positive : (0 : ℤ) < quotient := by
      exact_mod_cast Nat.pos_of_ne_zero fun none => nonzero (by rw [none, Nat.cast_zero, mul_zero])
    rw [Int.sign_mul, Int.sign_sign, Int.sign_eq_one_of_pos positive, mul_one]

end Decimal

end ItemExpr
