import Mathlib.Algebra.Order.Field.Rat
import Mathlib.Tactic.FieldSimp
import Mathlib.Tactic.GCongr
import Mathlib.Tactic.Linarith
import Mathlib.Tactic.Positivity
import Mathlib.Tactic.Ring
import ItemExpr.Number.Decimal

/-!
# Rounding decimals

A decimal stands for a rational number. Rounding a decimal to some places is rounding that number to the nearest
multiple of the last place, a half away from zero (`Decimal.roundsTo_round`). If what a number is rounded to has zeros
at its end, the number is rounded to the same when they are left out (`Decimal.RoundsTo.of_multiple`).
-/

namespace ItemExpr.Decimal

/-- The number that a decimal stands for. -/
def toRat (d : Decimal) : ℚ :=
  d.unscaled / 10 ^ d.places

/-- What a number is when it is rounded to some places: the multiple of the last place that is nearest to it, and of two
equally near ones that farther from zero. -/
structure RoundsTo (x : ℚ) (places : ℕ) (y : ℚ) : Prop where
  multiple : ∃ z : ℤ, y = z / 10 ^ places
  near : |x - y| ≤ 1 / (2 * 10 ^ places)
  away : |x - y| = 1 / (2 * 10 ^ places) → |x| < |y|

/-! ## Numbers -/

namespace RoundsTo

variable {x y : ℚ} {places : ℕ}

/-- A multiple of the last place is rounded to itself. -/
theorem self (multiple : ∃ z : ℤ, x = z / 10 ^ places) : RoundsTo x places x := by
  have positive : (0 : ℚ) < 1 / (2 * 10 ^ places) := by positivity
  refine ⟨multiple, ?_, ?_⟩
  · rw [sub_self, abs_zero]
    exact positive.le
  · intro tie
    rw [sub_self, abs_zero] at tie
    exact absurd tie positive.ne

theorem eq_of_multiple (rounds : RoundsTo x places y) (multiple : ∃ z : ℤ, x = z / 10 ^ places) : y = x := by
  obtain ⟨z, rfl⟩ := rounds.multiple
  obtain ⟨w, rfl⟩ := multiple
  have positive : (0 : ℚ) < 10 ^ places := by positivity
  have near := rounds.near
  rw [← sub_div, abs_div, abs_of_pos positive, div_le_div_iff₀ positive (by positivity)] at near
  have half : 2 * |(w : ℚ) - z| ≤ 1 := by
    refine le_of_mul_le_mul_right ?_ positive
    linarith
  have less : |w - z| < 1 := by
    have whole : 2 * |w - z| ≤ 1 := by exact_mod_cast half
    omega
  rw [sub_eq_zero.1 (Int.abs_lt_one_iff.1 less)]

theorem neg (rounds : RoundsTo x places y) : RoundsTo (-x) places (-y) := by
  have distance : |-x - -y| = |x - y| := by
    rw [← abs_neg]
    ring_nf
  obtain ⟨z, rfl⟩ := rounds.multiple
  refine ⟨⟨-z, by push_cast; ring⟩, ?_, ?_⟩
  · rw [distance]
    exact rounds.near
  · intro tie
    rw [distance] at tie
    rw [abs_neg, abs_neg]
    exact rounds.away tie

/-- Zeros at the end of what a number is rounded to may be left out: it is rounded to the same in fewer places. -/
theorem of_multiple {fewer : ℕ} (rounds : RoundsTo x places y) (le : fewer ≤ places)
    (multiple : ∃ z : ℤ, y = z / 10 ^ fewer) : RoundsTo x fewer y := by
  have coarser : (1 : ℚ) / (2 * 10 ^ places) ≤ 1 / (2 * 10 ^ fewer) := by
    gcongr
    norm_num
  refine ⟨multiple, rounds.near.trans coarser, ?_⟩
  intro tie
  refine rounds.away (le_antisymm rounds.near ?_)
  rw [tie]
  exact coarser

end RoundsTo

/-! ## Decimals -/

@[simp] theorem toRat_ofInt (z : ℤ) : (ofInt z).toRat = z := by
  simp [toRat, ofInt]

@[simp] theorem toRat_negate (d : Decimal) : d.negate.toRat = -d.toRat := by
  simp [toRat, negate, neg_div]

theorem abs_toRat (d : Decimal) : |d.toRat| = d.unscaled.natAbs / 10 ^ d.places := by
  have positive : (0 : ℚ) < 10 ^ d.places := by positivity
  rw [toRat, abs_div, abs_of_pos positive, ← Int.cast_abs, Int.abs_eq_natAbs, Int.cast_natCast]

theorem toRat_eq_zero_iff {d : Decimal} : d.toRat = 0 ↔ d.unscaled = 0 := by
  have unit : (10 : ℚ) ^ d.places ≠ 0 := by positivity
  rw [toRat, div_eq_zero_iff, or_iff_left unit, Int.cast_eq_zero]

/-- Zeros at the end of a decimal do not count. -/
theorem toRat_of_zeros {d e : Decimal} {zeros : ℕ} (unscaled : d.unscaled = e.unscaled * 10 ^ zeros)
    (places : d.places = e.places + zeros) : d.toRat = e.toRat := by
  have positive : (10 : ℚ) ^ zeros ≠ 0 := by positivity
  simp only [toRat, unscaled, places, pow_add]
  push_cast
  exact mul_div_mul_right _ _ positive

theorem roundQuotient_neg (z : ℤ) (m : ℕ) : roundQuotient (-z) m = -roundQuotient z m := by
  simp [roundQuotient]

theorem roundQuotient_natCast (n : ℕ) {m : ℕ} (positive : 0 < m) :
    roundQuotient n m = ((2 * n + m) / (2 * m) : ℕ) := by
  obtain rfl | filled := Nat.eq_zero_or_pos n
  · have none : m / (2 * m) = 0 := Nat.div_eq_of_lt (by omega)
    simp [roundQuotient, none]
  · simp [roundQuotient, Int.sign_natCast_of_ne_zero (Nat.ne_of_gt filled)]

theorem round_negate (d : Decimal) (places : ℕ) : d.negate.round places = (d.round places).negate := by
  unfold round negate
  dsimp only
  split <;> simp [roundQuotient_neg]

/-- Rounding keeps a decimal that has no digits to lose. -/
theorem toRat_round_of_le {d : Decimal} {places : ℕ} (fits : d.places ≤ places) :
    (d.round places).toRat = d.toRat := by
  refine @toRat_of_zeros _ _ (places - d.places) ?_ ?_
  · rw [round, if_pos fits]
    push_cast
    rfl
  · rw [round_places]
    exact (Nat.add_sub_cancel' fits).symm

theorem multiple_round (d : Decimal) (places : ℕ) : ∃ z : ℤ, (d.round places).toRat = z / 10 ^ places :=
  ⟨(d.round places).unscaled, by rw [toRat, round_places]⟩

/-- The quotient that a natural number is rounded to: the distance to it is at most half of the divisor, and if it is
half, the quotient was taken upwards. -/
theorem half_le_quotient (n : ℕ) {m : ℕ} (positive : 0 < m) :
    (2 * n + m) / (2 * m) * (2 * m) ≤ 2 * n + m ∧ 2 * n < (2 * n + m) / (2 * m) * (2 * m) + m := by
  have below := Nat.div_mul_le_self (2 * n + m) (2 * m)
  have above := Nat.lt_div_mul_add (a := 2 * n + m) (b := 2 * m) (by omega)
  omega

/-- Cutting `lost` places off a natural number of units of the last place. -/
theorem roundsTo_quotient (n places lost : ℕ) :
    RoundsTo (n / 10 ^ (places + lost)) places
      (((2 * n + 10 ^ lost) / (2 * 10 ^ lost) : ℕ) / 10 ^ places) := by
  obtain ⟨below, above⟩ := half_le_quotient n (show 0 < 10 ^ lost by positivity)
  generalize (2 * n + 10 ^ lost) / (2 * 10 ^ lost) = q at below above
  have low : (q : ℚ) * (2 * 10 ^ lost) ≤ 2 * n + 10 ^ lost := by exact_mod_cast below
  have high : 2 * (n : ℚ) < q * (2 * 10 ^ lost) + 10 ^ lost := by exact_mod_cast above
  have unit : (0 : ℚ) < 10 ^ places := by positivity
  have step : (0 : ℚ) < 10 ^ lost := by positivity
  -- In units of the last place of the given number, what is lost is between minus a half and a half of a step.
  have lostPart : (n : ℚ) / 10 ^ (places + lost) - q / 10 ^ places =
      (n - q * 10 ^ lost) / (10 ^ places * 10 ^ lost) := by
    rw [pow_add]
    field_simp
  have half : (1 : ℚ) / (2 * 10 ^ places) = 10 ^ lost / 2 / (10 ^ places * 10 ^ lost) := by
    field_simp
  have whole : (0 : ℚ) < 10 ^ places * 10 ^ lost := mul_pos unit step
  refine ⟨⟨q, by rw [Int.cast_natCast]⟩, ?_, ?_⟩
  · rw [lostPart, half, abs_div, abs_of_pos whole]
    gcongr
    exact abs_le.2 ⟨by linarith, by linarith⟩
  · intro tie
    rw [lostPart, half, abs_div, abs_of_pos whole, div_left_inj' whole.ne'] at tie
    have upwards : (n : ℚ) < q * 10 ^ lost := by
      obtain same | same := (abs_eq (by positivity)).1 tie
      · linarith
      · linarith
    rw [abs_of_nonneg (by positivity), abs_of_nonneg (by positivity), pow_add, div_lt_div_iff₀ whole unit]
    have scaled := mul_lt_mul_of_pos_right upwards unit
    linarith

/-- Rounding a decimal rounds the number that it stands for. -/
theorem roundsTo_round (d : Decimal) (places : ℕ) : RoundsTo d.toRat places (d.round places).toRat := by
  by_cases fits : d.places ≤ places
  · have same := toRat_round_of_le fits
    rw [← same]
    exact .self (multiple_round d places)
  · obtain ⟨lost, split⟩ := Nat.exists_eq_add_of_le (Nat.le_of_not_le fits)
    -- The sign is kept, so that it is enough to look at decimals that are not negative.
    have positive : ∀ n : ℕ, RoundsTo (mk n d.places).toRat places ((mk n d.places).round places).toRat := by
      intro n
      have rounded : (mk n d.places).round places = ⟨((2 * n + 10 ^ lost) / (2 * 10 ^ lost) : ℕ), places⟩ := by
        rw [round, if_neg fits]
        dsimp only
        rw [split, Nat.add_sub_cancel_left, Nat.pow_eq, roundQuotient_natCast n (by positivity)]
      rw [rounded, split]
      exact roundsTo_quotient n places lost
    obtain ⟨n, own | own⟩ := Int.eq_nat_or_neg d.unscaled
    · have same : d = mk n d.places := by rw [← own]
      rw [same]
      exact positive n
    · have same : d = (mk n d.places).negate := by rw [negate, ← own]
      rw [same, round_negate, toRat_negate, toRat_negate]
      exact (positive n).neg

end ItemExpr.Decimal
