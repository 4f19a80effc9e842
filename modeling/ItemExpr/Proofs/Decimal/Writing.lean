import ItemExpr.Proofs.Decimal.Rounding
import ItemExpr.Proofs.Decimal.Spelling

/-!
# Written numbers

A text denotes a number if it reads as a decimal that stands for it. The plain text of a decimal denotes the decimal's
number, without a plus sign, without a minus sign in front of zero, and without zeros in front of other digits
(`Decimal.written_plain`).
-/

namespace ItemExpr.Decimal

/-- The text reads as a decimal that stands for the number. -/
def Denotes (chars : List Char) (x : ℚ) : Prop :=
  ∃ d, Spells chars d ∧ d.toRat = x

/-- The sign that is written in front of a number: a minus sign if it is negative, and otherwise none. -/
def minus (x : ℚ) : List Char :=
  if x < 0 then ['-'] else []

/-- How a number is written: some digits, of which there is at least one, with no zero in front of other digits, and
digits behind the point. -/
structure Written (x : ℚ) (whole fraction : List Char) : Prop where
  digits : ∀ c ∈ whole ++ fraction, c.isDigit = true
  nonempty : whole ≠ []
  lead : whole.head? = some '0' → whole = ['0']
  denotes : Denotes (minus x ++ whole ++ pointed fraction) x

theorem toRat_neg_iff {d : Decimal} : d.toRat < 0 ↔ d.unscaled < 0 := by
  have positive : (0 : ℚ) < 10 ^ d.places := by positivity
  rw [toRat, div_lt_iff₀ positive, zero_mul, Int.cast_lt_zero]

theorem sign_eq_minus (d : Decimal) : d.sign = minus d.toRat := by
  rw [sign, minus]
  exact if_congr toRat_neg_iff.symm rfl rfl

theorem written_plain (d : Decimal) : Written d.toRat d.whole d.fraction where
  digits _ member := isDigit_of_mem_whole_fraction member
  nonempty := whole_ne_nil d
  lead zero := by
    rw [whole] at zero ⊢
    rw [Text.eq_zero_of_head?_digits zero]
    rfl
  denotes := by
    rw [← sign_eq_minus]
    exact ⟨d, spells_plain d, rfl⟩

end ItemExpr.Decimal
