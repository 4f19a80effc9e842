import ItemExpr.Proofs.Decimal.Significant
import ItemExpr.Proofs.Format.Rounded

/-!
# Scientific notation

In scientific notation a number is shown as a mantissa, with one digit before its point and as many behind it as are
asked for, and a power of ten. The first digit of a number other than zero is no zero, and the mantissa times the power
of ten is the number, rounded at its last digit that is shown (`Format.number_scientific`).
-/

namespace ItemExpr

open Decimal

variable {x m : ℚ} {n : Number} {d : Decimal} {places : ℕ}

namespace Decimal

/-- How a number is written in scientific notation: its mantissa, with a digit before the point and some behind it, and
the digits of an exponent, of which there are at least three. -/
structure Scientific (x : ℚ) (places : ℕ) (m : ℚ) (first : Char) (fraction : List Char) (exponent : ℤ)
    (power : List Char) : Prop where
  digits : ∀ c ∈ first :: fraction, c.isDigit = true
  length : fraction.length = places
  mantissa : Denotes (minus m ++ first :: pointed fraction) m
  powerDigits : ∀ c ∈ power, c.isDigit = true
  least : 3 ≤ power.length
  value : Text.digitsValue power = exponent.natAbs
  nonzero : x ≠ 0 → first ≠ '0' ∧ RoundsAt x places (m * 10 ^ exponent)
  zero : x = 0 → m = 0 ∧ exponent = 0 ∧ power = ['0', '0', '0']

/-- A number from one to less than ten has one digit before the point, and that is no zero. -/
theorem exists_whole_eq (low : 10 ^ d.places ≤ d.unscaled.natAbs) (high : d.unscaled.natAbs < 10 ^ (d.places + 1)) :
    ∃ first, d.whole = [first] ∧ first ≠ '0' := by
  obtain ⟨least, most⟩ : 1 ≤ d.unscaled.natAbs / 10 ^ d.places ∧ d.unscaled.natAbs / 10 ^ d.places < 10 := by
    have unit : 0 < 10 ^ d.places := Nat.pow_pos (by decide)
    exact ⟨(Nat.one_le_div_iff unit).2 low, Nat.div_lt_of_lt_mul (by rwa [← pow_succ])⟩
  have single : d.whole = [(d.unscaled.natAbs / 10 ^ d.places).digitChar] := Nat.toDigits_of_lt_base most
  refine ⟨_, single, ?_⟩
  intro zero
  have none : d.unscaled.natAbs / 10 ^ d.places = 0 := by
    apply Text.eq_zero_of_head?_digits
    rw [← zero]
    exact congrArg List.head? single
  omega

/-- A mantissa is written with an exponent behind it. -/
theorem scientific_of_mantissa {exponent : ℤ} {first : Char} (own : d.places = places) (single : d.whole = [first])
    (nonzero : x ≠ 0 → first ≠ '0' ∧ RoundsAt x places (d.toRat * 10 ^ exponent))
    (zero : x = 0 → d.toRat = 0 ∧ exponent = 0) :
    Scientific x places d.toRat first d.fraction exponent (Text.zeroPadded 3 exponent.natAbs) where
  digits c member := isDigit_of_mem_whole_fraction (d := d) (by rwa [single])
  length := by rw [length_fraction, own]
  mantissa := by
    rw [← sign_eq_minus, ← List.singleton_append, ← single, ← List.append_assoc]
    exact ⟨d, spells_plain d, rfl⟩
  powerDigits _ member := Text.isDigit_of_mem_zeroPadded member
  least := by
    rw [Text.zeroPadded, List.length_leftpad]
    exact Nat.le_max_left ..
  value := Text.digitsValue_zeroPadded _ _
  nonzero := nonzero
  zero none := by
    obtain ⟨mantissa, rfl⟩ := zero none
    exact ⟨mantissa, rfl, rfl⟩

end Decimal

namespace Format

/-- The text of a decimal in terms of its significand. -/
theorem scientific_eq (d : Decimal) (places : ℕ) (letter : Char) :
    scientific d places letter =
      if (d.significand.round places).whole.length = 1 then
        (d.significand.round places).plain ++ exponentText letter (if d.unscaled = 0 then 0 else d.lead)
      else (Decimal.mk (d.unscaled.sign * Nat.pow 10 places) places).plain ++
        exponentText letter ((if d.unscaled = 0 then 0 else d.lead) + 1) := rfl

theorem plain_exponentText {first : Char} (single : d.whole = [first]) (letter : Char) (exponent : ℤ) :
    d.plain ++ exponentText letter exponent = minus d.toRat ++ first :: pointed d.fraction ++
      letter :: (if exponent < 0 then '-' else '+') :: Text.zeroPadded 3 exponent.natAbs := by
  rw [plain, single, sign_eq_minus, exponentText]
  simp

theorem exists_scientific_of_zero (zero : d.unscaled = 0) (places : ℕ) (letter : Char) :
    ∃ m first fraction exponent power, Scientific d.toRat places m first fraction exponent power ∧
      scientific d places letter =
        minus m ++ first :: pointed fraction ++ letter :: (if exponent < 0 then '-' else '+') :: power := by
  have none : (d.significand.round places).unscaled = 0 := by
    unfold Decimal.round significand
    dsimp only
    split <;> simp [zero, roundQuotient]
  have single : (d.significand.round places).whole = ['0'] := by
    rw [whole, none, Int.natAbs_zero, Nat.zero_div]
    rfl
  refine ⟨_, '0', _, 0, _, scientific_of_mantissa (round_places _ _) single ?_ ?_, ?_⟩
  · intro nonzero
    exact absurd (toRat_eq_zero_iff.2 zero) nonzero
  · intro _
    exact ⟨toRat_eq_zero_iff.2 none, rfl⟩
  · rw [scientific_eq, single, if_pos List.length_singleton, if_pos zero]
    exact plain_exponentText single letter 0

/-- The mantissa is the significand, rounded to the places that are asked for. If that carries into a second digit
before the point, it is ten, and the point moves once more. -/
theorem exists_scientific (nonzero : d.unscaled ≠ 0) (places : ℕ) (letter : Char) :
    ∃ m first fraction exponent power, Scientific d.toRat places m first fraction exponent power ∧
      scientific d places letter =
        minus m ++ first :: pointed fraction ++ letter :: (if exponent < 0 then '-' else '+') :: power := by
  have rounded := roundsAt_round nonzero places
  have own := round_places d.significand places
  have sign := @sign_round d.significand places
  obtain ⟨least, most⟩ := natAbs_round_bounds (abs_significand nonzero).1 (abs_significand nonzero).2 places
  rw [scientific_eq, if_neg nonzero]
  generalize d.significand.round places = r at rounded own sign least most
  have filled : d.toRat ≠ 0 := toRat_eq_zero_iff.not.2 nonzero
  -- What the significand is rounded to is less than ten, or ten.
  obtain less | carry := Nat.lt_or_eq_of_le most
  · obtain ⟨first, single, lead⟩ := exists_whole_eq (own ▸ least) (own ▸ less)
    refine ⟨r.toRat, first, r.fraction, d.lead, _, scientific_of_mantissa own single ?_ ?_, ?_⟩
    · intro _
      exact ⟨lead, rounded⟩
    · intro zero
      exact absurd zero filled
    · rw [single, if_pos List.length_singleton]
      exact plain_exponentText single letter d.lead
  · -- Ten is one with the next power of ten.
    have ten : r = ⟨d.unscaled.sign * 10 ^ (places + 1), places⟩ := by
      have some : r.unscaled ≠ 0 := Int.natAbs_ne_zero.1 (carry ▸ (Nat.pow_pos (by decide)).ne')
      have unscaled := Int.sign_mul_natAbs r.unscaled
      rw [sign some, carry, Nat.cast_pow] at unscaled
      calc
        r = ⟨r.unscaled, places⟩ := by rw [← own]
        _ = ⟨d.unscaled.sign * 10 ^ (places + 1), places⟩ := by
          rw [← unscaled]
          rfl
    have two : r.whole = ['1', '0'] := by
      rw [whole, carry, own, Nat.pow_eq, pow_succ', Nat.mul_div_cancel _ (Nat.pow_pos (by decide))]
      rfl
    have magnitude : (d.unscaled.sign * Nat.pow 10 places).natAbs = 10 ^ places := by
      rw [Int.natAbs_mul, Int.natAbs_sign_of_ne_zero nonzero, one_mul, Int.natAbs_natCast, Nat.pow_eq]
    obtain ⟨first, single, lead⟩ := @exists_whole_eq ⟨d.unscaled.sign * Nat.pow 10 places, places⟩ magnitude.ge
      (magnitude.trans_lt (Nat.pow_lt_pow_succ (by decide)))
    have shifted : (Decimal.mk (d.unscaled.sign * Nat.pow 10 places) places).toRat * 10 ^ (d.lead + 1) =
        r.toRat * 10 ^ d.lead := by
      rw [ten, toRat, toRat, zpow_add_one₀ (by norm_num), Nat.pow_eq]
      push_cast
      ring
    refine ⟨_, first, _, d.lead + 1, _, scientific_of_mantissa rfl single ?_ ?_, ?_⟩
    · intro _
      exact ⟨lead, shifted ▸ rounded⟩
    · intro zero
      exact absurd zero filled
    · rw [two, if_neg (by decide)]
      exact plain_exponentText single letter (d.lead + 1)

variable {digits : List Char}

/-- Under `E` an exact number is shown in scientific notation, with as many digits behind the point as are asked for, or
six. -/
theorem number_scientific (stands : n.Stands x) (asks : Asks 6 digits places) (small : places ≤ 65535) :
    ∀ letter ∈ ['E', 'e'], ∃ m first fraction exponent power, Scientific x places m first fraction exponent power ∧
      Format.number n (String.ofList (letter :: digits)) =
        .ok (minus m ++ first :: pointed fraction ++ letter :: (if exponent < 0 then '-' else '+') :: power) := by
  intro letter member
  obtain ⟨d, read, rfl⟩ := Number.toDecimal_of_stands stands
  have shown : Format.number n (String.ofList (letter :: digits)) = .ok (scientific d places letter) := by
    -- The exponent is marked by the letter of the specifier, in its case.
    obtain ⟨alpha, upper, own⟩ :
        letter.isAlpha = true ∧ letter.toUpper = 'E' ∧ (if letter.isUpper then 'E' else 'e') = letter := by
      obtain rfl | rfl := List.mem_pair.1 member <;> decide
    rw [number_of_asks alpha asks read, byLetter, upper, asks.getD_precision? small, own]
    rfl
  obtain ⟨m, first, fraction, exponent, power, parts, same⟩ :
      ∃ m first fraction exponent power, Scientific d.toRat places m first fraction exponent power ∧
        scientific d places letter =
          minus m ++ first :: pointed fraction ++ letter :: (if exponent < 0 then '-' else '+') :: power := by
    by_cases zero : d.unscaled = 0
    · exact exists_scientific_of_zero zero places letter
    · exact exists_scientific zero places letter
  exact ⟨m, first, fraction, exponent, power, parts, by rw [shown, same]⟩

/-- Rounding carries into a second digit before the point, which moves the point once more. -/
theorem number_scientific_of_carry :
    (Number.decimal "-0.09996").Stands (-9996 / 100000) ∧ Asks 6 ['2'] 2 ∧ 2 ≤ 65535 ∧ 'E' ∈ ['E', 'e'] ∧
      ∃ m first fraction exponent power, Scientific (-9996 / 100000) 2 m first fraction exponent power ∧
        "-1.00E-001".toList =
          minus m ++ first :: pointed fraction ++ 'E' :: (if exponent < 0 then '-' else '+') :: power := by
  have stands : (Number.decimal "-0.09996").Stands (-9996 / 100000) := by
    refine ⟨⟨-9996, 5⟩, parse?_eq_some.1 (by rfl), ?_⟩
    norm_num [toRat]
  have asks : Asks 6 ['2'] 2 := .digits 0 2
  have evaluated : Format.number (.decimal "-0.09996") (String.ofList ['E', '2']) = .ok "-1.00E-001".toList := by rfl
  obtain ⟨m, first, fraction, exponent, power, parts, shown⟩ :=
    number_scientific stands asks (by norm_num) 'E' (by simp)
  exact ⟨stands, asks, by norm_num, by simp, m, first, fraction, exponent, power, parts,
    Except.ok.inj (evaluated.symm.trans shown)⟩

end Format

end ItemExpr
