import ItemExpr.Proofs.Decimal.Groups
import ItemExpr.Proofs.Decimal.Writing
import ItemExpr.Proofs.Format.StoredNumber

/-!
# Rounded numbers

A letter of a numeric format asks for as many digits behind the point as the digits behind the letter say, or for a
usual number of them. Under the letters for fixed places, grouped digits and currency, a number is shown rounded half
away from zero to these places; under that for percent, a hundred times the number is (`Format.number_rounded`).
-/

namespace ItemExpr

open Decimal

variable {x y : ℚ} {n : Number} {d : Decimal}

/-! ## Precisions -/

namespace Format

/-- What the digits behind a letter ask for: the number that they spell, whatever zeros stand in front of it, or the
usual number if there are none. -/
inductive Asks (usual : ℕ) : List Char → ℕ → Prop where
  | nothing : Asks usual [] usual
  | digits (zeros places : ℕ) : Asks usual (List.replicate zeros '0' ++ Text.digits places) places

variable {usual places : ℕ} {digits : List Char}

theorem Asks.isDigit (asks : Asks usual digits places) : ∀ c ∈ digits, c.isDigit = true := by
  cases asks with
  | nothing => exact List.forall_mem_nil _
  | digits zeros places =>
    intro c member
    obtain zero | own := List.mem_append.1 member
    · rw [List.eq_of_mem_replicate zero]
      rfl
    · exact Text.isDigit_of_mem_digits own

theorem Asks.getD_precision? (asks : Asks usual digits places) (small : places ≤ 65535) :
    (precision? digits).getD usual = places := by
  cases asks with
  | nothing => rfl
  | digits zeros places =>
    have word : places < Text.wordLimit := lt_of_le_of_lt small (by decide)
    have read : precision? (List.replicate zeros '0' ++ Text.digits places) = some places :=
      Text.readWord?_eq_some.2 ⟨word, [], zeros, .inl rfl, rfl⟩
    rw [read, Option.getD_some]

/-- A letter with a precision is looked up once the number is read. -/
theorem number_of_asks {letter : Char} (alpha : letter.isAlpha = true) (asks : Asks usual digits places)
    (read : n.toDecimal = .ok d) :
    Format.number n (String.ofList (letter :: digits)) =
      byLetter n d (String.ofList (letter :: digits)) letter (precision? digits) := by
  rw [number_of_letter String.toList_ofList alpha asks.isDigit, read]
  rfl

end Format

/-! ## Rounding -/

namespace Decimal

/-- How a number is shown with a fixed number of digits behind the point: another number that it is rounded to, written
plainly, and the digits before the point in groups. -/
structure Rounded (x : ℚ) (places : ℕ) (y : ℚ) (whole grouped fraction : List Char) : Prop
    extends Written y whole fraction where
  rounds : RoundsTo x places y
  length : fraction.length = places
  groups : InGroups whole grouped

theorem rounded_round (d : Decimal) (places : ℕ) :
    Rounded d.toRat places (d.round places).toRat (d.round places).whole (grouped (d.round places).whole)
      (d.round places).fraction where
  toWritten := written_plain _
  rounds := roundsTo_round d places
  length := by rw [length_fraction, round_places]
  groups := inGroups_grouped _

/-- The point is moved by two places. -/
theorem toRat_percent (d : Decimal) : d.percent.toRat = 100 * d.toRat := by
  obtain ⟨unscaled, places⟩ := d
  by_cases two : 2 ≤ places
  · obtain ⟨more, rfl⟩ := Nat.exists_eq_add_of_le two
    rw [percent, if_pos two, Nat.add_sub_cancel_left, toRat, toRat, pow_add]
    field_simp
    norm_num
  · rw [percent, if_neg two, toRat, toRat]
    -- With less than two places there are zeros to move the point over.
    have few : places = 0 ∨ places = 1 := by omega
    obtain rfl | rfl := few
    · norm_num
      ring
    · norm_num
      ring

end Decimal

namespace Format

variable {places : ℕ} {digits : List Char}

theorem currency_eq (d : Decimal) : currency d = d.sign ++ '¤' :: (grouped d.whole ++ pointed d.fraction) := by
  have nonnegative : d.abs.sign = [] := if_neg (not_lt.2 (Int.natCast_nonneg _))
  rw [currency, plainGrouped, nonnegative]
  rfl

/-- Under `F` an exact number is written plainly, rounded half away from zero to the places that are asked for, or to
two. Under `N` its digits before the point are in groups, and under `C` a currency sign stands between its sign and
these digits. Under `P`, a hundred times the number is shown as under `N`, with a percent sign behind it. -/
theorem number_rounded (stands : n.Stands x) (asks : Asks 2 digits places) (small : places ≤ 65535) :
    (∃ y whole grouped fraction, Rounded x places y whole grouped fraction ∧
      (∀ letter ∈ ['F', 'f'], Format.number n (String.ofList (letter :: digits)) =
        .ok (minus y ++ whole ++ pointed fraction)) ∧
      (∀ letter ∈ ['N', 'n'], Format.number n (String.ofList (letter :: digits)) =
        .ok (minus y ++ grouped ++ pointed fraction)) ∧
      ∀ letter ∈ ['C', 'c'], Format.number n (String.ofList (letter :: digits)) =
        .ok (minus y ++ '¤' :: (grouped ++ pointed fraction))) ∧
    ∃ y whole grouped fraction, Rounded (100 * x) places y whole grouped fraction ∧
      ∀ letter ∈ ['P', 'p'], Format.number n (String.ofList (letter :: digits)) =
        .ok (minus y ++ grouped ++ pointed fraction ++ [' ', '%']) := by
  obtain ⟨d, read, rfl⟩ := Number.toDecimal_of_stands stands
  have precision := asks.getD_precision? small
  -- One rounded number is shown in three ways; for percent another one is.
  refine ⟨⟨_, _, _, _, rounded_round d places, ?fixed, ?grouped, ?currency⟩,
    (d.percent.round places).toRat, _, _, _, toRat_percent d ▸ rounded_round d.percent places, ?percent⟩
  case fixed =>
    intro letter member
    obtain ⟨alpha, upper⟩ : letter.isAlpha = true ∧ letter.toUpper = 'F' := by
      obtain rfl | rfl := List.mem_pair.1 member <;> decide
    rw [number_of_asks alpha asks read, byLetter, upper, precision, ← sign_eq_minus]
    rfl
  case grouped =>
    intro letter member
    obtain ⟨alpha, upper⟩ : letter.isAlpha = true ∧ letter.toUpper = 'N' := by
      obtain rfl | rfl := List.mem_pair.1 member <;> decide
    rw [number_of_asks alpha asks read, byLetter, upper, precision, ← sign_eq_minus]
    rfl
  case currency =>
    intro letter member
    obtain ⟨alpha, upper⟩ : letter.isAlpha = true ∧ letter.toUpper = 'C' := by
      obtain rfl | rfl := List.mem_pair.1 member <;> decide
    rw [number_of_asks alpha asks read, byLetter, upper, precision, ← sign_eq_minus, ← currency_eq]
    rfl
  case percent =>
    intro letter member
    obtain ⟨alpha, upper⟩ : letter.isAlpha = true ∧ letter.toUpper = 'P' := by
      obtain rfl | rfl := List.mem_pair.1 member <;> decide
    rw [number_of_asks alpha asks read, byLetter, upper, precision, ← sign_eq_minus]
    rfl

/-- Rounding carries into a fourth digit before the point, which starts a group of its own. -/
theorem number_rounded_of_carry :
    (Number.decimal "-999.995").Stands (-999995 / 1000) ∧ Asks 2 ['0', '2'] 2 ∧ 2 ≤ 65535 ∧
      (∃ y whole grouped fraction, Rounded (-999995 / 1000) 2 y whole grouped fraction ∧
        "-1000.00".toList = minus y ++ whole ++ pointed fraction ∧
        "-1,000.00".toList = minus y ++ grouped ++ pointed fraction ∧
        "-¤1,000.00".toList = minus y ++ '¤' :: (grouped ++ pointed fraction)) ∧
      ∃ y whole grouped fraction, Rounded (100 * (-999995 / 1000)) 2 y whole grouped fraction ∧
        "-99,999.50 %".toList = minus y ++ grouped ++ pointed fraction ++ [' ', '%'] := by
  have stands : (Number.decimal "-999.995").Stands (-999995 / 1000) := by
    refine ⟨⟨-999995, 3⟩, parse?_eq_some.1 (by rfl), ?_⟩
    norm_num [toRat]
  have asks : Asks 2 ['0', '2'] 2 := .digits 1 2
  obtain ⟨⟨y, whole, grouped, fraction, rounded, fixed, groups, currency⟩, z, more, parts, rest, percent, shown⟩ :=
    number_rounded stands asks (by norm_num)
  -- What is shown is evaluated, and compared with what the theorem says of it.
  have shows : ∀ {letter : Char} {text : String} {chars : List Char},
      Format.number (.decimal "-999.995") (String.ofList [letter, '0', '2']) = .ok text.toList →
      Format.number (.decimal "-999.995") (String.ofList [letter, '0', '2']) = .ok chars → text.toList = chars :=
    fun evaluated given => Except.ok.inj (evaluated.symm.trans given)
  refine ⟨stands, asks, by norm_num, ⟨y, whole, grouped, fraction, rounded, ?_, ?_, ?_⟩,
    z, more, parts, rest, percent, ?_⟩
  · exact shows rfl (fixed 'F' (by simp))
  · exact shows rfl (groups 'N' (by simp))
  · exact shows rfl (currency 'C' (by simp))
  · exact shows rfl (shown 'P' (by simp))

end Format

end ItemExpr
