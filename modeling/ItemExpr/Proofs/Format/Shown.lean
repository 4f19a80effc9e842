import ItemExpr.Format.Number
import ItemExpr.Proofs.Decimal.Rounding
import ItemExpr.Proofs.Decimal.Spelling

/-!
# What formatted numbers show

A text that is formatted from a number either reads as no decimal at all, or as the number, rounded to the places that
the text is written with. This holds of every letter but that for hexadecimal digits (`Format.shows_of_byLetter`).
-/

namespace ItemExpr

open Decimal

/-! ## What texts show -/

namespace Decimal

variable {d e : Decimal} {x : ℚ} {chars : List Char}

/-- A text that reads as a decimal at all reads as a number, rounded to the places that it is written with. -/
def Shows (chars : List Char) (x : ℚ) : Prop :=
  ∀ e, Spells chars e → RoundsTo x e.places e.toRat

theorem shows_of_mem {c : Char} (member : c ∈ chars)
    (other : ¬ (c.isDigit = true ∨ c = '.' ∨ c = '+' ∨ c = '-')) : Shows chars x := by
  intro e spells
  exact absurd (spells.mem member) other

theorem shows_of_spells (spells : Spells chars d) (rounds : RoundsTo x d.places d.toRat) : Shows chars x := by
  intro e again
  rw [← spells.unique again]
  exact rounds

theorem shows_round (d : Decimal) (places : ℕ) : Shows (d.round places).plain d.toRat := by
  refine shows_of_spells (spells_plain _) ?_
  rw [round_places]
  exact roundsTo_round d places

theorem shows_round_grouped (d : Decimal) (places : ℕ) : Shows (d.round places).plainGrouped d.toRat := by
  intro e spells
  rw [eq_plain_of_plainGrouped spells] at spells
  exact shows_round d places e spells

/-- What a decimal's text without some of the zeros at its end spells. -/
theorem exists_spells_of_zeros {whole fraction : List Char} {zeros : ℕ}
    (all : ∀ c ∈ whole ++ fraction, c.isDigit = true) (nonempty : whole ++ fraction ≠ [])
    (value : Text.digitsValue (whole ++ fraction) * 10 ^ zeros = d.unscaled.natAbs)
    (places : d.places = fraction.length + zeros) :
    ∃ e, Spells (d.sign ++ whole ++ pointed fraction) e ∧ e.places = fraction.length ∧ d.toRat = e.toRat := by
  obtain ⟨z, magnitude, unscaled⟩ : ∃ z : ℤ, Text.digitsValue (whole ++ fraction) = z.natAbs ∧
      d.unscaled = z * 10 ^ zeros := by
    obtain own | own := Int.natAbs_eq d.unscaled
    · exact ⟨Text.digitsValue (whole ++ fraction), rfl, by rw [own, ← value]; push_cast; rfl⟩
    · refine ⟨-Text.digitsValue (whole ++ fraction), by rw [Int.natAbs_neg]; rfl, ?_⟩
      rw [own, ← value]
      push_cast
      ring
  have sign : d.sign = (Decimal.mk z fraction.length).sign := by
    have positive : (0 : ℤ) < 10 ^ zeros := by positivity
    have same : z * 10 ^ zeros < 0 ↔ z < 0 := by
      constructor
      · intro negative
        exact neg_of_mul_neg_left negative positive.le
      · intro negative
        exact mul_neg_of_neg_of_pos negative positive
    simp only [Decimal.sign, unscaled, same]
  refine ⟨⟨z, fraction.length⟩, ?_, rfl, toRat_of_zeros unscaled places⟩
  rw [sign]
  exact spells_of_value all nonempty magnitude rfl

end Decimal

namespace Format

/-! ## Letters -/

variable {n : Number} {d : Decimal} {spec : String} {letter : Char} {precision : Option ℕ} {chars : List Char}

/-- An integer is shown in full, whatever zeros stand in front of it. -/
theorem shows_integer (whole : d.places = 0) (width : ℕ) :
    Shows (d.sign ++ d.whole.leftpad width '0') d.toRat := by
  have none : d.fraction = [] := by rw [fraction, if_pos whole]
  have value := digitsValue_whole_fraction d
  rw [none, List.append_nil] at value
  have spells : Spells (d.sign ++ d.whole.leftpad width '0' ++ pointed []) d := by
    refine spells_of_value ?_ ?_ ?_ whole.symm
    · intro c member
      rw [List.append_nil] at member
      exact Text.isDigit_of_mem_leftpad (fun _ => isDigit_of_mem_whole) member
    · exact List.append_ne_nil_of_left_ne_nil (List.append_ne_nil_of_right_ne_nil _ (whole_ne_nil d)) _
    · rw [List.append_nil, Text.digitsValue_leftpad, value]
  rw [show pointed [] = [] from rfl, List.append_nil] at spells
  refine shows_of_spells spells (.self ?_)
  exact ⟨d.unscaled, by rw [toRat]⟩

theorem shows_scientific (d : Decimal) (places : ℕ) {e : Char} (letter : e = 'E' ∨ e = 'e') (x : ℚ) :
    Shows (scientific d places e) x := by
  refine shows_of_mem (c := e) ?_ (by obtain rfl | rfl := letter <;> decide)
  unfold scientific
  dsimp only
  split <;> simp [exponentText]

/-- Every letter but that for hexadecimal digits shows the number. -/
theorem shows_of_byLetter (integral : (integerBits? n).isSome → d.places = 0) (other : letter.toUpper ≠ 'X')
    (formatted : byLetter n d spec letter precision = .ok chars) : Shows chars d.toRat := by
  unfold byLetter at formatted
  split at formatted
  · cases formatted
    exact shows_round d _
  · cases formatted
    exact shows_round_grouped d _
  · cases formatted
    exact shows_of_mem (c := '¤') (by simp [currency]) (by decide)
  · cases formatted
    exact shows_of_mem (c := '%') (by simp) (by decide)
  · cases formatted
    refine shows_scientific d _ ?_ _
    split
    · exact .inl rfl
    · exact .inr rfl
  · split at formatted
    next found =>
      cases formatted
      exact shows_integer (integral (by rw [found]; rfl)) _
    next => cases formatted
  · next hexadecimal => exact absurd hexadecimal other
  · cases formatted

/-- The letter for hexadecimal digits shows the bits of an integer. -/
theorem hexadecimal_of_byLetter (own : letter.toUpper = 'X')
    (formatted : byLetter n d spec letter precision = .ok chars) :
    ∃ bits width upper, integerBits? n = some bits ∧ chars = hexadecimal bits width upper := by
  unfold byLetter at formatted
  cases known : integerBits? n with
  | none =>
    rw [own, known] at formatted
    cases formatted
  | some bits =>
    rw [own, known] at formatted
    exact ⟨bits, _, _, rfl, (Except.ok.inj formatted).symm⟩

end Format

end ItemExpr
