import ItemExpr.Proofs.Decimal.Spelling
import ItemExpr.Proofs.Text.Order

/-!
# Decimal texts

The texts of decimals as a grammar: digits, digits and a point and digits, or a point and digits, behind one sign or
none. They are the texts that spell a decimal (`Decimal.exists_spells`), and what stands behind the point of a text are
the digits behind the point of its decimal (`Decimal.Spells.fraction_eq`).
-/

namespace ItemExpr.Decimal

variable {body chars whole fraction : List Char} {d : Decimal}

/-! ## Texts -/

def IsDigits (chars : List Char) : Prop :=
  chars ≠ [] ∧ ∀ c ∈ chars, c.isDigit = true

/-- The texts of a decimal without a sign: digits, digits and a point and digits, or a point and digits. -/
inductive IsMagnitude : List Char → Prop where
  | whole {whole : List Char} : IsDigits whole → IsMagnitude whole
  | both {whole fraction : List Char} : IsDigits whole → IsDigits fraction → IsMagnitude (whole ++ '.' :: fraction)
  | fraction {fraction : List Char} : IsDigits fraction → IsMagnitude ('.' :: fraction)

/-- The texts of a decimal: one sign or none, and then a text without a sign. -/
inductive IsDecimal : List Char → Prop where
  | unsigned {body : List Char} : IsMagnitude body → IsDecimal body
  | plus {body : List Char} : IsMagnitude body → IsDecimal ('+' :: body)
  | minus {body : List Char} : IsMagnitude body → IsDecimal ('-' :: body)

theorem exists_spellsMagnitude : (∃ d, SpellsMagnitude body d) ↔ IsMagnitude body := by
  constructor
  · rintro ⟨d, whole, fraction, all, nonempty, rfl, -⟩
    have wholeDigits : ∀ c ∈ whole, c.isDigit = true := fun c member => all c (List.mem_append_left _ member)
    have fractionDigits : ∀ c ∈ fraction, c.isDigit = true := fun c member => all c (List.mem_append_right _ member)
    -- Digits are left out on one side of the point at most, and the point with them if it is behind.
    by_cases noFraction : fraction = []
    · subst noFraction
      rw [List.append_nil] at nonempty
      rw [show whole ++ pointed [] = whole from List.append_nil whole]
      exact .whole ⟨nonempty, wholeDigits⟩
    · rw [pointed_of_ne_nil noFraction]
      by_cases noWhole : whole = []
      · subst noWhole
        exact .fraction ⟨noFraction, fractionDigits⟩
      · exact .both ⟨noWhole, wholeDigits⟩ ⟨noFraction, fractionDigits⟩
  · have spelled : ∀ {whole fraction : List Char}, (∀ c ∈ whole, c.isDigit = true) →
        (∀ c ∈ fraction, c.isDigit = true) → whole ++ fraction ≠ [] →
          ∃ d, SpellsMagnitude (whole ++ pointed fraction) d := by
      intro whole fraction before behind nonempty
      exact ⟨_, whole, fraction, List.forall_mem_append.2 ⟨before, behind⟩, nonempty, rfl, rfl⟩
    rintro (whole | ⟨whole, fraction⟩ | fraction)
    · have spells := spelled whole.2 (List.forall_mem_nil _) (by simpa using whole.1)
      rwa [show _ ++ pointed [] = _ from List.append_nil _] at spells
    · have spells := spelled whole.2 fraction.2 (List.append_ne_nil_of_left_ne_nil whole.1 _)
      rwa [pointed_of_ne_nil fraction.1] at spells
    · have spells := spelled (List.forall_mem_nil _) fraction.2 fraction.1
      rwa [pointed_of_ne_nil fraction.1, List.nil_append] at spells

theorem exists_spells : (∃ d, Spells chars d) ↔ IsDecimal chars := by
  constructor
  · rintro ⟨d, spells | spells | spells⟩
    · exact .unsigned (exists_spellsMagnitude.1 ⟨_, spells⟩)
    · exact .plus (exists_spellsMagnitude.1 ⟨_, spells⟩)
    · exact .minus (exists_spellsMagnitude.1 ⟨_, spells⟩)
  · rintro (magnitude | magnitude | magnitude)
    · obtain ⟨d, spells⟩ := exists_spellsMagnitude.2 magnitude
      exact ⟨d, .unsigned spells⟩
    · obtain ⟨d, spells⟩ := exists_spellsMagnitude.2 magnitude
      exact ⟨d, .plus spells⟩
    · obtain ⟨d, spells⟩ := exists_spellsMagnitude.2 magnitude
      exact ⟨d.negate, .minus spells⟩

/-! ## Digits behind the point -/

/-- What stands behind the first point of a text. -/
def behindPoint (chars : List Char) : List Char :=
  (chars.dropWhile (· != '.')).drop 1

theorem behindPoint_pointed (absent : '.' ∉ whole) : behindPoint (whole ++ pointed fraction) = fraction := by
  by_cases empty : fraction = []
  · subst empty
    rw [show whole ++ pointed [] = whole from List.append_nil whole, behindPoint, (Text.split_of_not_mem absent).2]
    rfl
  · rw [pointed_of_ne_nil empty, behindPoint, (Text.split_at_first absent fraction).2]
    rfl

theorem fraction_negate (d : Decimal) : d.negate.fraction = d.fraction := by
  simp only [negate, fraction, Int.natAbs_neg]

/-- The digits behind the point of a text are those of its decimal. -/
theorem SpellsMagnitude.fraction_eq (spells : SpellsMagnitude body d) : d.fraction = behindPoint body := by
  obtain ⟨whole, fraction, all, -, rfl, rfl⟩ := spells
  have absent : '.' ∉ whole := point_not_mem fun c member => all c (List.mem_append_left _ member)
  have digits : ∀ c ∈ fraction, c.isDigit = true := fun c member => all c (List.mem_append_right _ member)
  -- The digits behind the point are what is left of all digits, in a field of their own width.
  have rest : Text.digitsValue (whole ++ fraction) % 10 ^ fraction.length = Text.digitsValue fraction := by
    rw [Text.digitsValue_append, Nat.mul_add_mod_self_right, Nat.mod_eq_of_lt (Text.digitsValue_lt digits)]
  rw [behindPoint_pointed absent, Decimal.fraction]
  split
  case isTrue none => exact (List.length_eq_zero_iff.1 none).symm
  case isFalse some =>
    have padded := Text.zeroPadded_digitsValue (fun empty => some (List.length_eq_zero_iff.2 empty)) digits
    rw [← rest] at padded
    exact padded

theorem Spells.fraction_eq (spells : Spells chars d) : d.fraction = behindPoint chars := by
  cases spells with
  | unsigned spells => exact spells.fraction_eq
  | plus spells => exact spells.fraction_eq
  | minus spells => exact (fraction_negate _).trans spells.fraction_eq

end ItemExpr.Decimal
