import ItemExpr.Number.Decimal
import ItemExpr.Proofs.Text.Padding
import ItemExpr.Text.Split

/-!
# Spellings of decimals

The texts that are read as a decimal are digits with at most one point in front of a digit, behind one sign or none
(`Decimal.parse?_eq_some`). Of the texts that are written for a decimal, the plain one is a spelling of that decimal;
one with grouped digits is the plain one, or has a comma in it and is no spelling of anything.
-/

namespace ItemExpr.Decimal

open Text

variable {body chars whole fraction : List Char} {d e : Decimal} {c : Char}

/-! ## Reading -/

/-- The texts of a decimal without a sign: digits before the point and behind it, of which there is at least one. The
digits behind the point are the decimal's places; without any there is no point. -/
def SpellsMagnitude (body : List Char) (d : Decimal) : Prop :=
  ∃ whole fraction, (∀ c ∈ whole ++ fraction, c.isDigit = true) ∧ whole ++ fraction ≠ [] ∧
    body = whole ++ pointed fraction ∧ d = ⟨digitsValue (whole ++ fraction), fraction.length⟩

/-- The texts of a decimal: a text of its magnitude behind one sign or none. -/
inductive Spells : List Char → Decimal → Prop where
  | unsigned {body : List Char} {d : Decimal} : SpellsMagnitude body d → Spells body d
  | plus {body : List Char} {d : Decimal} : SpellsMagnitude body d → Spells ('+' :: body) d
  | minus {body : List Char} {d : Decimal} : SpellsMagnitude body d → Spells ('-' :: body) d.negate

theorem pointed_of_ne_nil (nonempty : fraction ≠ []) : pointed fraction = '.' :: fraction := by
  rw [pointed, if_neg (by simpa using nonempty)]

theorem point_not_mem (all : ∀ c ∈ chars, c.isDigit = true) : '.' ∉ chars := by
  intro member
  exact absurd (all '.' member) (by decide)

/-- A run of digits with its point left out, read as a decimal of some places. -/
theorem readDigits?_places {places : Nat} :
    ((do return ((← readDigits? chars) : Int)).map fun z => (⟨z, places⟩ : Decimal)) = some d ↔
      (chars ≠ [] ∧ ∀ c ∈ chars, c.isDigit = true) ∧ d = ⟨digitsValue chars, places⟩ := by
  cases read : readDigits? chars with
  | none =>
    have refused : ∀ n, ¬ ((chars ≠ [] ∧ ∀ c ∈ chars, c.isDigit = true) ∧ digitsValue chars = n) := by
      intro n accepted
      rw [readDigits?_accepts.2 accepted] at read
      cases read
    refine iff_of_false (by simp) ?_
    rintro ⟨accepted, -⟩
    exact refused _ ⟨accepted, rfl⟩
  | some n =>
    obtain ⟨accepted, rfl⟩ := readDigits?_accepts.1 read
    exact ⟨fun same => ⟨accepted, (Option.some.inj same).symm⟩, fun same => congrArg some same.2.symm⟩

theorem magnitude?_eq_some : magnitude? body = some d ↔ SpellsMagnitude body d := by
  constructor
  · intro read
    unfold magnitude? at read
    dsimp only at read
    split at read
    next unsplit =>
      obtain ⟨⟨nonempty, all⟩, rfl⟩ := readDigits?_places.1 read
      have parts := List.takeWhile_append_dropWhile (p := (· != '.')) (l := body)
      rw [unsplit] at parts
      rw [← List.append_nil (body.takeWhile _)] at nonempty all
      refine ⟨body.takeWhile (· != '.'), [], all, nonempty, parts.symm, ?_⟩
      rw [List.append_nil]
      rfl
    next point fraction found =>
      split at read
      case isTrue => cases read
      case isFalse filled =>
        obtain ⟨⟨nonempty, all⟩, rfl⟩ := readDigits?_places.1 read
        refine ⟨_, fraction, all, nonempty, ?_, rfl⟩
        rw [pointed, if_neg filled]
        exact (eq_of_split found).2
  · rintro ⟨whole, fraction, all, nonempty, rfl, rfl⟩
    have absent : '.' ∉ whole := point_not_mem fun c member => all c (List.mem_append_left _ member)
    by_cases empty : fraction = []
    · subst empty
      obtain ⟨taken, dropped⟩ := split_of_not_mem absent
      rw [List.append_nil] at nonempty all ⊢
      rw [show whole ++ pointed [] = whole from List.append_nil whole, magnitude?, taken, dropped]
      exact readDigits?_places.2 ⟨⟨nonempty, all⟩, rfl⟩
    · obtain ⟨taken, dropped⟩ := split_at_first absent fraction
      rw [pointed_of_ne_nil empty, magnitude?, taken, dropped]
      dsimp only
      rw [if_neg (by simpa using empty)]
      exact readDigits?_places.2 ⟨⟨nonempty, all⟩, rfl⟩

theorem SpellsMagnitude.mem (spells : SpellsMagnitude body d) (member : c ∈ body) : c.isDigit = true ∨ c = '.' := by
  obtain ⟨whole, fraction, all, -, rfl, -⟩ := spells
  obtain own | behind := List.mem_append.1 member
  · exact .inl (all c (List.mem_append_left _ own))
  · unfold pointed at behind
    split at behind
    · cases behind
    · obtain rfl | own := List.mem_cons.1 behind
      · exact .inr rfl
      · exact .inl (all c (List.mem_append_right _ own))

theorem parse?_of_magnitude (spells : SpellsMagnitude body d) : parse? body = some d := by
  have read := magnitude?_eq_some.2 spells
  unfold parse?
  split
  · exact absurd (spells.mem (List.mem_cons_self ..)) (by decide)
  · exact absurd (spells.mem (List.mem_cons_self ..)) (by decide)
  · exact read

/-- The texts that are read as a decimal are its spellings. -/
theorem parse?_eq_some : parse? chars = some d ↔ Spells chars d := by
  constructor
  · intro read
    unfold parse? at read
    split at read
    · obtain ⟨magnitude, found, rfl⟩ := Option.map_eq_some_iff.1 read
      exact .minus (magnitude?_eq_some.1 found)
    · exact .plus (magnitude?_eq_some.1 read)
    · exact .unsigned (magnitude?_eq_some.1 read)
  · rintro (spells | spells | spells)
    · exact parse?_of_magnitude spells
    · exact magnitude?_eq_some.2 spells
    · exact congrArg (Option.map negate) (magnitude?_eq_some.2 spells)

theorem Spells.unique (first : Spells chars d) (second : Spells chars e) : d = e :=
  Option.some.inj ((parse?_eq_some.2 first).symm.trans (parse?_eq_some.2 second))

/-- The characters of decimals. -/
theorem Spells.mem (spells : Spells chars d) (member : c ∈ chars) :
    c.isDigit = true ∨ c = '.' ∨ c = '+' ∨ c = '-' := by
  have inner : ∀ {body : List Char} {d : Decimal}, SpellsMagnitude body d → c ∈ body →
      c.isDigit = true ∨ c = '.' ∨ c = '+' ∨ c = '-' := by
    intro body d spells member
    obtain digit | point := spells.mem member
    · exact .inl digit
    · exact .inr (.inl point)
  cases spells with
  | unsigned spells => exact inner spells member
  | plus spells =>
    obtain plus | member := List.mem_cons.1 member
    · exact .inr (.inr (.inl plus))
    · exact inner spells member
  | minus spells =>
    obtain minus | member := List.mem_cons.1 member
    · exact .inr (.inr (.inr minus))
    · exact inner spells member

/-! ## Writing -/

/-- Digits that make up a decimal's magnitude, behind its sign and with its places behind the point, spell it. -/
theorem spells_of_value (all : ∀ c ∈ whole ++ fraction, c.isDigit = true) (nonempty : whole ++ fraction ≠ [])
    (value : digitsValue (whole ++ fraction) = d.unscaled.natAbs) (places : fraction.length = d.places) :
    Spells (d.sign ++ whole ++ pointed fraction) d := by
  have magnitude : SpellsMagnitude (whole ++ pointed fraction) ⟨d.unscaled.natAbs, d.places⟩ :=
    ⟨whole, fraction, all, nonempty, rfl, by rw [value, places]⟩
  rw [List.append_assoc, sign]
  split
  case isTrue negative =>
    have same : d = (Decimal.mk d.unscaled.natAbs d.places).negate := by
      rw [negate, Int.ofNat_natAbs_of_nonpos negative.le, neg_neg]
    rw [same]
    exact .minus magnitude
  case isFalse nonnegative =>
    have same : d = ⟨d.unscaled.natAbs, d.places⟩ := by
      rw [Int.natAbs_of_nonneg (not_lt.1 nonnegative)]
    rw [same]
    exact .unsigned magnitude

theorem length_fraction (d : Decimal) : d.fraction.length = d.places := by
  unfold fraction
  split
  case isTrue none => exact none.symm
  case isFalse some =>
    exact length_zeroPadded (Nat.pos_of_ne_zero some) (Nat.mod_lt _ (Nat.pow_pos (by decide)))

theorem isDigit_of_mem_whole (member : c ∈ d.whole) : c.isDigit = true :=
  isDigit_of_mem_digits member

theorem isDigit_of_mem_fraction (member : c ∈ d.fraction) : c.isDigit = true := by
  unfold fraction at member
  split at member
  · cases member
  · exact isDigit_of_mem_zeroPadded member

theorem isDigit_of_mem_whole_fraction (member : c ∈ d.whole ++ d.fraction) : c.isDigit = true := by
  obtain before | behind := List.mem_append.1 member
  · exact isDigit_of_mem_whole before
  · exact isDigit_of_mem_fraction behind

theorem whole_ne_nil (d : Decimal) : d.whole ≠ [] :=
  Nat.toDigits_ne_nil

/-- All digits of a decimal together are those of its magnitude without the point. -/
theorem digitsValue_whole_fraction (d : Decimal) : digitsValue (d.whole ++ d.fraction) = d.unscaled.natAbs := by
  have behind : digitsValue d.fraction = d.unscaled.natAbs % 10 ^ d.places := by
    unfold fraction
    split
    case isTrue none =>
      rw [none, pow_zero, Nat.mod_one]
      rfl
    case isFalse => exact digitsValue_zeroPadded _ _
  rw [digitsValue_append, length_fraction, behind, whole, digitsValue_digits]
  exact Nat.div_add_mod' _ _

theorem spells_plain (d : Decimal) : Spells d.plain d := by
  refine spells_of_value ?_ ?_ (digitsValue_whole_fraction d) (length_fraction d)
  · intro c member
    exact isDigit_of_mem_whole_fraction member
  · exact List.append_ne_nil_of_left_ne_nil (whole_ne_nil d) _

/-! ## Groups -/

/-- Grouping leaves digits as they are, or puts a comma into them. -/
theorem grouped_eq_or_mem (digits : List Char) : grouped digits = digits ∨ ',' ∈ grouped digits := by
  unfold grouped
  generalize backwards : digits.reverse = chars
  unfold groupFromRight
  split
  · exact .inr (by simp)
  · rw [← backwards]
    exact .inl (List.reverse_reverse digits)

theorem Spells.no_comma (spells : Spells chars d) : ',' ∉ chars := by
  intro member
  exact absurd (spells.mem member) (by decide)

/-- Grouped digits are a decimal only if there was nothing to group. -/
theorem eq_plain_of_plainGrouped (spells : Spells d.plainGrouped e) : d.plainGrouped = d.plain := by
  obtain same | comma := grouped_eq_or_mem d.whole
  · rw [plainGrouped, same, plain]
  · have member : ',' ∈ d.plainGrouped := by simp [plainGrouped, comma]
    exact absurd member spells.no_comma

end ItemExpr.Decimal
