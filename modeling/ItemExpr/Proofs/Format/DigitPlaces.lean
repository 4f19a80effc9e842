import Mathlib.Data.List.DropRight
import ItemExpr.Proofs.Decimal.Groups
import ItemExpr.Proofs.Decimal.Writing
import ItemExpr.Proofs.Format.Shown

/-!
# Digits in the places of a pattern

What a digit pattern makes of a number: the digits before the point and behind it are those of the rounded number, apart
from zeros in front of them and at their end, of which the pattern says how many there are
(`Format.DigitPattern.admits`, `Format.DigitPattern.exists_spells`).
-/

namespace ItemExpr.Format

open Decimal

variable {fewest : ℕ} {digits whole fraction chars : List Char} {d : Decimal} {pattern : DigitPattern}

/-! ## Behind the point -/

theorem exists_zeros_trimFraction (fewest : ℕ) (digits : List Char) :
    ∃ zeros, digits = trimFraction fewest digits ++ List.replicate zeros '0' := by
  obtain ⟨zeros, taken⟩ : ∃ zeros, (digits.drop fewest).rtakeWhile (· == '0') = List.replicate zeros '0' := by
    refine ⟨_, List.eq_replicate_of_mem ?_⟩
    intro c member
    simpa using List.mem_rtakeWhile_imp member
  refine ⟨zeros, ?_⟩
  calc
    digits = digits.take fewest ++ digits.drop fewest := (List.take_append_drop ..).symm
    _ = digits.take fewest ++ ((digits.drop fewest).rdropWhile (· == '0') ++ List.replicate zeros '0') := by
      rw [← taken, List.rdropWhile_append_rtakeWhile]
    _ = trimFraction fewest digits ++ List.replicate zeros '0' := (List.append_assoc ..).symm

theorem length_trimFraction_le (fewest : ℕ) (digits : List Char) :
    (trimFraction fewest digits).length ≤ digits.length := by
  obtain ⟨zeros, split⟩ := exists_zeros_trimFraction fewest digits
  have length := congrArg List.length split
  rw [List.length_append] at length
  omega

theorem le_length_trimFraction (enough : fewest ≤ digits.length) : fewest ≤ (trimFraction fewest digits).length := by
  rw [trimFraction, List.length_append, List.length_take]
  omega

/-- What is left beyond the fewest digits does not end in a zero. -/
theorem getLast?_trimFraction (longer : fewest < (trimFraction fewest digits).length) :
    (trimFraction fewest digits).getLast? ≠ some '0' := by
  have rest : (digits.drop fewest).rdropWhile (· == '0') ≠ [] := by
    intro none
    change fewest < (digits.take fewest ++ (digits.drop fewest).rdropWhile (· == '0')).length at longer
    rw [none, List.append_nil, List.length_take] at longer
    omega
  have last := List.rdropWhile_last_not _ _ rest
  change (digits.take fewest ++ (digits.drop fewest).rdropWhile (· == '0')).getLast? ≠ some '0'
  rw [List.getLast?_append_of_ne_nil _ rest, List.getLast?_eq_some_getLast rest]
  simpa using last

/-! ## Before the point -/

/-- Filling the digits before the point does not change what all digits are worth. -/
theorem digitsValue_fillWhole (fewest : ℕ) (whole fraction : List Char) :
    Text.digitsValue (fillWhole fewest whole ++ fraction) = Text.digitsValue (whole ++ fraction) := by
  unfold fillWhole
  split
  case isTrue lone =>
    rw [lone.1]
    rfl
  case isFalse => rw [Text.digitsValue_append, Text.digitsValue_leftpad, Text.digitsValue_append]

theorem isDigit_of_mem_fillWhole {c : Char} (all : ∀ c ∈ whole, c.isDigit = true)
    (member : c ∈ fillWhole fewest whole) : c.isDigit = true := by
  unfold fillWhole at member
  split at member
  · cases member
  · exact Text.isDigit_of_mem_leftpad all member

theorem le_length_fillWhole (fewest : ℕ) (whole : List Char) : fewest ≤ (fillWhole fewest whole).length := by
  unfold fillWhole
  split
  case isTrue lone => exact lone.2.le
  case isFalse =>
    rw [List.length_leftpad]
    exact Nat.le_max_left ..

/-- Beyond the fewest digits, filled digits do not start with a zero. -/
theorem head?_fillWhole (lead : whole.head? = some '0' → whole = ['0'])
    (longer : fewest < (fillWhole fewest whole).length) : (fillWhole fewest whole).head? ≠ some '0' := by
  unfold fillWhole at longer ⊢
  split
  case isTrue => nofun
  case isFalse other =>
    rw [if_neg other, List.length_leftpad] at longer
    -- The digits are more than the fewest, so that nothing is put in front of them.
    have none : whole.leftpad fewest '0' = whole := by
      rw [List.leftpad, Nat.sub_eq_zero_of_le (by omega)]
      rfl
    rw [none]
    intro zero
    have single := lead zero
    rw [single] at longer
    simp only [List.length_singleton] at longer
    exact other ⟨single, by omega⟩

/-! ## Patterns -/

/-- What a digit pattern asks of the digits that are shown before the point, without commas and with them, and of those
behind it. A lone zero may be shown where nothing is asked for, if there is no other digit. -/
structure DigitPattern.Admits (pattern : DigitPattern) (whole shown fraction : List Char) : Prop where
  least : pattern.minFraction ≤ fraction.length
  most : fraction.length ≤ pattern.maxFraction
  trimmed : pattern.minFraction < fraction.length → fraction.getLast? ≠ some '0'
  filled : pattern.minWhole ≤ whole.length
  lead : pattern.minWhole < whole.length → whole.head? = some '0' → whole = ['0'] ∧ fraction = []
  groups : if pattern.groups then InGroups whole shown else shown = whole

namespace DigitPattern

/-- The digits behind the point under a pattern. -/
def fractionOf (pattern : DigitPattern) (d : Decimal) : List Char :=
  trimFraction pattern.minFraction (d.round pattern.maxFraction).fraction

/-- The digits before the point under a pattern, without commas. -/
def wholeOf (pattern : DigitPattern) (d : Decimal) : List Char :=
  if fillWhole pattern.minWhole (d.round pattern.maxFraction).whole = [] ∧ pattern.fractionOf d = [] then ['0']
  else fillWhole pattern.minWhole (d.round pattern.maxFraction).whole

/-- The digits before the point under a pattern, with the commas that it asks for. -/
def shownOf (pattern : DigitPattern) (d : Decimal) : List Char :=
  if pattern.groups then grouped (pattern.wholeOf d) else pattern.wholeOf d

theorem apply_eq (pattern : DigitPattern) (d : Decimal) :
    pattern.apply d =
      (d.round pattern.maxFraction).sign ++ pattern.shownOf d ++ pointed (pattern.fractionOf d) := by
  unfold DigitPattern.apply shownOf wholeOf
  dsimp only
  rw [← fractionOf]
  congr 2
  by_cases nothing : fillWhole pattern.minWhole (d.round pattern.maxFraction).whole = [] ∧ pattern.fractionOf d = []
  · rw [if_pos nothing, nothing.1, nothing.2]
    cases pattern.groups <;> rfl
  · rw [if_neg nothing]
    refine if_neg ?_
    rw [Bool.and_eq_true, List.isEmpty_iff, List.isEmpty_iff]
    rintro ⟨none, last⟩
    refine nothing ⟨?_, last⟩
    split at none
    · exact (inGroups_grouped _).eq_nil none
    · exact none

theorem wholeOf_fractionOf_ne_nil (pattern : DigitPattern) (d : Decimal) :
    pattern.wholeOf d ++ pattern.fractionOf d ≠ [] := by
  unfold wholeOf
  split
  case isTrue => exact List.cons_ne_nil _ _
  case isFalse something => rwa [ne_eq, List.append_eq_nil_iff]

theorem isDigit_of_mem_wholeOf {c : Char} (member : c ∈ pattern.wholeOf d) : c.isDigit = true := by
  unfold wholeOf at member
  split at member
  · rw [List.mem_singleton.1 member]
    rfl
  · exact isDigit_of_mem_fillWhole (fun _ => isDigit_of_mem_whole) member

theorem isDigit_of_mem_fractionOf {c : Char} (member : c ∈ pattern.fractionOf d) : c.isDigit = true := by
  obtain ⟨zeros, cut⟩ := exists_zeros_trimFraction pattern.minFraction (d.round pattern.maxFraction).fraction
  exact isDigit_of_mem_fraction (d := d.round pattern.maxFraction) (cut ▸ List.mem_append_left _ member)

theorem digitsValue_wholeOf (pattern : DigitPattern) (d : Decimal) :
    Text.digitsValue (pattern.wholeOf d ++ pattern.fractionOf d) =
      Text.digitsValue ((d.round pattern.maxFraction).whole ++ pattern.fractionOf d) := by
  rw [← digitsValue_fillWhole pattern.minWhole (d.round pattern.maxFraction).whole]
  unfold wholeOf
  split
  case isTrue nothing =>
    rw [nothing.1, nothing.2]
    rfl
  case isFalse => rfl

/-- The digits under a pattern, without commas, are a text of the rounded number. -/
theorem exists_spells (pattern : DigitPattern) (d : Decimal) :
    ∃ e, Spells ((d.round pattern.maxFraction).sign ++ pattern.wholeOf d ++ pointed (pattern.fractionOf d)) e ∧
      e.places = (pattern.fractionOf d).length ∧ (d.round pattern.maxFraction).toRat = e.toRat := by
  obtain ⟨zeros, cut⟩ := exists_zeros_trimFraction pattern.minFraction (d.round pattern.maxFraction).fraction
  rw [← fractionOf] at cut
  have value := digitsValue_whole_fraction (d.round pattern.maxFraction)
  rw [cut, ← List.append_assoc, Text.digitsValue_append, Text.digitsValue_replicate_zero, List.length_replicate,
    Nat.add_zero, ← digitsValue_wholeOf] at value
  have length := length_fraction (d.round pattern.maxFraction)
  rw [cut, List.length_append, List.length_replicate] at length
  refine exists_spells_of_zeros ?_ (wholeOf_fractionOf_ne_nil pattern d) value length.symm
  intro c member
  obtain before | behind := List.mem_append.1 member
  · exact isDigit_of_mem_wholeOf before
  · exact isDigit_of_mem_fractionOf behind

theorem length_fractionOf_le (pattern : DigitPattern) (d : Decimal) :
    (pattern.fractionOf d).length ≤ pattern.maxFraction := by
  have most := length_trimFraction_le pattern.minFraction (d.round pattern.maxFraction).fraction
  rwa [length_fraction, round_places] at most

/-- The digits under a pattern are what the pattern asks for. -/
theorem admits (fewer : pattern.minFraction ≤ pattern.maxFraction) (d : Decimal) :
    pattern.Admits (pattern.wholeOf d) (pattern.shownOf d) (pattern.fractionOf d) where
  least := by
    apply le_length_trimFraction
    rwa [length_fraction, round_places]
  most := length_fractionOf_le pattern d
  trimmed := getLast?_trimFraction
  filled := by
    have enough := le_length_fillWhole pattern.minWhole (d.round pattern.maxFraction).whole
    unfold wholeOf
    split
    case isTrue nothing =>
      rw [nothing.1] at enough
      exact enough.trans (Nat.zero_le _)
    case isFalse => exact enough
  lead := by
    unfold wholeOf
    split
    case isTrue nothing => exact fun _ _ => ⟨rfl, nothing.2⟩
    case isFalse =>
      intro longer zero
      exact absurd zero (head?_fillWhole (written_plain _).lead longer)
  groups := by
    unfold shownOf
    split
    case isTrue => exact inGroups_grouped _
    case isFalse => rfl

end DigitPattern

/-- A pattern shows the number, rounded to the places that are left of the most that it allows. -/
theorem shows_apply (pattern : DigitPattern) (d : Decimal) : Shows (pattern.apply d) d.toRat := by
  rw [DigitPattern.apply_eq]
  obtain ⟨e, spells, places, same⟩ := pattern.exists_spells d
  have ungrouped : Shows ((d.round pattern.maxFraction).sign ++ pattern.wholeOf d ++
      pointed (pattern.fractionOf d)) d.toRat := by
    have rounds := roundsTo_round d pattern.maxFraction
    rw [same] at rounds
    exact shows_of_spells spells (rounds.of_multiple (places ▸ pattern.length_fractionOf_le d) ⟨e.unscaled, rfl⟩)
  unfold DigitPattern.shownOf
  split
  case isTrue =>
    obtain unchanged | comma := grouped_eq_or_mem (pattern.wholeOf d)
    · rwa [unchanged]
    · exact shows_of_mem (c := ',') (by simp [comma]) (by decide)
  case isFalse => exact ungrouped

end ItemExpr.Format
