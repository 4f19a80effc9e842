import ItemExpr.Proofs.Format.DigitPlaces
import ItemExpr.Proofs.Format.StoredNumber

/-!
# Digit patterns

A digit pattern is read as the numbers of its places (`Format.DigitPattern.parse?_eq_some`). Under it a number is shown
rounded half away from zero to its places behind the point, with the digits and the commas that the pattern asks for. A
specifier that is neither a pattern nor a letter with a precision is refused for every number
(`Value.render_digitPattern`).
-/

namespace ItemExpr

open Decimal

namespace Format

variable {chars before behind : List Char} {pattern : DigitPattern} {d : Decimal}

/-- The characters of a digit pattern, before its point and behind it, or without a point. They are zeros for places
that are always filled, hashes for places that may be left out, and commas. There is a place. -/
structure IsDigitPattern (chars before behind : List Char) : Prop where
  parts : chars = before ∧ behind = [] ∨ chars = before ++ '.' :: behind
  characters : ∀ c ∈ before ++ behind, c = '0' ∨ c = '#' ∨ c = ','
  place : '0' ∈ before ++ behind ∨ '#' ∈ before ++ behind

/-- What the characters of a pattern ask for. -/
def DigitPattern.ofParts (before behind : List Char) : DigitPattern where
  minWhole := before.count '0'
  minFraction := behind.count '0'
  maxFraction := behind.count '0' + behind.count '#'
  groups := before.contains ','

theorem IsDigitPattern.mem (pattern : IsDigitPattern chars before behind) {c : Char} (member : c ∈ chars) :
    c ∈ before ++ behind ∨ c = '.' := by
  obtain ⟨rfl, rfl⟩ | rfl := pattern.parts
  · exact .inl (List.mem_append_left _ member)
  · obtain own | member := List.mem_append.1 member
    · exact .inl (List.mem_append_left _ own)
    · obtain rfl | own := List.mem_cons.1 member
      · exact .inr rfl
      · exact .inl (List.mem_append_right _ own)

theorem IsDigitPattern.point_not_mem (pattern : IsDigitPattern chars before behind) : '.' ∉ before ++ behind := by
  intro member
  exact absurd (pattern.characters '.' member) (by decide)

/-- A pattern starts with no letter. -/
theorem IsDigitPattern.not_isLettered (pattern : IsDigitPattern chars before behind) : ¬ IsLettered chars := by
  rintro ⟨letter, rest, rfl, alpha, -⟩
  obtain own | rfl := pattern.mem (List.mem_cons_self ..)
  · obtain rfl | rfl | rfl := pattern.characters letter own <;> exact absurd alpha (by decide)
  · exact absurd alpha (by decide)

theorem countP_places (chars : List Char) :
    chars.countP (fun c => c == '0' || c == '#') = chars.count '0' + chars.count '#' := by
  induction chars with
  | nil => rfl
  | cons c chars ih =>
    rw [List.countP_cons, List.count_cons, List.count_cons, ih]
    by_cases zero : c = '0'
    · simp [zero]
      omega
    · simp [zero]
      omega

/-- A text with one point at most is split at it. -/
theorem exists_parts (once : chars.count '.' ≤ 1) :
    ∃ before behind, (chars = before ∧ behind = [] ∨ chars = before ++ '.' :: behind) ∧ '.' ∉ before ++ behind := by
  by_cases member : '.' ∈ chars
  · obtain ⟨before, behind, rfl⟩ := List.append_of_mem member
    rw [List.count_append, List.count_cons_self] at once
    refine ⟨before, behind, .inr rfl, ?_⟩
    rw [← List.count_eq_zero, List.count_append]
    omega
  · exact ⟨chars, [], .inl ⟨rfl, rfl⟩, by rwa [List.append_nil]⟩

theorem split_of_parts (parts : chars = before ∧ behind = [] ∨ chars = before ++ '.' :: behind)
    (absent : '.' ∉ before ++ behind) :
    chars.takeWhile (· != '.') = before ∧ (chars.dropWhile (· != '.')).drop 1 = behind := by
  have first : '.' ∉ before := fun member => absent (List.mem_append_left _ member)
  obtain ⟨rfl, rfl⟩ | rfl := parts
  · obtain ⟨taken, dropped⟩ := Text.split_of_not_mem first
    exact ⟨taken, by rw [dropped, List.drop_nil]⟩
  · obtain ⟨taken, dropped⟩ := Text.split_at_first first behind
    exact ⟨taken, by rw [dropped, List.drop_succ_cons, List.drop_zero]⟩

/-- The characters of a pattern, as they are looked at when it is read. -/
theorem isDigitPattern_iff (parts : chars = before ∧ behind = [] ∨ chars = before ++ '.' :: behind)
    (absent : '.' ∉ before ++ behind) :
    IsDigitPattern chars before behind ↔
      (∀ c ∈ chars, ((c = '0' ∨ c = '#') ∨ c = ',') ∨ c = '.') ∧ chars.count '.' ≤ 1 ∧
        ∃ c ∈ chars, c = '0' ∨ c = '#' := by
  -- Apart from the point, the characters of a text are those of its parts.
  have inner : ∀ c ≠ '.', (c ∈ chars ↔ c ∈ before ++ behind) := by
    intro c other
    obtain ⟨rfl, rfl⟩ | rfl := parts
    · rw [List.append_nil]
    · simp [other]
  constructor
  · intro pattern
    refine ⟨?_, ?_, ?_⟩
    · intro c member
      obtain own | point := pattern.mem member
      · exact .inl (or_assoc.2 (pattern.characters c own))
      · exact .inr point
    · have none := List.count_eq_zero.2 absent
      obtain ⟨rfl, rfl⟩ | rfl := parts
      · rw [List.append_nil] at none
        omega
      · rw [List.count_append] at none
        rw [List.count_append, List.count_cons_self]
        omega
    · obtain zero | hash := pattern.place
      · exact ⟨'0', (inner '0' (by decide)).2 zero, .inl rfl⟩
      · exact ⟨'#', (inner '#' (by decide)).2 hash, .inr rfl⟩
  · rintro ⟨all, -, c, member, place⟩
    refine ⟨parts, ?_, ?_⟩
    · intro c own
      have other : c ≠ '.' := fun same => absent (same ▸ own)
      obtain kept | point := all c ((inner c other).2 own)
      · exact or_assoc.1 kept
      · exact absurd point other
    · obtain rfl | rfl := place
      · exact .inl ((inner '0' (by decide)).1 member)
      · exact .inr ((inner '#' (by decide)).1 member)

/-- A pattern is read as the numbers of its places. -/
theorem DigitPattern.parse?_eq_some :
    DigitPattern.parse? chars = some pattern ↔
      ∃ before behind, IsDigitPattern chars before behind ∧ pattern = ofParts before behind := by
  unfold DigitPattern.parse?
  simp only [Option.ite_none_right_eq_some, Option.some.injEq, Bool.and_eq_true, List.all_eq_true, List.any_eq_true,
    Bool.or_eq_true, beq_iff_eq, decide_eq_true_eq, and_assoc]
  constructor
  · rintro ⟨all, once, place, rfl⟩
    obtain ⟨before, behind, parts, absent⟩ := exists_parts once
    obtain ⟨taken, dropped⟩ := split_of_parts parts absent
    refine ⟨before, behind, (isDigitPattern_iff parts absent).2 ⟨all, once, place⟩, ?_⟩
    rw [taken, dropped, countP_places]
    rfl
  · rintro ⟨before, behind, given, rfl⟩
    obtain ⟨taken, dropped⟩ := split_of_parts given.parts given.point_not_mem
    obtain ⟨all, once, place⟩ := (isDigitPattern_iff given.parts given.point_not_mem).1 given
    refine ⟨all, once, place, ?_⟩
    rw [taken, dropped, countP_places]
    rfl

/-- A specifier that is no letter with a precision is read as a pattern, before the number is looked at. -/
theorem number_of_no_pattern {n : Number} {spec : String} (custom : ¬ IsLettered spec.toList)
    (other : ∀ before behind, ¬ IsDigitPattern spec.toList before behind) :
    Format.number n spec = .error (.unknownNumberFormat spec) := by
  have none : DigitPattern.parse? spec.toList = none := by
    refine Option.eq_none_iff_forall_ne_some.2 ?_
    intro pattern read
    obtain ⟨before, behind, given, -⟩ := DigitPattern.parse?_eq_some.1 read
    exact other before behind given
  rw [number_of_pattern custom, none]
  rfl

theorem number_of_isDigitPattern {n : Number} {spec : String} (given : IsDigitPattern spec.toList before behind)
    (read : n.toDecimal = .ok d) :
    Format.number n spec = .ok ((DigitPattern.ofParts before behind).apply d) := by
  rw [number_of_pattern given.not_isLettered, DigitPattern.parse?_eq_some.2 ⟨before, behind, given, rfl⟩, read]
  rfl

/-- The commas in what a pattern shows are those between groups. -/
theorem DigitPattern.filter_shown (pattern : DigitPattern) (y : ℚ) (d : Decimal) :
    (minus y ++ pattern.shownOf d ++ pointed (pattern.fractionOf d)).filter (· != ',') =
      minus y ++ pattern.wholeOf d ++ pointed (pattern.fractionOf d) := by
  have sign : ',' ∉ minus y := by
    unfold minus
    split <;> simp
  have wholeDigits : ',' ∉ pattern.wholeOf d := fun member => absurd (isDigit_of_mem_wholeOf member) (by decide)
  have behind : ',' ∉ pointed (pattern.fractionOf d) := by
    have digits : ',' ∉ pattern.fractionOf d := fun member => absurd (isDigit_of_mem_fractionOf member) (by decide)
    unfold pointed
    split <;> simp [digits]
  have shown : (pattern.shownOf d).filter (· != ',') = pattern.wholeOf d := by
    unfold shownOf
    split
    case isTrue => exact (inGroups_grouped _).filter wholeDigits
    case isFalse => exact filter_of_no_comma wholeDigits
  rw [List.filter_append, List.filter_append, filter_of_no_comma sign, shown, filter_of_no_comma behind]

end Format

namespace Value

open Format

variable {spec s : String}

/-- Under a digit pattern, an exact number is shown with the digits and the commas that the pattern asks for. Without
its commas, what is shown denotes the number, rounded half away from zero to the pattern's places behind the point.
What is neither a pattern nor a letter with digits behind it is refused for every number. -/
theorem render_digitPattern (effective : effectiveSpec? (some spec) = some s) (dateFormat : String) :
    (∀ n x before behind, Number.Stands n x → IsDigitPattern s.toList before behind →
      ∃ y whole shown fraction,
        (Value.number n).render (some spec) dateFormat =
          .ok (storeNumberText (minus y ++ shown ++ pointed fraction)) ∧
        RoundsTo x (behind.count '0' + behind.count '#') y ∧
        (minus y ++ shown ++ pointed fraction).filter (· != ',') = minus y ++ whole ++ pointed fraction ∧
        Denotes (minus y ++ whole ++ pointed fraction) y ∧ (∀ c ∈ whole ++ fraction, c.isDigit = true) ∧
        (DigitPattern.ofParts before behind).Admits whole shown fraction) ∧
      (¬ IsLettered s.toList → (∀ before behind, ¬ IsDigitPattern s.toList before behind) →
        ∀ n, (Value.number n).render (some spec) dateFormat = .error (.unknownNumberFormat s)) := by
  have rendered : ∀ n, (Value.number n).render (some spec) dateFormat = storeNumberText <$> Format.number n s := by
    intro n
    rw [render, effective]
    rfl
  constructor
  · intro n x before behind stands given
    obtain ⟨d, read, rfl⟩ := Number.toDecimal_of_stands stands
    -- What is shown without commas spells another decimal of the rounded number, with fewer places.
    obtain ⟨e, spells, -, same⟩ := (DigitPattern.ofParts before behind).exists_spells d
    rw [sign_eq_minus] at spells
    refine ⟨_, _, _, _, ?_, roundsTo_round d _, DigitPattern.filter_shown _ _ _, ⟨e, spells, same.symm⟩, ?_,
      DigitPattern.admits (Nat.le_add_right ..) d⟩
    · rw [rendered, number_of_isDigitPattern given read, DigitPattern.apply_eq, sign_eq_minus]
      rfl
    · intro c member
      obtain own | own := List.mem_append.1 member
      · exact DigitPattern.isDigit_of_mem_wholeOf own
      · exact DigitPattern.isDigit_of_mem_fractionOf own
  · intro custom other n
    rw [rendered, number_of_no_pattern custom other]
    rfl

/-- Of three places behind the point two are left out, and one comma in the pattern asks for all groups. A specifier
with other characters is no pattern. -/
theorem render_digitPattern_of_carry :
    effectiveSpec? (some " #,#0.0## ") = some "#,#0.0##" ∧
      (Number.decimal "-999999.9996").Stands (-9999999996 / 10000) ∧
      IsDigitPattern "#,#0.0##".toList ['#', ',', '#', '0'] ['0', '#', '#'] ∧
      (∃ y whole shown fraction,
        storeNumberText (minus y ++ shown ++ pointed fraction) = .string "-1,000,000.0" ∧
        RoundsTo (-9999999996 / 10000) 3 y ∧ Denotes (minus y ++ whole ++ pointed fraction) y ∧
        (DigitPattern.ofParts ['#', ',', '#', '0'] ['0', '#', '#']).Admits whole shown fraction) ∧
      effectiveSpec? (some "0.00 USD") = some "0.00 USD" ∧
      (Value.number (.decimal "7")).render (some "0.00 USD") "o" = .error (.unknownNumberFormat "0.00 USD") := by
  have stands : (Number.decimal "-999999.9996").Stands (-9999999996 / 10000) := by
    refine ⟨⟨-9999999996, 4⟩, parse?_eq_some.1 (by rfl), ?_⟩
    norm_num [toRat]
  have given : IsDigitPattern "#,#0.0##".toList ['#', ',', '#', '0'] ['0', '#', '#'] :=
    ⟨.inr rfl, by simp, .inl (by simp)⟩
  obtain ⟨y, whole, shown, fraction, stored, rounds, -, denotes, -, admits⟩ :=
    (@render_digitPattern " #,#0.0## " _ rfl "o").1 _ _ _ _ stands given
  have evaluated : (Value.number (.decimal "-999999.9996")).render (some " #,#0.0## ") "o" =
      .ok (.string "-1,000,000.0") := by rfl
  refine ⟨rfl, stands, given, ⟨y, whole, shown, fraction, ?_, rounds, denotes, admits⟩, rfl, ?_⟩
  · exact (Except.ok.inj (evaluated.symm.trans stored)).symm
  · refine (@render_digitPattern "0.00 USD" _ rfl "o").2 ?_ ?_ _
    · rintro ⟨letter, rest, shape, alpha, -⟩
      cases shape
      exact absurd alpha (by decide)
    · intro before behind pattern
      obtain member | point := pattern.mem (c := ' ') (by decide)
      · exact absurd (pattern.characters ' ' member) (by decide)
      · exact absurd point (by decide)

end Value

end ItemExpr
