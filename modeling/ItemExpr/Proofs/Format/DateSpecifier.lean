import ItemExpr.Proofs.Format.DatePattern
import ItemExpr.Session

/-!
# Specifiers that dates are shown by

A date refuses a specifier for what is wrong with the specifier as a date format, and for nothing else: an unknown
directive, a quote that is never closed, or too many fraction digits. So it does not refuse a specifier for numbers. The
characters of such a specifier stand for themselves in a date pattern, and every date is shown as the specifier itself
is spelled (`Value.render_numericSpecifier`).
-/

namespace ItemExpr

namespace Format

/-! ## Specifiers that are refused -/

/-- A specifier is no format for dates: there are directives in it and one of them is unknown, or there are none and a
scan of it meets a fault. -/
def RefusedForDates (spec : List Char) : Prop :=
  if '%' ∈ spec then readDirectives? spec = none else MeetsOpenQuote spec ∨ MeetsLongFraction spec

variable {t : DateTime} {spec : String}

/-- A lone character is a run, unless it opens a quote, escapes something or starts a directive. -/
theorem not_refusedForDates_single {c : Char} (noDirective : c ≠ '%') (noQuote : isQuote c = false)
    (noBackslash : c ≠ '\\') : ¬ RefusedForDates [c] := by
  have scanned : scanPattern [c] = .ok [.run c 1] := by
    rw [scanPattern_run noQuote noBackslash]
    simp [Except.map]
  rw [RefusedForDates, if_neg (by simpa using noDirective.symm), ← scanPattern_refused_iff, scanned]
  exact nofun

theorem directives_refused_iff : (∃ error, directives t spec = .error error) ↔ readDirectives? spec.toList = none := by
  rw [directives]
  cases readDirectives? spec.toList <;> simp

theorem dateTime_refused_iff : (∃ error, dateTime t spec = .error error) ↔ RefusedForDates spec.toList := by
  unfold dateTime
  split
  -- The letters for dates are formats, whatever the scan of a date pattern would make of them.
  case h_1 | h_2 | h_3 | h_4 | h_5 =>
    exact iff_of_false nofun (not_refusedForDates_single (by decide) (by decide) (by decide))
  case h_6 =>
    by_cases directive : '%' ∈ spec.toList
    · rw [if_pos (List.contains_iff_mem.2 directive), RefusedForDates, if_pos directive, directives_refused_iff]
    · rw [if_neg (mt List.contains_iff_mem.1 directive), RefusedForDates, if_neg directive, datePattern_refused_iff]

theorem date_refused_iff {d : Date} : (∃ error, date d spec = .error error) ↔ RefusedForDates spec.toList := by
  rw [← dateTime_refused_iff (t := .ofUtc d .midnight)]
  unfold date
  dsimp only
  split
  case h_1 | h_2 | h_3 | h_4 => exact iff_of_false nofun nofun
  case h_5 => rfl

/-! ## Characters that stand for themselves -/

/-- The characters that do not always stand for themselves in a format for dates: the letters of fields, the quotes, the
backslash and the percent sign. -/
def marks : List Char :=
  ['y', 'M', 'd', 'H', 'h', 'm', 's', 'f', 't', 'z', 'K', '\'', '"', '\\', '%']

theorem mem_marks_of_isQuote {c : Char} (quote : isQuote c = true) : c ∈ marks := by
  simp only [isQuote, Bool.or_eq_true, beq_iff_eq] at quote
  obtain rfl | rfl := quote <;> decide

theorem runText_of_not_mem_marks {c : Char} (plain : c ∉ marks) (length : Nat) :
    runText t c length = List.replicate length c := by
  unfold runText
  split
  case h_12 => rfl
  all_goals exact absurd (by decide) plain

variable {pattern left : List Char} {parts : List PatternPart}

/-- A scan of characters that stand for themselves takes them off in runs, which are shown as they are. -/
theorem Passes.text_of_not_mem_marks (passes : Passes pattern parts left) (plain : ∀ c ∈ pattern, c ∉ marks) :
    (parts.flatMap fun part => part.token.text t) ++ left = pattern := by
  induction passes with
  | nil => rfl
  | @cons part parts rest left stands _ ih =>
    have behind := ih fun c member => plain c (List.mem_append_right _ member)
    have inside : ∀ c ∈ part.spelling, c ∉ marks := fun c member => plain c (List.mem_append_left _ member)
    have own : part.token.text t = part.spelling := by
      cases stands with
      | @quoted quote _ opens _ => exact absurd (mem_marks_of_isQuote opens) (inside quote List.mem_cons_self)
      | escaped => exact absurd (by decide) (inside '\\' List.mem_cons_self)
      | @run c length _ _ positive =>
        have member : c ∈ List.replicate length c := List.mem_replicate.2 ⟨Nat.ne_of_gt positive, rfl⟩
        exact runText_of_not_mem_marks (inside c member) length
    rw [List.flatMap_cons, own, List.append_assoc, behind]

/-- Such a scan comes to the end. -/
theorem AtEnd.eq_nil_of_not_mem_marks (ends : AtEnd left) (plain : ∀ c ∈ left, c ∉ marks) : left = [] := by
  obtain rfl | rfl | ⟨quote, rest, rfl, opens, -⟩ | long := ends
  · rfl
  · exact absurd (by decide) (plain '\\' List.mem_cons_self)
  · exact absurd (mem_marks_of_isQuote opens) (plain quote List.mem_cons_self)
  · exact absurd (by decide) (plain 'f' (long.subset (by decide)))

theorem datePattern_of_not_mem_marks (plain : ∀ c ∈ spec.toList, c ∉ marks) : datePattern t spec = .ok spec.toList := by
  obtain ⟨parts, left, passes, ends⟩ := exists_passes spec.toList
  have shown := passes.text_of_not_mem_marks (t := t) plain
  have inside : ∀ c ∈ left, c ∉ marks := fun c member => plain c (passes.pattern_eq ▸ List.mem_append_right _ member)
  obtain rfl := ends.eq_nil_of_not_mem_marks inside
  rw [datePattern_of_passes passes (.inl rfl), ← shown, List.append_nil]

/-! ## Specifiers for numbers -/

/-- An upper-case letter for a numeric format, with a precision in one digit or more. -/
def IsNumericSpecifier (chars : List Char) : Prop :=
  ∃ letter digits, chars = letter :: digits ∧ letter ∈ ['F', 'N', 'C', 'P', 'E', 'D', 'X'] ∧ digits ≠ [] ∧
    ∀ c ∈ digits, c.isDigit = true

namespace IsNumericSpecifier

variable {chars : List Char}

theorem not_mem_marks (numeric : IsNumericSpecifier chars) : ∀ c ∈ chars, c ∉ marks := by
  obtain ⟨letter, digits, rfl, known, -, all⟩ := numeric
  have letters : ∀ letter ∈ ['F', 'N', 'C', 'P', 'E', 'D', 'X'], letter ∉ marks := by simp [marks]
  have noDigit : ∀ mark ∈ marks, mark.isDigit = false := by simp [marks]
  refine List.forall_mem_cons.2 ⟨letters letter known, fun c member mark => ?_⟩
  cases (noDigit c mark).symm.trans (all c member)

/-- No specifier for numbers is one of the letters for dates. -/
theorem ne_singleton (numeric : IsNumericSpecifier chars) (c : Char) : chars ≠ [c] := by
  obtain ⟨letter, digits, rfl, -, filled, -⟩ := numeric
  exact fun same => filled (List.cons.inj same).2

theorem dateTime (numeric : IsNumericSpecifier spec.toList) : dateTime t spec = .ok spec.toList := by
  unfold Format.dateTime
  split
  case h_1 | h_2 | h_3 | h_4 | h_5 => exact absurd rfl (numeric.ne_singleton _)
  case h_6 =>
    have noDirective : '%' ∉ spec.toList := fun member => numeric.not_mem_marks '%' member (by decide)
    rw [if_neg (mt List.contains_iff_mem.1 noDirective), datePattern_of_not_mem_marks numeric.not_mem_marks]

theorem date {d : Date} (numeric : IsNumericSpecifier spec.toList) : date d spec = .ok spec.toList := by
  unfold Format.date
  dsimp only
  split
  case h_1 | h_2 | h_3 | h_4 => exact absurd rfl (numeric.ne_singleton _)
  case h_5 => exact numeric.dateTime

theorem trimBlank (numeric : IsNumericSpecifier chars) : Text.trimBlank chars = chars := by
  obtain ⟨letter, digits, rfl, known, -, all⟩ := numeric
  have letters : ∀ letter ∈ ['F', 'N', 'C', 'P', 'E', 'D', 'X'], Text.isBlank letter = false := by simp [Text.isBlank]
  exact Text.trimBlank_eq_self (List.forall_mem_cons.2
    ⟨letters letter known, fun c member => Text.not_isBlank_of_isDigit (all c member)⟩)

end IsNumericSpecifier

end Format

/-! ## Values -/

namespace Value

open Format

def IsDate : Value → Prop
  | .dateTime _ | .date _ => True
  | _ => False

variable {value : Value} {spec : String}

theorem renderAs_refused_iff (isDate : value.IsDate) :
    (∃ error, value.renderAs spec = .error error) ↔ RefusedForDates spec.toList := by
  have stored (shown : Except FormatError (List Char)) :
      (∃ error, (fun text => AttributeValue.string (String.ofList text)) <$> shown = .error error) ↔
        ∃ error, shown = .error error := by
    cases shown <;> simp
  cases value with
  | dateTime t => exact (stored _).trans dateTime_refused_iff
  | date d => exact (stored _).trans date_refused_iff
  | _ => exact isDate.elim

theorem renderAs_of_isNumericSpecifier (isDate : value.IsDate) (numeric : IsNumericSpecifier spec.toList) :
    value.renderAs spec = .ok (.string spec) := by
  cases value with
  | dateTime t =>
    rw [renderAs, numeric.dateTime]
    exact congrArg (Except.ok ∘ AttributeValue.string) String.ofList_toList
  | date d =>
    rw [renderAs, numeric.date]
    exact congrArg (Except.ok ∘ AttributeValue.string) String.ofList_toList
  | _ => exact isDate.elim

theorem effectiveSpec?_of_isNumericSpecifier (numeric : IsNumericSpecifier spec.toList) :
    effectiveSpec? (some spec) = some spec := by
  have filled : spec.toList ≠ [] := by
    obtain ⟨letter, digits, shape, -⟩ := numeric
    exact shape ▸ List.cons_ne_nil _ _
  simp [effectiveSpec?, numeric.trimBlank, filled]

theorem isDate_normalize (isDate : value.IsDate) (session : Session) (mode : TimezoneMode) :
    (session.normalize mode value).IsDate := by
  cases value with
  | dateTime => cases mode <;> trivial
  | date => trivial
  | _ => exact isDate.elim

/-- The format of a property that stores dates is applied to each of them, on whichever clock it is stored. -/
theorem renderFor_of_isNumericSpecifier {session : Session} {property : Property} (isDate : value.IsDate)
    (format : property.format = some spec) (numeric : IsNumericSpecifier spec.toList) :
    session.renderFor property value none = .ok (.string spec) := by
  have rendered : value.render (some spec) session.dateFormat = .ok (.string spec) := by
    rw [render, effectiveSpec?_of_isNumericSpecifier numeric]
    exact renderAs_of_isNumericSpecifier isDate numeric
  have chosen : Session.chosenSpec property value none = some spec := by
    cases value with
    | dateTime | date => exact format
    | _ => exact isDate.elim
  cases value with
  | dateTime | date =>
    rw [Session.renderFor, chosen, rendered]
    · rfl
    · exact nofun
  | _ => exact isDate.elim

/-- A date is refused under a specifier if and only if that is no format for dates. A specifier for numbers is one:
every date is stored as the text of the specifier, also where it is the format of a property. So whether such a property
refuses a date is up to its encryption alone. -/
theorem render_numericSpecifier (isDate : value.IsDate) (dateFormat : String) :
    (∀ given spec, effectiveSpec? (some given) = some spec →
      ((∃ error, value.render (some given) dateFormat = .error error) ↔ RefusedForDates spec.toList)) ∧
    ∀ spec, IsNumericSpecifier spec.toList →
      value.render (some spec) dateFormat = .ok (.string spec) ∧
      ∀ (session : Session) (property : Property), property.format = some spec →
        session.encode value (some property) none =
          if property.encrypted then session.encryptFor property (.string spec) else .ok (.string spec) := by
  refine ⟨fun given spec effective => ?_, fun spec numeric => ⟨?_, fun session property format => ?_⟩⟩
  · rw [render, effective]
    exact renderAs_refused_iff isDate
  · rw [render, effectiveSpec?_of_isNumericSpecifier numeric]
    exact renderAs_of_isNumericSpecifier isDate numeric
  · rw [Session.encode, renderFor_of_isNumericSpecifier (isDate_normalize isDate session _) format numeric]
    rfl

/-- Six digits are asked for by two properties of which one is encrypted. A quote that is never closed is refused. -/
theorem render_numericSpecifier_of_leapDay :
    let leapDay : DateTime := ⟨⟨2024, 2, 29, by decide, by decide, by decide, by decide⟩, .midnight, 3600, by decide,
      by decide⟩
    let rank : Property := { Property.plain "Rank" "rank" with format := some "D6", timezone := .utc }
    (Value.dateTime leapDay).IsDate ∧ IsNumericSpecifier "D6".toList ∧
      (Value.dateTime leapDay).render (some "D6") "o" = .ok (.string "D6") ∧
      (Session.new .standard none).encode (.dateTime leapDay) (some rank) none = .ok (.string "D6") ∧
      (Session.new .standard none).encode (.dateTime leapDay) (some { rank with encrypted := true }) none =
        .error (.encryptionRequired "Rank") ∧
      effectiveSpec? (some " 'day ") = some "'day" ∧ RefusedForDates "'day".toList := by
  intro leapDay rank
  have numeric : IsNumericSpecifier "D6".toList := ⟨'D', ['6'], rfl, by simp, by simp, by simp⟩
  obtain ⟨refused, shown⟩ := @render_numericSpecifier (.dateTime leapDay) trivial "o"
  obtain ⟨rendered, encoded⟩ := shown "D6" numeric
  have unclosed : ∃ error, (Value.dateTime leapDay).render (some " 'day ") "o" = .error error := ⟨_, by cbv⟩
  exact ⟨trivial, numeric, rendered, encoded _ rank rfl, encoded _ { rank with encrypted := true } rfl, by cbv,
    (refused " 'day " "'day" (by cbv)).1 unclosed⟩

/-- Two fixed places are refused by no date, and each is stored as their text. -/
theorem render_not_refused_of_fixedPlaces :
    ¬ ∀ value : Value, value.IsDate → ∀ spec, IsNumericSpecifier spec.toList →
      ∃ error, value.render (some spec) "o" = .error error := by
  intro refused
  let newYear : Date := ⟨2025, 1, 1, by decide, by decide, by decide, by decide⟩
  have shown : (Value.date newYear).render (some "F2") "o" = .ok (.string "F2") := by cbv
  obtain ⟨error, wrong⟩ := refused (.date newYear) trivial "F2" ⟨'F', ['2'], rfl, by simp, by simp, by simp⟩
  cases shown.symm.trans wrong

end Value

end ItemExpr
