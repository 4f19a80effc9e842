import ItemExpr.Proofs.Time.Timestamps

/-!
# The letters for dates

The letters `s`, `d`, `o` and `u` are short for date patterns. They are shown by directives, and the fields of these
are, one by one, those of the runs in the patterns: a year of up to four digits, and the other fields in two places. So
an instant that is no leap second is shown in the same way (`Format.dateTime_letters`).
-/

namespace ItemExpr.Format

open Text

variable {t : DateTime}

/-! ## Runs -/

theorem patternYear_four {year : Int} (nonnegative : 0 ≤ year) : patternYear 4 year = zeroPadded 4 year.toNat := by
  have same : year.natAbs = year.toNat := by omega
  have places : signedPadded 4 year = zeroPadded 4 year.natAbs := if_neg (not_lt.2 nonnegative)
  rwa [same] at places

/-- Outside of leap seconds the second is the same, whether or not they are counted. -/
theorem secondCounted_of_noLeap (noLeap : t.time.nanoseconds < 1000000000) : t.time.secondCounted = t.time.second := by
  rw [TimeOfDay.secondCounted, Nat.div_eq_of_lt noLeap, Nat.add_zero]

def dayRuns : List PatternToken :=
  [.run 'y' 4, .run '-' 1, .run 'M' 2, .run '-' 1, .run 'd' 2]

def clockRuns : List PatternToken :=
  [.run 'H' 2, .run ':' 1, .run 'm' 2, .run ':' 1, .run 's' 2]

theorem text_dayRuns (year : 0 ≤ t.date.year ∧ t.date.year ≤ 9999) :
    dayRuns.flatMap (PatternToken.text t) = dayText t := by
  simp [dayRuns, dayText, isoDate, joined, PatternToken.text, DirectiveItem.text, runText, patternYear_four year.1,
    nameOrNumber, oneOrTwo, text_year year.1 year.2, text_month, text_day]

theorem text_clockRuns (noLeap : t.time.nanoseconds < 1000000000) :
    clockRuns.flatMap (PatternToken.text t) = clockText t := by
  simp [clockRuns, clockText, clockTime, joined, PatternToken.text, DirectiveItem.text, runText, oneOrTwo, text_hour,
    text_minute, text_second, secondCounted_of_noLeap noLeap]

theorem dateTime_of_tokens {pattern : String} {tokens : List PatternToken}
    (scanned : scanPattern pattern.toList = .ok tokens)
    (custom : dateTime t pattern = datePattern t pattern) :
    dateTime t pattern = .ok (tokens.flatMap (PatternToken.text t)) := by
  rw [custom, datePattern, scanned]

/-! ## Letters -/

/-- The letters for dates show an instant as the patterns do that they are short for, on the clock that shows it or, for
the universal form, on one that shows universal time. -/
theorem dateTime_letters (noLeap : t.time.nanoseconds < 1000000000) (year : 0 ≤ t.date.year ∧ t.date.year ≤ 9999)
    (yearUtc : 0 ≤ t.toUtc.date.year ∧ t.toUtc.date.year ≤ 9999) :
    dateTime t "s" = dateTime t "yyyy-MM-ddTHH:mm:ss" ∧ dateTime t "d" = dateTime t "yyyy-MM-dd" ∧
      (∀ letter ∈ ["o", "O"], dateTime t letter = dateTime t "yyyy-MM-ddTHH:mm:ss.fffffffK") ∧
      dateTime t "u" = dateTime t.toUtc "yyyy-MM-dd HH:mm:ssZ" := by
  have day := text_dayRuns year
  have clock := text_clockRuns noLeap
  have sortableRuns : (dayRuns ++ .run 'T' 1 :: clockRuns).flatMap (PatternToken.text t) = sortable t := by
    rw [List.flatMap_append, List.flatMap_cons, day, clock]
    rfl
  refine ⟨?sortable, ?day, ?roundTrip, ?universal⟩
  case sortable =>
    have scanned : scanPattern "yyyy-MM-ddTHH:mm:ss".toList = .ok (dayRuns ++ .run 'T' 1 :: clockRuns) := by cbv
    rw [dateTime_of_tokens scanned rfl, sortableRuns]
    rfl
  case day =>
    have scanned : scanPattern "yyyy-MM-dd".toList = .ok dayRuns := by cbv
    rw [dateTime_of_tokens scanned rfl, day]
    rfl
  case roundTrip =>
    have scanned : scanPattern "yyyy-MM-ddTHH:mm:ss.fffffffK".toList =
        .ok ((dayRuns ++ .run 'T' 1 :: clockRuns) ++ [.run '.' 1, .run 'f' 7, .run 'K' 1]) := by cbv
    have shown : dateTime t "yyyy-MM-ddTHH:mm:ss.fffffffK" = .ok (roundTrip t) := by
      rw [dateTime_of_tokens scanned rfl, List.flatMap_append, sortableRuns]
      simp [roundTrip, PatternToken.text, runText]
    intro letter member
    rw [shown]
    obtain rfl | rfl := List.mem_pair.1 member <;> rfl
  case universal =>
    have dayUtc := text_dayRuns yearUtc
    have clockUtc := text_clockRuns (t.toUtc_nanoseconds.symm ▸ noLeap)
    have scanned : scanPattern "yyyy-MM-dd HH:mm:ssZ".toList =
        .ok (dayRuns ++ .run ' ' 1 :: (clockRuns ++ [.run 'Z' 1])) := by cbv
    rw [dateTime_of_tokens scanned rfl, List.flatMap_append, List.flatMap_cons, List.flatMap_append, dayUtc, clockUtc]
    simp [dateTime, universal, PatternToken.text, runText]

/-- On a clock five hours behind universal time it is still the old year, and an offset is shown; in universal time it
is the new one. -/
theorem dateTime_letters_of_newYear :
    DateTime.newYear.time.nanoseconds < 1000000000 ∧
      (0 ≤ DateTime.newYear.date.year ∧ DateTime.newYear.date.year ≤ 9999) ∧
      (0 ≤ DateTime.newYear.toUtc.date.year ∧ DateTime.newYear.toUtc.date.year ≤ 9999) ∧
      dateTime .newYear "yyyy-MM-ddTHH:mm:ss" = .ok "2016-12-31T19:00:00".toList ∧
      dateTime .newYear "yyyy-MM-dd" = .ok "2016-12-31".toList ∧
      dateTime .newYear "yyyy-MM-ddTHH:mm:ss.fffffffK" = .ok "2016-12-31T19:00:00.0010000-05:00".toList ∧
      dateTime (DateTime.toUtc .newYear) "yyyy-MM-dd HH:mm:ssZ" = .ok "2017-01-01 00:00:00Z".toList := by
  have noLeap : DateTime.newYear.time.nanoseconds < 1000000000 := by decide
  have year : 0 ≤ DateTime.newYear.date.year ∧ DateTime.newYear.date.year ≤ 9999 := by decide
  have yearUtc : 0 ≤ DateTime.newYear.toUtc.date.year ∧ DateTime.newYear.toUtc.date.year ≤ 9999 := by decide
  obtain ⟨sortable, day, roundTrip, universal⟩ := dateTime_letters noLeap year yearUtc
  refine ⟨noLeap, year, yearUtc, ?_, ?_, ?_, ?_⟩
  · rw [← sortable]
    rfl
  · rw [← day]
    rfl
  · rw [← roundTrip "o" (by simp)]
    rfl
  · rw [← universal]
    rfl

end ItemExpr.Format
