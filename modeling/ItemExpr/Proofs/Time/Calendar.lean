import Mathlib.Order.Nat
import ItemExpr.Time.DateTime

/-!
# Counting days

The count of days from 1970 goes up by one from a date to the next, and is ordered as years, months and days are. A
conversion to universal time therefore keeps the instant.
-/

namespace ItemExpr

/-! ## Years and months -/

theorem isLeapYear_iff (year : Int) : isLeapYear year = true ↔ year % 4 = 0 ∧ (year % 100 ≠ 0 ∨ year % 400 = 0) := by
  simp [isLeapYear]

namespace Date

theorem daysBeforeYear_succ (year : Int) : daysBeforeYear (year + 1) = daysBeforeYear year + yearLength year := by
  have leap := isLeapYear_iff year
  unfold daysBeforeYear yearLength
  dsimp only
  split
  case isTrue is =>
    have divides := leap.1 is
    omega
  case isFalse not =>
    have none := mt leap.2 not
    omega

theorem daysBeforeYear_le {first second : Int} (before : first < second) :
    daysBeforeYear first + yearLength first ≤ daysBeforeYear second := by
  rw [← daysBeforeYear_succ]
  unfold daysBeforeYear
  dsimp only
  omega

theorem daysBeforeMonth_succ (year : Int) {month : Nat} (positive : 1 ≤ month) :
    daysBeforeMonth year (month + 1) = daysBeforeMonth year month + monthLength year month := by
  obtain ⟨month, rfl⟩ := Nat.exists_eq_add_of_le' positive
  rfl

theorem daysBeforeMonth_le (year : Int) {first second : Nat} (positive : 1 ≤ first) (before : first < second) :
    daysBeforeMonth year first + monthLength year first ≤ daysBeforeMonth year second := by
  induction second, before using Nat.le_induction with
  | base => rw [Nat.succ_eq_add_one, daysBeforeMonth_succ year positive]
  | succ second before ih =>
    rw [daysBeforeMonth_succ year (by omega)]
    omega

theorem daysBeforeMonth_thirteen (year : Int) : daysBeforeMonth year 13 = yearLength year := by
  unfold yearLength
  split
  case isTrue leap => simp [daysBeforeMonth, monthLength, leap]
  case isFalse plain => simp [daysBeforeMonth, monthLength, plain]

theorem ordinal_pos (d : Date) : 1 ≤ d.ordinal :=
  Nat.le_trans d.day_pos (Nat.le_add_left _ _)

theorem ordinal_le (d : Date) : d.ordinal ≤ yearLength d.year := by
  have within := daysBeforeMonth_le d.year d.month_pos (Nat.lt_succ_of_le d.month_le)
  have short := d.day_le
  rw [daysBeforeMonth_thirteen] at within
  unfold ordinal
  omega

/-! ## The next date and the one before -/

theorem epochDay_next (d : Date) : d.next.epochDay = d.epochDay + 1 := by
  have most := d.day_le
  unfold next
  split
  case isTrue more =>
    simp only [epochDay, ordinal]
    omega
  case isFalse last =>
    split
    case isTrue within =>
      have month := daysBeforeMonth_succ d.year d.month_pos
      simp only [epochDay, ordinal]
      omega
    case isFalse december =>
      have twelve : d.month = 12 := Nat.le_antisymm d.month_le (by omega)
      have year := daysBeforeYear_succ d.year
      have month := daysBeforeMonth_succ d.year d.month_pos
      rw [twelve, daysBeforeMonth_thirteen] at month
      rw [twelve] at most last
      simp only [epochDay, ordinal, twelve]
      rw [show daysBeforeMonth (d.year + 1) 1 = 0 from rfl]
      omega

theorem epochDay_prev (d : Date) : d.prev.epochDay = d.epochDay - 1 := by
  have least := d.day_pos
  unfold prev
  split
  case isTrue more =>
    simp only [epochDay, ordinal]
    omega
  case isFalse first =>
    split
    case isTrue within =>
      have month := daysBeforeMonth_succ d.year (show 1 ≤ d.month - 1 by omega)
      rw [Nat.sub_add_cancel d.month_pos] at month
      simp only [epochDay, ordinal]
      omega
    case isFalse january =>
      have one : d.month = 1 := Nat.le_antisymm (by omega) d.month_pos
      have year := daysBeforeYear_succ (d.year - 1)
      have month : daysBeforeMonth (d.year - 1) 13 = daysBeforeMonth (d.year - 1) 12 + 31 := rfl
      rw [daysBeforeMonth_thirteen] at month
      rw [Int.sub_add_cancel] at year
      simp only [epochDay, ordinal, one]
      rw [show daysBeforeMonth d.year 1 = 0 from rfl]
      omega

/-! ## The order of dates -/

variable {d e : Date}

theorem eq_of_fields (year : d.year = e.year) (month : d.month = e.month) (day : d.day = e.day) : d = e := by
  cases d
  cases e
  cases year
  cases month
  cases day
  rfl

theorem epochDay_lt_of_year (before : d.year < e.year) : d.epochDay < e.epochDay := by
  have apart := daysBeforeYear_le before
  have most := d.ordinal_le
  have least := e.ordinal_pos
  unfold epochDay
  omega

theorem epochDay_lt_of_month (year : d.year = e.year) (before : d.month < e.month) : d.epochDay < e.epochDay := by
  have apart := daysBeforeMonth_le d.year d.month_pos before
  have most := d.day_le
  have least := e.day_pos
  unfold epochDay ordinal
  rw [year] at apart most ⊢
  omega

theorem epochDay_lt_of_day (year : d.year = e.year) (month : d.month = e.month) (before : d.day < e.day) :
    d.epochDay < e.epochDay := by
  unfold epochDay ordinal
  rw [year, month]
  omega

/-- No two dates have the same count of days. -/
theorem epochDay_injective (same : d.epochDay = e.epochDay) : d = e := by
  have year : d.year = e.year := by
    obtain before | equal | after := Int.lt_trichotomy d.year e.year
    · exact absurd same (Int.ne_of_lt (epochDay_lt_of_year before))
    · exact equal
    · exact absurd same.symm (Int.ne_of_lt (epochDay_lt_of_year after))
  have month : d.month = e.month := by
    obtain before | equal | after := Nat.lt_trichotomy d.month e.month
    · exact absurd same (Int.ne_of_lt (epochDay_lt_of_month year before))
    · exact equal
    · exact absurd same.symm (Int.ne_of_lt (epochDay_lt_of_month year.symm after))
  have day : d.day = e.day := by
    obtain before | equal | after := Nat.lt_trichotomy d.day e.day
    · exact absurd same (Int.ne_of_lt (epochDay_lt_of_day year month before))
    · exact equal
    · exact absurd same.symm (Int.ne_of_lt (epochDay_lt_of_day year.symm month.symm after))
  exact eq_of_fields year month day

end Date

/-! ## Times of day -/

namespace TimeOfDay

theorem hour_lt (t : TimeOfDay) : t.hour < 24 := by
  have most := t.seconds_lt
  unfold hour
  omega

theorem minute_lt (t : TimeOfDay) : t.minute < 60 := by
  unfold minute
  omega

end TimeOfDay

/-! ## Universal time -/

namespace DateTime

theorem toUtc_nanoseconds (t : DateTime) : t.toUtc.time.nanoseconds = t.time.nanoseconds := by
  unfold toUtc
  dsimp only
  split
  · rfl
  · split <;> rfl

/-- A clock that shows universal time shows the same instant. -/
theorem toUtc_epochSeconds (t : DateTime) : t.toUtc.epochSeconds = t.epochSeconds := by
  have most := t.offset_lt
  unfold toUtc epochSeconds
  dsimp only
  split
  case isTrue before =>
    simp only [ofUtc, Date.epochDay_prev]
    omega
  case isFalse =>
    split
    case isTrue after =>
      simp only [ofUtc, Date.epochDay_next]
      omega
    case isFalse =>
      simp only [ofUtc]
      omega

theorem atOffset_nanoseconds (t : DateTime) {offset : Int} (offset_gt : -86400 < offset) (offset_lt : offset < 86400) :
    (t.atOffset offset offset_gt offset_lt).time.nanoseconds = t.time.nanoseconds :=
  (toUtc_nanoseconds _).trans t.toUtc_nanoseconds

/-- A clock at any offset shows the same instant. -/
theorem atOffset_epochSeconds (t : DateTime) {offset : Int} (offset_gt : -86400 < offset)
    (offset_lt : offset < 86400) : (t.atOffset offset offset_gt offset_lt).epochSeconds = t.epochSeconds := by
  have universal := t.toUtc_epochSeconds
  have ahead := toUtc_epochSeconds
    { t.toUtc with offset := -offset, offset_gt := Int.neg_lt_neg offset_lt, offset_lt := by omega }
  simp only [atOffset, epochSeconds, toUtc_offset] at universal ahead ⊢
  omega

/-- Clocks whose offset is a number of minutes show the same second. -/
theorem toUtc_second {t : DateTime} (minutes : t.offset % 60 = 0) : t.toUtc.time.second = t.time.second := by
  have most := t.offset_lt
  unfold toUtc TimeOfDay.second
  dsimp only
  split
  case isTrue before =>
    simp only [ofUtc]
    omega
  case isFalse =>
    split
    case isTrue after =>
      simp only [ofUtc]
      omega
    case isFalse =>
      simp only [ofUtc]
      omega

/-- A clock that shows universal time is left as it is. -/
theorem toUtc_of_offset {t : DateTime} (universal : t.offset = 0) : t.toUtc = t := by
  obtain ⟨date, ⟨seconds, nanoseconds, seconds_lt, nanoseconds_lt⟩, offset, offset_gt, offset_lt⟩ := t
  obtain rfl : offset = 0 := universal
  unfold toUtc
  dsimp only
  rw [dif_neg (by omega), dif_neg (by omega)]
  simp [ofUtc]

end DateTime

end ItemExpr
