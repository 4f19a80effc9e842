/-!
# Dates

A date of the Gregorian calendar, extended to all years, among them zero and negative ones. It is kept as year, month
and day; its place in the week, in the year and in the week-numbering year is computed from them.
-/

namespace ItemExpr

def isLeapYear (year : Int) : Bool :=
  year % 4 == 0 && (year % 100 != 0 || year % 400 == 0)

/-- The number of days of a month, counted from one. -/
def monthLength (year : Int) (month : Nat) : Nat :=
  match month with
  | 2 => if isLeapYear year then 29 else 28
  | 4 | 6 | 9 | 11 => 30
  | _ => 31

def yearLength (year : Int) : Nat :=
  if isLeapYear year then 366 else 365

theorem monthLength_le (year : Int) (month : Nat) : monthLength year month ≤ 31 := by
  unfold monthLength
  split <;> (try split) <;> omega

theorem monthLength_pos (year : Int) (month : Nat) : 1 ≤ monthLength year month := by
  unfold monthLength
  split <;> (try split) <;> omega

structure Date where
  year : Int
  month : Nat
  day : Nat
  month_pos : 1 ≤ month
  month_le : month ≤ 12
  day_pos : 1 ≤ day
  day_le : day ≤ monthLength year month
deriving DecidableEq

namespace Date

/-- The date with the given fields, if there is one. -/
def ofFields? (year : Int) (month day : Nat) : Option Date :=
  if h : (1 ≤ month ∧ month ≤ 12) ∧ 1 ≤ day ∧ day ≤ monthLength year month then
    some ⟨year, month, day, h.1.1, h.1.2, h.2.1, h.2.2⟩
  else none

def next (d : Date) : Date :=
  if more : d.day < monthLength d.year d.month then
    ⟨d.year, d.month, d.day + 1, d.month_pos, d.month_le, by omega, more⟩
  else if within : d.month < 12 then
    ⟨d.year, d.month + 1, 1, by omega, by omega, by omega, monthLength_pos _ _⟩
  else
    ⟨d.year + 1, 1, 1, by omega, by omega, by omega, monthLength_pos _ _⟩

def prev (d : Date) : Date :=
  if more : 1 < d.day then
    ⟨d.year, d.month, d.day - 1, d.month_pos, d.month_le, by omega, by have := d.day_le; omega⟩
  else if within : 1 < d.month then
    ⟨d.year, d.month - 1, monthLength d.year (d.month - 1), by omega, by have := d.month_le; omega,
      monthLength_pos _ _, Nat.le_refl _⟩
  else
    ⟨d.year - 1, 12, 31, by omega, by omega, by omega, by simp [monthLength]⟩

/-! ## Counting days -/

def daysBeforeMonth (year : Int) : Nat → Nat
  | 0 | 1 => 0
  | month + 1 => daysBeforeMonth year month + monthLength year month

/-- The number of a day in its year, counted from one. -/
def ordinal (d : Date) : Nat :=
  daysBeforeMonth d.year d.month + d.day

/-- The days from the first of January of the year 1 to that of another year. -/
def daysBeforeYear (year : Int) : Int :=
  let before := year - 1
  365 * before + before / 4 - before / 100 + before / 400

def epochDay (d : Date) : Int :=
  daysBeforeYear d.year + d.ordinal - 719163

/-- The quarter of the year that a date lies in, counted from one. -/
def quarter (d : Date) : Nat :=
  (d.month + 2) / 3

/-! ## Weeks -/

def daysFromMonday (d : Date) : Nat :=
  ((daysBeforeYear d.year + d.ordinal - 1) % 7).toNat

def daysFromSunday (d : Date) : Nat :=
  (d.daysFromMonday + 1) % 7

/-- The number of a week in its year, where weeks start on a Sunday and the days before the first Sunday are in
week 0. -/
def weekFromSunday (d : Date) : Nat :=
  (d.ordinal + 6 - d.daysFromSunday) / 7

/-- The number of a week in its year, where weeks start on a Monday and the days before the first Monday are in
week 0. -/
def weekFromMonday (d : Date) : Nat :=
  (d.ordinal + 6 - d.daysFromMonday) / 7

/-- The week-numbering year of a date and the number of its week there. A week belongs to the year that its Thursday
lies in. -/
def isoWeek (d : Date) : Int × Nat :=
  let thursday : Int := d.ordinal + 3 - d.daysFromMonday
  if thursday < 1 then (d.year - 1, (thursday + yearLength (d.year - 1) - 1).toNat / 7 + 1)
  else if yearLength d.year < thursday then (d.year + 1, (thursday - yearLength d.year - 1).toNat / 7 + 1)
  else (d.year, (thursday - 1).toNat / 7 + 1)

end Date

end ItemExpr
