import ItemExpr.Time.Date

/-!
# Times of day and instants

A time of day counts seconds since midnight and nanoseconds. In a leap second the nanoseconds run on past a whole
second, so that the second that precedes it keeps its number.

An instant is a date and a time of day on a clock whose offset from universal time is known, in seconds.
-/

namespace ItemExpr

structure TimeOfDay where
  seconds : Nat
  nanoseconds : Nat
  seconds_lt : seconds < 86400
  nanoseconds_lt : nanoseconds < 2000000000
deriving DecidableEq

namespace TimeOfDay

/-- The time of day with the given fields, if there is one. -/
def ofFields? (hour minute second nanosecond : Nat) : Option TimeOfDay :=
  if h : (hour < 24 ∧ minute < 60) ∧ second < 60 ∧ nanosecond < 2000000000 then
    some ⟨(hour * 60 + minute) * 60 + second, nanosecond, by omega, h.2.2⟩
  else none

def midnight : TimeOfDay :=
  ⟨0, 0, by omega, by omega⟩

/-- The hour, from 0 to 23. -/
def hour (t : TimeOfDay) : Nat :=
  t.seconds / 3600

def minute (t : TimeOfDay) : Nat :=
  t.seconds / 60 % 60

/-- The second of the minute, which a leap second shares with the second before it. -/
def second (t : TimeOfDay) : Nat :=
  t.seconds % 60

/-- The second of the minute, where a leap second is counted as one more. -/
def secondCounted (t : TimeOfDay) : Nat :=
  t.second + t.nanoseconds / 1000000000

def fraction (t : TimeOfDay) : Nat :=
  t.nanoseconds % 1000000000

/-- The hour on a clock face, from 1 to 12. -/
def hour12 (t : TimeOfDay) : Nat :=
  if t.hour % 12 = 0 then 12 else t.hour % 12

def isAfternoon (t : TimeOfDay) : Bool :=
  12 ≤ t.hour

theorem secondCounted_le (t : TimeOfDay) : t.secondCounted ≤ 60 := by
  have := t.nanoseconds_lt
  unfold secondCounted second
  omega

end TimeOfDay

/-- An instant as a clock at some offset from universal time shows it. -/
structure DateTime where
  date : Date
  time : TimeOfDay
  offset : Int
  offset_gt : -86400 < offset
  offset_lt : offset < 86400
deriving DecidableEq

namespace DateTime

/-- A date and a time of day on a clock that shows universal time. -/
def ofUtc (date : Date) (time : TimeOfDay) : DateTime :=
  ⟨date, time, 0, by omega, by omega⟩

/-- The same instant as a clock that shows universal time shows it. -/
def toUtc (t : DateTime) : DateTime :=
  have := t.time.seconds_lt
  have := t.offset_gt
  have := t.offset_lt
  let shifted : Int := t.time.seconds - t.offset
  if before : shifted < 0 then
    ofUtc t.date.prev ⟨(shifted + 86400).toNat, t.time.nanoseconds, by omega, t.time.nanoseconds_lt⟩
  else if after : 86400 ≤ shifted then
    ofUtc t.date.next ⟨(shifted - 86400).toNat, t.time.nanoseconds, by omega, t.time.nanoseconds_lt⟩
  else
    ofUtc t.date ⟨shifted.toNat, t.time.nanoseconds, by omega, t.time.nanoseconds_lt⟩

/-- The same instant as a clock at another offset shows it. -/
def atOffset (t : DateTime) (offset : Int) (offset_gt : -86400 < offset) (offset_lt : offset < 86400) : DateTime :=
  -- Universal time is what a clock shows less its offset, so an opposite offset puts on what the clock is ahead.
  let opposite : DateTime := { t.toUtc with offset := -offset, offset_gt := by omega, offset_lt := by omega }
  { opposite.toUtc with offset, offset_gt, offset_lt }

/-- The seconds from the start of 1970 in universal time. A leap second counts as the second before it. -/
def epochSeconds (t : DateTime) : Int :=
  t.date.epochDay * 86400 + t.time.seconds - t.offset

theorem toUtc_offset (t : DateTime) : t.toUtc.offset = 0 := by
  unfold toUtc
  dsimp only
  split
  · rfl
  · split <;> rfl

end DateTime

/-- The clock of some place: how far it is ahead of universal time at an instant, which is given in universal time. -/
structure LocalClock where
  offsetAt : DateTime → Int
  offsetAt_gt (t : DateTime) : -86400 < offsetAt t
  offsetAt_lt (t : DateTime) : offsetAt t < 86400

namespace LocalClock

def universal : LocalClock :=
  ⟨fun _ => 0, fun _ => by decide, fun _ => by decide⟩

/-- The same instant as the clock shows it. -/
def shows (clock : LocalClock) (t : DateTime) : DateTime :=
  t.atOffset (clock.offsetAt t.toUtc) (clock.offsetAt_gt _) (clock.offsetAt_lt _)

end LocalClock

end ItemExpr
