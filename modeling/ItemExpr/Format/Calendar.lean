import ItemExpr.Text.Digits
import ItemExpr.Time.DateTime

/-!
# Names and offsets in date formats

The English names of months and weekdays, and the text of a clock's offset from universal time.
-/

namespace ItemExpr.Format

/-- The full name of a month, counted from one. -/
def monthName : Nat → String
  | 1 => "January"
  | 2 => "February"
  | 3 => "March"
  | 4 => "April"
  | 5 => "May"
  | 6 => "June"
  | 7 => "July"
  | 8 => "August"
  | 9 => "September"
  | 10 => "October"
  | 11 => "November"
  | _ => "December"

/-- The full name of a weekday, counted from Monday as zero. -/
def weekdayName : Nat → String
  | 0 => "Monday"
  | 1 => "Tuesday"
  | 2 => "Wednesday"
  | 3 => "Thursday"
  | 4 => "Friday"
  | 5 => "Saturday"
  | _ => "Sunday"

def abbreviated (name : String) : List Char :=
  name.toList.take 3

/-- The sign of an offset, which is a plus for universal time. -/
def offsetSign (offset : Int) : Char :=
  if offset < 0 then '-' else '+'

/-- An offset in hours and minutes, rounded to the nearest minute with half a minute away from zero. The sign is that of
the offset even where nothing of it is left. -/
def offsetText (offset : Int) (colon : Bool) : List Char :=
  let minutes := (offset.natAbs + 30) / 60
  offsetSign offset :: Text.zeroPadded 2 (minutes / 60) ++ (if colon then [':'] else []) ++
    Text.zeroPadded 2 (minutes % 60)

/-- An offset in whole hours, of which nothing is rounded up. -/
def offsetTextHours (offset : Int) : List Char :=
  offsetSign offset :: Text.zeroPadded 2 (offset.natAbs / 3600)

/-- An offset in hours, minutes and seconds. -/
def offsetTextSeconds (offset : Int) : List Char :=
  let seconds := offset.natAbs
  offsetSign offset :: Text.zeroPadded 2 (seconds / 3600) ++ ':' :: Text.zeroPadded 2 (seconds / 60 % 60) ++
    ':' :: Text.zeroPadded 2 (seconds % 60)

/-- An offset in hours and minutes, and in seconds too if it has some. -/
def offsetTextExact (offset : Int) : List Char :=
  if offset.natAbs % 60 = 0 then offsetText offset true else offsetTextSeconds offset

/-- An offset in hours and minutes, and `Z` for universal time. -/
def offsetTextZulu (offset : Int) : List Char :=
  if offset = 0 then ['Z'] else offsetText offset true

end ItemExpr.Format
