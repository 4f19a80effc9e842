import ItemExpr.Format.DatePattern
import ItemExpr.Format.Directive

/-!
# Date formats

A date specifier is one of the letters `o`, `O`, `s`, `u` and `d`, a pattern of percent directives if there is a percent
sign in it, and else a date pattern. A date without a time of day has one form for the letters but `u`, and stands for
its midnight in universal time under any other specifier.
-/

namespace ItemExpr.Format

/-- Year, month and day. -/
def dayText (t : DateTime) : List Char :=
  isoDate.flatMap (DirectiveItem.text t)

/-- Hour, minute and second, where a leap second is counted. -/
def clockText (t : DateTime) : List Char :=
  clockTime.flatMap (DirectiveItem.text t)

/-- The sortable form: day and time of day on the clock of an instant. -/
def sortable (t : DateTime) : List Char :=
  dayText t ++ 'T' :: clockText t

/-- The form that keeps an instant to a ten-millionth of a second, with its offset. -/
def roundTrip (t : DateTime) : List Char :=
  sortable t ++ '.' :: Text.zeroPadded 7 (t.time.fraction / 100) ++ offsetTextZulu t.offset

/-- The universal form: day and time of day in universal time. -/
def universal (t : DateTime) : List Char :=
  dayText t.toUtc ++ ' ' :: clockText t.toUtc ++ ['Z']

def dateTime (t : DateTime) (spec : String) : Except FormatError (List Char) :=
  match spec with
  | "o" | "O" => .ok (roundTrip t)
  | "s" => .ok (sortable t)
  | "u" => .ok (universal t)
  | "d" => .ok (dayText t)
  | _ => if spec.toList.contains '%' then directives t spec else datePattern t spec

def date (d : Date) (spec : String) : Except FormatError (List Char) :=
  let midnight := DateTime.ofUtc d .midnight
  match spec with
  | "o" | "O" | "s" | "d" => .ok (dayText midnight)
  | _ => dateTime midnight spec

end ItemExpr.Format
