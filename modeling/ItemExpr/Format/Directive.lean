import ItemExpr.Format.Calendar
import ItemExpr.Format.Error

/-!
# Percent directives

A pattern of directives is a text in which a percent sign and the characters behind it stand for a field of an
instant. A directive for a single number may carry a flag for its padding; some directives are short for several
others. A pattern with an unknown directive is refused as a whole.
-/

namespace ItemExpr.Format

inductive Padding where
  | bare
  | zeros
  | blanks
deriving DecidableEq, Repr

inductive NumericField where
  | year
  | century
  | yearOfCentury
  | quarter
  | month
  | day
  | ordinal
  | hour
  | hour12
  | minute
  | second
  | nanosecond
  | weekFromSunday
  | weekFromMonday
  | isoYear
  | isoYearOfCentury
  | isoWeek
  | weekdayFromMonday
  | weekdayFromSunday
  | timestamp
deriving DecidableEq, Repr

inductive TextField where
  | monthName
  | monthAbbreviation
  | weekdayName
  | weekdayAbbreviation
  | halfDayUpper
  | halfDayLower
  /-- A point and as many of the digits of a second's fraction as it needs, in threes; nothing for none. -/
  | fraction
  /-- The first digits of a second's fraction, behind a point or not. -/
  | fractionDigits (count : Nat) (point : Bool)
  | offset (colon : Bool)
  | offsetSeconds
  | offsetHours
  | zone
deriving DecidableEq, Repr

inductive DirectiveItem where
  | literal (c : Char)
  | number (field : NumericField) (padding : Padding)
  | textual (field : TextField)
deriving DecidableEq, Repr

/-! ## Reading -/

/-- The numeric field of a letter, and how it is padded without a flag. -/
def numericField? : Char → Option (NumericField × Padding)
  | 'Y' => some (.year, .zeros)
  | 'C' => some (.century, .zeros)
  | 'y' => some (.yearOfCentury, .zeros)
  | 'q' => some (.quarter, .bare)
  | 'm' => some (.month, .zeros)
  | 'd' => some (.day, .zeros)
  | 'e' => some (.day, .blanks)
  | 'j' => some (.ordinal, .zeros)
  | 'H' => some (.hour, .zeros)
  | 'k' => some (.hour, .blanks)
  | 'I' => some (.hour12, .zeros)
  | 'l' => some (.hour12, .blanks)
  | 'M' => some (.minute, .zeros)
  | 'S' => some (.second, .zeros)
  | 'f' => some (.nanosecond, .zeros)
  | 'U' => some (.weekFromSunday, .zeros)
  | 'W' => some (.weekFromMonday, .zeros)
  | 'G' => some (.isoYear, .zeros)
  | 'g' => some (.isoYearOfCentury, .zeros)
  | 'V' => some (.isoWeek, .zeros)
  | 'u' => some (.weekdayFromMonday, .bare)
  | 'w' => some (.weekdayFromSunday, .bare)
  | 's' => some (.timestamp, .bare)
  | _ => none

def paddingFlag? : Char → Option Padding
  | '-' => some .bare
  | '0' => some .zeros
  | '_' => some .blanks
  | _ => none

/-- Two fields or more with a character between each two. -/
def joined (separator : Char) (fields : List (NumericField × Padding)) : List DirectiveItem :=
  (fields.map fun (field, padding) => DirectiveItem.number field padding).intersperse (.literal separator)

/-- The parts of `%F`: year, month and day. -/
def isoDate : List DirectiveItem :=
  joined '-' [(.year, .zeros), (.month, .zeros), (.day, .zeros)]

/-- The parts of `%D`: month, day and year without its century. -/
def slashedDate : List DirectiveItem :=
  joined '/' [(.month, .zeros), (.day, .zeros), (.yearOfCentury, .zeros)]

/-- The parts of `%T`: hour, minute and second. -/
def clockTime : List DirectiveItem :=
  joined ':' [(.hour, .zeros), (.minute, .zeros), (.second, .zeros)]

def letterItems? (letter : Char) : Option (List DirectiveItem) :=
  match letter with
  | 'D' | 'x' => some slashedDate
  | 'F' => some isoDate
  | 'T' | 'X' => some clockTime
  | 'R' => some (joined ':' [(.hour, .zeros), (.minute, .zeros)])
  | 'r' =>
    some (joined ':' [(.hour12, .zeros), (.minute, .zeros), (.second, .zeros)] ++
      [.literal ' ', .textual .halfDayUpper])
  | 'c' =>
    some ([.textual .weekdayAbbreviation, .literal ' ', .textual .monthAbbreviation, .literal ' ', .number .day .blanks,
      .literal ' '] ++ clockTime ++ [.literal ' ', .number .year .zeros])
  | 'v' =>
    some [.number .day .blanks, .literal '-', .textual .monthAbbreviation, .literal '-', .number .year .zeros]
  | '+' => some (isoDate ++ .literal 'T' :: clockTime ++ [.textual .fraction, .textual (.offset true)])
  | 'B' => some [.textual .monthName]
  | 'b' | 'h' => some [.textual .monthAbbreviation]
  | 'A' => some [.textual .weekdayName]
  | 'a' => some [.textual .weekdayAbbreviation]
  | 'p' => some [.textual .halfDayUpper]
  | 'P' => some [.textual .halfDayLower]
  | 'z' => some [.textual (.offset false)]
  | 'Z' => some [.textual .zone]
  | 'n' => some [.literal '\n']
  | 't' => some [.literal '\t']
  | '%' => some [.literal '%']
  | _ => (numericField? letter).map fun (field, padding) => [.number field padding]

/-- The number of digits that a digit in front of `f` asks for. -/
def fractionCount? : Char → Option Nat
  | '3' => some 3
  | '6' => some 6
  | '9' => some 9
  | _ => none

/-- Reads a directive behind its percent sign: its parts and what is left. -/
def readDirective? : List Char → Option (List DirectiveItem × List Char)
  | ':' :: 'z' :: rest => some ([.textual (.offset true)], rest)
  | ':' :: ':' :: 'z' :: rest => some ([.textual .offsetSeconds], rest)
  | ':' :: ':' :: ':' :: 'z' :: rest => some ([.textual .offsetHours], rest)
  | '.' :: 'f' :: rest => some ([.textual .fraction], rest)
  | '.' :: digit :: 'f' :: rest => (fractionCount? digit).map fun n => ([.textual (.fractionDigits n true)], rest)
  | c :: rest =>
    -- A flag goes with numeric fields alone, and a count of digits only with a fraction.
    match fractionCount? c, paddingFlag? c, rest with
    | some n, _, 'f' :: rest => some ([.textual (.fractionDigits n false)], rest)
    | none, some padding, letter :: rest =>
      (numericField? letter).map fun (field, _) => ([.number field padding], rest)
    | none, none, rest => (letterItems? c).map (·, rest)
    | _, _, _ => none
  | [] => none

theorem rest_of_some {found items : List DirectiveItem} {after rest : List Char}
    (h : some (found, after) = some (items, rest)) : after = rest := by
  cases h
  rfl

theorem rest_of_map {α : Type} {x : Option α} {f : α → List DirectiveItem} {items : List DirectiveItem}
    {after rest : List Char} (h : x.map (fun a => (f a, after)) = some (items, rest)) : after = rest := by
  obtain ⟨a, _, same⟩ := Option.map_eq_some_iff.1 h
  cases same
  rfl

theorem readDirective?_length {cs rest : List Char} {items : List DirectiveItem}
    (h : readDirective? cs = some (items, rest)) : rest.length < cs.length := by
  unfold readDirective? at h
  split at h
  case h_1 | h_2 | h_3 | h_4 =>
    obtain rfl := rest_of_some h
    simp only [List.length_cons]
    omega
  case h_5 =>
    obtain rfl := rest_of_map h
    simp only [List.length_cons]
    omega
  case h_6 =>
    split at h
    case h_1 =>
      obtain rfl := rest_of_some h
      simp only [List.length_cons]
      omega
    case h_2 | h_3 =>
      obtain rfl := rest_of_map h
      simp only [List.length_cons]
      omega
    case h_4 => cases h
  case h_7 => cases h

/-- The parts of a pattern, if every directive in it is known. -/
def readDirectives? (pattern : List Char) : Option (List DirectiveItem) :=
  match pattern with
  | [] => some []
  | '%' :: rest =>
    match h : readDirective? rest with
    | some (items, after) =>
      have := readDirective?_length h
      (readDirectives? after).map (items ++ ·)
    | none => none
  | c :: rest => (readDirectives? rest).map (.literal c :: ·)
termination_by pattern.length

/-! ## Writing -/

/-- A number in two places. It is taken as a byte, and its tens are one character even beyond nine. -/
def twoPlaces (z : Int) (padding : Padding) : List Char :=
  let byte := (z % 256).toNat
  let ones := Char.ofNat ('0'.toNat + byte % 10)
  match byte / 10, padding with
  | 0, .bare => [ones]
  | 0, .blanks => [' ', ones]
  | tens, _ => [Char.ofNat ('0'.toNat + tens), ones]

/-- A number in at least `width` places, in which its sign is counted. -/
def manyPlaces (width : Nat) (z : Int) (padding : Padding) : List Char :=
  match padding with
  | .bare => Text.signedDigits z
  | .zeros => Text.signedPadded width z
  | .blanks => (Text.signedDigits z).leftpad width ' '

/-- A year in at least four places, with a sign in front of them if it is negative or has more than four digits. -/
def yearPlaces (year : Int) (padding : Padding) : List Char :=
  if 0 ≤ year ∧ year ≤ 9999 then manyPlaces 4 year padding
  else
    let sign := if year < 0 then '-' else '+'
    let digits := Text.digits year.natAbs
    match padding with
    | .bare => sign :: digits
    | .zeros => sign :: digits.leftpad 4 '0'
    | .blanks => (sign :: digits).leftpad 5 ' '

def NumericField.text (t : DateTime) (padding : Padding) : NumericField → List Char
  | .year => yearPlaces t.date.year padding
  | .century => twoPlaces (t.date.year / 100) padding
  | .yearOfCentury => twoPlaces (t.date.year % 100) padding
  | .quarter => Text.digits t.date.quarter
  | .month => twoPlaces t.date.month padding
  | .day => twoPlaces t.date.day padding
  | .ordinal => manyPlaces 3 t.date.ordinal padding
  | .hour => twoPlaces t.time.hour padding
  | .hour12 => twoPlaces t.time.hour12 padding
  | .minute => twoPlaces t.time.minute padding
  | .second => twoPlaces t.time.secondCounted padding
  | .nanosecond => manyPlaces 9 t.time.fraction padding
  | .weekFromSunday => twoPlaces t.date.weekFromSunday padding
  | .weekFromMonday => twoPlaces t.date.weekFromMonday padding
  | .isoYear => yearPlaces t.date.isoWeek.1 padding
  | .isoYearOfCentury => twoPlaces (t.date.isoWeek.1 % 100) padding
  | .isoWeek => twoPlaces t.date.isoWeek.2 padding
  | .weekdayFromMonday => Text.digits (t.date.daysFromMonday + 1)
  | .weekdayFromSunday => Text.digits t.date.daysFromSunday
  | .timestamp => manyPlaces 9 t.epochSeconds padding

/-- A point and the digits of a second's fraction in threes, without the threes at its end that are zeros. -/
def fractionInThrees (nanoseconds : Nat) : List Char :=
  if nanoseconds = 0 then []
  else if nanoseconds % 1000000 = 0 then '.' :: Text.zeroPadded 3 (nanoseconds / 1000000)
  else if nanoseconds % 1000 = 0 then '.' :: Text.zeroPadded 6 (nanoseconds / 1000)
  else '.' :: Text.zeroPadded 9 nanoseconds

def TextField.text (t : DateTime) : TextField → List Char
  | .monthName => (Format.monthName t.date.month).toList
  | .monthAbbreviation => abbreviated (Format.monthName t.date.month)
  | .weekdayName => (Format.weekdayName t.date.daysFromMonday).toList
  | .weekdayAbbreviation => abbreviated (Format.weekdayName t.date.daysFromMonday)
  | .halfDayUpper => if t.time.isAfternoon then ['P', 'M'] else ['A', 'M']
  | .halfDayLower => if t.time.isAfternoon then ['p', 'm'] else ['a', 'm']
  | .fraction => fractionInThrees t.time.fraction
  | .fractionDigits count point =>
    (if point then ['.'] else []) ++ Text.zeroPadded count (t.time.fraction / Nat.pow 10 (9 - count))
  | .offset colon => offsetText t.offset colon
  | .offsetSeconds => offsetTextSeconds t.offset
  | .offsetHours => offsetTextHours t.offset
  | .zone => offsetTextExact t.offset

def DirectiveItem.text (t : DateTime) : DirectiveItem → List Char
  | .literal c => [c]
  | .number field padding => field.text t padding
  | .textual field => field.text t

def directives (t : DateTime) (pattern : String) : Except FormatError (List Char) :=
  match readDirectives? pattern.toList with
  | some items => .ok (items.flatMap (DirectiveItem.text t))
  | none => .error (.unknownDirective pattern)

end ItemExpr.Format
