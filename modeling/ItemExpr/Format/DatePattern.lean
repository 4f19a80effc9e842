import ItemExpr.Format.Calendar
import ItemExpr.Format.Error
import ItemExpr.Text.Split

/-!
# Date patterns

A date pattern is a text in which runs of a letter stand for a field of a date, such as `yyyy-MM-dd HH:mm:ss.fff`. A
part between two quotes, or a character behind a backslash, stands for itself, and so does any other character.

A pattern is first cut into tokens. Cutting fails at a quote without an end and at a run of more than seven `f`; each
token then has a text for every instant.
-/

namespace ItemExpr.Format

inductive PatternToken where
  /-- Characters that stand for themselves. -/
  | literal (text : List Char)
  /-- A run of one character, which may stand for a field. -/
  | run (c : Char) (length : Nat)
deriving DecidableEq, Repr

inductive PatternFault where
  | unterminatedQuote
  | tooManyFractionDigits
deriving DecidableEq, Repr

def isQuote (c : Char) : Bool :=
  c == '\'' || c == '"'

/-- Cuts a pattern into tokens. A backslash at its end stands for nothing. -/
def scanPattern (pattern : List Char) : Except PatternFault (List PatternToken) :=
  match pattern with
  | [] => .ok []
  | c :: rest =>
    if isQuote c then
      match found : rest.dropWhile (· != c) with
      | [] => .error .unterminatedQuote
      | _ :: after =>
        have := Text.length_lt_of_dropWhile_eq found
        (scanPattern after).map (.literal (rest.takeWhile (· != c)) :: ·)
    else if c = '\\' then
      match rest with
      | [] => .ok []
      | escaped :: after => (scanPattern after).map (.literal [escaped] :: ·)
    else
      let length := (rest.takeWhile (· == c)).length + 1
      -- Only fractions are limited; other letters may be repeated at will.
      if c = 'f' ∧ 7 < length then .error .tooManyFractionDigits
      else
        have := @Text.length_dropWhile_le (· == c) rest
        (scanPattern (rest.dropWhile (· == c))).map (.run c length :: ·)
termination_by pattern.length
decreasing_by
  · exact Nat.lt_succ_of_lt this
  · exact Nat.lt_succ_of_lt (Nat.lt_succ_self _)
  · exact Nat.lt_succ_of_le this

/-- A number in one digit at least for a run of one, and in two for a longer run. -/
def oneOrTwo (length n : Nat) : List Char :=
  if length = 1 then Text.digits n else Text.zeroPadded 2 n

/-- A name in full for a run of four or more, in three letters for one of three, and a number for a shorter run. -/
def nameOrNumber (length n : Nat) (name : String) : List Char :=
  match length with
  | 1 | 2 => oneOrTwo length n
  | 3 => abbreviated name
  | _ => name.toList

/-- The year in a run: without its centuries for a run of one or two, where it keeps its sign, and in as many places as
the run has for a longer one. -/
def patternYear (length : Nat) (year : Int) : List Char :=
  match length with
  | 1 => Text.signedDigits (year.tmod 100)
  | 2 => Text.signedPadded 2 (year.tmod 100)
  | _ => Text.signedPadded length year

/-- The mark of the half of the day, of which a run of one shows the first letter. -/
def patternHalfDay (length : Nat) (afternoon : Bool) : List Char :=
  let mark := if afternoon then 'P' else 'A'
  if length = 1 then [mark] else [mark, 'M']

/-- The offset in a run: its hours for a run of one or two, and with minutes for a longer one. -/
def patternOffset (length : Nat) (offset : Int) : List Char :=
  match length with
  | 1 | 2 => offsetSign offset :: oneOrTwo length (offset.natAbs / 3600)
  | _ => offsetText offset true

def runText (t : DateTime) (c : Char) (length : Nat) : List Char :=
  match c with
  | 'y' => patternYear length t.date.year
  | 'M' => nameOrNumber length t.date.month (monthName t.date.month)
  | 'd' => nameOrNumber length t.date.day (weekdayName t.date.daysFromMonday)
  | 'H' => oneOrTwo length t.time.hour
  | 'h' => oneOrTwo length t.time.hour12
  | 'm' => oneOrTwo length t.time.minute
  | 's' => oneOrTwo length t.time.second
  | 'f' => Text.zeroPadded length (t.time.fraction / Nat.pow 10 (9 - length))
  | 't' => patternHalfDay length t.time.isAfternoon
  | 'z' => patternOffset length t.offset
  | 'K' => (List.replicate length (offsetTextZulu t.offset)).flatten
  | _ => List.replicate length c

def PatternToken.text (t : DateTime) : PatternToken → List Char
  | .literal text => text
  | .run c length => runText t c length

def PatternFault.toError (pattern : String) : PatternFault → FormatError
  | .unterminatedQuote => .unterminatedQuote pattern
  | .tooManyFractionDigits => .tooManyFractionDigits pattern

def datePattern (t : DateTime) (pattern : String) : Except FormatError (List Char) :=
  match scanPattern pattern.toList with
  | .ok tokens => .ok (tokens.flatMap (PatternToken.text t))
  | .error fault => .error (fault.toError pattern)

end ItemExpr.Format
