import ItemExpr.Format.Error
import ItemExpr.Value

/-!
# Numeric formats

A numeric specifier is a letter with an optional precision, or a pattern of digit places. Both work on the exact decimal
of a number, except that hexadecimal digits show the bits of a machine integer.

* `F` fixed places, `N` with grouped digits, `C` grouped behind a currency sign, `P` grouped percent, all with
  two places unless the precision says otherwise;
* `E` scientific, with six places behind the first digit unless the precision says otherwise;
* `D` an integer in at least so many digits, `X` its bits in hexadecimal digits.
-/

namespace ItemExpr

/-- The exact decimal of a number. A float stands for its shortest decimal. -/
def Number.toDecimal : Number → Except FormatError Decimal
  | .int n => .ok (.ofInt n.toInt)
  | .uint n => .ok (.ofInt n.toNat)
  | .float x => if x.isFinite then .ok x.toDecimal else .error (.notFinite x)
  | .decimal text =>
    match Decimal.parse? text.toList with
    | some d => .ok d
    | none => .error (.notDecimal text)

namespace Format

/-! ## Letters -/

/-- A decimal with a currency sign between its sign and its grouped digits. -/
def currency (d : Decimal) : List Char :=
  d.sign ++ '¤' :: d.abs.plainGrouped

/-- A letter, a sign and at least three digits for a decimal exponent. -/
def exponentText (letter : Char) (exponent : Int) : List Char :=
  letter :: (if exponent < 0 then '-' else '+') :: Text.zeroPadded 3 exponent.natAbs

/-- A decimal as one digit, `places` digits behind the point, and the power of ten that scales them. Rounding may carry
into a second digit before the point, which moves the point once more. -/
def scientific (d : Decimal) (places : Nat) (letter : Char) : List Char :=
  let count := (Text.digits d.unscaled.natAbs).length
  -- The point goes behind the first digit, wherever it was before.
  let mantissa := (Decimal.mk d.unscaled (count - 1)).round places
  let exponent : Int := if d.unscaled = 0 then 0 else (count : Int) - 1 - d.places
  if mantissa.whole.length = 1 then mantissa.plain ++ exponentText letter exponent
  else (Decimal.mk (d.unscaled.sign * Nat.pow 10 places) places).plain ++ exponentText letter (exponent + 1)

def integerBits? : Number → Option Nat
  | .int n => some n.toUInt64.toNat
  | .uint n => some n.toNat
  | _ => none

/-- Hexadecimal digits in at least `width` places, in the given case. -/
def hexadecimal (bits width : Nat) (upper : Bool) : List Char :=
  let digits := (Nat.toDigits 16 bits).leftpad width '0'
  if upper then digits.map Char.toUpper else digits

/-- The letters of the standard formats. A precision may be any machine word, and digits are filled up to as many places
as `D` or `X` are given; a formatter that keeps widths in 16 bits refuses more than 65535. -/
def byLetter (n : Number) (d : Decimal) (spec : String) (letter : Char) (precision : Option Nat) :
    Except FormatError (List Char) :=
  match letter.toUpper with
  | 'F' => .ok (d.round (precision.getD 2)).plain
  | 'N' => .ok (d.round (precision.getD 2)).plainGrouped
  | 'C' => .ok (currency (d.round (precision.getD 2)))
  | 'P' => .ok ((d.percent.round (precision.getD 2)).plainGrouped ++ [' ', '%'])
  | 'E' => .ok (scientific d (precision.getD 6) (if letter.isUpper then 'E' else 'e'))
  | 'D' =>
    match integerBits? n with
    | some _ => .ok (d.sign ++ d.whole.leftpad (precision.getD 0) '0')
    | none => .error (.integerRequired spec n.kind)
  | 'X' =>
    match integerBits? n with
    | some bits => .ok (hexadecimal bits (precision.getD 0) letter.isUpper)
    | none => .error (.integerRequired spec n.kind)
  | _ => .error (.unknownNumberFormat spec)

/-! ## Digit patterns -/

/-- A pattern of digit places: the fewest digits before the point, the fewest and the most behind it, and whether the
digits before it are grouped. -/
structure DigitPattern where
  minWhole : Nat
  minFraction : Nat
  maxFraction : Nat
  groups : Bool
deriving DecidableEq, Repr

/-- Reads a pattern of `0` for a place that is always filled, `#` for one that may be left out, commas, and at most one
point. There must be a place. -/
def DigitPattern.parse? (pattern : List Char) : Option DigitPattern :=
  let whole := pattern.takeWhile (· != '.')
  let fraction := (pattern.dropWhile (· != '.')).drop 1
  let isPlace := fun c => c == '0' || c == '#'
  if pattern.all (fun c => isPlace c || c == ',' || c == '.') && pattern.count '.' ≤ 1 && pattern.any isPlace then
    some
      { minWhole := whole.count '0'
        minFraction := fraction.count '0'
        maxFraction := fraction.countP isPlace
        groups := whole.contains ',' }
  else none

/-- Digits behind the point without the zeros at their end, of which the first `fewest` digits stay. -/
def trimFraction (fewest : Nat) (fraction : List Char) : List Char :=
  fraction.take fewest ++ ((fraction.drop fewest).reverse.dropWhile (· == '0')).reverse

/-- The digits before the point in at least `fewest` places; a lone zero may be left out if none are required. -/
def fillWhole (fewest : Nat) (whole : List Char) : List Char :=
  if whole = ['0'] ∧ fewest = 0 then [] else whole.leftpad fewest '0'

/-- Formats a decimal by a pattern. A pattern that leaves no digit shows a zero. Digits are filled up to any number of
places; a formatter that keeps widths in 16 bits refuses more than 65535. -/
def DigitPattern.apply (pattern : DigitPattern) (d : Decimal) : List Char :=
  let rounded := d.round pattern.maxFraction
  let fraction := trimFraction pattern.minFraction rounded.fraction
  let filled := fillWhole pattern.minWhole rounded.whole
  let whole := if pattern.groups then Decimal.grouped filled else filled
  let shown := if whole.isEmpty && fraction.isEmpty then ['0'] else whole
  rounded.sign ++ shown ++ Decimal.pointed fraction

/-! ## Specifiers -/

/-- The precision that some digits give. No digits, or a number beyond the machine words, give none. -/
def precision? (digits : List Char) : Option Nat :=
  Text.readWord? digits

/-- Formats a number by a specifier. A letter is only looked at once the number has a decimal, a pattern before. -/
def number (n : Number) (spec : String) : Except FormatError (List Char) :=
  let chars := spec.toList
  let byPattern : Except FormatError (List Char) := do
    match DigitPattern.parse? chars with
    | some pattern => return pattern.apply (← n.toDecimal)
    | none => throw (.unknownNumberFormat spec)
  match chars with
  | letter :: rest =>
    if letter.isAlpha && rest.all Char.isDigit then do
      let d ← n.toDecimal
      byLetter n d spec letter (precision? rest)
    else byPattern
  | [] => byPattern

end Format

end ItemExpr
