import ItemExpr.Number.Decimal

/-!
# Binary floating point

A binary floating point number of 64 bits is kept as its bits. Its text is the shortest decimal that rounds to it,
always written without an exponent.

Every finite number is a multiple of `2 ^ -1074`, and so are four times the ends of the interval of reals that round to
it. Scaled by `10 ^ 1076` the number and the ends are therefore natural numbers, and the search for the shortest decimal
is exact: it goes through the decimal grids from the coarsest one and stops at the first that has a point in the
interval. If a grid has one, then one of the number's two neighbours on the grid is one.
-/

namespace ItemExpr

structure Binary64 where
  bits : UInt64
deriving DecidableEq, Repr

namespace Binary64

def negative (x : Binary64) : Bool :=
  x.bits >>> 63 == 1

def exponentField (x : Binary64) : Nat :=
  (x.bits >>> 52 &&& 0x7FF).toNat

def fractionField (x : Binary64) : Nat :=
  (x.bits &&& 0xFFFFFFFFFFFFF).toNat

def isFinite (x : Binary64) : Bool :=
  x.exponentField != 0x7FF

/-- The integer `m` of a finite number `m * 2 ^ (shift - 1074)`. -/
def mantissa (x : Binary64) : Nat :=
  if x.exponentField = 0 then x.fractionField else x.fractionField + 1 <<< 52

/-- The power of two that a finite number's integer is scaled by, counted from `2 ^ -1074`. -/
def shift (x : Binary64) : Nat :=
  x.exponentField - 1

/-! ## The shortest decimal -/

/-- The decimal exponent of the scale on which numbers and interval ends are natural. -/
def scaleDigits : Nat := 1076

/-- A quarter of the last binary digit of a number, scaled. -/
def quarterUnit (x : Binary64) : Nat :=
  Nat.pow 2 x.shift * Nat.pow 5 scaleDigits

/-- The absolute value of a finite number, scaled. -/
def scaled (x : Binary64) : Nat :=
  4 * x.mantissa * x.quarterUnit

/-- The upper end of the interval of reals that round to a number, scaled. -/
def upper (x : Binary64) : Nat :=
  (4 * x.mantissa + 2) * x.quarterUnit

/-- The lower end, which is nearer where the numbers below lie closer together. -/
def lower (x : Binary64) : Nat :=
  if x.fractionField = 0 ∧ 1 < x.exponentField then (4 * x.mantissa - 1) * x.quarterUnit
  else (4 * x.mantissa - 2) * x.quarterUnit

/-- Whether a scaled number lies in the interval, which holds its ends if the number's integer is even. -/
def within (x : Binary64) (n : Nat) : Bool :=
  if x.mantissa % 2 = 0 then x.lower ≤ n && n ≤ x.upper else x.lower < n && n < x.upper

/-- The point of the grid of `10 ^ j` that lies in the interval nearest to the number, in units of the grid; of two
equally near ones the upper. -/
def nearestOnGrid? (x : Binary64) (j : Nat) : Option Nat :=
  let step := Nat.pow 10 j
  let down := x.scaled / step
  let up := down + 1
  match x.within (down * step), x.within (up * step) with
  | true, true => some (if x.scaled - down * step < up * step - x.scaled then down else up)
  | true, false => some down
  | false, true => some up
  | false, false => none

/-- The natural number `n`, scaled down from units of the grid of `10 ^ j`. -/
def unscaledDecimal (n j : Nat) : Decimal :=
  if scaleDigits ≤ j then ⟨n * Nat.pow 10 (j - scaleDigits), 0⟩ else ⟨n, scaleDigits - j⟩

/-- The absolute value of a finite number as its shortest decimal. -/
def shortestMagnitude (x : Binary64) : Decimal :=
  let top := (Text.digits x.scaled).length
  -- The coarsest grid is one on which the number itself is below the first point.
  let found := (List.range (top + 1)).findSome? fun i =>
    (x.nearestOnGrid? (top - i)).map fun n => unscaledDecimal n (top - i)
  found.getD ⟨0, 0⟩

/-- The shortest decimal that rounds to a finite number. Both zeros are the decimal zero. -/
def toDecimal (x : Binary64) : Decimal :=
  if x.mantissa = 0 then ⟨0, 0⟩
  else if x.negative then x.shortestMagnitude.negate else x.shortestMagnitude

/-- The text of a number: its shortest decimal with a sign that negative zero has too, and names for what is not
finite. -/
def text (x : Binary64) : List Char :=
  if x.isFinite then (if x.negative then ['-'] else []) ++ x.toDecimal.abs.plain
  else if x.fractionField ≠ 0 then ['N', 'a', 'N']
  else if x.negative then ['-', 'i', 'n', 'f'] else ['i', 'n', 'f']

/-! ## Narrower numbers -/

/-- The number of 64 bits that equals a number of 32 bits. A number below the normal range of the narrow format is
normal in the wide one; a value that is not a number keeps its payload and becomes quiet. -/
def ofBinary32 (narrow : UInt32) : Binary64 :=
  let sign := (narrow >>> 31).toNat <<< 63
  let exponent := (narrow >>> 23 &&& 0xFF).toNat
  let fraction := (narrow &&& 0x7FFFFF).toNat
  let magnitude :=
    if exponent = 0xFF then
      0x7FF <<< 52 + (if fraction = 0 then 0 else 1 <<< 51 + (fraction % 0x400000) <<< 29)
    else if exponent = 0 then
      if fraction = 0 then 0
      else
        let width := Nat.log2 fraction
        (width + 874) <<< 52 + (fraction <<< (52 - width) - 1 <<< 52)
    else (exponent + 896) <<< 52 + fraction <<< 29
  ⟨UInt64.ofNat (sign + magnitude)⟩

end Binary64

end ItemExpr
