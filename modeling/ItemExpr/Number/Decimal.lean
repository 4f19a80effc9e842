import ItemExpr.Text.Digits

/-!
# Decimals

An exact decimal is an integer and the number of its digits that stand behind the point, so that `1.50` and `1.5` are
the same number and different decimals. This module reads and writes decimals and rounds them; rounding takes a half
away from zero.
-/

namespace ItemExpr

/-- The number `unscaled / 10 ^ places`, written with `places` digits behind the point. -/
structure Decimal where
  unscaled : Int
  places : Nat
deriving DecidableEq, Repr

namespace Decimal

/-! ## Reading -/

/-- Reads a decimal without a sign: digits, digits and a point and digits, or a point and digits. -/
def magnitude? (body : List Char) : Option Decimal :=
  let whole := body.takeWhile (· != '.')
  match body.dropWhile (· != '.') with
  | [] => (Text.readDigits? whole).map fun n => ⟨n, 0⟩
  | _ :: fraction =>
    if fraction.isEmpty then none else (Text.readDigits? (whole ++ fraction)).map fun n => ⟨n, fraction.length⟩

def negate (d : Decimal) : Decimal :=
  ⟨-d.unscaled, d.places⟩

/-- Reads a decimal: one sign or none, and then a decimal without a sign. -/
def parse? : List Char → Option Decimal
  | '-' :: body => (magnitude? body).map negate
  | '+' :: body => magnitude? body
  | body => magnitude? body

def ofInt (z : Int) : Decimal :=
  ⟨z, 0⟩

/-! ## Writing -/

def sign (d : Decimal) : List Char :=
  if d.unscaled < 0 then ['-'] else []

def whole (d : Decimal) : List Char :=
  Text.digits (d.unscaled.natAbs / Nat.pow 10 d.places)

def fraction (d : Decimal) : List Char :=
  if d.places = 0 then [] else Text.zeroPadded d.places (d.unscaled.natAbs % Nat.pow 10 d.places)

/-- Digits behind a point, or nothing if there are none. -/
def pointed (fraction : List Char) : List Char :=
  if fraction.isEmpty then [] else '.' :: fraction

/-- Commas in front of every third digit, in digits that are given from the right. -/
def groupFromRight : List Char → List Char
  | a :: b :: c :: d :: rest => a :: b :: c :: ',' :: groupFromRight (d :: rest)
  | digits => digits

/-- Digits in groups of three from the right. -/
def grouped (digits : List Char) : List Char :=
  (groupFromRight digits.reverse).reverse

def plain (d : Decimal) : List Char :=
  d.sign ++ d.whole ++ pointed d.fraction

def plainGrouped (d : Decimal) : List Char :=
  d.sign ++ grouped d.whole ++ pointed d.fraction

/-! ## Arithmetic -/

def abs (d : Decimal) : Decimal :=
  ⟨d.unscaled.natAbs, d.places⟩

/-- The integer nearest to `z / m`; of two equally near ones that farther from zero. -/
def roundQuotient (z : Int) (m : Nat) : Int :=
  z.sign * ((2 * z.natAbs + m) / (2 * m) : Nat)

/-- The decimal with the given number of places that is nearest, a half taken away from zero. -/
def round (d : Decimal) (places : Nat) : Decimal :=
  if d.places ≤ places then ⟨d.unscaled * Nat.pow 10 (places - d.places), places⟩
  else ⟨roundQuotient d.unscaled (Nat.pow 10 (d.places - places)), places⟩

def percent (d : Decimal) : Decimal :=
  if 2 ≤ d.places then ⟨d.unscaled, d.places - 2⟩ else ⟨d.unscaled * Nat.pow 10 (2 - d.places), 0⟩

theorem round_places (d : Decimal) (places : Nat) : (d.round places).places = places := by
  unfold round
  split <;> rfl

end Decimal

end ItemExpr
