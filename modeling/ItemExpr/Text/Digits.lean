/-!
# Decimal digits

Numbers as runs of the digits `0` to `9`: writing a natural number, writing it in a field of fixed width, and reading
a run of digits back.
-/

namespace ItemExpr.Text

/-- The decimal digits of `n`, most significant first; zero is the single digit `0`. -/
def digits (n : Nat) : List Char :=
  Nat.toDigits 10 n

/-- The digits of `n`, with zeros in front of them until there are `width`. -/
def zeroPadded (width n : Nat) : List Char :=
  (digits n).leftpad width '0'

/-- An integer in a field of `width` places that its sign, if it has one, is counted in. -/
def signedPadded (width : Nat) (z : Int) : List Char :=
  if z < 0 then '-' :: zeroPadded (width - 1) z.natAbs else zeroPadded width z.natAbs

/-- The digits of an integer behind a minus sign if it is negative. -/
def signedDigits (z : Int) : List Char :=
  signedPadded 0 z

def digitsValue (cs : List Char) : Nat :=
  Nat.ofDigitChars 10 cs 0

def readDigits? (cs : List Char) : Option Nat :=
  if !cs.isEmpty && cs.all Char.isDigit then some (digitsValue cs) else none

/-- The first number that an unsigned machine word of 64 bits cannot hold. -/
def wordLimit : Nat := 0x10000000000000000

/-- Reads an unsigned machine word: an optional plus sign, then digits whose number is below the limit of words. -/
def readWord? (cs : List Char) : Option Nat :=
  let body := match cs with
    | '+' :: rest => rest
    | _ => cs
  (readDigits? body).filter (· < wordLimit)

theorem digitsValue_digits (n : Nat) : digitsValue (digits n) = n :=
  Nat.ofDigitChars_ten_toDigits

theorem digits_injective {m n : Nat} (h : digits m = digits n) : m = n := by
  rw [← digitsValue_digits m, h, digitsValue_digits]

theorem readDigits?_digits (n : Nat) : readDigits? (digits n) = some n := by
  have nonempty : digits n ≠ [] := Nat.toDigits_ne_nil
  have all : ∀ c ∈ digits n, c.isDigit = true := fun c member =>
    Nat.isDigit_of_mem_toDigits (by decide) (by decide) member
  simp [readDigits?, nonempty, digitsValue_digits]
  exact all

theorem toList_toString (n : Nat) : (toString (n : Int)).toList = digits n := by
  show (toString n).toList = digits n
  rw [Nat.toString_eq_ofList_toDigits, String.toList_ofList, digits]

end ItemExpr.Text
