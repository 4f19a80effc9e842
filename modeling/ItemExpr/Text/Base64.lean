/-!
# Bytes and texts

A text is stored as the bytes of its encoding. Bytes are shown in Base64: as a text over the standard alphabet, in
groups of four characters. Writing always pads the last group with `=`; reading is strict, so that each byte string has
exactly one text: a missing pad, a bit set in the part of the last character that stands for no byte, and any character
outside the alphabet are refused.
-/

namespace ItemExpr

abbrev Bytes := List UInt8

def Bytes.ofText (text : String) : Bytes :=
  text.toUTF8.toList

namespace Text.Base64

def encodeSextet (n : Nat) : Char :=
  if n < 26 then Char.ofNat ('A'.toNat + n)
  else if n < 52 then Char.ofNat ('a'.toNat + (n - 26))
  else if n < 62 then Char.ofNat ('0'.toNat + (n - 52))
  else if n = 62 then '+' else '/'

def decodeSextet? (c : Char) : Option Nat :=
  if 'A' ≤ c ∧ c ≤ 'Z' then some (c.toNat - 'A'.toNat)
  else if 'a' ≤ c ∧ c ≤ 'z' then some (c.toNat - 'a'.toNat + 26)
  else if '0' ≤ c ∧ c ≤ '9' then some (c.toNat - '0'.toNat + 52)
  else if c = '+' then some 62
  else if c = '/' then some 63
  else none

/-- Three bytes become four characters; a last group of one or two bytes is padded. -/
def encode : Bytes → List Char
  | [] => []
  | [a] =>
    let n := a.toNat * 16
    [encodeSextet (n / 64), encodeSextet (n % 64), '=', '=']
  | [a, b] =>
    let n := (a.toNat * 256 + b.toNat) * 4
    [encodeSextet (n / 4096), encodeSextet (n / 64 % 64), encodeSextet (n % 64), '=']
  | a :: b :: c :: rest =>
    let n := (a.toNat * 256 + b.toNat) * 256 + c.toNat
    encodeSextet (n / 262144) :: encodeSextet (n / 4096 % 64) :: encodeSextet (n / 64 % 64) ::
      encodeSextet (n % 64) :: encode rest

/-- The byte of a padded group of two characters, if the four bits beyond it are zero. -/
def decodeOne? (p q : Char) : Option Bytes := do
  let a ← decodeSextet? p
  let b ← decodeSextet? q
  let n := a * 64 + b
  if n % 16 = 0 then some [UInt8.ofNat (n / 16)] else none

/-- The two bytes of a padded group of three characters, if the two bits beyond them are zero. -/
def decodeTwo? (p q r : Char) : Option Bytes := do
  let a ← decodeSextet? p
  let b ← decodeSextet? q
  let c ← decodeSextet? r
  let n := (a * 64 + b) * 64 + c
  if n % 4 = 0 then some [UInt8.ofNat (n / 1024), UInt8.ofNat (n / 4 % 256)] else none

def decodeThree? (p q r s : Char) : Option Bytes := do
  let a ← decodeSextet? p
  let b ← decodeSextet? q
  let c ← decodeSextet? r
  let d ← decodeSextet? s
  let n := ((a * 64 + b) * 64 + c) * 64 + d
  some [UInt8.ofNat (n / 65536), UInt8.ofNat (n / 256 % 256), UInt8.ofNat (n % 256)]

/-- Reads groups of four characters; a pad may only end the last one. -/
def decode? : List Char → Option Bytes
  | [] => some []
  | [p, q, '=', '='] => decodeOne? p q
  | [p, q, r, '='] => decodeTwo? p q r
  | p :: q :: r :: s :: rest => do
    let group ← decodeThree? p q r s
    let bytes ← decode? rest
    some (group ++ bytes)
  | _ => none

end Text.Base64

end ItemExpr
