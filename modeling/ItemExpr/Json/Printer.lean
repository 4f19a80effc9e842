import ItemExpr.Json

/-!
# Writing JSON

The compact form: no blanks, members in their order, and in a string only the quote, the backslash and the control
characters below U+0020 escaped.
-/

namespace ItemExpr.Json

def hexDigit (n : Nat) : Char :=
  Nat.digitChar n

def escapeChar (c : Char) : List Char :=
  match c with
  | '"' => ['\\', '"']
  | '\\' => ['\\', '\\']
  | '\x08' => ['\\', 'b']
  | '\x0c' => ['\\', 'f']
  | '\n' => ['\\', 'n']
  | '\r' => ['\\', 'r']
  | '\t' => ['\\', 't']
  | _ =>
    if c.toNat < 0x20 then ['\\', 'u', '0', '0', hexDigit (c.toNat / 16), hexDigit (c.toNat % 16)] else [c]

/-- A string literal. One that stands for no text is written as an escape that stands for none either. -/
def printString : Option String → List Char
  | some s => '"' :: s.toList.flatMap escapeChar ++ ['"']
  | none => ['"', '\\', 'u', 'd', '8', '0', '0', '"']

mutual

def printChars : Json → List Char
  | .null => ['n', 'u', 'l', 'l']
  | .bool true => ['t', 'r', 'u', 'e']
  | .bool false => ['f', 'a', 'l', 's', 'e']
  | .number lexeme => lexeme.toList
  | .string s => printString s
  | .array [] => ['[', ']']
  | .array (item :: rest) => '[' :: item.printChars ++ printItems rest
  | .object [] => ['\x7b', '\x7d']
  | .object ((key, value) :: rest) => '\x7b' :: printString key ++ ':' :: value.printChars ++ printMembers rest

/-- The items behind the first one, and the bracket. -/
def printItems : List Json → List Char
  | [] => [']']
  | item :: rest => ',' :: item.printChars ++ printItems rest

/-- The members behind the first one, and the brace. -/
def printMembers : List (Option String × Json) → List Char
  | [] => ['\x7d']
  | (key, value) :: rest => ',' :: printString key ++ ':' :: value.printChars ++ printMembers rest

end

def print (json : Json) : String :=
  String.ofList json.printChars

end ItemExpr.Json
