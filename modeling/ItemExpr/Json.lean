/-!
# JSON values

A JSON value keeps what its text says: the members of an object in their order and with their repetitions, and a number
as it is spelled. A string literal stands for a text, unless one of its escapes is half a surrogate pair and so stands
for no character; such a literal is grammatical, and only its reader may refuse it.
-/

namespace ItemExpr

/-- A JSON value. The text of a string literal or a member name is `none` if it holds half a surrogate pair. -/
inductive Json where
  | null
  | bool (b : Bool)
  | number (lexeme : String)
  | string (text : Option String)
  | array (items : List Json)
  | object (members : List (Option String × Json))
deriving Repr, BEq, Inhabited

namespace Json

def text (s : String) : Json :=
  .string (some s)

def ofMembers (members : List (String × Json)) : Json :=
  .object (members.map fun (key, value) => (some key, value))

/-- An integer, spelled in decimal digits. -/
def ofInt (z : Int) : Json :=
  .number (toString z)

mutual

/-- How many arrays and objects lie inside each other at the deepest place of a value. -/
def nesting : Json → Nat
  | .array items => nestingItems items + 1
  | .object members => nestingMembers members + 1
  | _ => 0

def nestingItems : List Json → Nat
  | [] => 0
  | item :: rest => max item.nesting (nestingItems rest)

def nestingMembers : List (Option String × Json) → Nat
  | [] => 0
  | (_, value) :: rest => max value.nesting (nestingMembers rest)

end

def text? : Json → Option String
  | .string s => s
  | _ => none

def bool? : Json → Option Bool
  | .bool b => some b
  | _ => none

def items? : Json → Option (List Json)
  | .array items => some items
  | _ => none

def members? : Json → Option (List (String × Json))
  | .object members => members.mapM fun (key, value) => key.map (·, value)
  | _ => none

end Json

end ItemExpr
