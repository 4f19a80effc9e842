import ItemExpr.Proofs.Condition.Grammar

/-!
# The grammar of updates

Reading the value that an update sets from its text, as an item store does. Sums and differences have one precedence and
group to the left; the arguments of a function are divided by commas and closed by a parenthesis; parentheses group.
-/

namespace ItemExpr

namespace Grammar

/-- The sum or difference that a lexeme stands for. -/
def additive? : Lexeme → Option (TokenValue → TokenValue → TokenValue)
  | .symbol '+' => some .add
  | .symbol '-' => some .subtract
  | _ => none

mutual

/-- A chain of sums and differences. `before` puts what has been read of the chain in front of the next part of it. -/
def sum (before : TokenValue → TokenValue) (text : List Lexeme) : Option (TokenValue × List Lexeme) :=
  match summand text with
  | some (part, sign :: rest) =>
    match additive? sign with
    | some join => if rest.length < text.length then sum (join (before part)) rest else none
    | none => some (before part, sign :: rest)
  | some (part, []) => some (before part, [])
  | none => none
termination_by (text.length, 1)

/-- A part of a chain: a function, an operand, or anything in parentheses. -/
def summand (text : List Lexeme) : Option (TokenValue × List Lexeme) :=
  match text with
  | .word "if_not_exists" :: .symbol '(' :: inside =>
    match path inside with
    | some (tested, .symbol ',' :: behind) =>
      if behind.length < inside.length then do
        let (fallback, rest) ← sum id behind
        let rest ← expect (.symbol ')') rest
        return (.ifNotExists tested fallback, rest)
      else none
    | _ => none
  | .word "list_append" :: .symbol '(' :: inside =>
    match sum id inside with
    | some (first, .symbol ',' :: behind) =>
      if behind.length < inside.length then do
        let (second, rest) ← sum id behind
        let rest ← expect (.symbol ')') rest
        return (.listAppend first second, rest)
      else none
    | _ => none
  | .symbol '(' :: inside => do
    let (value, rest) ← sum id inside
    let rest ← expect (.symbol ')') rest
    return (value, rest)
  | text => (operand text).map fun (leaf, rest) => (.operand leaf, rest)
termination_by (text.length, 0)

end

end Grammar

/-- Reads a whole text as a path, `=`, and the value that is set there. -/
def TokenUpdate.readSet? (text : String) : Option (TokenPath × TokenValue) :=
  match Grammar.path (lexemes text.toList) with
  | some (target, .comparison .eq :: rest) =>
    match Grammar.sum id rest with
    | some (value, []) => some (target, value)
    | _ => none
  | _ => none

end ItemExpr
