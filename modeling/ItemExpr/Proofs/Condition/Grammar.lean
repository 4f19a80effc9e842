import ItemExpr.Proofs.Names
import ItemExpr.Text.Split
import ItemExpr.Token

/-!
# The grammar of condition texts

Reading a condition from its text, as an item store does. The text is cut into lexemes first. Among them comparisons,
`BETWEEN`, `IN` and functions bind tightest, then `NOT`, then `AND`, then `OR`, and parentheses group. A chain of one
operator groups to the right, which makes no difference to what it says.
-/

namespace ItemExpr

open NameTable (isTokenChar)

/-! ## Lexemes -/

/-- The smallest parts of a condition's text. -/
inductive Lexeme where
  | name (token : String)
  | value (token : String)
  | word (letters : String)
  | comparison (op : Comparison)
  | symbol (c : Char)
deriving DecidableEq, Repr

/-- The lexemes of a text. A run of letters, digits and underscores is one lexeme, and so is such a run with `#` or `:`
in front of it; blanks only divide. -/
def lexemes : List Char → List Lexeme
  | [] => []
  | ' ' :: rest => lexemes rest
  | '<' :: '>' :: rest => .comparison .ne :: lexemes rest
  | '<' :: '=' :: rest => .comparison .le :: lexemes rest
  | '>' :: '=' :: rest => .comparison .ge :: lexemes rest
  | '=' :: rest => .comparison .eq :: lexemes rest
  | '<' :: rest => .comparison .lt :: lexemes rest
  | '>' :: rest => .comparison .gt :: lexemes rest
  | '#' :: rest =>
    .name (String.ofList ('#' :: rest.takeWhile isTokenChar)) :: lexemes (rest.dropWhile isTokenChar)
  | ':' :: rest =>
    .value (String.ofList (':' :: rest.takeWhile isTokenChar)) :: lexemes (rest.dropWhile isTokenChar)
  | c :: rest =>
    if isTokenChar c then
      .word (String.ofList (c :: rest.takeWhile isTokenChar)) :: lexemes (rest.dropWhile isTokenChar)
    else .symbol c :: lexemes rest
termination_by text => text.length
decreasing_by
  all_goals simp only [List.length_cons]
  all_goals have := @Text.length_dropWhile_le isTokenChar rest
  all_goals omega

/-! ## Operands -/

namespace Grammar

/-- The steps of a path, as far as there are any. -/
def steps : List Lexeme → List TokenStep × List Lexeme
  | .symbol '.' :: .name token :: rest =>
    let (later, rest) := steps rest
    (.field token :: later, rest)
  | .symbol '[' :: .word digits :: .symbol ']' :: rest =>
    match Text.readDigits? digits.toList with
    | some position =>
      let (later, rest) := steps rest
      (.index position :: later, rest)
    | none => ([], .symbol '[' :: .word digits :: .symbol ']' :: rest)
  | rest => ([], rest)

def path : List Lexeme → Option (TokenPath × List Lexeme)
  | .name token :: rest =>
    let (tail, rest) := steps rest
    some (⟨token, tail⟩, rest)
  | _ => none

/-- What stands behind an expected lexeme. -/
def expect (lexeme : Lexeme) : List Lexeme → Option (List Lexeme)
  | [] => none
  | first :: rest => if first = lexeme then some rest else none

def operand : List Lexeme → Option (TokenOperand × List Lexeme)
  | .value token :: rest => some (.value token, rest)
  | .word "size" :: .symbol '(' :: rest => do
    let (target, rest) ← path rest
    let rest ← expect (.symbol ')') rest
    return (.size target, rest)
  | text => (path text).map fun (target, rest) => (.path target, rest)

/-- The candidates behind `IN (`, with the parenthesis that closes them. -/
def candidates (text : List Lexeme) : Option (List TokenOperand × List Lexeme) :=
  match operand text with
  | some (last, .symbol ')' :: rest) => some ([last], rest)
  | some (first, .symbol ',' :: rest) =>
    if rest.length < text.length then (candidates rest).map fun (later, rest) => (first :: later, rest) else none
  | _ => none
termination_by text.length

/-! ## Conditions -/

/-- A condition that starts with an operand. -/
def test (text : List Lexeme) : Option (TokenCondition × List Lexeme) := do
  let (subject, rest) ← operand text
  match rest with
  | .comparison op :: rest =>
    let (right, rest) ← operand rest
    return (.compare op subject right, rest)
  | .word "BETWEEN" :: rest =>
    let (low, rest) ← operand rest
    -- This `AND` is part of the statement, so that the level of conjunctions never sees it.
    let rest ← expect (.word "AND") rest
    let (high, rest) ← operand rest
    return (.between subject low high, rest)
  | .word "IN" :: .symbol '(' :: rest =>
    let (candidates, rest) ← candidates rest
    return (.isIn subject candidates, rest)
  | _ => none

/-- The two arguments of a function, with the parenthesis that closes them. -/
def arguments (text : List Lexeme) : Option (TokenPath × TokenOperand × List Lexeme) := do
  let (target, rest) ← path text
  let rest ← expect (.symbol ',') rest
  let (second, rest) ← operand rest
  let rest ← expect (.symbol ')') rest
  return (target, second, rest)

/-- The only argument of a function, with the parenthesis that closes it. -/
def argument (text : List Lexeme) : Option (TokenPath × List Lexeme) := do
  let (target, rest) ← path text
  let rest ← expect (.symbol ')') rest
  return (target, rest)

/-- A condition without `AND`, `OR`, `NOT` and parentheses of its own. -/
def statement : List Lexeme → Option (TokenCondition × List Lexeme)
  | .word "attribute_exists" :: .symbol '(' :: rest =>
    (argument rest).map fun (target, rest) => (.exists target, rest)
  | .word "attribute_not_exists" :: .symbol '(' :: rest =>
    (argument rest).map fun (target, rest) => (.notExists target, rest)
  | .word "attribute_type" :: .symbol '(' :: rest =>
    match arguments rest with
    | some (target, .value token, rest) => some (.hasType target token, rest)
    | _ => none
  | .word "begins_with" :: .symbol '(' :: rest =>
    (arguments rest).map fun (target, start, rest) => (.beginsWith target start, rest)
  | .word "contains" :: .symbol '(' :: rest =>
    (arguments rest).map fun (target, element, rest) => (.contains target element, rest)
  | text => test text

mutual

/-- Conditions joined with `OR`. -/
def disjunction (text : List Lexeme) : Option (TokenCondition × List Lexeme) :=
  match conjunction text with
  | some (left, .word "OR" :: rest) =>
    if rest.length < text.length then (disjunction rest).map fun (right, rest) => (.or left right, rest) else none
  | other => other
termination_by (text.length, 2)

/-- Conditions joined with `AND`. -/
def conjunction (text : List Lexeme) : Option (TokenCondition × List Lexeme) :=
  match negation text with
  | some (left, .word "AND" :: rest) =>
    if rest.length < text.length then (conjunction rest).map fun (right, rest) => (.and left right, rest) else none
  | other => other
termination_by (text.length, 1)

/-- A condition that may be negated or stand in parentheses. -/
def negation (text : List Lexeme) : Option (TokenCondition × List Lexeme) :=
  match text with
  | .word "NOT" :: rest => (negation rest).map fun (inner, rest) => (.not inner, rest)
  | .symbol '(' :: rest => do
    let (inner, rest) ← disjunction rest
    let rest ← expect (.symbol ')') rest
    return (inner, rest)
  | text => statement text
termination_by (text.length, 0)

end

end Grammar

/-- Reads a whole text as a condition. -/
def TokenCondition.read? (text : String) : Option TokenCondition :=
  match Grammar.disjunction (lexemes text.toList) with
  | some (condition, []) => some condition
  | _ => none

end ItemExpr
