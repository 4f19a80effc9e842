import ItemExpr.Proofs.Update.Lexing

/-!
# Tokens in texts

Which tokens occur in a text, whatever else it says: a token starts at each sigil, and goes on as far as there are
letters, digits and underscores. Texts that are put together have the tokens of their parts, if no part can be taken for
the end of a token. In the text of a condition or of an update these are the tokens among its lexemes.
-/

namespace ItemExpr

open NameTable (isTokenChar)

/-- The tokens in a text that start with a sigil. -/
def tokensIn (sigil : Char) : List Char → List String
  | [] => []
  | c :: rest =>
    if c = sigil then String.ofList (c :: rest.takeWhile isTokenChar) :: tokensIn sigil rest
    else tokensIn sigil rest

variable {sigil : Char} {first rest : List Char}

/-! ## Texts that are put together -/

theorem tokensIn_of_plain (plain : sigil ∉ first) : tokensIn sigil (first ++ rest) = tokensIn sigil rest := by
  induction first with
  | nil => rfl
  | cons c chars ih =>
    rw [List.mem_cons, not_or] at plain
    rw [List.cons_append, tokensIn, if_neg (Ne.symm plain.1), ih plain.2]

theorem takeWhile_append_of_ends (ends : Ends rest) :
    (first ++ rest).takeWhile isTokenChar = first.takeWhile isTokenChar := by
  induction first with
  | nil => exact ends
  | cons c chars ih => simp only [List.cons_append, List.takeWhile_cons, ih]

theorem tokensIn_append (ends : Ends rest) :
    tokensIn sigil (first ++ rest) = tokensIn sigil first ++ tokensIn sigil rest := by
  induction first with
  | nil => rfl
  | cons c chars ih =>
    rw [List.cons_append, tokensIn, tokensIn, takeWhile_append_of_ends ends, ih]
    split <;> rfl

/-- What may be a part of a token has no tokens of its own. -/
theorem tokensIn_dropWhile (noTokenChar : isTokenChar sigil = false) (text : List Char) :
    tokensIn sigil (text.dropWhile isTokenChar) = tokensIn sigil text := by
  have plain : sigil ∉ text.takeWhile isTokenChar := by
    intro member
    rw [List.all_eq_true.1 List.all_takeWhile sigil member] at noTokenChar
    cases noTokenChar
  have parts : tokensIn sigil (text.takeWhile isTokenChar ++ text.dropWhile isTokenChar) = _ := tokensIn_of_plain plain
  rw [List.takeWhile_append_dropWhile] at parts
  exact parts.symm

/-! ## The tokens among lexemes -/

/-- The token that a lexeme is, if it is one that starts with a sigil. -/
def Lexeme.token? (sigil : Char) : Lexeme → Option String
  | .name token => if sigil = '#' then some token else none
  | .value token => if sigil = ':' then some token else none
  | _ => none

namespace Lexeme

variable (token : String)

@[simp] theorem token?_name : (name token).token? '#' = some token := rfl

@[simp] theorem token?_name_of_value : (name token).token? ':' = none := rfl

@[simp] theorem token?_value : (value token).token? ':' = some token := rfl

@[simp] theorem token?_value_of_name : (value token).token? '#' = none := rfl

@[simp] theorem token?_word (letters : String) : (word letters).token? sigil = none := rfl

@[simp] theorem token?_comparison (op : Comparison) : (comparison op).token? sigil = none := rfl

@[simp] theorem token?_symbol (c : Char) : (symbol c).token? sigil = none := rfl

end Lexeme

theorem tokensIn_eq_lexemes (known : sigil = '#' ∨ sigil = ':') (text : List Char) :
    tokensIn sigil text = (lexemes text).filterMap (Lexeme.token? sigil) := by
  have noTokenChar : isTokenChar sigil = false := by rcases known with rfl | rfl <;> decide
  fun_induction lexemes text with
  | case1 => rfl
  -- A name or a value.
  | case9 rest ih | case10 rest ih =>
    rw [tokensIn_dropWhile noTokenChar] at ih
    rcases known with rfl | rfl <;> simp [tokensIn, List.filterMap_cons, ih]
  -- A word, in which no sigil stands.
  | case11 c rest _ _ _ _ _ _ _ _ _ isToken ih =>
    rw [tokensIn_dropWhile noTokenChar] at ih
    have other : c ≠ sigil := by
      rintro rfl
      simp [noTokenChar] at isToken
    simp [tokensIn, List.filterMap_cons, ih, other]
  | case12 c rest _ _ _ _ _ _ _ noName noValue _ ih =>
    have other : c ≠ sigil := by rcases known with rfl | rfl <;> assumption
    simp [tokensIn, List.filterMap_cons, ih, other]
  | _ => rcases known with rfl | rfl <;> simp_all [tokensIn, List.filterMap_cons]

end ItemExpr
