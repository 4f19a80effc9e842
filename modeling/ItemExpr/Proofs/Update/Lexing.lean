import ItemExpr.Proofs.Condition.Lexing

/-!
# Cutting the texts of updates

The text of an update is cut into the lexemes that it was made of, as that of a condition is.
-/

namespace ItemExpr

open NameTable (isTokenChar)

variable {rest : List Char}

/-! ## Values -/

namespace TokenValue

/-- The tokens of a value are spelled as tokens of names and of values. -/
def Readable : TokenValue → Prop
  | .operand leaf => leaf.Readable
  | .add left right | .subtract left right | .listAppend left right => left.Readable ∧ right.Readable
  | .ifNotExists path fallback => path.Readable ∧ fallback.Readable

def lexemes : TokenValue → List Lexeme
  | .operand leaf => leaf.lexemes
  | .add left right => left.lexemes ++ .symbol '+' :: right.lexemes
  | .subtract left right => left.lexemes ++ .symbol '-' :: right.lexemes
  | .ifNotExists path fallback => TokenCondition.callLexemes "if_not_exists" path (.symbol ',' :: fallback.lexemes)
  | .listAppend first second =>
    .word "list_append" :: .symbol '(' :: first.lexemes ++ .symbol ',' :: second.lexemes ++ [.symbol ')']

theorem lexemes_text {value : TokenValue} (readable : value.Readable) (ends : Ends rest) :
    ItemExpr.lexemes (value.text.toList ++ rest) = value.lexemes ++ ItemExpr.lexemes rest := by
  induction value generalizing rest with
  | operand leaf => exact lexemes_operandText readable ends
  | add left right ihLeft ihRight =>
    have shape : (TokenValue.add left right).text.toList ++ rest =
        left.text.toList ++ ' ' :: '+' :: ' ' :: (right.text.toList ++ rest) := by
      simp
    rw [shape, ihLeft readable.1 ends_blank, lexemes_blank, lexemes_symbol (by decide) (by decide), lexemes_blank,
      ihRight readable.2 ends]
    simp [lexemes]
  | subtract left right ihLeft ihRight =>
    have shape : (TokenValue.subtract left right).text.toList ++ rest =
        left.text.toList ++ ' ' :: '-' :: ' ' :: (right.text.toList ++ rest) := by
      simp
    rw [shape, ihLeft readable.1 ends_blank, lexemes_blank, lexemes_symbol (by decide) (by decide), lexemes_blank,
      ihRight readable.2 ends]
    simp [lexemes]
  | ifNotExists path fallback ih =>
    have shape : (TokenValue.ifNotExists path fallback).text.toList ++ rest =
        "if_not_exists".toList ++ '(' ::
          (path.text.toList ++ (',' :: ' ' :: fallback.text.toList ++ ')' :: rest)) := by
      simp
    have second : ItemExpr.lexemes (',' :: ' ' :: (fallback.text.toList ++ ')' :: rest)) =
        .symbol ',' :: fallback.lexemes ++ .symbol ')' :: ItemExpr.lexemes rest := by
      rw [lexemes_comma, lexemes_blank, ih readable.2 ends_close, lexemes_close]
      rfl
    rw [shape, TokenCondition.lexemes_callText (by decide) readable.1 ends_comma second, lexemes]
  | listAppend first second ihFirst ihSecond =>
    have shape : (TokenValue.listAppend first second).text.toList ++ rest =
        "list_append".toList ++ '(' ::
          (first.text.toList ++ ',' :: ' ' :: (second.text.toList ++ ')' :: rest)) := by
      simp
    rw [shape, lexemes_keyword (by decide) ends_open, lexemes_open, ihFirst readable.1 ends_comma, lexemes_comma,
      lexemes_blank, ihSecond readable.2 ends_close, lexemes_close]
    simp [lexemes]

end TokenValue

/-! ## Updates -/

namespace TokenUpdate

def Readable : TokenUpdate → Prop
  | .set path value => path.Readable ∧ value.Readable
  | .remove path => path.Readable
  | .add path operand | .delete path operand => path.Readable ∧ operand.Readable

def lexemes : TokenUpdate → List Lexeme
  | .set path value => path.lexemes ++ .comparison .eq :: value.lexemes
  | .remove path => path.lexemes
  | .add path operand | .delete path operand => path.lexemes ++ operand.lexemes

theorem lexemes_text {update : TokenUpdate} (readable : update.Readable) (ends : Ends rest) :
    ItemExpr.lexemes (update.text.toList ++ rest) = update.lexemes ++ ItemExpr.lexemes rest := by
  cases update with
  | set path value =>
    have shape : (TokenUpdate.set path value).text.toList ++ rest =
        path.text.toList ++ ' ' :: (Comparison.eq.symbol.toList ++ ' ' :: (value.text.toList ++ rest)) := by
      simp [text, Comparison.symbol]
    rw [shape, lexemes_pathText readable.1 ends_blank, lexemes_blank, lexemes_comparison,
      value.lexemes_text readable.2 ends]
    simp [lexemes]
  | remove path => exact lexemes_pathText readable ends
  | add path operand | delete path operand =>
    have shape : (path.text ++ " " ++ operand.text).toList ++ rest =
        path.text.toList ++ ' ' :: (operand.text.toList ++ rest) := by
      simp
    rw [text, shape, lexemes_pathText readable.1 ends_blank, lexemes_blank, lexemes_operandText readable.2 ends]
    simp [lexemes]

end TokenUpdate

end ItemExpr
