import ItemExpr.Proofs.Condition.Reading
import ItemExpr.Proofs.Update.Grammar
import ItemExpr.Proofs.Update.Lexing

/-!
# Reading what an update sets

The text of an update that sets a value is read back as its path and its value, but with every chain of sums and
differences grouped to the left: the text of a sum that is added or subtracted as a whole has no parentheses around it.
-/

namespace ItemExpr

/-! ## Grouping to the left -/

namespace TokenValue

/-- A value as it is read behind the beginning of a chain, which `before` puts in front of the first part of it. -/
def regroupBehind (before : TokenValue → TokenValue) : TokenValue → TokenValue
  | .operand leaf => before (.operand leaf)
  | .add left right => right.regroupBehind (.add (left.regroupBehind before))
  | .subtract left right => right.regroupBehind (.subtract (left.regroupBehind before))
  | .ifNotExists path fallback => before (.ifNotExists path (fallback.regroupBehind id))
  | .listAppend first second => before (.listAppend (first.regroupBehind id) (second.regroupBehind id))

/-- A value with all its chains grouped to the left. -/
def regroup (value : TokenValue) : TokenValue :=
  value.regroupBehind id

end TokenValue

namespace Grammar

variable {rest : List Lexeme}

/-! ## Parts of chains -/

theorem summand_operand (leaf : TokenOperand) (stops : StopsPath rest) :
    summand (leaf.lexemes ++ rest) = some (.operand leaf, rest) := by
  have read := operand_lexemes leaf stops
  cases leaf with
  | path target =>
    simp only [TokenOperand.lexemes, TokenPath.lexemes, List.cons_append] at read ⊢
    simp [summand, read]
  | value token => simp [TokenOperand.lexemes, summand, operand]
  | size target =>
    simp only [TokenOperand.lexemes, List.cons_append] at read ⊢
    rw [summand, read]
    · rfl
    all_goals simp

/-- Lexemes in front of which a chain ends. -/
def StopsChain (rest : List Lexeme) : Prop :=
  StopsPath rest ∧ rest.head?.bind additive? = none

theorem stopsChain_close : StopsChain (.symbol ')' :: rest) :=
  ⟨stopsPath_close, by simp [additive?]⟩

theorem stopsChain_comma : StopsChain (.symbol ',' :: rest) :=
  ⟨stopsPath_comma, by simp [additive?]⟩

theorem stopsPath_additive {sign : Lexeme} {join : TokenValue → TokenValue → TokenValue}
    (additive : additive? sign = some join) : StopsPath (sign :: rest) := by
  unfold additive? at additive
  split at additive
  · simp [StopsPath]
  · simp [StopsPath]
  · cases additive

variable {before : TokenValue → TokenValue} {text : List Lexeme} {part : TokenValue}

theorem sum_of_other (read : summand text = some (part, rest)) (stops : StopsChain rest) :
    sum before text = some (before part, rest) := by
  rw [sum, read]
  cases rest with
  | nil => rfl
  | cons lexeme rest =>
    have other : additive? lexeme = none := stops.2
    simp only [other]

theorem sum_of_additive {sign : Lexeme} {join : TokenValue → TokenValue → TokenValue}
    (read : summand text = some (part, sign :: rest)) (additive : additive? sign = some join)
    (shorter : rest.length < text.length) : sum before text = sum (join (before part)) rest := by
  rw [sum, read]
  simp only [additive, if_pos shorter]

/-! ## Chains -/

/-- How a value is read in a chain: up to its end where nothing is added behind it, and else as the beginning of what
is read further. -/
structure ReadsInChain (value : TokenValue) : Prop where
  whole : ∀ {before rest}, StopsChain rest →
    sum before (value.lexemes ++ rest) = some (value.regroupBehind before, rest)
  chain : ∀ {before sign join rest}, additive? sign = some join →
    sum before (value.lexemes ++ sign :: rest) = sum (join (value.regroupBehind before)) rest

theorem ReadsInChain.of_summand {value : TokenValue}
    (read : ∀ {rest}, StopsPath rest → summand (value.lexemes ++ rest) = some (part, rest))
    (same : ∀ before, value.regroupBehind before = before part) : ReadsInChain value where
  whole {before rest} stops := by
    rw [same]
    exact sum_of_other (read stops.1) stops
  chain {before sign join rest} additive := by
    rw [same]
    exact sum_of_additive (read (stopsPath_additive additive)) additive (length_behind ..)

/-- Two values with a sign between them. The left one is the beginning of the chain that the right one goes on with. -/
theorem ReadsInChain.joined {value left right : TokenValue} {sign : Lexeme}
    {join : TokenValue → TokenValue → TokenValue} (additive : additive? sign = some join)
    (text : value.lexemes = left.lexemes ++ sign :: right.lexemes)
    (same : ∀ before, value.regroupBehind before = right.regroupBehind (join (left.regroupBehind before)))
    (first : ReadsInChain left) (second : ReadsInChain right) : ReadsInChain value where
  whole {before rest} stops := by
    rw [text, List.append_assoc, List.cons_append, first.chain additive, second.whole stops, same]
  chain {before later joinLater rest} additiveLater := by
    rw [text, List.append_assoc, List.cons_append, first.chain additive, second.chain additiveLater, same]

theorem summand_ifNotExists {path : TokenPath} {fallback : TokenValue} (reads : ReadsInChain fallback) :
    summand ((TokenValue.ifNotExists path fallback).lexemes ++ rest) =
      some (.ifNotExists path (fallback.regroupBehind id), rest) := by
  have tested : Grammar.path (path.lexemes ++ .symbol ',' :: (fallback.lexemes ++ .symbol ')' :: rest)) =
      some (path, .symbol ',' :: (fallback.lexemes ++ .symbol ')' :: rest)) :=
    path_lexemes path stopsPath_comma
  have value : sum id (fallback.lexemes ++ .symbol ')' :: rest) =
      some (fallback.regroupBehind id, .symbol ')' :: rest) :=
    reads.whole stopsChain_close
  have shorter : (fallback.lexemes ++ .symbol ')' :: rest).length <
      (path.lexemes ++ .symbol ',' :: (fallback.lexemes ++ .symbol ')' :: rest)).length :=
    length_behind ..
  have shape : (TokenValue.ifNotExists path fallback).lexemes ++ rest =
      .word "if_not_exists" :: .symbol '(' ::
        (path.lexemes ++ .symbol ',' :: (fallback.lexemes ++ .symbol ')' :: rest)) := by
    simp [TokenValue.lexemes, TokenCondition.callLexemes]
  rw [shape, summand, tested]
  simp only [if_pos shorter, value]
  simp

theorem summand_listAppend {first second : TokenValue} (readsFirst : ReadsInChain first)
    (readsSecond : ReadsInChain second) :
    summand ((TokenValue.listAppend first second).lexemes ++ rest) =
      some (.listAppend (first.regroupBehind id) (second.regroupBehind id), rest) := by
  have start : sum id (first.lexemes ++ .symbol ',' :: (second.lexemes ++ .symbol ')' :: rest)) =
      some (first.regroupBehind id, .symbol ',' :: (second.lexemes ++ .symbol ')' :: rest)) :=
    readsFirst.whole stopsChain_comma
  have value : sum id (second.lexemes ++ .symbol ')' :: rest) =
      some (second.regroupBehind id, .symbol ')' :: rest) :=
    readsSecond.whole stopsChain_close
  have shorter : (second.lexemes ++ .symbol ')' :: rest).length <
      (first.lexemes ++ .symbol ',' :: (second.lexemes ++ .symbol ')' :: rest)).length :=
    length_behind ..
  have shape : (TokenValue.listAppend first second).lexemes ++ rest =
      .word "list_append" :: .symbol '(' ::
        (first.lexemes ++ .symbol ',' :: (second.lexemes ++ .symbol ')' :: rest)) := by
    simp [TokenValue.lexemes]
  rw [shape, summand, start]
  simp only [if_pos shorter, value]
  simp

/-- Every value is read in a chain. What is in a function is a chain of its own, with nothing in front of it. -/
theorem readsInChain (value : TokenValue) : ReadsInChain value := by
  have plus : additive? (.symbol '+') = some .add := rfl
  have minus : additive? (.symbol '-') = some .subtract := rfl
  induction value with
  | operand leaf => exact .of_summand (summand_operand leaf) fun _ => rfl
  | add left right ihLeft ihRight => exact .joined plus rfl (fun _ => rfl) ihLeft ihRight
  | subtract left right ihLeft ihRight => exact .joined minus rfl (fun _ => rfl) ihLeft ihRight
  | ifNotExists path fallback ih => exact .of_summand (fun _ => summand_ifNotExists ih) fun _ => rfl
  | listAppend first second ihFirst ihSecond =>
    exact .of_summand (fun _ => summand_listAppend ihFirst ihSecond) fun _ => rfl

end Grammar

/-- The text of an update that sets a value is read as its path, and the value with its chains grouped to the left. -/
theorem TokenUpdate.readSet?_text {path : TokenPath} {value : TokenValue}
    (readable : (TokenUpdate.set path value).Readable) :
    readSet? (TokenUpdate.set path value).text = some (path, value.regroup) := by
  have cut : ItemExpr.lexemes ((TokenUpdate.set path value).text.toList ++ []) =
      (TokenUpdate.set path value).lexemes ++ ItemExpr.lexemes [] :=
    lexemes_text readable ends_nil
  rw [List.append_nil, TokenUpdate.lexemes, ItemExpr.lexemes, List.append_nil] at cut
  have target : Grammar.path (path.lexemes ++ .comparison .eq :: value.lexemes) =
      some (path, .comparison .eq :: value.lexemes) :=
    Grammar.path_lexemes path (Grammar.stopsPath_comparison .eq)
  have whole : Grammar.sum id (value.lexemes ++ []) = some (value.regroup, []) :=
    (Grammar.readsInChain value).whole ⟨by simp [Grammar.StopsPath], rfl⟩
  rw [List.append_nil] at whole
  simp only [readSet?, cut, target, whole]

end ItemExpr
