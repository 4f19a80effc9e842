import ItemExpr.Proofs.Condition.Formula
import ItemExpr.Proofs.Condition.Lexing

/-!
# Reading what was written

The lexemes of a condition are read back as the condition, up to the grouping of chains of one operator, which a text
does not show. Leaves are read as they are. For the rest, each level of the grammar is followed from the tightest to the
loosest one, always with more lexemes behind: what stops a level, or what makes it go on with the same operator.
-/

namespace ItemExpr

/-! ## Grouping to the right -/

namespace TokenCondition

/-- The conjunction of a chain and a condition, as a chain. -/
def conjoin : TokenCondition → TokenCondition → TokenCondition
  | .and first rest, last => .and first (rest.conjoin last)
  | first, last => .and first last

/-- The alternative of a chain and a condition, as a chain. -/
def disjoin : TokenCondition → TokenCondition → TokenCondition
  | .or first rest, last => .or first (rest.disjoin last)
  | first, last => .or first last

/-- A condition with all its chains grouped to the right. -/
def regroup : TokenCondition → TokenCondition
  | .and left right => left.regroup.conjoin right.regroup
  | .or left right => left.regroup.disjoin right.regroup
  | .not inner => .not inner.regroup
  | statement => statement

theorem conjoin_conjoin (first second last : TokenCondition) :
    first.conjoin (second.conjoin last) = (first.conjoin second).conjoin last := by
  induction first with
  | and left right _ ih => simp only [conjoin, ih]
  | _ => rfl

theorem disjoin_disjoin (first second last : TokenCondition) :
    first.disjoin (second.disjoin last) = (first.disjoin second).disjoin last := by
  induction first with
  | or left right _ ih => simp only [disjoin, ih]
  | _ => rfl

def isAnd : TokenCondition → Bool
  | .and .. => true
  | _ => false

theorem conjoin_of_not_isAnd {first : TokenCondition} (other : first.isAnd = false) (last : TokenCondition) :
    first.conjoin last = .and first last := by
  cases first <;> first | rfl | cases other

theorem disjoin_of_not_isOr {first : TokenCondition} (other : first.isOr = false) (last : TokenCondition) :
    first.disjoin last = .or first last := by
  cases first <;> first | rfl | cases other

theorem isAnd_regroup {condition : TokenCondition} (other : condition.isAnd = false) :
    condition.regroup.isAnd = false := by
  cases condition with
  | and => cases other
  | or left right =>
    simp only [regroup]
    cases left.regroup <;> rfl
  | _ => rfl

theorem isOr_regroup {condition : TokenCondition} (other : condition.isOr = false) :
    condition.regroup.isOr = false := by
  cases condition with
  | or => cases other
  | and left right =>
    simp only [regroup]
    cases left.regroup <;> rfl
  | _ => rfl

end TokenCondition

/-- No list of candidates in a condition is empty. -/
def TokenCondition.Filled : TokenCondition → Prop
  | .isIn _ candidates => candidates ≠ []
  | .and left right | .or left right => left.Filled ∧ right.Filled
  | .not inner => inner.Filled
  | _ => True

theorem TokenCondition.Readable.filled {condition : TokenCondition} (readable : condition.Readable) :
    condition.Filled := by
  induction condition with
  | isIn => exact readable.2.1
  | and left right ihLeft ihRight | or left right ihLeft ihRight => exact ⟨ihLeft readable.1, ihRight readable.2⟩
  | not inner ih => exact ih readable
  | _ => trivial

/-! ## Leaves -/

namespace Grammar

/-- Lexemes that cannot go on with a path in front of them. -/
def StopsPath (rest : List Lexeme) : Prop :=
  rest.head? ≠ some (.symbol '.') ∧ rest.head? ≠ some (.symbol '[')

variable {rest : List Lexeme}

theorem steps_of_stopsPath (stops : StopsPath rest) : steps rest = ([], rest) := by
  obtain ⟨noField, noIndex⟩ := stops
  unfold steps
  split
  · exact absurd rfl noField
  · exact absurd rfl noIndex
  · rfl

theorem steps_lexemes (tail : List TokenStep) (stops : StopsPath rest) :
    steps (tail.flatMap TokenStep.lexemes ++ rest) = (tail, rest) := by
  induction tail with
  | nil => exact steps_of_stopsPath stops
  | cons step later ih =>
    cases step with
    | field token => simp [TokenStep.lexemes, steps, ih]
    | index position =>
      have read : Text.readDigits? (Nat.toDigits 10 position) = some position := Text.readDigits?_digits position
      simp [TokenStep.lexemes, steps, read, ih]

theorem path_lexemes (target : TokenPath) (stops : StopsPath rest) :
    path (target.lexemes ++ rest) = some (target, rest) := by
  simp [TokenPath.lexemes, path, steps_lexemes target.tail stops]

@[simp] theorem expect_self (lexeme : Lexeme) : expect lexeme (lexeme :: rest) = some rest := by
  simp [expect]

theorem stopsPath_word (letters : String) : StopsPath (.word letters :: rest) := by
  simp [StopsPath]

theorem stopsPath_comparison (op : Comparison) : StopsPath (.comparison op :: rest) := by
  simp [StopsPath]

theorem stopsPath_close : StopsPath (.symbol ')' :: rest) := by
  simp [StopsPath]

theorem stopsPath_comma : StopsPath (.symbol ',' :: rest) := by
  simp [StopsPath]

theorem operand_lexemes (leaf : TokenOperand) (stops : StopsPath rest) :
    operand (leaf.lexemes ++ rest) = some (leaf, rest) := by
  cases leaf with
  | path target =>
    have read := path_lexemes target stops
    simp only [TokenPath.lexemes, List.cons_append] at read
    simp [TokenOperand.lexemes, TokenPath.lexemes, operand, read]
  | value token => rfl
  | size target =>
    have read : path (target.lexemes ++ .symbol ')' :: rest) = some (target, .symbol ')' :: rest) :=
      path_lexemes target stopsPath_close
    simp [TokenOperand.lexemes, operand, read]

theorem candidates_of_comma {text : List Lexeme} {first : TokenOperand}
    (read : operand text = some (first, .symbol ',' :: rest)) (shorter : rest.length < text.length) :
    candidates text = (candidates rest).map fun (later, rest) => (first :: later, rest) := by
  rw [candidates, read]
  simp [shorter]

/-- What stands behind a part of a text and a lexeme is shorter than the text. -/
theorem length_behind (front : List Lexeme) (lexeme : Lexeme) : rest.length < (front ++ lexeme :: rest).length := by
  simp only [List.length_append, List.length_cons]
  omega

theorem candidates_lexemes {leaves : List TokenOperand} (nonempty : leaves ≠ []) :
    candidates (TokenOperand.listLexemes leaves ++ .symbol ')' :: rest) = some (leaves, rest) := by
  induction leaves with
  | nil => exact absurd rfl nonempty
  | cons first later ih =>
    cases later with
    | nil =>
      rw [TokenOperand.listLexemes, candidates, operand_lexemes first stopsPath_close]
      simp
    | cons second later =>
      have text : TokenOperand.listLexemes (first :: second :: later) ++ .symbol ')' :: rest =
          first.lexemes ++ .symbol ',' :: (TokenOperand.listLexemes (second :: later) ++ .symbol ')' :: rest) := by
        simp [TokenOperand.listLexemes]
      rw [text, candidates_of_comma (operand_lexemes first stopsPath_comma) (length_behind ..), ih (by simp)]
      rfl

/-! ## Statements -/

/-- A path in front of what must stand behind it. -/
theorem argument_lexemes (target : TokenPath) :
    argument (target.lexemes ++ .symbol ')' :: rest) = some (target, rest) := by
  simp [argument, path_lexemes target stopsPath_close]

theorem arguments_lexemes (target : TokenPath) (second : TokenOperand) :
    arguments (target.lexemes ++ .symbol ',' :: (second.lexemes ++ .symbol ')' :: rest)) =
      some (target, second, rest) := by
  simp [arguments, path_lexemes target stopsPath_comma, operand_lexemes second stopsPath_close]

/-- A text that starts with an operand says something about it. -/
theorem statement_operand (leaf : TokenOperand) :
    statement (leaf.lexemes ++ rest) = test (leaf.lexemes ++ rest) := by
  cases leaf with
  | path target => simp [TokenOperand.lexemes, TokenPath.lexemes, statement]
  | value token => simp [TokenOperand.lexemes, statement]
  | size target => simp [TokenOperand.lexemes, statement]

/-- Whether a condition has no logic in it. -/
def isStatement : TokenCondition → Bool
  | .and .. | .or .. | .not _ => false
  | _ => true

theorem statement_lexemes {condition : TokenCondition} (filled : condition.Filled)
    (plain : isStatement condition = true) (stops : StopsPath rest) :
    statement (condition.lexemes ++ rest) = some (condition, rest) := by
  cases condition with
  | compare op left right =>
    have text : (TokenCondition.compare op left right).lexemes ++ rest =
        left.lexemes ++ .comparison op :: (right.lexemes ++ rest) := by
      simp [TokenCondition.lexemes]
    rw [text, statement_operand]
    simp [test, operand_lexemes left (stopsPath_comparison op), operand_lexemes right stops]
  | between subject low high =>
    have text : (TokenCondition.between subject low high).lexemes ++ rest =
        subject.lexemes ++ .word "BETWEEN" :: (low.lexemes ++ .word "AND" :: (high.lexemes ++ rest)) := by
      simp [TokenCondition.lexemes]
    rw [text, statement_operand]
    simp [test, operand_lexemes subject (stopsPath_word _), operand_lexemes low (stopsPath_word _),
      operand_lexemes high stops]
  | isIn subject leaves =>
    have text : (TokenCondition.isIn subject leaves).lexemes ++ rest =
        subject.lexemes ++
          .word "IN" :: .symbol '(' :: (TokenOperand.listLexemes leaves ++ .symbol ')' :: rest) := by
      simp [TokenCondition.lexemes]
    rw [text, statement_operand]
    simp [test, operand_lexemes subject (stopsPath_word _), candidates_lexemes filled]
  | «exists» target => simp [TokenCondition.lexemes, TokenCondition.callLexemes, statement, argument_lexemes]
  | notExists target => simp [TokenCondition.lexemes, TokenCondition.callLexemes, statement, argument_lexemes]
  | hasType target token =>
    have read : arguments (target.lexemes ++ .symbol ',' :: .value token :: .symbol ')' :: rest) =
        some (target, .value token, rest) :=
      arguments_lexemes target (.value token)
    simp [TokenCondition.lexemes, TokenCondition.callLexemes, statement, read]
  | beginsWith target start =>
    simp [TokenCondition.lexemes, TokenCondition.callLexemes, statement, arguments_lexemes]
  | contains target element =>
    simp [TokenCondition.lexemes, TokenCondition.callLexemes, statement, arguments_lexemes]
  | and | or | not => cases plain

/-! ## The levels of the grammar -/

theorem negation_statement {condition : TokenCondition} (plain : isStatement condition = true) :
    negation (condition.lexemes ++ rest) = statement (condition.lexemes ++ rest) := by
  -- No operand starts with `NOT` or with a parenthesis.
  have opened : ∀ leaf : TokenOperand, ∀ behind,
      negation (leaf.lexemes ++ behind) = statement (leaf.lexemes ++ behind) := by
    intro leaf behind
    cases leaf <;> simp [TokenOperand.lexemes, TokenPath.lexemes, negation]
  cases condition with
  | compare | between | isIn => simp only [TokenCondition.lexemes, List.append_assoc, opened]
  | «exists» | notExists | hasType | beginsWith | contains =>
    simp [TokenCondition.lexemes, TokenCondition.callLexemes, negation]
  | and | or | not => cases plain

theorem negation_grouped {text : List Lexeme} {condition : TokenCondition}
    (read : disjunction (text ++ .symbol ')' :: rest) = some (condition, .symbol ')' :: rest)) :
    negation (TokenCondition.groupedLexemes true text ++ rest) = some (condition, rest) := by
  simp [TokenCondition.groupedLexemes, negation, read]

theorem conjunction_of_and {text : List Lexeme} {first : TokenCondition}
    (read : negation text = some (first, .word "AND" :: rest)) (shorter : rest.length < text.length) :
    conjunction text = (conjunction rest).map fun (last, rest) => (.and first last, rest) := by
  rw [conjunction, read]
  simp [shorter]

theorem conjunction_of_other {text : List Lexeme} {condition : TokenCondition}
    (read : negation text = some (condition, rest)) (stops : rest.head? ≠ some (.word "AND")) :
    conjunction text = some (condition, rest) := by
  rw [conjunction, read]
  split
  · rename_i same
    cases same
    exact absurd rfl stops
  · rfl

theorem disjunction_of_or {text : List Lexeme} {first : TokenCondition}
    (read : conjunction text = some (first, .word "OR" :: rest)) (shorter : rest.length < text.length) :
    disjunction text = (disjunction rest).map fun (last, rest) => (.or first last, rest) := by
  rw [disjunction, read]
  simp [shorter]

theorem disjunction_of_other {text : List Lexeme} {condition : TokenCondition}
    (read : conjunction text = some (condition, rest)) (stops : rest.head? ≠ some (.word "OR")) :
    disjunction text = some (condition, rest) := by
  rw [disjunction, read]
  split
  · rename_i same
    cases same
    exact absurd rfl stops
  · rfl

/-- The lexemes of a condition as a side of a conjunction. -/
def side (condition : TokenCondition) : List Lexeme :=
  TokenCondition.groupedLexemes condition.isOr condition.lexemes

theorem side_of_not_isOr {condition : TokenCondition} (other : condition.isOr = false) :
    side condition = condition.lexemes := by
  simp [side, other, TokenCondition.groupedLexemes]

/-- How the level of conjunctions reads a condition: as a whole where something else stands behind it, and as the first
part of a longer chain where `AND` does. -/
structure ReadsAsSide (condition : TokenCondition) : Prop where
  whole : ∀ {rest}, StopsPath rest → rest.head? ≠ some (.word "AND") →
    conjunction (side condition ++ rest) = some (condition.regroup, rest)
  chain : ∀ rest, conjunction (side condition ++ .word "AND" :: rest) =
    (conjunction rest).map fun (last, rest) => (condition.regroup.conjoin last, rest)

/-- How the level of alternatives reads a condition, in the same way. -/
structure ReadsAsPart (condition : TokenCondition) : Prop where
  whole : ∀ {rest}, StopsPath rest → rest.head? ≠ some (.word "AND") → rest.head? ≠ some (.word "OR") →
    disjunction (condition.lexemes ++ rest) = some (condition.regroup, rest)
  chain : ∀ rest, disjunction (condition.lexemes ++ .word "OR" :: rest) =
    (disjunction rest).map fun (last, rest) => (condition.regroup.disjoin last, rest)

theorem ReadsAsSide.of_negation {condition : TokenCondition} (other : condition.isAnd = false)
    (read : ∀ {rest}, StopsPath rest → negation (side condition ++ rest) = some (condition.regroup, rest)) :
    ReadsAsSide condition where
  whole stops noAnd := conjunction_of_other (read stops) noAnd
  chain rest := by
    rw [conjunction_of_and (read (stopsPath_word _)) (length_behind ..)]
    simp only [TokenCondition.conjoin_of_not_isAnd (TokenCondition.isAnd_regroup other)]

theorem ReadsAsPart.of_side {condition : TokenCondition} (other : condition.isOr = false)
    (reads : ReadsAsSide condition) : ReadsAsPart condition where
  whole stops noAnd noOr := by
    rw [← side_of_not_isOr other]
    exact disjunction_of_other (reads.whole stops noAnd) noOr
  chain rest := by
    have read : conjunction (condition.lexemes ++ .word "OR" :: rest) =
        some (condition.regroup, .word "OR" :: rest) := by
      rw [← side_of_not_isOr other]
      exact reads.whole (stopsPath_word _) (by simp)
    rw [disjunction_of_or read (length_behind ..)]
    simp only [TokenCondition.disjoin_of_not_isOr (TokenCondition.isOr_regroup other)]

theorem ReadsAsPart.negation_grouped {condition : TokenCondition} (reads : ReadsAsPart condition)
    (rest : List Lexeme) :
    negation (TokenCondition.groupedLexemes true condition.lexemes ++ rest) = some (condition.regroup, rest) :=
  Grammar.negation_grouped (reads.whole stopsPath_close (by simp) (by simp))

theorem readsAsSide_statement {condition : TokenCondition} (filled : condition.Filled)
    (plain : isStatement condition = true) : ReadsAsSide condition := by
  have notAnd : condition.isAnd = false := by cases condition <;> first | rfl | cases plain
  have notOr : condition.isOr = false := by cases condition <;> first | rfl | cases plain
  have same : condition.regroup = condition := by cases condition <;> first | rfl | cases plain
  refine .of_negation notAnd fun stops => ?_
  rw [side_of_not_isOr notOr, negation_statement plain, same]
  exact statement_lexemes filled plain stops

theorem readsAsSide_and {left right : TokenCondition} (first : ReadsAsSide left) (second : ReadsAsSide right) :
    ReadsAsSide (.and left right) := by
  have text : ∀ behind, side (.and left right) ++ behind = side left ++ .word "AND" :: (side right ++ behind) := by
    intro behind
    simp [side, TokenCondition.isOr, TokenCondition.lexemes, TokenCondition.groupedLexemes]
  constructor
  · intro rest stops noAnd
    rw [text, first.chain, second.whole stops noAnd]
    rfl
  · intro rest
    -- The chain of the left side goes on with that of the right side, and that one with what stands behind both.
    rw [text, first.chain, second.chain, Option.map_map]
    simp only [TokenCondition.regroup, ← TokenCondition.conjoin_conjoin]
    rfl

theorem readsAsPart_or {left right : TokenCondition} (first : ReadsAsPart left) (second : ReadsAsPart right) :
    ReadsAsPart (.or left right) := by
  have text : ∀ behind,
      (TokenCondition.or left right).lexemes ++ behind = left.lexemes ++ .word "OR" :: (right.lexemes ++ behind) := by
    intro behind
    simp [TokenCondition.lexemes]
  constructor
  · intro rest stops noAnd noOr
    rw [text, first.chain, second.whole stops noAnd noOr]
    rfl
  · intro rest
    rw [text, first.chain, second.chain, Option.map_map]
    simp only [TokenCondition.regroup, ← TokenCondition.disjoin_disjoin]
    rfl

/-- Both levels read each condition. The induction needs both at once: a conjunction reads its sides on its own level,
and what stands in parentheses on the level of alternatives. -/
theorem reads {condition : TokenCondition} (filled : condition.Filled) :
    ReadsAsSide condition ∧ ReadsAsPart condition := by
  induction condition with
  | and left right ihLeft ihRight =>
    have reads := readsAsSide_and (ihLeft filled.1).1 (ihRight filled.2).1
    exact ⟨reads, .of_side rfl reads⟩
  -- As a side an alternative stands in parentheses, so it is one part of a conjunction.
  | or left right ihLeft ihRight =>
    have reads := readsAsPart_or (ihLeft filled.1).2 (ihRight filled.2).2
    exact ⟨.of_negation rfl fun _ => reads.negation_grouped _, reads⟩
  | not inner ih =>
    have reads : ReadsAsSide (.not inner) := .of_negation rfl fun {rest} _ => by
      have text : side (.not inner) ++ rest =
          .word "NOT" :: (TokenCondition.groupedLexemes true inner.lexemes ++ rest) := by
        simp [side, TokenCondition.isOr, TokenCondition.lexemes, TokenCondition.groupedLexemes]
      rw [text, negation, (ih filled).2.negation_grouped]
      rfl
    exact ⟨reads, .of_side rfl reads⟩
  | _ =>
    have reads := readsAsSide_statement filled rfl
    exact ⟨reads, .of_side rfl reads⟩

end Grammar

/-- The text of a condition is read as the condition with its chains grouped to the right. -/
theorem TokenCondition.read?_text {condition : TokenCondition} (readable : condition.Readable) :
    read? condition.text = some condition.regroup := by
  have cut : ItemExpr.lexemes (condition.text.toList ++ []) = condition.lexemes ++ ItemExpr.lexemes [] :=
    lexemes_text readable ends_nil
  have whole : Grammar.disjunction (condition.lexemes ++ []) = some (condition.regroup, []) :=
    (Grammar.reads readable.filled).2.whole (by simp [Grammar.StopsPath]) (by simp) (by simp)
  rw [List.append_nil] at cut
  rw [read?, cut, ItemExpr.lexemes, whole]

end ItemExpr
