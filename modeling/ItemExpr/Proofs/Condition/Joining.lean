import ItemExpr.Proofs.Condition.Meaning
import ItemExpr.Request.Draft

/-!
# Joined conditions

The texts of some conditions, each in parentheses and with `AND` between them, are read as the conjunction of the
conditions. A token may look like anything if the caller has chosen it. So a text is read by lexemes that spell it and
in which each token is one; where all tokens look like tokens, these are the lexemes that the text is cut into.
-/

namespace ItemExpr

variable {names : Table String} {values : Table AttributeValue}

/-! ## Spelling -/

def Lexeme.text : Lexeme → String
  | .name token | .value token => token
  | .word letters => letters
  | .comparison op => op.symbol
  | .symbol c => c.toString

/-- Lexemes that have a text, with blanks anywhere between them. -/
inductive Spells : List Lexeme → List Char → Prop where
  | nil : Spells [] []
  | blank {cut : List Lexeme} {chars : List Char} : Spells cut chars → Spells cut (' ' :: chars)
  | lexeme {cut : List Lexeme} {chars : List Char} (lexeme : Lexeme) :
    Spells cut chars → Spells (lexeme :: cut) (lexeme.text.toList ++ chars)

namespace Spells

variable {first second : List Lexeme} {front behind : List Char}

theorem append (spells : Spells first front) (further : Spells second behind) :
    Spells (first ++ second) (front ++ behind) := by
  induction spells with
  | nil => exact further
  | blank _ ih => exact .blank ih
  | lexeme lexeme _ ih =>
    rw [List.append_assoc]
    exact .lexeme lexeme ih

theorem single (lexeme : Lexeme) : Spells [lexeme] lexeme.text.toList := by
  simpa using Spells.nil.lexeme lexeme

/-- A symbol in front of a text. -/
theorem symbol (c : Char) (spells : Spells first front) : Spells (.symbol c :: first) (c :: front) := by
  simpa [Lexeme.text] using spells.lexeme (.symbol c)

/-- A keyword, with blanks around it, between two texts. -/
theorem keyword (letters : String) (spells : Spells first front) (further : Spells second behind) :
    Spells (first ++ .word letters :: second) (front ++ ' ' :: (letters.toList ++ ' ' :: behind)) :=
  spells.append (.blank (further.blank.lexeme (.word letters)))

/-- A text in parentheses, with something behind it. -/
theorem parenthesized (spells : Spells first front) (further : Spells second behind) :
    Spells (.symbol '(' :: (first ++ .symbol ')' :: second)) ('(' :: (front ++ ')' :: behind)) :=
  (spells.append (further.symbol ')')).symbol '('

end Spells

theorem TokenStep.spells (step : TokenStep) : Spells step.lexemes step.text.toList := by
  cases step with
  | field token => simpa [lexemes, text, Lexeme.text] using (Spells.single (.name token)).symbol '.'
  | index position =>
    have digits : Spells [.word (toString position), .symbol ']'] ((toString position).toList ++ [']']) :=
      .lexeme (.word (toString position)) (.symbol ']' .nil)
    simpa [lexemes, text] using digits.symbol '['

theorem TokenPath.spells (path : TokenPath) : Spells path.lexemes path.text.toList := by
  obtain ⟨root, tail⟩ := path
  have steps : Spells (tail.flatMap TokenStep.lexemes) (tail.flatMap fun step => step.text.toList) := by
    induction tail with
    | nil => exact .nil
    | cons step later ih =>
      rw [List.flatMap_cons, List.flatMap_cons]
      exact step.spells.append ih
  simpa [lexemes, text, Lexeme.text, List.flatMap_map] using steps.lexeme (.name root)

theorem TokenOperand.spells (operand : TokenOperand) : Spells operand.lexemes operand.text.toList := by
  cases operand with
  | path target => exact target.spells
  | value token => exact .single (.value token)
  | size target =>
    simpa [lexemes, text, Lexeme.text] using (target.spells.parenthesized .nil).lexeme (.word "size")

theorem TokenOperand.spells_list (candidates : List TokenOperand) :
    Spells (listLexemes candidates) (", ".intercalate (candidates.map TokenOperand.text)).toList := by
  induction candidates with
  | nil => exact .nil
  | cons first later ih =>
    cases later with
    | nil => simpa [listLexemes] using first.spells
    | cons second later =>
      simpa [listLexemes, String.intercalate_cons_cons] using first.spells.append (ih.blank.symbol ',')

namespace TokenCondition

theorem spells_call (function : String) (path : TokenPath) {behind : List Lexeme} {chars : List Char}
    (spells : Spells behind chars) :
    Spells (callLexemes function path behind)
      (function.toList ++ '(' :: (path.text.toList ++ (chars ++ [')']))) := by
  have arguments := path.spells.append (spells.append (.symbol ')' .nil))
  simpa [callLexemes, Lexeme.text] using (arguments.symbol '(').lexeme (.word function)

theorem spells_grouped {needed : Bool} {inner : List Lexeme} {text : String} (spells : Spells inner text.toList) :
    Spells (groupedLexemes needed inner) (parenthesized needed text).toList := by
  cases needed with
  | false => exact spells
  | true => simpa [groupedLexemes, parenthesized] using spells.parenthesized .nil

/-- The lexemes of a condition spell its text, whatever its tokens look like. -/
theorem spells (condition : TokenCondition) : Spells condition.lexemes condition.text.toList := by
  induction condition with
  | compare op left right =>
    simpa [lexemes, Lexeme.text] using left.spells.append (right.spells.blank.lexeme (.comparison op)).blank
  | between subject low high =>
    simpa [lexemes] using subject.spells.keyword "BETWEEN" (low.spells.keyword "AND" high.spells)
  | isIn subject candidates =>
    simpa [lexemes] using subject.spells.keyword "IN" ((TokenOperand.spells_list candidates).parenthesized .nil)
  | «exists» path => simpa [lexemes] using spells_call "attribute_exists" path .nil
  | notExists path => simpa [lexemes] using spells_call "attribute_not_exists" path .nil
  | hasType path token =>
    have second : Spells [.symbol ',', .value token] (',' :: ' ' :: token.toList) :=
      (Spells.single (.value token)).blank.symbol ','
    simpa [lexemes] using spells_call "attribute_type" path second
  | beginsWith path start => simpa [lexemes] using spells_call "begins_with" path (start.spells.blank.symbol ',')
  | contains path element => simpa [lexemes] using spells_call "contains" path (element.spells.blank.symbol ',')
  | and left right ihLeft ihRight =>
    simpa [lexemes] using (spells_grouped ihLeft).keyword "AND" (spells_grouped ihRight)
  | or left right ihLeft ihRight => simpa [lexemes] using ihLeft.keyword "OR" ihRight
  | not inner ih => simpa [lexemes, Lexeme.text] using (ih.parenthesized .nil).blank.lexeme (.word "NOT")

end TokenCondition

/-! ## Conjunctions -/

namespace Formula

variable {α : Type}

/-- The conjunction of some formulas, of which there is at least one. -/
def all (first : Formula α) (rest : List (Formula α)) : Formula α :=
  rest.foldl .and first

theorem Same.all {first second : Formula α} (same : Same first second) (rest : List (Formula α)) :
    Same (first.all rest) (second.all rest) := by
  induction rest generalizing first second with
  | nil => exact same
  | cons next rest ih => exact ih (same.and (.refl next))

/-- A formula in front of others may as well be joined with all of them. -/
theorem and_all (first second : Formula α) (rest : List (Formula α)) :
    Same (.and first (second.all rest)) (first.all (second :: rest)) := by
  induction rest generalizing second with
  | nil => exact .refl _
  | cons next rest ih => exact (ih (.and second next)).trans ((and_assoc first second next).symm.all rest)

end Formula

namespace TokenCondition

/-- The conjunction of some conditions, grouped to the right. -/
def chain : TokenCondition → List TokenCondition → TokenCondition
  | single, [] => single
  | first, second :: rest => .and first (second.chain rest)

/-- A chain of conditions says the conjunction of what they say. -/
theorem formula?_chain {first : TokenCondition} {rest : List TokenCondition} {f : Formula Atom}
    {fs : List (Formula Atom)} (means : first.formula? names values = some f)
    (meanRest : rest.mapM (formula? names values) = some fs) :
    ∃ g, (first.regroup.chain (rest.map regroup)).formula? names values = some g ∧ g.Same (f.all fs) := by
  induction rest generalizing first f fs with
  | nil =>
    obtain rfl : [] = fs := by simpa using meanRest
    exact formula?_regroup means
  | cons second rest ih =>
    obtain ⟨g, meansSecond, gs, meanLater, rfl⟩ : ∃ g, second.formula? names values = some g ∧
        ∃ gs, rest.mapM (formula? names values) = some gs ∧ g :: gs = fs := by
      simpa [Option.bind_eq_some_iff] using meanRest
    obtain ⟨front, frontMeans, sameFront⟩ := formula?_regroup means
    obtain ⟨behind, behindMeans, sameBehind⟩ := ih meansSecond meanLater
    refine ⟨.and front behind, formula?_and.2 ⟨_, _, frontMeans, behindMeans, rfl⟩, ?_⟩
    exact (sameFront.and sameBehind).trans (Formula.and_all f g gs)

/-- So does their conjunction as one condition. -/
theorem formula?_foldl {first : TokenCondition} {rest : List TokenCondition} {f : Formula Atom}
    {fs : List (Formula Atom)} (means : first.formula? names values = some f)
    (meanRest : rest.mapM (formula? names values) = some fs) :
    (rest.foldl .and first).formula? names values = some (f.all fs) := by
  induction rest generalizing first f fs with
  | nil =>
    obtain rfl : [] = fs := by simpa using meanRest
    exact means
  | cons second rest ih =>
    obtain ⟨g, meansSecond, gs, meanLater, rfl⟩ : ∃ g, second.formula? names values = some g ∧
        ∃ gs, rest.mapM (formula? names values) = some gs ∧ g :: gs = fs := by
      simpa [Option.bind_eq_some_iff] using meanRest
    have both : (TokenCondition.and first second).formula? names values = some (.and f g) :=
      formula?_and.2 ⟨f, g, means, meansSecond, rfl⟩
    exact (ih both meanLater :)

/-- The lexemes of some conditions, each in parentheses and with `AND` between them. -/
def joinedLexemes : TokenCondition → List TokenCondition → List Lexeme
  | single, [] => groupedLexemes true single.lexemes
  | first, second :: rest => groupedLexemes true first.lexemes ++ .word "AND" :: second.joinedLexemes rest

/-- The text that they have. -/
def joinedText (first : TokenCondition) (rest : List TokenCondition) : String :=
  " AND ".intercalate ((first :: rest).map fun condition => parenthesized true condition.text)

theorem toList_joinedText_cons (first second : TokenCondition) (rest : List TokenCondition) :
    (first.joinedText (second :: rest)).toList =
      (parenthesized true first.text).toList ++ ' ' :: ("AND".toList ++ ' ' :: (second.joinedText rest).toList) := by
  simp [joinedText, String.intercalate_cons_cons]

theorem spells_joined (first : TokenCondition) (rest : List TokenCondition) :
    Spells (first.joinedLexemes rest) (first.joinedText rest).toList := by
  induction rest generalizing first with
  | nil =>
    have single : first.joinedText [] = parenthesized true first.text := by simp [joinedText]
    rw [single]
    exact spells_grouped first.spells
  | cons second rest ih =>
    rw [toList_joinedText_cons]
    exact (spells_grouped first.spells).keyword "AND" (ih second)

/-- The text is cut into these lexemes if all tokens in it look like tokens. -/
theorem lexemes_joinedText {first : TokenCondition} {rest : List TokenCondition}
    (readable : ∀ condition ∈ first :: rest, condition.Readable) :
    ItemExpr.lexemes (first.joinedText rest).toList = first.joinedLexemes rest := by
  have grouped : ∀ {condition : TokenCondition} {behind : List Char}, condition.Readable → Ends behind →
      ItemExpr.lexemes ((parenthesized true condition.text).toList ++ behind) =
        groupedLexemes true condition.lexemes ++ ItemExpr.lexemes behind := by
    intro condition behind readable ends
    rw [toList_parenthesized]
    exact lexemes_grouped ends (lexemes_text readable)
  induction rest generalizing first with
  | nil =>
    have text : (first.joinedText []).toList = (parenthesized true first.text).toList ++ [] := by simp [joinedText]
    rw [text, grouped (readable first (List.mem_cons_self ..)) ends_nil, ItemExpr.lexemes, List.append_nil]
    rfl
  | cons second rest ih =>
    rw [List.forall_mem_cons] at readable
    rw [toList_joinedText_cons, grouped readable.1 ends_blank, lexemes_blank, lexemes_keyword (by decide) ends_blank,
      lexemes_blank, ih readable.2]
    rfl

end TokenCondition

/-- Joined conditions are read as their chain. -/
theorem Grammar.conjunction_joined {first : TokenCondition} {rest : List TokenCondition}
    (filled : ∀ condition ∈ first :: rest, condition.Filled) :
    conjunction (first.joinedLexemes rest) =
      some (first.regroup.chain (rest.map TokenCondition.regroup), []) := by
  induction rest generalizing first with
  | nil =>
    have read := (reads (filled first (List.mem_cons_self ..))).2.negation_grouped []
    rw [List.append_nil] at read
    exact conjunction_of_other read (by simp)
  | cons second rest ih =>
    rw [List.forall_mem_cons] at filled
    have read := (reads filled.1).2.negation_grouped (.word "AND" :: second.joinedLexemes rest)
    rw [TokenCondition.joinedLexemes, conjunction_of_and read (length_behind ..), ih filled.2]
    rfl

/-- A condition that is bound has no empty list of candidates. -/
theorem BindsCondition.filled {s t : Session} {expr : Expr} {c : TokenCondition} (binds : BindsCondition s expr c t) :
    c.Filled := by
  induction binds with
  | and _ _ ihLeft ihRight | or _ _ _ ihLeft ihRight => exact ⟨ihLeft, ihRight⟩
  | not _ _ ih => exact ih
  | isIn _ nonempty _ all => exact all.ne_nil nonempty
  | _ => trivial

/-! ## What texts say -/

/-- A text is spelled by some lexemes, and what is read from them says a formula in some tables. -/
structure Expresses (names : Table String) (values : Table AttributeValue) (cut : List Lexeme) (text : String)
    (formula : Formula Atom) : Prop where
  spells : Spells cut text.toList
  reads : ∃ reading said, Grammar.disjunction cut = some (reading, []) ∧
    reading.formula? names values = some said ∧ said.Same formula

/-- The text of one condition says what the condition says. -/
theorem TokenCondition.expresses {condition : TokenCondition} {f : Formula Atom} (filled : condition.Filled)
    (means : condition.formula? names values = some f) :
    Expresses names values condition.lexemes condition.text f := by
  obtain ⟨said, readingMeans, same⟩ := formula?_regroup means
  have read : Grammar.disjunction (condition.lexemes ++ []) = some (condition.regroup, []) :=
    (Grammar.reads filled).2.whole (by simp [Grammar.StopsPath]) (by simp) (by simp)
  rw [List.append_nil] at read
  exact ⟨condition.spells, _, said, read, readingMeans, same⟩

/-- The texts of some conditions, joined, say the conjunction of what the conditions say. -/
theorem TokenCondition.expresses_joined {first : TokenCondition} {rest : List TokenCondition} {f : Formula Atom}
    {fs : List (Formula Atom)} (filled : ∀ condition ∈ first :: rest, condition.Filled)
    (means : first.formula? names values = some f) (meanRest : rest.mapM (formula? names values) = some fs) :
    ∃ text cut, joinConditions ((first :: rest).map TokenCondition.text) = some text ∧
      Expresses names values cut text (f.all fs) ∧
      ((∀ condition ∈ first :: rest, condition.Readable) → ItemExpr.lexemes text.toList = cut) := by
  cases rest with
  | nil =>
    obtain rfl : [] = fs := by simpa using meanRest
    refine ⟨first.text, first.lexemes, rfl, first.expresses (filled first (List.mem_cons_self ..)) means, ?_⟩
    intro readable
    have cut := lexemes_text (readable first (List.mem_cons_self ..)) ends_nil
    rwa [List.append_nil, ItemExpr.lexemes, List.append_nil] at cut
  | cons second rest =>
    obtain ⟨said, chainMeans, same⟩ := formula?_chain means meanRest
    have read := Grammar.disjunction_of_other (Grammar.conjunction_joined filled) (by simp)
    refine ⟨first.joinedText (second :: rest), first.joinedLexemes (second :: rest), ?_, ?_, lexemes_joinedText⟩
    · simp [joinConditions, joinedText, parenthesized, Function.comp_def]
    · exact ⟨spells_joined first (second :: rest), _, said, read, chainMeans, same⟩

end ItemExpr
