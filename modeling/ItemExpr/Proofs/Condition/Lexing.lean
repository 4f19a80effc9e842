import ItemExpr.Proofs.Condition.Grammar

/-!
# Cutting what was written

The text of a condition is cut into the lexemes that it was made of. This needs tokens that look like tokens, and it is
said of a text with anything behind it that cannot be taken for a part of its last lexeme.
-/

namespace ItemExpr

open NameTable (isTokenChar Spelled)

/-! ## Conditions with readable tokens -/

def TokenStep.Readable : TokenStep → Prop
  | .field token => Spelled "#" token
  | .index _ => True

def TokenPath.Readable (path : TokenPath) : Prop :=
  Spelled "#" path.root ∧ ∀ step ∈ path.tail, step.Readable

def TokenOperand.Readable : TokenOperand → Prop
  | .path target => target.Readable
  | .value token => Spelled ":" token
  | .size target => target.Readable

/-- The tokens of a condition are spelled as tokens of names and of values, and no list of candidates is empty. -/
def TokenCondition.Readable : TokenCondition → Prop
  | .compare _ left right => left.Readable ∧ right.Readable
  | .between subject low high => subject.Readable ∧ low.Readable ∧ high.Readable
  | .isIn subject candidates => subject.Readable ∧ candidates ≠ [] ∧ ∀ operand ∈ candidates, operand.Readable
  | .exists path => path.Readable
  | .notExists path => path.Readable
  | .hasType path token => path.Readable ∧ Spelled ":" token
  | .beginsWith path start => path.Readable ∧ start.Readable
  | .contains path element => path.Readable ∧ element.Readable
  | .and left right => left.Readable ∧ right.Readable
  | .or left right => left.Readable ∧ right.Readable
  | .not inner => inner.Readable

/-! ## The lexemes of a condition -/

def TokenStep.lexemes : TokenStep → List Lexeme
  | .field token => [.symbol '.', .name token]
  | .index position => [.symbol '[', .word (toString position), .symbol ']']

def TokenPath.lexemes (path : TokenPath) : List Lexeme :=
  .name path.root :: path.tail.flatMap TokenStep.lexemes

def TokenOperand.lexemes : TokenOperand → List Lexeme
  | .path target => target.lexemes
  | .value token => [.value token]
  | .size target => .word "size" :: .symbol '(' :: target.lexemes ++ [.symbol ')']

/-- Operands with commas between them. -/
def TokenOperand.listLexemes : List TokenOperand → List Lexeme
  | [] => []
  | [last] => last.lexemes
  | first :: rest => first.lexemes ++ .symbol ',' :: listLexemes rest

namespace TokenCondition

def groupedLexemes (needed : Bool) (inner : List Lexeme) : List Lexeme :=
  if needed then .symbol '(' :: inner ++ [.symbol ')'] else inner

/-- The lexemes of a call. -/
def callLexemes (function : String) (path : TokenPath) (behind : List Lexeme) : List Lexeme :=
  .word function :: .symbol '(' :: path.lexemes ++ behind ++ [.symbol ')']

def lexemes : TokenCondition → List Lexeme
  | .compare op left right => left.lexemes ++ .comparison op :: right.lexemes
  | .between subject low high =>
    subject.lexemes ++ .word "BETWEEN" :: low.lexemes ++ .word "AND" :: high.lexemes
  | .isIn subject candidates =>
    subject.lexemes ++ .word "IN" :: .symbol '(' :: TokenOperand.listLexemes candidates ++ [.symbol ')']
  | .exists path => callLexemes "attribute_exists" path []
  | .notExists path => callLexemes "attribute_not_exists" path []
  | .hasType path token => callLexemes "attribute_type" path [.symbol ',', .value token]
  | .beginsWith path start => callLexemes "begins_with" path (.symbol ',' :: start.lexemes)
  | .contains path element => callLexemes "contains" path (.symbol ',' :: element.lexemes)
  | .and left right => groupedLexemes left.isOr left.lexemes ++ .word "AND" :: groupedLexemes right.isOr right.lexemes
  | .or left right => left.lexemes ++ .word "OR" :: right.lexemes
  | .not inner => .word "NOT" :: .symbol '(' :: inner.lexemes ++ [.symbol ')']

end TokenCondition

/-! ## Cutting a text -/

/-- A text that cannot go on with a token that stands in front of it. -/
def Ends (rest : List Char) : Prop :=
  rest.takeWhile isTokenChar = []

variable {rest : List Char}

theorem ends_nil : Ends [] := rfl

theorem ends_cons {c : Char} (other : isTokenChar c = false) : Ends (c :: rest) := by
  simp [Ends, other]

theorem ends_blank : Ends (' ' :: rest) :=
  ends_cons (by decide)

theorem ends_open : Ends ('(' :: rest) :=
  ends_cons (by decide)

theorem ends_close : Ends (')' :: rest) :=
  ends_cons (by decide)

theorem ends_comma : Ends (',' :: rest) :=
  ends_cons (by decide)

theorem Ends.dropWhile (ends : Ends rest) : rest.dropWhile isTokenChar = rest := by
  have parts := List.takeWhile_append_dropWhile (p := isTokenChar) (l := rest)
  rwa [ends, List.nil_append] at parts

/-- Token characters go up to the end of the token. -/
theorem takeWhile_token {chars : List Char} (all : ∀ c ∈ chars, isTokenChar c = true) (ends : Ends rest) :
    (chars ++ rest).takeWhile isTokenChar = chars ∧ (chars ++ rest).dropWhile isTokenChar = rest := by
  rw [List.takeWhile_append_of_pos all, List.dropWhile_append_of_pos all, ends, ends.dropWhile, List.append_nil]
  exact ⟨rfl, rfl⟩

theorem lexemes_blank : lexemes (' ' :: rest) = lexemes rest := by
  rw [lexemes]

theorem lexemes_name {token : String} (spelled : Spelled "#" token) (ends : Ends rest) :
    lexemes (token.toList ++ rest) = .name token :: lexemes rest := by
  obtain ⟨chars, rfl, all⟩ := spelled
  obtain ⟨taken, dropped⟩ := takeWhile_token all ends
  have text : ("#" ++ String.ofList chars).toList ++ rest = '#' :: (chars ++ rest) := by simp
  rw [text, lexemes, taken, dropped, String.ofList_cons]
  rfl

theorem lexemes_value {token : String} (spelled : Spelled ":" token) (ends : Ends rest) :
    lexemes (token.toList ++ rest) = .value token :: lexemes rest := by
  obtain ⟨chars, rfl, all⟩ := spelled
  obtain ⟨taken, dropped⟩ := takeWhile_token all ends
  have text : (":" ++ String.ofList chars).toList ++ rest = ':' :: (chars ++ rest) := by simp
  rw [text, lexemes, taken, dropped, String.ofList_cons]
  rfl

/-- A character that neither starts a token nor a comparison, nor divides lexemes. -/
def isPlain (c : Char) : Bool :=
  !(c ∈ [' ', '<', '>', '=', '#', ':'])

theorem lexemes_of_isPlain {c : Char} (plain : isPlain c = true) :
    lexemes (c :: rest) =
      if isTokenChar c then
        .word (String.ofList (c :: rest.takeWhile isTokenChar)) :: lexemes (rest.dropWhile isTokenChar)
      else .symbol c :: lexemes rest := by
  simp only [isPlain, List.mem_cons, List.not_mem_nil, or_false, Bool.not_eq_true', decide_eq_false_iff_not,
    not_or] at plain
  obtain ⟨noBlank, noLess, noGreater, noEqual, noName, noValue⟩ := plain
  rw [lexemes] <;> simp_all

theorem lexemes_symbol {c : Char} (plain : isPlain c = true) (other : isTokenChar c = false) :
    lexemes (c :: rest) = .symbol c :: lexemes rest := by
  rw [lexemes_of_isPlain plain, other]
  rfl

theorem lexemes_open : lexemes ('(' :: rest) = .symbol '(' :: lexemes rest :=
  lexemes_symbol (by decide) (by decide)

theorem lexemes_close : lexemes (')' :: rest) = .symbol ')' :: lexemes rest :=
  lexemes_symbol (by decide) (by decide)

theorem lexemes_comma : lexemes (',' :: rest) = .symbol ',' :: lexemes rest :=
  lexemes_symbol (by decide) (by decide)

theorem isPlain_of_isTokenChar {c : Char} (token : isTokenChar c = true) : isPlain c = true := by
  simp only [isPlain, Bool.not_eq_true', decide_eq_false_iff_not]
  intro member
  simp only [List.mem_cons, List.not_mem_nil, or_false] at member
  rcases member with rfl | rfl | rfl | rfl | rfl | rfl <;> revert token <;> decide

theorem lexemes_word {word : List Char} (nonempty : word ≠ []) (all : ∀ c ∈ word, isTokenChar c = true)
    (ends : Ends rest) : lexemes (word ++ rest) = .word (String.ofList word) :: lexemes rest := by
  cases word with
  | nil => exact absurd rfl nonempty
  | cons c chars =>
    rw [List.forall_mem_cons] at all
    obtain ⟨taken, dropped⟩ := takeWhile_token all.2 ends
    rw [List.cons_append, lexemes_of_isPlain (isPlain_of_isTokenChar all.1), if_pos all.1, taken, dropped]

theorem lexemes_comparison (op : Comparison) :
    lexemes (op.symbol.toList ++ ' ' :: rest) = .comparison op :: lexemes rest := by
  cases op <;> simp [Comparison.symbol, lexemes]

/-! The texts of the parts of a condition, each with something behind it that ends it. -/

theorem lexemes_keyword {keyword : String}
    (word : keyword.toList ≠ [] ∧ keyword.toList.all isTokenChar = true) (ends : Ends rest) :
    lexemes (keyword.toList ++ rest) = .word keyword :: lexemes rest := by
  rw [lexemes_word word.1 (List.all_eq_true.1 word.2) ends, String.ofList_toList]

theorem lexemes_stepText {step : TokenStep} (readable : step.Readable) (ends : Ends rest) :
    lexemes (step.text.toList ++ rest) = step.lexemes ++ lexemes rest := by
  cases step with
  | field token =>
    have dot : lexemes ('.' :: (token.toList ++ rest)) = .symbol '.' :: lexemes (token.toList ++ rest) :=
      lexemes_symbol (by decide) (by decide)
    have text : (TokenStep.field token).text.toList ++ rest = '.' :: (token.toList ++ rest) := by
      simp [TokenStep.text]
    rw [text, dot, lexemes_name readable ends]
    rfl
  | index position =>
    have text : (TokenStep.index position).text.toList ++ rest =
        '[' :: (Text.digits position ++ ']' :: rest) := by
      simp [TokenStep.text, Text.digits]
    have nonempty : Text.digits position ≠ [] := Nat.toDigits_ne_nil
    have digits : String.ofList (Text.digits position) = toString position := by
      apply String.toList_injective
      simp [Text.digits]
    rw [text, lexemes_symbol (by decide) (by decide),
      lexemes_word nonempty (fun c => NameTable.isTokenChar_of_mem_digits) (ends_cons (by decide)), digits,
      lexemes_symbol (by decide) (by decide)]
    rfl

/-- A step starts with a character that ends what stands in front of it. -/
theorem ends_stepTexts {tail : List TokenStep} (ends : Ends rest) :
    Ends (tail.flatMap (fun step => step.text.toList) ++ rest) := by
  cases tail with
  | nil => exact ends
  | cons step later =>
    cases step <;> simp only [List.flatMap_cons, TokenStep.text, String.toList_append, List.append_assoc]
    · exact ends_cons (by decide)
    · exact ends_cons (by decide)

theorem lexemes_pathText {path : TokenPath} (readable : path.Readable) (ends : Ends rest) :
    lexemes (path.text.toList ++ rest) = path.lexemes ++ lexemes rest := by
  obtain ⟨root, tail⟩ := path
  obtain ⟨rootSpelled, stepsReadable⟩ := readable
  have steps : lexemes (tail.flatMap (fun step => step.text.toList) ++ rest) =
      tail.flatMap TokenStep.lexemes ++ lexemes rest := by
    clear rootSpelled
    induction tail with
    | nil => rfl
    | cons step later ih =>
      rw [List.forall_mem_cons] at stepsReadable
      rw [List.flatMap_cons, List.append_assoc, lexemes_stepText stepsReadable.1 (ends_stepTexts ends),
        ih stepsReadable.2, List.flatMap_cons, List.append_assoc]
  have text : (TokenPath.mk root tail).text.toList ++ rest =
      root.toList ++ (tail.flatMap (fun step => step.text.toList) ++ rest) := by
    simp [TokenPath.text, List.flatMap_map]
  rw [text, lexemes_name rootSpelled (ends_stepTexts ends), steps]
  rfl

theorem lexemes_operandText {operand : TokenOperand} (readable : operand.Readable) (ends : Ends rest) :
    lexemes (operand.text.toList ++ rest) = operand.lexemes ++ lexemes rest := by
  cases operand with
  | path target => exact lexemes_pathText readable ends
  | value token => exact lexemes_value readable ends
  | size target =>
    have text : (TokenOperand.size target).text.toList ++ rest =
        "size".toList ++ '(' :: (target.text.toList ++ ')' :: rest) := by
      simp [TokenOperand.text]
    rw [text, lexemes_keyword (by decide) ends_open, lexemes_open, lexemes_pathText readable ends_close, lexemes_close]
    simp [TokenOperand.lexemes]

theorem lexemes_candidatesText {candidates : List TokenOperand} (readable : ∀ operand ∈ candidates, operand.Readable)
    (ends : Ends rest) :
    lexemes ((", ".intercalate (candidates.map TokenOperand.text)).toList ++ rest) =
      TokenOperand.listLexemes candidates ++ lexemes rest := by
  induction candidates with
  | nil => rfl
  | cons first later ih =>
    rw [List.forall_mem_cons] at readable
    cases later with
    | nil =>
      simp only [List.map_cons, List.map_nil, String.intercalate_singleton]
      exact lexemes_operandText readable.1 ends
    | cons second later =>
      have text : (", ".intercalate ((first :: second :: later).map TokenOperand.text)).toList ++ rest =
          first.text.toList ++
            ',' :: ' ' :: ((", ".intercalate ((second :: later).map TokenOperand.text)).toList ++ rest) := by
        simp [String.intercalate_cons_cons]
      rw [text, lexemes_operandText readable.1 ends_comma, lexemes_comma, lexemes_blank, ih readable.2]
      simp [TokenOperand.listLexemes]

namespace TokenCondition

/-- A call, where the text behind its path is known to be cut well. -/
theorem lexemes_callText {function : String} {path : TokenPath} {text : List Char} {behind : List Lexeme}
    (word : function.toList ≠ [] ∧ function.toList.all isTokenChar = true) (readable : path.Readable)
    (ends : Ends (text ++ ')' :: rest))
    (cut : ItemExpr.lexemes (text ++ ')' :: rest) = behind ++ .symbol ')' :: ItemExpr.lexemes rest) :
    ItemExpr.lexemes (function.toList ++ '(' :: (path.text.toList ++ (text ++ ')' :: rest))) =
      callLexemes function path behind ++ ItemExpr.lexemes rest := by
  rw [lexemes_keyword word ends_open, lexemes_open, lexemes_pathText readable ends, cut]
  simp [callLexemes]

theorem lexemes_noArgument :
    ItemExpr.lexemes ([] ++ ')' :: rest) = [] ++ .symbol ')' :: ItemExpr.lexemes rest :=
  lexemes_close

theorem lexemes_secondArgument {operand : TokenOperand} (readable : operand.Readable) :
    ItemExpr.lexemes (',' :: ' ' :: (operand.text.toList ++ ')' :: rest)) =
      .symbol ',' :: operand.lexemes ++ .symbol ')' :: ItemExpr.lexemes rest := by
  rw [lexemes_comma, lexemes_blank, lexemes_operandText readable ends_close, lexemes_close]
  rfl

theorem lexemes_grouped {text : List Char} {inner : List Lexeme} {needed : Bool} (ends : Ends rest)
    (cut : ∀ {rest}, Ends rest → ItemExpr.lexemes (text ++ rest) = inner ++ ItemExpr.lexemes rest) :
    ItemExpr.lexemes ((if needed then '(' :: (text ++ [')']) else text) ++ rest) =
      groupedLexemes needed inner ++ ItemExpr.lexemes rest := by
  cases needed with
  | false => exact cut ends
  | true =>
    simp only [if_true, List.cons_append, List.append_assoc, List.nil_append, groupedLexemes]
    rw [lexemes_open, cut ends_close, lexemes_close]

theorem toList_parenthesized (needed : Bool) (text : String) :
    (parenthesized needed text).toList = if needed then '(' :: (text.toList ++ [')']) else text.toList := by
  cases needed <;> simp [parenthesized]

/-- A text is cut into the lexemes that it was made of. -/
theorem lexemes_text {condition : TokenCondition} (readable : condition.Readable) (ends : Ends rest) :
    ItemExpr.lexemes (condition.text.toList ++ rest) = condition.lexemes ++ ItemExpr.lexemes rest := by
  -- Each text is written out as its parts with the rest behind them, and cut part by part. A part is cut off where it
  -- should be because a character that is none of a token's stands behind it.
  induction condition generalizing rest with
  | compare op left right =>
    have shape : (TokenCondition.compare op left right).text.toList ++ rest =
        left.text.toList ++ ' ' :: (op.symbol.toList ++ ' ' :: (right.text.toList ++ rest)) := by
      simp
    rw [shape, lexemes_operandText readable.1 ends_blank, lexemes_blank, lexemes_comparison,
      lexemes_operandText readable.2 ends]
    simp [lexemes]
  | between subject low high =>
    have shape : (TokenCondition.between subject low high).text.toList ++ rest =
        subject.text.toList ++ ' ' :: ("BETWEEN".toList ++ ' ' :: (low.text.toList ++
          ' ' :: ("AND".toList ++ ' ' :: (high.text.toList ++ rest)))) := by
      simp
    obtain ⟨subjectReadable, lowReadable, highReadable⟩ := readable
    rw [shape, lexemes_operandText subjectReadable ends_blank, lexemes_blank,
      lexemes_keyword (by decide) ends_blank, lexemes_blank,
      lexemes_operandText lowReadable ends_blank, lexemes_blank,
      lexemes_keyword (by decide) ends_blank, lexemes_blank,
      lexemes_operandText highReadable ends]
    simp [lexemes]
  | isIn subject candidates =>
    have shape : (TokenCondition.isIn subject candidates).text.toList ++ rest =
        subject.text.toList ++ ' ' :: ("IN".toList ++ ' ' :: '(' ::
          ((", ".intercalate (candidates.map TokenOperand.text)).toList ++ ')' :: rest)) := by
      simp
    obtain ⟨subjectReadable, _, candidatesReadable⟩ := readable
    rw [shape, lexemes_operandText subjectReadable ends_blank, lexemes_blank,
      lexemes_keyword (by decide) ends_blank, lexemes_blank,
      lexemes_open, lexemes_candidatesText candidatesReadable ends_close, lexemes_close]
    simp [lexemes]
  | «exists» path =>
    have shape : (TokenCondition.exists path).text.toList ++ rest =
        "attribute_exists".toList ++ '(' :: (path.text.toList ++ ([] ++ ')' :: rest)) := by
      simp
    rw [shape, lexemes_callText (by decide) readable ends_close lexemes_noArgument, lexemes]
  | notExists path =>
    have shape : (TokenCondition.notExists path).text.toList ++ rest =
        "attribute_not_exists".toList ++ '(' :: (path.text.toList ++ ([] ++ ')' :: rest)) := by
      simp
    rw [shape, lexemes_callText (by decide) readable ends_close lexemes_noArgument, lexemes]
  | hasType path token =>
    have shape : (TokenCondition.hasType path token).text.toList ++ rest =
        "attribute_type".toList ++ '(' ::
          (path.text.toList ++ (',' :: ' ' :: (TokenOperand.value token).text.toList ++ ')' :: rest)) := by
      simp [TokenOperand.text]
    have operandReadable : (TokenOperand.value token).Readable := readable.2
    rw [shape, lexemes_callText (by decide) readable.1 ends_comma
      (lexemes_secondArgument operandReadable)]
    simp [lexemes, TokenOperand.lexemes]
  | beginsWith path start =>
    have shape : (TokenCondition.beginsWith path start).text.toList ++ rest =
        "begins_with".toList ++ '(' :: (path.text.toList ++ (',' :: ' ' :: start.text.toList ++ ')' :: rest)) := by
      simp
    rw [shape, lexemes_callText (by decide) readable.1 ends_comma
      (lexemes_secondArgument readable.2), lexemes]
  | contains path element =>
    have shape : (TokenCondition.contains path element).text.toList ++ rest =
        "contains".toList ++ '(' :: (path.text.toList ++ (',' :: ' ' :: element.text.toList ++ ')' :: rest)) := by
      simp
    rw [shape, lexemes_callText (by decide) readable.1 ends_comma
      (lexemes_secondArgument readable.2), lexemes]
  | and left right ihLeft ihRight =>
    have shape : (TokenCondition.and left right).text.toList ++ rest =
        (parenthesized left.isOr left.text).toList ++ ' ' :: ("AND".toList ++ ' ' ::
          ((parenthesized right.isOr right.text).toList ++ rest)) := by
      simp
    rw [shape, toList_parenthesized, lexemes_grouped ends_blank (ihLeft readable.1), lexemes_blank,
      lexemes_keyword (by decide) ends_blank, lexemes_blank, toList_parenthesized,
      lexemes_grouped ends (ihRight readable.2)]
    simp [lexemes]
  | or left right ihLeft ihRight =>
    have shape : (TokenCondition.or left right).text.toList ++ rest =
        left.text.toList ++ ' ' :: ("OR".toList ++ ' ' :: (right.text.toList ++ rest)) := by
      simp
    rw [shape, ihLeft readable.1 ends_blank, lexemes_blank,
      lexemes_keyword (by decide) ends_blank, lexemes_blank, ihRight readable.2 ends]
    simp [lexemes]
  | not inner ih =>
    have shape : (TokenCondition.not inner).text.toList ++ rest =
        "NOT".toList ++ ' ' :: '(' :: (inner.text.toList ++ ')' :: rest) := by
      simp
    rw [shape, lexemes_keyword (by decide) ends_blank, lexemes_blank,
      lexemes_open, ih readable ends_close, lexemes_close]
    simp [lexemes]

end TokenCondition

end ItemExpr
