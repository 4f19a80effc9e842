import ItemExpr.Proofs.Binding.Readable
import ItemExpr.Proofs.Placeholder.Tokens

/-!
# Every token is written where it is bound

What a derivation binds and what it writes are the same tokens: each name token that it writes is bound afterwards, each
one that it binds is written, and the value tokens that it writes are those that it binds, in the same order. Value
tokens are numbered without gaps as long as no one else binds any.
-/

namespace ItemExpr

open Session

/-- The value tokens of a session are those that it has issued, in their order. -/
def Session.Numbered (session : Session) : Prop :=
  session.values.map (·.1) = (List.range session.tokens.issued).map session.tokens.token

/-- From one session to another the tokens in some lexemes are bound, and no others. -/
structure Emits (s : Session) (written : List Lexeme) (t : Session) : Prop where
  sigil : t.tokens.sigil = s.tokens.sigil
  legible : s.Legible → t.Legible
  names : ∀ token, token ∈ t.names.bindings.map (·.1) ↔
    token ∈ s.names.bindings.map (·.1) ∨ token ∈ written.filterMap (Lexeme.token? '#')
  values : t.values.map (·.1) = s.values.map (·.1) ++ written.filterMap (Lexeme.token? ':')
  numbered : s.Numbered → t.Numbered

variable {s t u : Session} {written more : List Lexeme}

namespace Emits

/-- A change to anything but the tables and the source of value tokens binds nothing. -/
theorem of_sameTables (names : t.names = s.names) (values : t.values = s.values) (tokens : t.tokens = s.tokens) :
    Emits s [] t where
  sigil := by rw [tokens]
  legible legible := ⟨names ▸ legible.names, tokens ▸ legible.valueSigil⟩
  names token := by simp [names]
  values := by simp [values]
  numbered numbered := by rwa [Numbered, values, tokens]

theorem refl (session : Session) : Emits session [] session :=
  of_sameTables rfl rfl rfl

theorem trans (earlier : Emits s written u) (later : Emits u more t) : Emits s (written ++ more) t where
  sigil := later.sigil.trans earlier.sigil
  legible := later.legible ∘ earlier.legible
  names token := by
    rw [later.names, earlier.names, List.filterMap_append, List.mem_append, or_assoc]
  values := by
    rw [later.values, earlier.values, List.filterMap_append, List.append_assoc]
  numbered := later.numbered ∘ earlier.numbered

/-- What is bound from another session with the same tables on is bound from this one on. -/
theorem of_start (emits : Emits u written t) (names : u.names = s.names) (values : u.values = s.values)
    (tokens : u.tokens = s.tokens) : Emits s written t :=
  (of_sameTables names values tokens).trans emits

/-- Only the tokens among the lexemes count. -/
theorem of_tokens (emits : Emits s written t)
    (tokens : ∀ sigil, more.filterMap (Lexeme.token? sigil) = written.filterMap (Lexeme.token? sigil)) :
    Emits s more t :=
  ⟨emits.sigil, emits.legible, tokens '#' ▸ emits.names, tokens ':' ▸ emits.values, emits.numbered⟩

/-- A text has the tokens that are among its lexemes. -/
theorem of_text {text : List Char} (emits : Emits s written t)
    (tokens : ∀ sigil, sigil = '#' ∨ sigil = ':' → tokensIn sigil text = written.filterMap (Lexeme.token? sigil)) :
    Emits s (lexemes text) t where
  sigil := emits.sigil
  legible := emits.legible
  names token := by
    rw [← tokensIn_eq_lexemes (.inl rfl), tokens _ (.inl rfl), emits.names]
  values := by
    rw [← tokensIn_eq_lexemes (.inr rfl), tokens _ (.inr rfl), emits.values]
  numbered := emits.numbered

/-- A text that is cut into some lexemes with nothing behind it. -/
theorem of_cut {text : List Char} (emits : Emits s written t) (cut : lexemes (text ++ []) = written ++ lexemes []) :
    Emits s (lexemes text) t := by
  have nothing : lexemes [] = [] := by rw [lexemes]
  rw [List.append_nil, nothing, List.append_nil] at cut
  exact cut ▸ emits

end Emits

/-! ## Names -/

theorem NameTable.mem_bind (table : NameTable) (attributeName token : String) :
    token ∈ (table.bind attributeName).2.bindings.map (·.1) ↔
      token ∈ table.bindings.map (·.1) ∨ token = (table.bind attributeName).1 := by
  obtain ⟨old, found, bound⟩ | ⟨n, _, _, bound⟩ := table.bind_cases attributeName <;> rw [bound]
  · have member : old ∈ table.bindings.map (·.1) := List.mem_map_of_mem (NameTable.mem_of_token? found)
    exact ⟨.inl, fun either => either.elim id fun same => same ▸ member⟩
  · simp

theorem TokenPath.lexemes_values (path : TokenPath) : path.lexemes.filterMap (Lexeme.token? ':') = [] := by
  obtain ⟨root, tail⟩ := path
  simp only [TokenPath.lexemes, List.filterMap_cons, Lexeme.token?_name_of_value]
  induction tail with
  | nil => rfl
  | cons step rest ih => cases step <;> simpa [TokenStep.lexemes, List.filterMap_cons] using ih

theorem BindsSteps.emits {first final : NameTable} {tail : List PathStep} {steps : List TokenStep}
    (binds : BindsSteps first tail steps final) (token : String) :
    token ∈ final.bindings.map (·.1) ↔
      token ∈ first.bindings.map (·.1) ∨
        token ∈ (steps.flatMap TokenStep.lexemes).filterMap (Lexeme.token? '#') := by
  induction binds with
  | nil => simp
  | field _ ih =>
    rw [ih, NameTable.mem_bind, or_assoc]
    simp [TokenStep.lexemes, List.filterMap_cons]
  | index _ ih =>
    rw [ih]
    simp [TokenStep.lexemes, List.filterMap_cons]

theorem Resolves.emits {path : Path} {resolved : ResolvedPath} (resolves : Resolves s path resolved t) :
    Emits s resolved.path.lexemes t := by
  refine ⟨resolves.grows.sigil, resolves.grows.legible, fun token => ?_, ?_, ?_⟩
  · cases resolves with
    | root found checked flat steps =>
      rw [steps.emits, NameTable.mem_bind, or_assoc]
      simp [TokenPath.lexemes]
  · rw [TokenPath.lexemes_values, List.append_nil]
    cases resolves
    rfl
  · cases resolves
    exact id

/-! ## Values -/

theorem TokenSource.nextFree_of_free {source : TokenSource} {bindings : Table AttributeValue} (attempts : Nat)
    (free : bindings.binds (source.token source.issued) = false) : source.nextFree bindings attempts = source.next := by
  cases attempts with
  | zero => rfl
  | succ attempts => simp [nextFree, next, free]

/-- Where the tokens are numbered the next number is free. -/
theorem Session.Numbered.free (numbered : s.Numbered) :
    Table.binds s.values (s.tokens.token s.tokens.issued) = false := by
  rw [Bool.eq_false_iff]
  intro bound
  rw [Table.binds_iff, numbered, List.mem_map] at bound
  obtain ⟨n, member, same⟩ := bound
  have := TokenSource.token_injective same
  have := List.mem_range.1 member
  omega

/-- Where the tokens are numbered each has the number of its position. -/
theorem Session.Numbered.keys (numbered : s.Numbered) :
    s.values.map (·.1) = (List.range s.values.length).map s.tokens.token := by
  have issued : s.values.length = s.tokens.issued := by
    simpa using congrArg List.length numbered
  rw [numbered, issued]

/-- The next value token is the next number. -/
theorem Session.Numbered.bindValue {value : AttributeValue} {token : String} (numbered : s.Numbered)
    (run : SessionM.bindValue value s = .ok token t) : t.Numbered := by
  have both : EStateM.Result.ok (s.tokens.nextFree s.values s.values.length).1 { s with
      tokens := (s.tokens.nextFree s.values s.values.length).2
      values := s.values ++ [((s.tokens.nextFree s.values s.values.length).1, value)] } = .ok token t := run
  rw [TokenSource.nextFree_of_free _ numbered.free] at both
  cases both
  show (s.values ++ [(s.tokens.token s.tokens.issued, value)]).map (·.1) =
    (List.range (s.tokens.issued + 1)).map s.tokens.token
  rw [List.map_append, numbered, List.range_succ, List.map_append]
  rfl

theorem emits_bindValue {value : AttributeValue} {token : String}
    (run : SessionM.bindValue value s = .ok token t) : Emits s [.value token] t where
  sigil := (grows_bindValue run).sigil
  legible := (grows_bindValue run).legible
  names token := by
    obtain ⟨n, _, _, _, rfl⟩ := SessionM.bindValue_eq_ok run
    simp [List.filterMap_cons]
  values := by
    obtain ⟨n, _, rfl, _, rfl⟩ := SessionM.bindValue_eq_ok run
    simp
  numbered numbered := numbered.bindValue run

/-! ## Operands -/

theorem BindsOperand.emits {rules : Option Property} {expr : Expr} {operand : TokenOperand}
    (binds : BindsOperand s rules expr operand t) : Emits s operand.lexemes t := by
  cases binds with
  | path resolves => exact resolves.emits
  | value _ run => exact emits_bindValue run
  | size _ resolves =>
    exact resolves.emits.of_tokens fun sigil => by simp [TokenOperand.lexemes, List.filterMap_cons]

theorem BindsAll.emits {rules : Option Property} {exprs : List Expr} {operands : List TokenOperand}
    (binds : BindsAll rules s exprs operands t) : Emits s (TokenOperand.listLexemes operands) t := by
  induction binds with
  | nil => exact .refl _
  | @cons s u t expr rest operand operands first later ih =>
    cases operands with
    | nil =>
      cases later
      exact first.emits
    | cons second others =>
      refine (first.emits.trans ih).of_tokens fun sigil => ?_
      simp [TokenOperand.listLexemes, List.filterMap_cons]

theorem BindsPair.emits {left right : Expr} {l r : TokenOperand} (binds : BindsPair s left right l r t) :
    Emits s (l.lexemes ++ r.lexemes) t := by
  cases binds with
  | pathLeft resolves other => exact resolves.emits.trans other.emits
  -- The path is bound before what stands in front of it, but there are no value tokens in it.
  | @pathRight path resolved u t left operand noPath resolves other =>
    have emits := resolves.emits.trans other.emits
    refine ⟨emits.sigil, emits.legible, fun token => ?_, ?_, emits.numbered⟩
    · rw [emits.names]
      simp [TokenOperand.lexemes, or_comm]
    · rw [emits.values]
      simp [TokenOperand.lexemes, TokenPath.lexemes_values]
  | noPath _ _ first second => exact first.emits.trans second.emits

theorem BindsSubject.emits {expr : Expr} {operand : TokenOperand} {rules : Option Property}
    (binds : BindsSubject s expr operand rules t) : Emits s operand.lexemes t := by
  cases binds with
  | path resolves => exact resolves.emits
  | other _ binds => exact binds.emits

/-! ## Conditions and updates -/

@[simp] theorem TokenCondition.tokens_grouped (sigil : Char) (needed : Bool) (inner : List Lexeme) :
    (groupedLexemes needed inner).filterMap (Lexeme.token? sigil) = inner.filterMap (Lexeme.token? sigil) := by
  cases needed <;> simp [groupedLexemes, List.filterMap_cons]

@[simp] theorem TokenCondition.tokens_call (sigil : Char) (function : String) (path : TokenPath)
    (behind : List Lexeme) :
    (callLexemes function path behind).filterMap (Lexeme.token? sigil) =
      path.lexemes.filterMap (Lexeme.token? sigil) ++ behind.filterMap (Lexeme.token? sigil) := by
  simp [callLexemes, List.filterMap_cons]

theorem BindsCondition.emits {expr : Expr} {c : TokenCondition} (binds : BindsCondition s expr c t) :
    Emits s c.lexemes t := by
  induction binds with
  | and _ _ ihLeft ihRight | or _ _ _ ihLeft ihRight =>
    refine (ihLeft.trans ihRight).of_tokens fun sigil => ?_
    simp [TokenCondition.lexemes, List.filterMap_cons]
  | not _ _ ih =>
    refine ih.of_tokens fun sigil => ?_
    simp [TokenCondition.lexemes, List.filterMap_cons]
  | @compare s t op left right l r _ _ _ _ pair =>
    have emits : Emits s (TokenCondition.compare op l r).lexemes t := pair.emits.of_tokens fun sigil => by
      simp [TokenCondition.lexemes, List.filterMap_cons]
    exact ⟨emits.sigil, (grows_noting ..).legible ∘ emits.legible, emits.names, emits.values, emits.numbered⟩
  | «exists» _ resolves | notExists _ resolves =>
    refine resolves.emits.of_tokens fun sigil => ?_
    simp [TokenCondition.lexemes]
  | hasType _ _ resolves run =>
    refine (resolves.emits.trans (emits_bindValue run)).of_tokens fun sigil => ?_
    simp [TokenCondition.lexemes, List.filterMap_cons]
  | beginsWith _ resolves other | contains _ resolves other =>
    refine (resolves.emits.trans other.emits).of_tokens fun sigil => ?_
    simp [TokenCondition.lexemes, List.filterMap_cons]
  | between _ subject low high =>
    refine (subject.emits.trans (low.emits.trans high.emits)).of_tokens fun sigil => ?_
    simp [TokenCondition.lexemes, List.filterMap_cons]
  | isIn _ _ subject all =>
    refine (subject.emits.trans all.emits).of_tokens fun sigil => ?_
    simp [TokenCondition.lexemes, List.filterMap_cons]

theorem BindsUpdateValue.emits {rules : Option Property} {expr : Expr} {value : TokenValue}
    (binds : BindsUpdateValue s rules expr value t) : Emits s value.lexemes t := by
  induction binds with
  | operand _ binds => exact binds.emits
  | add _ _ ihFirst ihSecond | subtract _ _ ihFirst ihSecond | listAppend _ _ ihFirst ihSecond =>
    refine (ihFirst.trans ihSecond).of_tokens fun sigil => ?_
    simp [TokenValue.lexemes, List.filterMap_cons]
  | ifNotExists resolves _ ih =>
    refine (resolves.emits.trans ih).of_tokens fun sigil => ?_
    simp [TokenValue.lexemes, List.filterMap_cons]

theorem BindsUpdate.emits {assignment : Assignment} {update : TokenUpdate} (binds : BindsUpdate s assignment update t) :
    Emits s update.lexemes t := by
  cases binds with
  | set resolves _ value =>
    refine (resolves.emits.trans value.emits).of_tokens fun sigil => ?_
    simp [TokenUpdate.lexemes, List.filterMap_cons]
  | remove resolves => exact resolves.emits
  | add _ resolves _ operand | delete resolves _ operand => exact resolves.emits.trans operand.emits

end ItemExpr
