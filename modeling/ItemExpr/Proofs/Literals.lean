import Mathlib.Data.List.Forall2
import ItemExpr.Condition
import ItemExpr.Proofs.Placeholder.Emission

/-!
# The rules of literals

A literal that a method of a property takes is bound under the rules of that property, whichever method it is: its own
rules, or what is left of them for a path below it. A size has no rules, and the descriptor of a type is stored as it
is. So the literals of a condition or an action, in their order, stand for the value tokens of what it is compiled to.
-/

namespace ItemExpr

open Session

/-! ## Literals and their receivers -/

/-- What a literal is given to. -/
inductive Receiver where
  | property (path : PropertyPath)
  | size
  | descriptor

structure Literal where
  receiver : Receiver
  value : Value

/-- The rules of a property for a literal that is given to a path from it: its own, and below it only its encryption. -/
def Property.rulesFor (property : Property) : List PathStep → Option Property
  | [] => some property
  | _ :: _ => if property.encrypted then some { property with format := none, timezone := .none, geo := none } else none

/-- What is stored for a literal in a session. -/
inductive Literal.Stores (session : Session) : Literal → AttributeValue → Prop where
  | property {path : PropertyPath} {property : Property} {value : Value} {stored : AttributeValue} :
    session.property path.root = .ok property →
    session.encode value (property.rulesFor path.tail) none = .ok stored →
      Stores session ⟨.property path, value⟩ stored
  | size {value : Value} {stored : AttributeValue} :
    session.encode value none none = .ok stored → Stores session ⟨.size, value⟩ stored
  | descriptor {text : String} : Stores session ⟨.descriptor, .string text⟩ (.string text)

/-- A token stands for a literal: it is bound to what is stored for the literal in a session. -/
def Literal.StandsFor (session : Session) (values : Table AttributeValue) (literal : Literal) (token : String) : Prop :=
  ∃ stored, values.value? token = some stored ∧ literal.Stores session stored

/-- The literal that an operand may be. -/
def Operand.literals (path : PropertyPath) : Operand → List Literal
  | .literal value => [⟨.property path, value⟩]
  | .property _ => []

namespace Condition

/-- The literals of a condition, in the order in which they stand in it. -/
def literals : Condition → List Literal
  | .compare _ path operand => operand.literals path
  | .between path low high => low.literals path ++ high.literals path
  | .isIn path candidates => candidates.flatMap (·.literals path)
  | .exists _ | .notExists _ => []
  | .hasType _ descriptor => [⟨.descriptor, .string descriptor⟩]
  | .beginsWith path start => start.literals path
  | .contains path element => [⟨.property path, element⟩]
  | .compareSize _ _ n => [⟨.size, .number (.uint n)⟩]
  | .sizeBetween _ low high => [⟨.size, .number (.uint low)⟩, ⟨.size, .number (.uint high)⟩]
  | .and left right | .or left right => left.literals ++ right.literals
  | .not inner => inner.literals
  | .ofExpr _ => []

/-- A condition in which no tree is built by hand. -/
def OfMethods : Condition → Prop
  | .and left right | .or left right => left.OfMethods ∧ right.OfMethods
  | .not inner => inner.OfMethods
  | .ofExpr _ => False
  | _ => True

end Condition

namespace Action

/-- The literals of an action. -/
def literals : Action → List Literal
  | .set path operand | .setIfNotExists path operand => operand.literals path
  | .remove _ => []
  | .increment path value | .setSum path value | .setDifference path value | .addElements path value
  | .deleteElements path value | .append path value | .prepend path value => [⟨.property path, value⟩]
  | .ofAssignment _ => []

/-- An action whose assignment is not built by hand. -/
def OfMethods : Action → Prop
  | .ofAssignment _ => False
  | _ => True

end Action

/-- The value tokens among some lexemes, in their order. -/
def valueTokens (written : List Lexeme) : List String :=
  written.filterMap (Lexeme.token? ':')

variable {s t u : Session} {path : PropertyPath} {rules : Option Property} {values more : Table AttributeValue}

/-! ## Later sessions -/

theorem Session.Grows.stores {literal : Literal} {stored : AttributeValue} (grows : Grows s t)
    (stores : literal.Stores t stored) : literal.Stores s stored := by
  cases stores with
  | property found encoded => exact .property (grows.property ▸ found) (grows.encode ▸ encoded)
  | size encoded => exact .size (grows.encode ▸ encoded)
  | descriptor => exact .descriptor

/-- Tokens go on to stand for the same literals, and did so from an earlier session on. -/
theorem stand_mono {literals : List Literal} {tokens : List String}
    (stand : List.Forall₂ (Literal.StandsFor t values) literals tokens) (earlier : Grows s t)
    (grown : values <+: more) : List.Forall₂ (Literal.StandsFor s more) literals tokens := by
  refine stand.imp fun literal token ⟨stored, bound, stores⟩ => ?_
  exact ⟨stored, Table.value?_of_prefix grown bound, earlier.stores stores⟩

/-- Only the value tokens among the lexemes count. -/
theorem stand_of_tokens {literals : List Literal} {written others : List Lexeme}
    (stand : List.Forall₂ (Literal.StandsFor s values) literals (valueTokens written))
    (tokens : valueTokens others = valueTokens written) :
    List.Forall₂ (Literal.StandsFor s values) literals (valueTokens others) :=
  tokens ▸ stand

theorem stand_nil {written : List Lexeme} (tokens : valueTokens written = []) :
    List.Forall₂ (Literal.StandsFor s values) [] (valueTokens written) :=
  tokens ▸ .nil

/-- What is bound by one run and by another behind it. -/
theorem stand_trans {first second : List Literal} {written others : List Lexeme}
    (front : List.Forall₂ (Literal.StandsFor s u.values) first (valueTokens written))
    (behind : List.Forall₂ (Literal.StandsFor u t.values) second (valueTokens others))
    (earlier : Grows s u) (later : Grows u t) :
    List.Forall₂ (Literal.StandsFor s t.values) (first ++ second) (valueTokens (written ++ others)) := by
  rw [valueTokens, List.filterMap_append]
  exact List.rel_append (stand_mono front (.refl s) later.values) (stand_mono behind earlier List.prefix_rfl)

/-! ## Operands -/

theorem Property.rulesAt_eq (property : Property) (tail : List PathStep) :
    property.rulesAt tail = property.rulesFor tail := by
  cases tail <;> rfl

/-- A session gives rules to the literals of a path. -/
def Session.GivesRules (session : Session) (path : PropertyPath) (rules : Option Property) : Prop :=
  ∃ property, session.property path.root = .ok property ∧ rules = property.rulesFor path.tail

theorem Resolves.givesRules {resolved : ResolvedPath} (resolves : Resolves s path.toPath resolved t) :
    t.GivesRules path resolved.rules := by
  have grows := resolves.grows
  cases resolves with
  | root found => exact ⟨_, grows.property ▸ found, Property.rulesAt_eq ..⟩

theorem Session.Grows.givesRules (grows : Grows s t) (gives : s.GivesRules path rules) : t.GivesRules path rules := by
  obtain ⟨property, found, same⟩ := gives
  exact ⟨property, grows.property ▸ found, same⟩

/-- The token of a literal stands for it. -/
theorem BindsOperand.literal (literal : Literal) {bound : TokenOperand}
    (binds : BindsOperand s rules (.constant literal.value) bound t)
    (stores : ∀ {stored}, s.encode literal.value rules none = .ok stored → literal.Stores s stored) :
    List.Forall₂ (Literal.StandsFor s t.values) [literal] (valueTokens bound.lexemes) := by
  cases binds with
  | value encoded run => exact .cons ⟨_, value?_bindValue run (.refl t), stores encoded⟩ .nil

theorem BindsOperand.propertyLiteral {value : Value} {bound : TokenOperand}
    (binds : BindsOperand s rules (.constant value) bound t) (gives : s.GivesRules path rules) :
    List.Forall₂ (Literal.StandsFor s t.values) [⟨.property path, value⟩] (valueTokens bound.lexemes) := by
  obtain ⟨property, found, rfl⟩ := gives
  exact BindsOperand.literal ⟨.property path, value⟩ binds (.property found)

theorem BindsOperand.literals {operand : Operand} {bound : TokenOperand}
    (binds : BindsOperand s rules operand.toExpr bound t) (gives : s.GivesRules path rules) :
    List.Forall₂ (Literal.StandsFor s t.values) (operand.literals path) (valueTokens bound.lexemes) := by
  cases operand with
  | literal value => exact binds.propertyLiteral gives
  | property other =>
    cases binds with
    | @path _ resolved => exact stand_nil (TokenPath.lexemes_values resolved.path)

theorem BindsAll.literals {operands : List Operand} {bound : List TokenOperand}
    (binds : BindsAll rules s (operands.map Operand.toExpr) bound t) (gives : s.GivesRules path rules) :
    List.Forall₂ (Literal.StandsFor s t.values) (operands.flatMap (·.literals path))
      (valueTokens (TokenOperand.listLexemes bound)) := by
  induction operands generalizing s bound with
  | nil =>
    cases binds
    exact .nil
  | cons operand rest ih =>
    cases binds with
    | @cons _ u _ _ _ first others binds later =>
      have behind := ih later (binds.grows.givesRules gives)
      refine stand_of_tokens (stand_trans (binds.literals gives) behind binds.grows later.grows) ?_
      cases others <;> simp [valueTokens, TokenOperand.listLexemes, List.filterMap_cons]

theorem BindsOperand.valueTokens_size {args : List Expr} {bound : TokenOperand}
    (binds : BindsOperand s rules (.call "size" args) bound t) : valueTokens bound.lexemes = [] := by
  cases binds with
  | size => simp [valueTokens, TokenOperand.lexemes, TokenPath.lexemes_values, List.filterMap_cons]

/-! ## Conditions -/

theorem BindsCondition.literals {condition : Condition} {c : TokenCondition} (typed : condition.OfMethods)
    (binds : BindsCondition s condition.toExpr c t) :
    List.Forall₂ (Literal.StandsFor s t.values) condition.literals (valueTokens c.lexemes) := by
  induction condition generalizing s t c with
  | compare op path operand =>
    cases binds with
    | compare _ _ _ pair =>
      obtain ⟨resolved, u, resolves, other, rfl⟩ := pair.of_member
      refine stand_of_tokens (stand_mono (other.literals resolves.givesRules) resolves.grows List.prefix_rfl) ?_
      simp [valueTokens, TokenCondition.lexemes, TokenOperand.lexemes, TokenPath.lexemes_values, List.filterMap_cons]
  | between path low high =>
    obtain ⟨_, l, h, rules, u, v, tested, lowBinds, highBinds, rfl⟩ := binds.of_between
    obtain ⟨resolved, resolves, rfl, rfl⟩ := tested.of_member
    have gives := resolves.givesRules
    have behind := highBinds.literals (lowBinds.grows.givesRules gives)
    have bounds := stand_trans (lowBinds.literals gives) behind lowBinds.grows highBinds.grows
    refine stand_of_tokens (stand_mono bounds resolves.grows List.prefix_rfl) ?_
    simp [valueTokens, TokenCondition.lexemes, TokenOperand.lexemes, TokenPath.lexemes_values, List.filterMap_cons]
  | isIn path candidates =>
    obtain ⟨_, operands, rules, u, tested, all, rfl⟩ := binds.of_in
    obtain ⟨resolved, resolves, rfl, rfl⟩ := tested.of_member
    refine stand_of_tokens (stand_mono (all.literals resolves.givesRules) resolves.grows List.prefix_rfl) ?_
    simp [valueTokens, TokenCondition.lexemes, TokenOperand.lexemes, TokenPath.lexemes_values, List.filterMap_cons]
  | «exists» path | notExists path =>
    obtain ⟨resolved, resolves, rfl | rfl⟩ := binds.of_single
    all_goals
      apply stand_nil
      simp [valueTokens, TokenCondition.lexemes, TokenPath.lexemes_values]
  | hasType path descriptor =>
    obtain ⟨resolved, token, u, resolves, run, rfl⟩ := binds.of_hasType
    have tokens : valueTokens (TokenCondition.hasType resolved.path token).lexemes = [token] := by
      simp [valueTokens, TokenCondition.lexemes, TokenPath.lexemes_values, List.filterMap_cons]
    rw [tokens]
    exact .cons ⟨_, value?_bindValue run (.refl t), .descriptor⟩ .nil
  | beginsWith path start =>
    obtain ⟨resolved, operand, u, resolves, other, rfl⟩ := binds.of_beginsWith
    refine stand_of_tokens (stand_mono (other.literals resolves.givesRules) resolves.grows List.prefix_rfl) ?_
    simp [valueTokens, TokenCondition.lexemes, TokenPath.lexemes_values, List.filterMap_cons]
  | contains path element =>
    obtain ⟨resolved, operand, u, resolves, other, rfl⟩ := binds.of_contains
    refine stand_of_tokens (stand_mono (other.propertyLiteral resolves.givesRules) resolves.grows List.prefix_rfl) ?_
    simp [valueTokens, TokenCondition.lexemes, TokenPath.lexemes_values, List.filterMap_cons]
  | compareSize op path n =>
    cases binds with
    | compare _ _ _ pair =>
      obtain ⟨u, size, literal⟩ := pair.of_size
      have stands := literal.literal ⟨.size, .number (.uint n)⟩ .size
      refine stand_of_tokens (stand_mono stands size.grows List.prefix_rfl) ?_
      have noTokens := size.valueTokens_size
      simp_all [valueTokens, TokenCondition.lexemes, List.filterMap_cons]
  | sizeBetween path low high =>
    obtain ⟨_, l, h, rules, u, v, tested, lowBinds, highBinds, rfl⟩ := binds.of_between
    obtain ⟨size, rfl⟩ := tested.of_size
    have front := lowBinds.literal ⟨.size, .number (.uint low)⟩ .size
    have behind := highBinds.literal ⟨.size, .number (.uint high)⟩ .size
    have bounds := stand_trans front behind lowBinds.grows highBinds.grows
    refine stand_of_tokens (stand_mono bounds size.grows List.prefix_rfl) ?_
    have noTokens := size.valueTokens_size
    simp_all [valueTokens, TokenCondition.lexemes, List.filterMap_cons]
  | and left right ihLeft ihRight =>
    cases binds with
    | and first second =>
      have both := stand_trans (ihLeft typed.1 first) (ihRight typed.2 second) first.grows second.grows
      refine stand_of_tokens both ?_
      simp [valueTokens, TokenCondition.lexemes, List.filterMap_cons]
  | or left right ihLeft ihRight =>
    cases binds with
    | or _ first second =>
      have both := stand_trans (ihLeft typed.1 first) (ihRight typed.2 second) first.grows second.grows
      refine stand_of_tokens both ?_
      simp [valueTokens, TokenCondition.lexemes, List.filterMap_cons]
  | not inner ih =>
    cases binds with
    | not _ binds =>
      refine stand_of_tokens (ih typed binds) ?_
      simp [valueTokens, TokenCondition.lexemes, List.filterMap_cons]
  | ofExpr => exact typed.elim

/-! ## Actions -/

theorem BindsUpdateValue.literals (operand : Operand) {value : TokenValue}
    (binds : BindsUpdateValue s rules operand.toExpr value t) (gives : s.GivesRules path rules) :
    List.Forall₂ (Literal.StandsFor s t.values) (operand.literals path) (valueTokens value.lexemes) := by
  cases operand with
  | literal | property =>
    cases binds with
    | operand _ binds => exact binds.literals gives

/-- Two values that are bound one after the other. -/
theorem BindsUpdateValue.literals_append (left right : Operand) {l r : TokenValue}
    (first : BindsUpdateValue s rules left.toExpr l u) (second : BindsUpdateValue u rules right.toExpr r t)
    (gives : s.GivesRules path rules) :
    List.Forall₂ (Literal.StandsFor s t.values) (left.literals path ++ right.literals path)
      (valueTokens (l.lexemes ++ r.lexemes)) :=
  stand_trans (first.literals left gives) (second.literals right (first.grows.givesRules gives)) first.grows
    second.grows

theorem BindsUpdate.literals {action : Action} {update : TokenUpdate} (typed : action.OfMethods)
    (binds : BindsUpdate s action.toAssignment update t) :
    List.Forall₂ (Literal.StandsFor s t.values) action.literals (valueTokens update.lexemes) := by
  cases action with
  | set path operand =>
    have noCall : ∀ method args, operand.toExpr = .call method args → 2 ≤ args.length := by
      intro method args same
      cases operand <;> cases same
    obtain ⟨resolved, value, u, resolves, bound, rfl⟩ := binds.of_value noCall
    refine stand_of_tokens (stand_mono (bound.literals operand resolves.givesRules) resolves.grows List.prefix_rfl) ?_
    simp [valueTokens, TokenUpdate.lexemes, TokenPath.lexemes_values, List.filterMap_cons]
  | setIfNotExists path operand =>
    obtain ⟨resolved, value, u, resolves, bound, rfl⟩ := binds.of_value (by simp)
    -- The path is tested by the call, so it gives its rules a second time.
    obtain ⟨tested, inner, v, resolvesAgain, fallback, rfl⟩ := bound.of_ifNotExists
    have stands := fallback.literals operand resolvesAgain.givesRules
    refine stand_of_tokens (stand_mono stands (resolves.grows.trans resolvesAgain.grows) List.prefix_rfl) ?_
    simp [valueTokens, TokenUpdate.lexemes, TokenValue.lexemes, TokenPath.lexemes_values, List.filterMap_cons]
  | remove path =>
    obtain ⟨resolved, _, rfl⟩ := binds.of_empty
    exact stand_nil (TokenPath.lexemes_values resolved.path)
  | increment path value | addElements path value | deleteElements path value =>
    obtain ⟨resolved, operand, u, resolves, bound, rfl | rfl⟩ := binds.of_single
    all_goals
      have stands := bound.propertyLiteral resolves.givesRules
      refine stand_of_tokens (stand_mono stands resolves.grows List.prefix_rfl) ?_
      simp [valueTokens, TokenUpdate.lexemes, TokenPath.lexemes_values]
  | setSum path value =>
    obtain ⟨resolved, sum, u, resolves, bound, rfl⟩ := binds.of_value (by simp)
    cases bound with
    | operand _ binds => cases binds
    | add first second =>
      have stands := first.literals_append (.property path) (.literal value) second resolves.givesRules
      refine stand_of_tokens (stand_mono stands resolves.grows List.prefix_rfl) ?_
      simp [valueTokens, TokenUpdate.lexemes, TokenValue.lexemes, TokenPath.lexemes_values, List.filterMap_cons]
  | setDifference path value =>
    obtain ⟨resolved, difference, u, resolves, bound, rfl⟩ := binds.of_value (by simp)
    cases bound with
    | operand _ binds => cases binds
    | subtract first second =>
      have stands := first.literals_append (.property path) (.literal value) second resolves.givesRules
      refine stand_of_tokens (stand_mono stands resolves.grows List.prefix_rfl) ?_
      simp [valueTokens, TokenUpdate.lexemes, TokenValue.lexemes, TokenPath.lexemes_values, List.filterMap_cons]
  | append path value =>
    obtain ⟨resolved, list, u, resolves, bound, rfl⟩ := binds.of_value (by simp)
    obtain ⟨l, r, v, first, second, rfl⟩ := bound.of_listAppend
    have stands := first.literals_append (.property path) (.literal value) second resolves.givesRules
    refine stand_of_tokens (stand_mono stands resolves.grows List.prefix_rfl) ?_
    simp [valueTokens, TokenUpdate.lexemes, TokenValue.lexemes, TokenPath.lexemes_values, List.filterMap_cons]
  | prepend path value =>
    obtain ⟨resolved, list, u, resolves, bound, rfl⟩ := binds.of_value (by simp)
    obtain ⟨l, r, v, first, second, rfl⟩ := bound.of_listAppend
    have stands := first.literals_append (.literal value) (.property path) second resolves.givesRules
    refine stand_of_tokens (stand_mono stands resolves.grows List.prefix_rfl) ?_
    simp [valueTokens, TokenUpdate.lexemes, TokenValue.lexemes, TokenPath.lexemes_values, List.filterMap_cons]
  | ofAssignment => exact typed.elim

end ItemExpr
