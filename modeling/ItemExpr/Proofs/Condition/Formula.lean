import ItemExpr.Proofs.Binding

/-!
# What conditions say

A condition says something about the places of an item: it is a formula over comparisons of places and stored values.
Trees and conditions over tokens both stand for formulas, a tree through what a session knows of names and literals, and
a condition over tokens through the two tables of a request. Binding keeps the formula: `BindsCondition.formula?` says
that the tables of the session, and all tables that they grow into, give the condition the formula of the tree.
-/

namespace ItemExpr

open Session

/-! ## Formulas -/

/-- A place in an item: an attribute and the steps below it. -/
structure Place where
  attributeName : String
  tail : List PathStep
deriving DecidableEq, Repr

/-- What a condition compares. -/
inductive Term where
  | place (place : Place)
  | value (stored : AttributeValue)
  | size (place : Place)

/-- A statement about places and values in which there is no logic. -/
inductive Atom where
  | compare (op : Comparison) (left right : Term)
  | between (subject low high : Term)
  | isIn (subject : Term) (candidates : List Term)
  | exists (place : Place)
  | notExists (place : Place)
  | hasType (place : Place) (descriptor : AttributeValue)
  | beginsWith (place : Place) (start : Term)
  | contains (place : Place) (element : Term)

/-- A formula over statements of any kind. -/
inductive Formula (α : Type) where
  | atom (statement : α)
  | and (left right : Formula α)
  | or (left right : Formula α)
  | not (inner : Formula α)

namespace Formula

variable {α : Type}

/-- The statements of a formula from left to right. -/
def atoms : Formula α → List α
  | .atom statement => [statement]
  | .and left right | .or left right => left.atoms ++ right.atoms
  | .not inner => inner.atoms

/-- Whether a formula holds if its statements are as true as `truth` says, which counts them from `start` on: two
occurrences of one statement may differ. -/
def holds (truth : Nat → Bool) : (start : Nat) → Formula α → Bool
  | start, .atom _ => truth start
  | start, .and left right => left.holds truth start && right.holds truth (start + left.atoms.length)
  | start, .or left right => left.holds truth start || right.holds truth (start + left.atoms.length)
  | start, .not inner => !inner.holds truth start

/-- Two formulas say the same: they have the same statements in the same order, and are true together. -/
def Same (first second : Formula α) : Prop :=
  first.atoms = second.atoms ∧ ∀ truth start, first.holds truth start = second.holds truth start

theorem Same.refl (formula : Formula α) : Same formula formula :=
  ⟨rfl, fun _ _ => rfl⟩

theorem Same.symm {first second : Formula α} (same : Same first second) : Same second first :=
  ⟨same.1.symm, fun truth start => (same.2 truth start).symm⟩

theorem Same.trans {first second third : Formula α} (left : Same first second) (right : Same second third) :
    Same first third :=
  ⟨left.1.trans right.1, fun truth start => (left.2 truth start).trans (right.2 truth start)⟩

theorem Same.and {first second third fourth : Formula α} (left : Same first second) (right : Same third fourth) :
    Same (.and first third) (.and second fourth) := by
  refine ⟨by simp only [atoms, left.1, right.1], fun truth start => ?_⟩
  simp only [holds, left.1, left.2, right.2]

theorem Same.or {first second third fourth : Formula α} (left : Same first second) (right : Same third fourth) :
    Same (.or first third) (.or second fourth) := by
  refine ⟨by simp only [atoms, left.1, right.1], fun truth start => ?_⟩
  simp only [holds, left.1, left.2, right.2]

theorem Same.not {first second : Formula α} (inner : Same first second) : Same (.not first) (.not second) := by
  refine ⟨inner.1, fun truth start => ?_⟩
  simp only [holds, inner.2]

theorem and_assoc (first second third : Formula α) :
    Same (.and (.and first second) third) (.and first (.and second third)) := by
  refine ⟨by simp only [atoms, List.append_assoc], fun truth start => ?_⟩
  simp only [holds, atoms, List.length_append, Bool.and_assoc, Nat.add_assoc]

theorem or_assoc (first second third : Formula α) :
    Same (.or (.or first second) third) (.or first (.or second third)) := by
  refine ⟨by simp only [atoms, List.append_assoc], fun truth start => ?_⟩
  simp only [holds, atoms, List.length_append, Bool.or_assoc, Nat.add_assoc]

end Formula

/-! ## The formula of a tree -/

/-- What is known of names and of literals. -/
structure Knowledge where
  property : String → Option Property
  encode : Value → Option Property → Option AttributeValue

/-- What a session knows. -/
def Session.knowledge (session : Session) : Knowledge where
  property name := (session.property name).toOption
  encode value rules := (session.encode value rules none).toOption

namespace Knowledge

/-- The place that a path leads to. -/
def place? (known : Knowledge) (path : Path) : Option Place :=
  match path.steps with
  | .field root :: tail => (known.property root).map fun property => ⟨property.attributeName, tail⟩
  | _ => none

/-- The rules for a literal beside a tree, which a path gives it. -/
def rulesBeside (known : Knowledge) : Expr → Option Property
  | .member ⟨.field root :: tail⟩ => (known.property root).bind (·.rulesAt tail)
  | _ => none

/-- What a tree stands for beside another one. -/
def term? (known : Knowledge) (rules : Option Property) : Expr → Option Term
  | .member path => (known.place? path).map .place
  | .constant value => (known.encode value rules).map .value
  | .call "size" [.member path] => (known.place? path).map .size
  | _ => none

/-- What a call says. -/
def atom? (known : Knowledge) (method : String) (args : List Expr) : Option Atom :=
  match method, args with
  | "attribute_exists", [.member path] => (known.place? path).map .exists
  | "attribute_not_exists", [.member path] => (known.place? path).map .notExists
  | "attribute_type", [.member path, .constant (.string descriptor)] =>
    (known.place? path).map (.hasType · (.string descriptor))
  | "begins_with", [.member path, start] => do
    return .beginsWith (← known.place? path) (← known.term? (known.rulesBeside (.member path)) start)
  | "contains", [.member path, element] => do
    return .contains (← known.place? path) (← known.term? (known.rulesBeside (.member path)) element)
  | "between", [tested, low, high] => do
    let rules := known.rulesBeside tested
    return .between (← known.term? none tested) (← known.term? rules low) (← known.term? rules high)
  | "in", tested :: candidates => do
    return .isIn (← known.term? none tested) (← candidates.mapM (known.term? (known.rulesBeside tested)))
  | _, _ => none

/-- What a tree says. In a comparison each side gives its rules to the other. -/
def formula? (known : Knowledge) : Expr → Option (Formula Atom)
  | .binary (.logical .and) left right => do return .and (← formula? known left) (← formula? known right)
  | .binary (.logical .or) left right => do return .or (← formula? known left) (← formula? known right)
  | .binary (.comparison op) left right => do
    let l ← known.term? (known.rulesBeside right) left
    let r ← known.term? (known.rulesBeside left) right
    return .atom (.compare op l r)
  | .not inner => (formula? known inner).map .not
  | .call method args => (known.atom? method args).map .atom
  | _ => none

end Knowledge

/-! ## The formula of a condition over tokens -/

/-- The step that a step over tokens stands for. -/
def TokenStep.step? (names : Table String) : TokenStep → Option PathStep
  | .field token => (names.value? token).map .field
  | .index position => some (.index position)

/-- The place that a path over tokens leads to. -/
def TokenPath.place? (names : Table String) (path : TokenPath) : Option Place := do
  return ⟨← names.value? path.root, ← path.tail.mapM (TokenStep.step? names)⟩

/-- What an operand over tokens stands for. -/
def TokenOperand.term? (names : Table String) (values : Table AttributeValue) : TokenOperand → Option Term
  | .path target => (target.place? names).map .place
  | .value token => (values.value? token).map .value
  | .size target => (target.place? names).map .size

/-- What a condition over tokens says. -/
def TokenCondition.formula? (names : Table String) (values : Table AttributeValue) :
    TokenCondition → Option (Formula Atom)
  | .compare op left right => do
    return .atom (.compare op (← left.term? names values) (← right.term? names values))
  | .between subject low high => do
    return .atom (.between (← subject.term? names values) (← low.term? names values) (← high.term? names values))
  | .isIn subject candidates => do
    return .atom (.isIn (← subject.term? names values) (← candidates.mapM (TokenOperand.term? names values)))
  | .exists path => (path.place? names).map (.atom ∘ .exists)
  | .notExists path => (path.place? names).map (.atom ∘ .notExists)
  | .hasType path token => do return .atom (.hasType (← path.place? names) (← values.value? token))
  | .beginsWith path start => do return .atom (.beginsWith (← path.place? names) (← start.term? names values))
  | .contains path element => do return .atom (.contains (← path.place? names) (← element.term? names values))
  | .and left right => do return .and (← left.formula? names values) (← right.formula? names values)
  | .or left right => do return .or (← left.formula? names values) (← right.formula? names values)
  | .not inner => (inner.formula? names values).map .not

/-! ## Binding keeps the formula -/

variable {s t : Session} {names : Table String} {values : Table AttributeValue}

theorem Session.Grows.knowledge {before after : Session} (grows : Grows before after) :
    after.knowledge = before.knowledge := by
  simp only [Session.knowledge, grows.property, grows.encode]

/-- Tables that those of a session may have grown into. -/
def Session.Within (session : Session) (names : Table String) (values : Table AttributeValue) : Prop :=
  session.names.bindings <+: names ∧ session.values <+: values

theorem Session.Grows.within {before after : Session} (grows : Grows before after)
    (within : after.Within names values) : before.Within names values :=
  ⟨grows.prefix_names.trans within.1, grows.values.trans within.2⟩

theorem BindsSteps.step? {first final : NameTable} {tail : List PathStep} {steps : List TokenStep}
    (binds : BindsSteps first tail steps final) (distinct : first.Distinct) (more : final.bindings <+: names) :
    steps.mapM (TokenStep.step? names) = some tail := by
  induction binds with
  | nil => rfl
  | @field first final name rest steps later ih =>
    -- What is bound further along the path is behind this token, so it still stands for its name.
    have bound : names.value? (first.bind name).1 = some name := by
      obtain ⟨attributeNames, rfl⟩ := later.names
      exact Table.value?_of_prefix ((NameTable.bindings_prefix_bindAll ..).trans more)
        (NameTable.attribute?_bind distinct name)
    simp [List.mapM_cons, TokenStep.step?, bound, ih (distinct.bind name) more]
  | index _ ih => simp [List.mapM_cons, TokenStep.step?, ih distinct more]

theorem Resolves.place? {path : Path} {resolved : ResolvedPath} (resolves : Resolves s path resolved t)
    (distinct : s.names.Distinct) (more : t.names.bindings <+: names) :
    ∃ place, s.knowledge.place? path = some place ∧ resolved.path.place? names = some place := by
  cases resolves with
  | @root root tail property steps final found checked flat binds =>
    refine ⟨⟨property.attributeName, tail⟩, ?_, ?_⟩
    · simp [Knowledge.place?, Session.knowledge, found, Except.toOption]
    · have bound : names.value? (s.names.bind property.attributeName).1 = some property.attributeName := by
        obtain ⟨attributeNames, rfl⟩ := binds.names
        exact Table.value?_of_prefix ((NameTable.bindings_prefix_bindAll ..).trans more)
          (NameTable.attribute?_bind distinct _)
      simp [TokenPath.place?, bound, binds.step? (distinct.bind _) more]

theorem Resolves.rulesBeside {path : Path} {resolved : ResolvedPath} (resolves : Resolves s path resolved t) :
    s.knowledge.rulesBeside (.member path) = resolved.rules := by
  cases resolves with
  | root found => simp [Knowledge.rulesBeside, Session.knowledge, found, Except.toOption]

theorem BindsOperand.term? {rules : Option Property} {expr : Expr} {operand : TokenOperand}
    (binds : BindsOperand s rules expr operand t) (distinct : s.names.Distinct) (within : t.Within names values) :
    ∃ term, s.knowledge.term? rules expr = some term ∧ operand.term? names values = some term := by
  cases binds with
  | path resolves =>
    obtain ⟨place, source, bound⟩ := resolves.place? distinct within.1
    exact ⟨.place place, by simp [Knowledge.term?, source], by simp [TokenOperand.term?, bound]⟩
  | @value value stored token t encoded run =>
    have bound := Table.value?_of_prefix within.2 (value?_bindValue run (.refl _))
    refine ⟨.value stored, ?_, by simp [TokenOperand.term?, bound]⟩
    simp [Knowledge.term?, Session.knowledge, encoded, Except.toOption]
  | size _ resolves =>
    obtain ⟨place, source, bound⟩ := resolves.place? distinct within.1
    exact ⟨.size place, by simp [Knowledge.term?, source], by simp [TokenOperand.term?, bound]⟩

theorem BindsAll.term? {rules : Option Property} {exprs : List Expr} {operands : List TokenOperand}
    (binds : BindsAll rules s exprs operands t) (distinct : s.names.Distinct) (within : t.Within names values) :
    ∃ terms, exprs.mapM (s.knowledge.term? rules) = some terms ∧
      operands.mapM (TokenOperand.term? names values) = some terms := by
  induction binds with
  | nil => exact ⟨[], rfl, rfl⟩
  | cons first rest ih =>
    obtain ⟨term, source, bound⟩ := first.term? distinct (rest.grows.within within)
    obtain ⟨terms, sources, bounds⟩ := ih (first.grows.distinct distinct) within
    rw [first.grows.knowledge] at sources
    exact ⟨term :: terms, by simp [List.mapM_cons, source, sources], by simp [List.mapM_cons, bound, bounds]⟩

theorem Knowledge.rulesBeside_of_not_member {known : Knowledge} {expr : Expr} (noPath : ∀ path, expr ≠ .member path) :
    known.rulesBeside expr = none := by
  cases expr with
  | member path => exact absurd rfl (noPath path)
  | _ => rfl

/-- A path stands for its place whatever rules stand beside it. -/
theorem Resolves.term? {path : Path} {resolved : ResolvedPath} (resolves : Resolves s path resolved t)
    (distinct : s.names.Distinct) (within : t.Within names values) (rules : Option Property) :
    ∃ term, s.knowledge.term? rules (.member path) = some term ∧
      (TokenOperand.path resolved.path).term? names values = some term := by
  have binds : BindsOperand s rules (.member path) (.path resolved.path) t := .path resolves
  exact binds.term? distinct within

theorem BindsPair.term? {left right : Expr} {l r : TokenOperand} (binds : BindsPair s left right l r t)
    (distinct : s.names.Distinct) (within : t.Within names values) :
    ∃ first second, s.knowledge.term? (s.knowledge.rulesBeside right) left = some first ∧
      s.knowledge.term? (s.knowledge.rulesBeside left) right = some second ∧
      l.term? names values = some first ∧ r.term? names values = some second := by
  cases binds with
  | pathLeft resolves other =>
    obtain ⟨first, source, bound⟩ := resolves.term? distinct (other.grows.within within) _
    obtain ⟨second, sourceOther, boundOther⟩ := other.term? (resolves.grows.distinct distinct) within
    rw [resolves.grows.knowledge, ← resolves.rulesBeside] at sourceOther
    exact ⟨first, second, source, sourceOther, bound, boundOther⟩
  -- The path is on the right but bound first, so the literal is encoded in the session behind it.
  | pathRight noPath resolves other =>
    obtain ⟨second, source, bound⟩ := resolves.term? distinct (other.grows.within within) _
    obtain ⟨first, sourceOther, boundOther⟩ := other.term? (resolves.grows.distinct distinct) within
    rw [resolves.grows.knowledge, ← resolves.rulesBeside] at sourceOther
    exact ⟨first, second, sourceOther, source, boundOther, bound⟩
  | noPath noLeft noRight bindsLeft bindsRight =>
    obtain ⟨first, sourceLeft, boundLeft⟩ := bindsLeft.term? distinct (bindsRight.grows.within within)
    obtain ⟨second, sourceRight, boundRight⟩ := bindsRight.term? (bindsLeft.grows.distinct distinct) within
    rw [bindsLeft.grows.knowledge] at sourceRight
    rw [Knowledge.rulesBeside_of_not_member noLeft, Knowledge.rulesBeside_of_not_member noRight]
    exact ⟨first, second, sourceLeft, sourceRight, boundLeft, boundRight⟩

theorem BindsSubject.term? {expr : Expr} {operand : TokenOperand} {rules : Option Property}
    (binds : BindsSubject s expr operand rules t) (distinct : s.names.Distinct) (within : t.Within names values) :
    ∃ term, s.knowledge.term? none expr = some term ∧ operand.term? names values = some term ∧
      s.knowledge.rulesBeside expr = rules := by
  cases binds with
  | path resolves =>
    obtain ⟨term, source, bound⟩ := resolves.term? distinct within none
    exact ⟨term, source, bound, resolves.rulesBeside⟩
  | other noPath binds =>
    obtain ⟨term, source, bound⟩ := binds.term? distinct within
    exact ⟨term, source, bound, Knowledge.rulesBeside_of_not_member noPath⟩

/-- Binding keeps the formula, whatever is bound later. -/
theorem BindsCondition.formula? {expr : Expr} {c : TokenCondition} (binds : BindsCondition s expr c t)
    (distinct : s.names.Distinct) (within : t.Within names values) :
    ∃ formula, s.knowledge.formula? expr = some formula ∧ c.formula? names values = some formula := by
  induction binds with
  -- Each side has its own session: the left one must be read in tables that the right one has grown, and the right one
  -- knows what the left one knew.
  | and left right ihLeft ihRight =>
    obtain ⟨f, source, bound⟩ := ihLeft distinct (right.grows.within within)
    obtain ⟨g, source', bound'⟩ := ihRight (left.grows.distinct distinct) within
    rw [left.grows.knowledge] at source'
    exact ⟨.and f g, by simp [Knowledge.formula?, source, source'], by simp [TokenCondition.formula?, bound, bound']⟩
  | or _ left right ihLeft ihRight =>
    obtain ⟨f, source, bound⟩ := ihLeft distinct (right.grows.within within)
    obtain ⟨g, source', bound'⟩ := ihRight (left.grows.distinct distinct) within
    rw [left.grows.knowledge] at source'
    exact ⟨.or f g, by simp [Knowledge.formula?, source, source'], by simp [TokenCondition.formula?, bound, bound']⟩
  | not _ _ ih =>
    obtain ⟨f, source, bound⟩ := ih distinct within
    exact ⟨.not f, by simp [Knowledge.formula?, source], by simp [TokenCondition.formula?, bound]⟩
  | @compare s t op left right l r pins _ _ _ pair =>
    obtain ⟨first, second, sourceLeft, sourceRight, boundLeft, boundRight⟩ := pair.term? distinct within
    exact ⟨.atom (.compare op first second), by simp [Knowledge.formula?, sourceLeft, sourceRight],
      by simp [TokenCondition.formula?, boundLeft, boundRight]⟩
  | «exists» _ resolves =>
    obtain ⟨place, source, bound⟩ := resolves.place? distinct within.1
    exact ⟨.atom (.exists place), by simp [Knowledge.formula?, Knowledge.atom?, source],
      by simp [TokenCondition.formula?, bound]⟩
  | notExists _ resolves =>
    obtain ⟨place, source, bound⟩ := resolves.place? distinct within.1
    exact ⟨.atom (.notExists place), by simp [Knowledge.formula?, Knowledge.atom?, source],
      by simp [TokenCondition.formula?, bound]⟩
  | @hasType s u t path resolved descriptor token _ _ resolves run =>
    obtain ⟨place, source, bound⟩ := resolves.place? distinct ((grows_bindValue run).within within).1
    have boundToken := Table.value?_of_prefix within.2 (value?_bindValue run (.refl _))
    exact ⟨.atom (.hasType place (.string descriptor)), by simp [Knowledge.formula?, Knowledge.atom?, source],
      by simp [TokenCondition.formula?, bound, boundToken]⟩
  | beginsWith _ resolves other =>
    obtain ⟨place, source, bound⟩ := resolves.place? distinct (other.grows.within within).1
    obtain ⟨term, sourceOther, boundOther⟩ := other.term? (resolves.grows.distinct distinct) within
    rw [resolves.grows.knowledge, ← resolves.rulesBeside] at sourceOther
    exact ⟨.atom (.beginsWith place term), by simp [Knowledge.formula?, Knowledge.atom?, source, sourceOther],
      by simp [TokenCondition.formula?, bound, boundOther]⟩
  | contains _ resolves other =>
    obtain ⟨place, source, bound⟩ := resolves.place? distinct (other.grows.within within).1
    obtain ⟨term, sourceOther, boundOther⟩ := other.term? (resolves.grows.distinct distinct) within
    rw [resolves.grows.knowledge, ← resolves.rulesBeside] at sourceOther
    exact ⟨.atom (.contains place term), by simp [Knowledge.formula?, Knowledge.atom?, source, sourceOther],
      by simp [TokenCondition.formula?, bound, boundOther]⟩
  -- The rules for both bounds are those of the session before anything was bound.
  | between _ tested low high =>
    obtain ⟨term, source, bound, rules⟩ :=
      tested.term? distinct (low.grows.within (high.grows.within within))
    obtain ⟨first, sourceLow, boundLow⟩ := low.term? (tested.grows.distinct distinct) (high.grows.within within)
    obtain ⟨second, sourceHigh, boundHigh⟩ :=
      high.term? (low.grows.distinct (tested.grows.distinct distinct)) within
    rw [tested.grows.knowledge, ← rules] at sourceLow
    rw [low.grows.knowledge, tested.grows.knowledge, ← rules] at sourceHigh
    exact ⟨.atom (.between term first second),
      by simp [Knowledge.formula?, Knowledge.atom?, source, sourceLow, sourceHigh],
      by simp [TokenCondition.formula?, bound, boundLow, boundHigh]⟩
  -- As for the bounds, all candidates have the rules of what is tested.
  | isIn _ _ tested all =>
    obtain ⟨term, source, bound, rules⟩ := tested.term? distinct (all.grows.within within)
    obtain ⟨terms, sources, bounds⟩ := all.term? (tested.grows.distinct distinct) within
    rw [tested.grows.knowledge, ← rules] at sources
    exact ⟨.atom (.isIn term terms), by simp [Knowledge.formula?, Knowledge.atom?, source, sources],
      by simp [TokenCondition.formula?, bound, bounds]⟩

end ItemExpr
