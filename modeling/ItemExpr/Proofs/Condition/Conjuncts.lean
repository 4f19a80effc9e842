import ItemExpr.Proofs.Condition.Formula
import ItemExpr.Proofs.Condition.KeyLanguage

/-!
# The conjuncts of a condition on keys

A condition on keys is a conjunction, and its text has the conjuncts one after the other. Each comparison in it is a
conjunct that comes from a comparison of the tree, and what its sides stand for is known: a literal has become the token
of a value, and a property of the key the token of its attribute.
-/

namespace ItemExpr

open Session

/-! ## Conjuncts -/

namespace TokenCondition

/-- What a condition is the conjunction of, in order. -/
def conjuncts : TokenCondition → List TokenCondition
  | .and left right => left.conjuncts ++ right.conjuncts
  | single => [single]

theorem conjuncts_ne_nil (c : TokenCondition) : c.conjuncts ≠ [] := by
  induction c with
  | and left right ihLeft _ => simp [conjuncts, ihLeft]
  | _ => simp [conjuncts]

/-- An alternative is its own only conjunct. -/
theorem isOr_of_conjuncts {c : TokenCondition} (noOr : ∀ part ∈ c.conjuncts, part.isOr = false) : c.isOr = false := by
  cases c with
  | or left right => exact noOr _ (by simp [conjuncts])
  | _ => rfl

/-- Where no conjunct is an alternative, which would stand in parentheses, the text shows them as they are. -/
theorem text_eq_conjuncts {c : TokenCondition} (noOr : ∀ part ∈ c.conjuncts, part.isOr = false) :
    c.text = " AND ".intercalate (c.conjuncts.map text) := by
  induction c with
  | and left right ihLeft ihRight =>
    obtain ⟨noLeft, noRight⟩ := List.forall_mem_append.1 noOr
    have filledLeft := left.conjuncts_ne_nil
    have filledRight := right.conjuncts_ne_nil
    calc (TokenCondition.and left right).text
        = left.text ++ " AND " ++ right.text := by
          rw [text_and, isOr_of_conjuncts noLeft, isOr_of_conjuncts noRight]; rfl
      _ = " AND ".intercalate ((left.and right).conjuncts.map text) := by
          rw [conjuncts, List.map_append, String.intercalate_append_of_ne_nil (by simpa) (by simpa),
            ← ihLeft noLeft, ← ihRight noRight]
  | _ => simp [conjuncts]

/-- A comparison with `=` of an attribute with an operand of some kind, in either order. -/
def EquatesWith (names : Table String) (attributeName : String) (kind : TokenOperand → Prop) (c : TokenCondition) :
    Prop :=
  ∃ token other, names.value? token = some attributeName ∧ kind other ∧
    (c = .compare .eq (.path ⟨token, []⟩) other ∨ c = .compare .eq other (.path ⟨token, []⟩))

end TokenCondition

/-- The token of a value. -/
def TokenOperand.IsValue (values : Table AttributeValue) (operand : TokenOperand) : Prop :=
  ∃ token, operand = .value token ∧ values.binds token = true

/-- The token of an attribute of some kind. -/
def TokenOperand.IsName (names : Table String) (kind : String → Prop) (operand : TokenOperand) : Prop :=
  ∃ token attributeName, operand = .path ⟨token, []⟩ ∧ names.value? token = some attributeName ∧ kind attributeName

/-! ## The sides of comparisons -/

variable {s t u : Session} {entity : Entity} {schema : KeySchema} {names : Table String}
  {values : Table AttributeValue} {attributeName : String}

/-- What becomes of an operand in a condition on keys. -/
inductive KeySide (entity : Entity) (schema : KeySchema) (names : Table String) (values : Table AttributeValue) :
    Expr → TokenOperand → Prop where
  | literal {value : Value} {token : String} :
    values.binds token = true → KeySide entity schema names values (.constant value) (.value token)
  | key {root token : String} {property : Property} :
    entity.property? root = some property → schema.hasKey property.attributeName = true →
    names.value? token = some property.attributeName →
      KeySide entity schema names values (.member ⟨[.field root]⟩) (.path ⟨token, []⟩)

theorem Resolves.keySide {path : Path} {resolved : ResolvedPath} (resolves : Resolves s path resolved t)
    (keys : s.keysOnly = true) (known : s.entity = some entity) (distinct : s.names.Distinct)
    (within : t.Within names values) :
    KeySide entity (s.keySchema entity) names values (.member path) (.path resolved.path) := by
  obtain ⟨root, token, rfl, found, key, flat, bound⟩ := resolves.of_keysOnly keys known distinct
  rw [flat]
  exact .key (property?_of_property known found) (hasKey_of_isKey known found key)
    (Table.value?_of_prefix within.1 bound)

theorem BindsOperand.keySide {rules : Option Property} {expr : Expr} {operand : TokenOperand}
    (binds : BindsOperand s rules expr operand t) (keys : s.keysOnly = true) (known : s.entity = some entity)
    (distinct : s.names.Distinct) (within : t.Within names values) :
    KeySide entity (s.keySchema entity) names values expr operand := by
  cases binds with
  | path resolves => exact resolves.keySide keys known distinct within
  | value _ run =>
    have bound := Table.value?_of_prefix within.2 (value?_bindValue run (.refl t))
    exact .literal (by simp [Table.binds, bound])
  | size unrestricted =>
    rw [keys] at unrestricted
    cases unrestricted

/-- What is bound after something else has the same keys to refer to. -/
theorem BindsOperand.keySide_later {rules : Option Property} {expr : Expr} {operand : TokenOperand}
    (binds : BindsOperand u rules expr operand t) (grows : Grows s u) (keys : s.keysOnly = true)
    (known : s.entity = some entity) (distinct : s.names.Distinct) (within : t.Within names values) :
    KeySide entity (s.keySchema entity) names values expr operand := by
  rw [← grows.keySchema]
  exact binds.keySide (grows.keysOnly.trans keys) (grows.entity.trans known) (grows.distinct distinct) within

theorem BindsPair.keySides {left right : Expr} {l r : TokenOperand} (binds : BindsPair s left right l r t)
    (keys : s.keysOnly = true) (known : s.entity = some entity) (distinct : s.names.Distinct)
    (within : t.Within names values) :
    KeySide entity (s.keySchema entity) names values left l ∧
      KeySide entity (s.keySchema entity) names values right r := by
  cases binds with
  | pathLeft resolves other =>
    exact ⟨resolves.keySide keys known distinct (other.grows.within within),
      other.keySide_later resolves.grows keys known distinct within⟩
  | pathRight _ resolves other =>
    exact ⟨other.keySide_later resolves.grows keys known distinct within,
      resolves.keySide keys known distinct (other.grows.within within)⟩
  | noPath _ _ first second =>
    exact ⟨first.keySide keys known distinct (second.grows.within within),
      second.keySide_later first.grows keys known distinct within⟩

namespace BindsKeyCondition

theorem not_isOr {expr : Expr} {c : TokenCondition} (binds : BindsKeyCondition s expr c t) :
    ∀ part ∈ c.conjuncts, part.isOr = false := by
  induction binds with
  | and _ _ ihLeft ihRight => exact List.forall_mem_append.2 ⟨ihLeft, ihRight⟩
  | compare | beginsWith | between => simp [TokenCondition.conjuncts, TokenCondition.isOr]

/-- Each comparison in a condition on keys is a conjunct, and a comparison of the tree has become it. -/
theorem comparison_keySides {expr : Expr} {c : TokenCondition} (binds : BindsKeyCondition s expr c t)
    (known : s.entity = some entity) (distinct : s.names.Distinct) (within : t.Within names values)
    {op : Comparison} {l r : TokenOperand} (member : (op, l, r) ∈ c.comparisons) :
    .compare op l r ∈ c.conjuncts ∧ ∃ address left right, expr.subtree? address = some (.compare op left right) ∧
      KeySide entity (s.keySchema entity) names values left l ∧
      KeySide entity (s.keySchema entity) names values right r := by
  induction binds with
  | and first second ihFirst ihSecond =>
    rcases List.mem_append.1 member with here | later
    · obtain ⟨conjunct, address, left, right, at_, sides⟩ :=
        ihFirst known distinct (second.grows.within within) here
      exact ⟨List.mem_append_left _ conjunct, 0 :: address, left, right, at_, sides⟩
    · obtain ⟨conjunct, address, left, right, at_, sides⟩ :=
        ihSecond (first.grows.entity.trans known) (first.grows.distinct distinct) within later
      rw [first.grows.keySchema] at sides
      exact ⟨List.mem_append_right _ conjunct, 1 :: address, left, right, at_, sides⟩
  | @compare s t op' left right l' r' pins keys _ _ _ pair =>
    cases List.mem_singleton.1 member
    -- What is noted at the end has no part in the tables.
    have sides := pair.keySides keys known distinct ((grows_noting t pins).within within)
    exact ⟨by simp [TokenCondition.conjuncts], [], left, right, rfl, sides⟩
  | beginsWith | between => cases member

end BindsKeyCondition

/-! ## Comparisons of one attribute -/

/-- Somewhere in a tree the property that an attribute stores is compared with a property by `=`. -/
def Expr.EquatesProperties (entity : Entity) (attributeName : String) (expr : Expr) : Prop :=
  ∃ address path other root property,
    (expr.subtree? address = some (.compare .eq (.member path) (.member other)) ∨
      expr.subtree? address = some (.compare .eq (.member other) (.member path))) ∧
    path.root? = some root ∧ entity.property? root = some property ∧ property.attributeName = attributeName

namespace KeySide

/-- The token of an attribute was made of a property that it stores. -/
theorem property_of_path {expr : Expr} {token : String}
    (side : KeySide entity schema names values expr (.path ⟨token, []⟩))
    (bound : names.value? token = some attributeName) :
    ∃ root property, expr = .member ⟨[.field root]⟩ ∧ entity.property? root = some property ∧
      property.attributeName = attributeName := by
  cases side with
  | key found _ boundHere => exact ⟨_, _, rfl, found, Option.some.inj (boundHere.symm.trans bound)⟩

theorem value_or_name {expr : Expr} {operand : TokenOperand} (side : KeySide entity schema names values expr operand) :
    operand.IsValue values ∨ operand.IsName names (schema.hasKey · = true) ∧ ∃ path, expr = .member path := by
  cases side with
  | literal bound => exact .inl ⟨_, rfl, bound⟩
  | key _ key bound => exact .inr ⟨⟨_, _, rfl, bound, key⟩, _, rfl⟩

end KeySide

/-- Where a condition on keys has a comparison of an attribute with `=`, the attribute is compared with a value, or the
tree compares its property with another one. -/
theorem BindsKeyCondition.equatesWith {expr : Expr} {c : TokenCondition} (binds : BindsKeyCondition s expr c t)
    (known : s.entity = some entity) (distinct : s.names.Distinct) (within : t.Within names values)
    (equates : c.Equates names attributeName) :
    (∃ conjunct ∈ c.conjuncts, conjunct.EquatesWith names attributeName (·.IsValue values)) ∨
      expr.EquatesProperties entity attributeName ∧
        ∃ conjunct ∈ c.conjuncts, conjunct.EquatesWith names attributeName
          (·.IsName names ((s.keySchema entity).hasKey · = true)) := by
  obtain ⟨token, other, bound, onLeft | onRight⟩ := equates
  · obtain ⟨conjunct, address, left, right, at_, sideLeft, sideRight⟩ :=
      binds.comparison_keySides known distinct within onLeft
    obtain ⟨root, property, rfl, found, stored⟩ := sideLeft.property_of_path bound
    rcases sideRight.value_or_name with value | ⟨name, path, rfl⟩
    · exact .inl ⟨_, conjunct, token, other, bound, value, .inl rfl⟩
    · exact .inr ⟨⟨address, _, path, root, property, .inl at_, rfl, found, stored⟩,
        _, conjunct, token, other, bound, name, .inl rfl⟩
  · obtain ⟨conjunct, address, left, right, at_, sideLeft, sideRight⟩ :=
      binds.comparison_keySides known distinct within onRight
    obtain ⟨root, property, rfl, found, stored⟩ := sideRight.property_of_path bound
    rcases sideLeft.value_or_name with value | ⟨name, path, rfl⟩
    · exact .inl ⟨_, conjunct, token, other, bound, value, .inr rfl⟩
    · exact .inr ⟨⟨address, _, path, root, property, .inr at_, rfl, found, stored⟩,
        _, conjunct, token, other, bound, name, .inr rfl⟩

end ItemExpr
