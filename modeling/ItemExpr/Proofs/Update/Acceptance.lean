import ItemExpr.Proofs.Condition.Acceptance
import ItemExpr.Proofs.Encryption

/-!
# Trees that are updates

The grammar of updates: the calls that remove a place, add to it or delete from it, and the values that are set there.
Which call is written decides the clause, and only the tree as a whole can be such a call: inside of a value there are
sums, differences, defaults and appended lists of what a request can refer to, and nothing else.
`assignment_accepts_iff`: an assignment to a place outside of the key is compiled into a clause if and only if its value
is of this grammar for that clause.
-/

namespace ItemExpr

open Session SessionM

/-! ## The grammar -/

/-- A value that is set, where literals have given rules. What stands in for a missing value has the rules of the place
that it is missing at. -/
inductive IsUpdateValue (known : Knowledge) : Option Property → Expr → Prop where
  | path {rules : Option Property} {path : Path} : known.Reaches path → IsUpdateValue known rules (.member path)
  | constant {rules : Option Property} {value : Value} {stored : AttributeValue} :
    known.encode value rules = some stored → IsUpdateValue known rules (.constant value)
  | add {rules : Option Property} {left right : Expr} :
    IsUpdateValue known rules left → IsUpdateValue known rules right →
      IsUpdateValue known rules (.binary (.arithmetic .add) left right)
  | subtract {rules : Option Property} {left right : Expr} :
    IsUpdateValue known rules left → IsUpdateValue known rules right →
      IsUpdateValue known rules (.binary (.arithmetic .subtract) left right)
  | ifNotExists {rules : Option Property} {path : Path} {fallback : Expr} :
    known.Reaches path → IsUpdateValue known (known.rulesBeside (.member path)) fallback →
      IsUpdateValue known rules (.call "if_not_exists" [.member path, fallback])
  | listAppend {rules : Option Property} {first second : Expr} :
    IsUpdateValue known rules first → IsUpdateValue known rules second →
      IsUpdateValue known rules (.call "list_append" [first, second])

/-- What is done to a place that gives its literals the rules, and the clause that does it. -/
inductive IsUpdate (known : Knowledge) (rules : Option Property) : Expr → UpdateClause → Prop where
  | remove : IsUpdate known rules (.call "remove" []) .remove
  | increment {amount : Expr} : IsOperand known rules amount → IsUpdate known rules (.call "increment" [amount]) .add
  | addToSet {elements : Expr} :
    IsOperand known rules elements → IsUpdate known rules (.call "add_to_set" [elements]) .add
  | deleteFromSet {elements : Expr} :
    IsOperand known rules elements → IsUpdate known rules (.call "delete_from_set" [elements]) .delete
  | set {value : Expr} : IsUpdateValue known rules value → IsUpdate known rules value .set

variable {s t : Session} {rules : Option Property}

/-! ## What is compiled is of the grammar -/

theorem BindsUpdateValue.isUpdateValue {expr : Expr} {value : TokenValue}
    (binds : BindsUpdateValue s rules expr value t) : IsUpdateValue s.knowledge rules expr := by
  induction binds with
  | operand noCall binds =>
    cases binds.isOperand with
    | path reaches => exact .path reaches
    | constant known => exact .constant known
    | size => exact absurd rfl (noCall _ _)
  | add left _ ihLeft ihRight => exact .add ihLeft (left.grows.knowledge ▸ ihRight)
  | subtract left _ ihLeft ihRight => exact .subtract ihLeft (left.grows.knowledge ▸ ihRight)
  -- What stands in is bound behind the tested path, whose rules are those beside it.
  | ifNotExists resolves _ ih =>
    rw [← resolves.rulesBeside, resolves.grows.knowledge] at ih
    exact .ifNotExists resolves.reaches ih
  | listAppend first _ ihFirst ihSecond => exact .listAppend ihFirst (first.grows.knowledge ▸ ihSecond)

/-- A path that is resolved starts at the property that the session has for its root, and gives the rules of it. -/
theorem Resolves.of_field {root : String} {tail : List PathStep} {property : Property} {resolved : ResolvedPath}
    (resolves : Resolves s ⟨.field root :: tail⟩ resolved t) (found : s.property root = .ok property) :
    resolved.property = property ∧ resolved.rules = property.rulesAt tail := by
  cases resolves with
  | root alsoFound =>
    cases alsoFound.symm.trans found
    exact ⟨rfl, rfl⟩

theorem BindsUpdate.isUpdate {root : String} {tail : List PathStep} {property : Property} {value : Expr}
    {update : TokenUpdate} (binds : BindsUpdate s ⟨⟨.field root :: tail⟩, value⟩ update t)
    (found : s.property root = .ok property) : IsUpdate s.knowledge (property.rulesAt tail) value update.clause := by
  cases binds with
  | set resolves _ bound =>
    rw [← (resolves.of_field found).2, ← resolves.grows.knowledge]
    exact .set bound.isUpdateValue
  | remove => exact .remove
  | add method resolves _ operand =>
    rw [← (resolves.of_field found).2, ← resolves.grows.knowledge]
    obtain rfl | rfl := method
    · exact .increment operand.isOperand
    · exact .addToSet operand.isOperand
  | delete resolves _ operand =>
    rw [← (resolves.of_field found).2, ← resolves.grows.knowledge]
    exact .deleteFromSet operand.isOperand

/-! ## What is of the grammar is compiled -/

/-- What is of the grammar has a derivation, from every session that knows as much. -/
theorem IsUpdateValue.binds {known : Knowledge} {expr : Expr} (isValue : IsUpdateValue known rules expr)
    (same : s.knowledge = known) (unrestricted : s.keysOnly = false) :
    ∃ value t, BindsUpdateValue s rules expr value t := by
  induction isValue generalizing s with
  | path reaches =>
    subst same
    obtain ⟨operand, t, binds⟩ := (IsOperand.path reaches).binds unrestricted
    exact ⟨_, t, .operand nofun binds⟩
  | constant encoded =>
    subst same
    obtain ⟨operand, t, binds⟩ := (IsOperand.constant encoded).binds unrestricted
    exact ⟨_, t, .operand nofun binds⟩
  | add _ _ ihLeft ihRight =>
    obtain ⟨l, u, left⟩ := ihLeft same unrestricted
    obtain ⟨r, t, right⟩ := ihRight (left.grows.knowledge.trans same) (left.grows.keysOnly.trans unrestricted)
    exact ⟨_, t, .add left right⟩
  | subtract _ _ ihLeft ihRight =>
    obtain ⟨l, u, left⟩ := ihLeft same unrestricted
    obtain ⟨r, t, right⟩ := ihRight (left.grows.knowledge.trans same) (left.grows.keysOnly.trans unrestricted)
    exact ⟨_, t, .subtract left right⟩
  | ifNotExists reaches _ ih =>
    subst same
    obtain ⟨resolved, u, resolves⟩ := reaches.resolves unrestricted
    rw [resolves.rulesBeside] at ih
    obtain ⟨value, t, fallback⟩ := ih resolves.grows.knowledge (resolves.grows.keysOnly.trans unrestricted)
    exact ⟨_, t, .ifNotExists resolves fallback⟩
  | listAppend _ _ ihFirst ihSecond =>
    obtain ⟨l, u, first⟩ := ihFirst same unrestricted
    obtain ⟨r, t, second⟩ := ihSecond (first.grows.knowledge.trans same) (first.grows.keysOnly.trans unrestricted)
    exact ⟨_, t, .listAppend first second⟩

theorem IsUpdate.binds {root : String} {tail : List PathStep} {property : Property} {value : Expr}
    {clause : UpdateClause} (isUpdate : IsUpdate s.knowledge (property.rulesAt tail) value clause)
    (found : s.property root = .ok property) (role : property.keyRole = .none) (unrestricted : s.keysOnly = false) :
    ∃ update t, BindsUpdate s ⟨⟨.field root :: tail⟩, value⟩ update t ∧ update.clause = clause := by
  have reaches : s.knowledge.Reaches ⟨.field root :: tail⟩ := .field (knowledge_property_eq_some.2 found)
  -- The target is resolved whatever is done to it, and what is done is bound behind it, under its rules.
  obtain ⟨resolved, u, resolves⟩ := reaches.resolves unrestricted
  obtain ⟨rfl, rules⟩ := resolves.of_field found
  rw [← rules] at isUpdate
  cases isUpdate with
  | remove => exact ⟨_, u, .remove resolves role, rfl⟩
  | increment amount =>
    obtain ⟨operand, t, binds⟩ := amount.binds_later unrestricted resolves.grows
    exact ⟨_, t, .add (.inl rfl) resolves role binds, rfl⟩
  | addToSet elements =>
    obtain ⟨operand, t, binds⟩ := elements.binds_later unrestricted resolves.grows
    exact ⟨_, t, .add (.inr rfl) resolves role binds, rfl⟩
  | deleteFromSet elements =>
    obtain ⟨operand, t, binds⟩ := elements.binds_later unrestricted resolves.grows
    exact ⟨_, t, .delete resolves role binds, rfl⟩
  | set value =>
    obtain ⟨bound, t, binds⟩ := value.binds resolves.grows.knowledge (resolves.grows.keysOnly.trans unrestricted)
    exact ⟨_, t, .set resolves role binds, rfl⟩

/-! ## Acceptance -/

/-- Where nothing is restricted to keys, what is assigned to a place outside of the key is compiled into a clause
exactly if it is an update of that clause, whatever is bound by then. -/
theorem assignment_accepts_iff
    {session : Session} {root : String} {property : Property}
    (unrestricted : session.mode = .unrestricted)
    (found : session.property root = .ok property) (notKey : property.keyRole.isKey = false)
    (tail : List PathStep) (value : Expr) (clause : UpdateClause) :
    (∃ bound after, assignment ⟨⟨.field root :: tail⟩, value⟩ session = .ok bound after ∧ bound.clause = clause) ↔
      IsUpdate session.knowledge (property.rulesAt tail) value clause := by
  constructor
  · rintro ⟨bound, after, run, rfl⟩
    exact (assignment_eq_ok.1 run).isUpdate found
  · intro isUpdate
    have keys : session.keysOnly = false := by simp [keysOnly, unrestricted]
    obtain ⟨bound, after, binds, same⟩ := isUpdate.binds found (KeyRole.isKey_eq_false_iff.1 notKey) keys
    exact ⟨bound, after, assignment_eq_ok.2 binds, same⟩

/-- A default is compiled under the rules of the place that it stands in for, also where the target could not store it
for want of an encryptor; an increment inside of a sum is refused. -/
theorem assignment_accepts_of_nested_calls :
    let start := Session.new .standard (some accounts)
    let status : Expr := .member ⟨[.field "Status"]⟩
    (∃ bound after,
      assignment ⟨⟨[.field "CardNumber"]⟩, .call "if_not_exists" [status, .constant (.string "4111")]⟩ start =
        .ok bound after ∧ bound.clause = .set) ∧
    ∀ clause, ¬ ∃ bound after,
      assignment ⟨⟨[.field "Status"]⟩, .binary (.arithmetic .add) status (.call "increment" [status])⟩ start =
        .ok bound after ∧ bound.clause = clause := by
  intro start status
  have isCard : start.property "CardNumber" = .ok cardNumber := rfl
  have isStatus : start.property "Status" = .ok (.plain "Status" "status") := rfl
  constructor
  · refine (assignment_accepts_iff rfl isCard rfl [] _ _).2 (.set (.ifNotExists ?_ ?_))
    · exact .field (knowledge_property_eq_some.2 isStatus)
    · have clear : start.encode (.string "4111") (some (.plain "Status" "status")) none = .ok (.string "4111") := rfl
      exact .constant (knowledge_encode_eq_some.2 clear)
  · intro clause compiled
    have refused := (assignment_accepts_iff rfl isStatus rfl [] _ _).1 compiled
    cases refused with
    | set sum =>
      cases sum with
      | add _ increment =>
        -- The names of calls are texts, so no rule for a call is ruled out before they are compared.
        generalize same : Expr.call "increment" [status] = nested at increment
        cases increment <;> simp at same

end ItemExpr
