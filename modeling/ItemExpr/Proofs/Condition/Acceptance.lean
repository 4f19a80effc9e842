import ItemExpr.Proofs.AttributeValue
import ItemExpr.Proofs.Binding.Complete
import ItemExpr.Proofs.Condition.Formula

/-!
# Trees that are conditions

The grammar of conditions: which operands may stand where, what their paths start at, and under which rules their
literals must have a stored value. It knows of no session but what the session knows of names and of literals.
`condition_accepts_iff`: where conditions are not restricted to keys, a tree is compiled if and only if it is of this
grammar, so what was bound before has no part in it.
-/

namespace ItemExpr

open Session SessionM

/-! ## The grammar -/

/-- The paths that start at a name that is known. -/
inductive Knowledge.Reaches (known : Knowledge) : Path → Prop where
  | field {root : String} {tail : List PathStep} {property : Property} :
    known.property root = some property → Reaches known ⟨.field root :: tail⟩

/-- An operand, where literals have given rules. -/
inductive IsOperand (known : Knowledge) (rules : Option Property) : Expr → Prop where
  | path {path : Path} : known.Reaches path → IsOperand known rules (.member path)
  | constant {value : Value} {stored : AttributeValue} :
    known.encode value rules = some stored → IsOperand known rules (.constant value)
  | size {path : Path} : known.Reaches path → IsOperand known rules (.call "size" [.member path])

/-- A condition. The sides of a comparison give their rules to each other, and what is tested gives its own to what it
is tested against. -/
inductive IsCondition (known : Knowledge) : Expr → Prop where
  | and {left right : Expr} :
    IsCondition known left → IsCondition known right → IsCondition known (.binary (.logical .and) left right)
  | or {left right : Expr} :
    IsCondition known left → IsCondition known right → IsCondition known (.binary (.logical .or) left right)
  | not {inner : Expr} : IsCondition known inner → IsCondition known (.not inner)
  | compare {op : Comparison} {left right : Expr} :
    IsOperand known (known.rulesBeside right) left → IsOperand known (known.rulesBeside left) right →
      IsCondition known (.binary (.comparison op) left right)
  | exists {path : Path} : known.Reaches path → IsCondition known (.call "attribute_exists" [.member path])
  | notExists {path : Path} : known.Reaches path → IsCondition known (.call "attribute_not_exists" [.member path])
  | hasType {path : Path} {descriptor : String} :
    known.Reaches path → descriptor ∈ AttributeValue.descriptors →
      IsCondition known (.call "attribute_type" [.member path, .constant (.string descriptor)])
  | beginsWith {path : Path} {start : Expr} :
    known.Reaches path → IsOperand known (known.rulesBeside (.member path)) start →
      IsCondition known (.call "begins_with" [.member path, start])
  | contains {path : Path} {element : Expr} :
    known.Reaches path → IsOperand known (known.rulesBeside (.member path)) element →
      IsCondition known (.call "contains" [.member path, element])
  | between {tested low high : Expr} :
    IsOperand known none tested → IsOperand known (known.rulesBeside tested) low →
    IsOperand known (known.rulesBeside tested) high → IsCondition known (.call "between" [tested, low, high])
  | isIn {tested : Expr} {candidates : List Expr} :
    IsOperand known none tested → candidates ≠ [] →
    (∀ candidate ∈ candidates, IsOperand known (known.rulesBeside tested) candidate) →
      IsCondition known (.call "in" (tested :: candidates))

variable {s t : Session} {rules : Option Property}

theorem Session.knowledge_property_eq_some {name : String} {property : Property} :
    s.knowledge.property name = some property ↔ s.property name = .ok property := by
  show (s.property name).toOption = some property ↔ s.property name = .ok property
  cases s.property name <;> simp [Except.toOption]

theorem Session.knowledge_encode_eq_some {value : Value} {stored : AttributeValue} :
    s.knowledge.encode value rules = some stored ↔ s.encode value rules none = .ok stored := by
  show (s.encode value rules none).toOption = some stored ↔ s.encode value rules none = .ok stored
  cases s.encode value rules none <;> simp [Except.toOption]

/-- The type of a path may be tested against each kind of value that there is. -/
theorem isCondition_hasType_iff {known : Knowledge} {path : Path} {word : String} :
    IsCondition known (.call "attribute_type" [.member path, .constant (.string word)]) ↔
      known.Reaches path ∧ ∃ value : AttributeValue, value.descriptor = word := by
  rw [← AttributeValue.mem_descriptors_iff]
  constructor
  · intro accepted
    generalize same : Expr.call "attribute_type" [.member path, .constant (.string word)] = expr at accepted
    cases accepted with
    | hasType reaches descriptor =>
      simp only [Expr.call.injEq, List.cons.injEq, Expr.member.injEq, Expr.constant.injEq, Value.string.injEq, and_true,
        true_and] at same
      obtain ⟨rfl, rfl⟩ := same
      exact ⟨reaches, descriptor⟩
    | _ => simp at same
  · rintro ⟨reaches, descriptor⟩
    exact .hasType reaches descriptor

/-- Without an entity every name is known. -/
theorem Session.reaches_of_no_entity (unknown : s.entity = none) (root : String) (tail : List PathStep) :
    s.knowledge.Reaches ⟨.field root :: tail⟩ := by
  have found : s.property root = .ok (.plain root root) := by simp [property, unknown]
  exact .field (knowledge_property_eq_some.2 found)

/-! ## What is compiled is of the grammar -/

theorem Resolves.reaches {path : Path} {resolved : ResolvedPath} (resolves : Resolves s path resolved t) :
    s.knowledge.Reaches path := by
  cases resolves with
  | root found => exact .field (knowledge_property_eq_some.2 found)

theorem BindsOperand.isOperand {expr : Expr} {operand : TokenOperand} (binds : BindsOperand s rules expr operand t) :
    IsOperand s.knowledge rules expr := by
  cases binds with
  | path resolves => exact .path resolves.reaches
  | value encoded => exact .constant (knowledge_encode_eq_some.2 encoded)
  | size _ resolves => exact .size resolves.reaches

theorem BindsAll.isOperand {exprs : List Expr} {operands : List TokenOperand}
    (binds : BindsAll rules s exprs operands t) : ∀ expr ∈ exprs, IsOperand s.knowledge rules expr := by
  induction binds with
  | nil => exact nofun
  | cons first _ ih =>
    rintro expr (_ | ⟨_, member⟩)
    · exact first.isOperand
    · exact first.grows.knowledge ▸ ih expr member

theorem BindsPair.isOperand {left right : Expr} {l r : TokenOperand} (binds : BindsPair s left right l r t) :
    IsOperand s.knowledge (s.knowledge.rulesBeside right) left ∧
      IsOperand s.knowledge (s.knowledge.rulesBeside left) right := by
  cases binds with
  | pathLeft resolves other =>
    refine ⟨.path resolves.reaches, ?_⟩
    rw [resolves.rulesBeside, ← resolves.grows.knowledge]
    exact other.isOperand
  | pathRight _ resolves other =>
    refine ⟨?_, .path resolves.reaches⟩
    rw [resolves.rulesBeside, ← resolves.grows.knowledge]
    exact other.isOperand
  | noPath noLeft noRight first second =>
    rw [Knowledge.rulesBeside_of_not_member noLeft, Knowledge.rulesBeside_of_not_member noRight]
    exact ⟨first.isOperand, first.grows.knowledge ▸ second.isOperand⟩

theorem BindsSubject.isOperand {expr : Expr} {operand : TokenOperand} (binds : BindsSubject s expr operand rules t) :
    IsOperand s.knowledge none expr ∧ s.knowledge.rulesBeside expr = rules := by
  cases binds with
  | path resolves => exact ⟨.path resolves.reaches, resolves.rulesBeside⟩
  | other noPath binds => exact ⟨binds.isOperand, Knowledge.rulesBeside_of_not_member noPath⟩

theorem BindsCondition.isCondition {expr : Expr} {c : TokenCondition} (binds : BindsCondition s expr c t) :
    IsCondition s.knowledge expr := by
  induction binds with
  | and left _ ihLeft ihRight => exact .and ihLeft (left.grows.knowledge ▸ ihRight)
  | or _ left _ ihLeft ihRight => exact .or ihLeft (left.grows.knowledge ▸ ihRight)
  | not _ _ ih => exact .not ih
  | compare _ _ _ pair => exact .compare pair.isOperand.1 pair.isOperand.2
  | «exists» _ resolves => exact .exists resolves.reaches
  | notExists _ resolves => exact .notExists resolves.reaches
  | hasType _ known resolves => exact .hasType resolves.reaches known
  | beginsWith _ resolves other =>
    refine .beginsWith resolves.reaches ?_
    rw [resolves.rulesBeside, ← resolves.grows.knowledge]
    exact other.isOperand
  | contains _ resolves other =>
    refine .contains resolves.reaches ?_
    rw [resolves.rulesBeside, ← resolves.grows.knowledge]
    exact other.isOperand
  -- What is tested is bound first, and then what it is tested against, in sessions that know the same.
  | between _ tested low high =>
    obtain ⟨operand, beside⟩ := tested.isOperand
    rw [← beside] at low high
    have first := low.isOperand
    have second := high.isOperand
    rw [low.grows.knowledge] at second
    rw [tested.grows.knowledge] at first second
    exact .between operand first second
  | isIn _ nonempty tested all =>
    obtain ⟨operand, beside⟩ := tested.isOperand
    rw [← beside] at all
    have candidates := all.isOperand
    rw [tested.grows.knowledge] at candidates
    exact .isIn operand nonempty candidates

/-! ## What is of the grammar is compiled -/

theorem bindsSteps_total (names : NameTable) (tail : List PathStep) :
    ∃ steps final, BindsSteps names tail steps final := by
  induction tail generalizing names with
  | nil => exact ⟨[], names, .nil⟩
  | cons step rest ih =>
    cases step with
    | field name =>
      obtain ⟨steps, final, binds⟩ := ih (names.bind name).2
      exact ⟨_, final, .field binds⟩
    | index position =>
      obtain ⟨steps, final, binds⟩ := ih names
      exact ⟨_, final, .index binds⟩

theorem Knowledge.Reaches.resolves {path : Path} (reaches : s.knowledge.Reaches path)
    (unrestricted : s.keysOnly = false) : ∃ resolved t, Resolves s path resolved t := by
  cases reaches with
  | @field root tail property known =>
    obtain ⟨steps, names, binds⟩ := bindsSteps_total (s.names.bind property.attributeName).2 tail
    have checked : s.checkMode property = .ok () := by simp [checkMode, unrestricted]
    have flat : tail ≠ [] → s.keysOnly = true → s.entity = none := by simp [unrestricted]
    exact ⟨_, _, .root (knowledge_property_eq_some.1 known) checked flat binds⟩

theorem IsOperand.binds {expr : Expr} (isOperand : IsOperand s.knowledge rules expr)
    (unrestricted : s.keysOnly = false) : ∃ operand t, BindsOperand s rules expr operand t := by
  cases isOperand with
  | path reaches =>
    obtain ⟨resolved, t, resolves⟩ := reaches.resolves unrestricted
    exact ⟨_, t, .path resolves⟩
  | constant known => exact ⟨_, _, .value (knowledge_encode_eq_some.1 known) rfl⟩
  | size reaches =>
    obtain ⟨resolved, t, resolves⟩ := reaches.resolves unrestricted
    exact ⟨_, t, .size unrestricted resolves⟩

/-- An operand is bound in later sessions as well. -/
theorem IsOperand.binds_later {expr : Expr} (isOperand : IsOperand s.knowledge rules expr)
    (unrestricted : s.keysOnly = false) (grows : Grows s t) : ∃ operand u, BindsOperand t rules expr operand u :=
  IsOperand.binds (grows.knowledge ▸ isOperand) (grows.keysOnly.trans unrestricted)

theorem bindsAll_of_isOperand {exprs : List Expr} (operands : ∀ expr ∈ exprs, IsOperand s.knowledge rules expr)
    (unrestricted : s.keysOnly = false) : ∃ bound t, BindsAll rules s exprs bound t := by
  induction exprs generalizing s with
  | nil => exact ⟨[], s, .nil⟩
  | cons expr rest ih =>
    obtain ⟨operand, u, first⟩ := (operands expr (by simp)).binds unrestricted
    have later : ∀ expr ∈ rest, IsOperand u.knowledge rules expr := by
      intro expr member
      exact first.grows.knowledge ▸ operands expr (by simp [member])
    obtain ⟨bound, t, all⟩ := ih later (first.grows.keysOnly.trans unrestricted)
    exact ⟨_, t, .cons first all⟩

theorem bindsPair_of_isOperand {left right : Expr}
    (isLeft : IsOperand s.knowledge (s.knowledge.rulesBeside right) left)
    (isRight : IsOperand s.knowledge (s.knowledge.rulesBeside left) right) (unrestricted : s.keysOnly = false) :
    ∃ l r t, BindsPair s left right l r t := by
  by_cases pathLeft : ∃ path, left = .member path
  · obtain ⟨path, rfl⟩ := pathLeft
    cases isLeft with
    | path reaches =>
      obtain ⟨resolved, u, resolves⟩ := reaches.resolves unrestricted
      rw [resolves.rulesBeside] at isRight
      obtain ⟨operand, t, other⟩ := isRight.binds_later unrestricted resolves.grows
      exact ⟨_, _, t, .pathLeft resolves other⟩
  · have noLeft : ∀ path, left ≠ .member path := fun path same => pathLeft ⟨path, same⟩
    by_cases pathRight : ∃ path, right = .member path
    · obtain ⟨path, rfl⟩ := pathRight
      cases isRight with
      | path reaches =>
        obtain ⟨resolved, u, resolves⟩ := reaches.resolves unrestricted
        rw [resolves.rulesBeside] at isLeft
        obtain ⟨operand, t, other⟩ := isLeft.binds_later unrestricted resolves.grows
        exact ⟨_, _, t, .pathRight noLeft resolves other⟩
    · have noRight : ∀ path, right ≠ .member path := fun path same => pathRight ⟨path, same⟩
      rw [Knowledge.rulesBeside_of_not_member noRight] at isLeft
      rw [Knowledge.rulesBeside_of_not_member noLeft] at isRight
      obtain ⟨l, u, first⟩ := isLeft.binds unrestricted
      obtain ⟨r, t, second⟩ := isRight.binds_later unrestricted first.grows
      exact ⟨l, r, t, .noPath noLeft noRight first second⟩

theorem bindsSubject_of_isOperand {expr : Expr} (isOperand : IsOperand s.knowledge none expr)
    (unrestricted : s.keysOnly = false) :
    ∃ operand t, BindsSubject s expr operand (s.knowledge.rulesBeside expr) t := by
  by_cases path : ∃ path, expr = .member path
  · obtain ⟨path, rfl⟩ := path
    cases isOperand with
    | path reaches =>
      obtain ⟨resolved, t, resolves⟩ := reaches.resolves unrestricted
      rw [resolves.rulesBeside]
      exact ⟨_, t, .path resolves⟩
  · have noPath : ∀ other, expr ≠ .member other := fun other same => path ⟨other, same⟩
    obtain ⟨operand, t, binds⟩ := isOperand.binds unrestricted
    rw [Knowledge.rulesBeside_of_not_member noPath]
    exact ⟨operand, t, .other noPath binds⟩

theorem not_pinsPartition_of_unrestricted (unrestricted : s.keysOnly = false) (expr : Expr) :
    ¬ s.PinsPartition expr := by
  rintro ⟨keys, _⟩
  simp [unrestricted] at keys

/-- What is of the grammar has a derivation, from every session that knows as much. -/
theorem IsCondition.binds {known : Knowledge} {expr : Expr} (isCondition : IsCondition known expr)
    (same : s.knowledge = known) (unrestricted : s.keysOnly = false) : ∃ c t, BindsCondition s expr c t := by
  induction isCondition generalizing s with
  | and _ _ ihLeft ihRight =>
    obtain ⟨l, u, left⟩ := ihLeft same unrestricted
    obtain ⟨r, t, right⟩ := ihRight (left.grows.knowledge.trans same) (left.grows.keysOnly.trans unrestricted)
    exact ⟨_, t, .and left right⟩
  | or _ _ ihLeft ihRight =>
    obtain ⟨l, u, left⟩ := ihLeft same unrestricted
    obtain ⟨r, t, right⟩ := ihRight (left.grows.knowledge.trans same) (left.grows.keysOnly.trans unrestricted)
    exact ⟨_, t, .or unrestricted left right⟩
  | not _ ih =>
    obtain ⟨c, t, inner⟩ := ih same unrestricted
    exact ⟨_, t, .not unrestricted inner⟩
  | @compare op left right isLeft isRight =>
    subst same
    obtain ⟨l, r, t, pair⟩ := bindsPair_of_isOperand isLeft isRight unrestricted
    -- No side is a partition key here, so nothing is noted.
    have free : ¬ (s.PinsPartition left ∨ s.PinsPartition right) :=
      not_or.2 ⟨not_pinsPartition_of_unrestricted unrestricted left,
        not_pinsPartition_of_unrestricted unrestricted right⟩
    exact ⟨_, t.noting false, .compare (fun _ => unrestricted) (iff_of_false nofun free) nofun pair⟩
  | «exists» reaches =>
    subst same
    obtain ⟨resolved, t, resolves⟩ := reaches.resolves unrestricted
    exact ⟨_, t, .exists unrestricted resolves⟩
  | notExists reaches =>
    subst same
    obtain ⟨resolved, t, resolves⟩ := reaches.resolves unrestricted
    exact ⟨_, t, .notExists unrestricted resolves⟩
  | hasType reaches descriptor =>
    subst same
    obtain ⟨resolved, u, resolves⟩ := reaches.resolves unrestricted
    exact ⟨_, _, .hasType unrestricted descriptor resolves rfl⟩
  | beginsWith reaches start =>
    subst same
    obtain ⟨resolved, u, resolves⟩ := reaches.resolves unrestricted
    rw [resolves.rulesBeside] at start
    obtain ⟨operand, t, other⟩ := start.binds_later unrestricted resolves.grows
    exact ⟨_, t, .beginsWith (not_pinsPartition_of_unrestricted unrestricted _) resolves other⟩
  | contains reaches element =>
    subst same
    obtain ⟨resolved, u, resolves⟩ := reaches.resolves unrestricted
    rw [resolves.rulesBeside] at element
    obtain ⟨operand, t, other⟩ := element.binds_later unrestricted resolves.grows
    exact ⟨_, t, .contains unrestricted resolves other⟩
  | between isTested isLow isHigh =>
    subst same
    obtain ⟨subject, u, tested⟩ := bindsSubject_of_isOperand isTested unrestricted
    obtain ⟨l, v, low⟩ := isLow.binds_later unrestricted tested.grows
    obtain ⟨h, t, high⟩ := isHigh.binds_later unrestricted (tested.grows.trans low.grows)
    exact ⟨_, t, .between (not_pinsPartition_of_unrestricted unrestricted _) tested low high⟩
  | @isIn tested candidates isTested nonempty areOperands =>
    subst same
    obtain ⟨subject, u, bound⟩ := bindsSubject_of_isOperand isTested unrestricted
    have later : ∀ candidate ∈ candidates, IsOperand u.knowledge (s.knowledge.rulesBeside tested) candidate := by
      intro candidate member
      exact bound.grows.knowledge ▸ areOperands candidate member
    obtain ⟨operands, t, all⟩ := bindsAll_of_isOperand later (bound.grows.keysOnly.trans unrestricted)
    exact ⟨_, t, .isIn unrestricted nonempty bound all⟩

/-! ## Acceptance -/

/-- Where conditions are not restricted to keys, the trees that are compiled are those of the grammar, whatever names
and values are bound by then and whichever tokens come next. -/
theorem condition_accepts_iff
    {session : Session}
    (unrestricted : session.mode = .unrestricted)
    (names : NameTable) (values : Table AttributeValue) (tokens : TokenSource) (partitionBound : Bool) (expr : Expr) :
    (∃ bound after,
        condition expr { session with names, values, tokens, partitionBound } = .ok bound after) ↔
      IsCondition session.knowledge expr := by
  constructor
  · rintro ⟨bound, after, run⟩
    exact (condition_eq_ok.1 run).isCondition
  · intro isCondition
    have keys : ({ session with names, values, tokens, partitionBound } : Session).keysOnly = false := by
      simp [keysOnly, unrestricted]
    obtain ⟨bound, after, binds⟩ :=
      IsCondition.binds (s := { session with names, values, tokens, partitionBound }) isCondition rfl keys
    exact ⟨bound, after, binds.run⟩

/-- A tree that is compiled where the token of its literal is taken already, because it is of the grammar; and a test
for a type that no value has, which is not. -/
theorem condition_accepts_of_taken_token :
    let start : Session := { Session.new .standard none with values := [(":p0", .bool false)] }
    let tag : Expr := .member ⟨[.field "tags", .index 0]⟩
    (∃ bound after,
      condition (.not (.call "in" [.call "size" [tag], .constant (.bool true)])) start = .ok bound after) ∧
    ¬ ∃ bound after,
      condition (.call "attribute_type" [tag, .constant (.string "STRING")]) start = .ok bound after := by
  intro start tag
  have accepts := @condition_accepts_iff (.new .standard none) rfl (.empty "#") [(":p0", .bool false)]
    (.new ":p") false
  have tags := reaches_of_no_entity (s := Session.new .standard none) rfl "tags" [.index 0]
  constructor
  · refine (accepts _).2 (.not (.isIn (.size tags) (List.cons_ne_nil _ _) ?_))
    intro candidate member
    obtain rfl := List.mem_singleton.1 member
    have encoded : (Session.new .standard none).knowledge.encode (.bool true) none = some (.bool true) := rfl
    exact .constant encoded
  · intro compiled
    obtain ⟨-, kind⟩ := isCondition_hasType_iff.1 ((accepts _).1 compiled)
    exact absurd (AttributeValue.mem_descriptors_iff.2 kind) (by decide)

end ItemExpr
