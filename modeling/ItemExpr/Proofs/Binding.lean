import ItemExpr.Proofs.Session

/-!
# Derivations of bound expressions

The accepted trees by rules: which tokens each becomes, and what becomes of the session. There is one relation for each
kind of expression and one rule for each accepted form, with all that is checked on the way as its premises. A law of
accepted trees is an induction over derivations, as the one at the end is: a derivation only grows the session.
-/

namespace ItemExpr

/-- The rules that a path gives to the literals beside it: those of its property, or below it what is left of them. -/
def Property.rulesAt (property : Property) (tail : List PathStep) : Option Property :=
  if tail.isEmpty then some property else property.nestedRules?

namespace Session

/-- Whether a tree is a path that starts at the partition key, and the condition that is being compiled one on keys. -/
def PinsPartition (session : Session) (expr : Expr) : Prop :=
  session.keysOnly = true ∧ ∃ root tail property,
    expr = .member ⟨.field root :: tail⟩ ∧ session.property root = .ok property ∧
      session.isPartitionKey property = true

/-- The session after a comparison that may have pinned the partition key. -/
def noting (session : Session) (pins : Bool) : Session :=
  { session with partitionBound := session.partitionBound || pins }

end Session

/-! ## The rules -/

/-- The steps of a path with their names bound. -/
inductive BindsSteps : NameTable → List PathStep → List TokenStep → NameTable → Prop where
  | nil {names : NameTable} : BindsSteps names [] [] names
  | field {names final : NameTable} {name : String} {rest : List PathStep} {steps : List TokenStep} :
    BindsSteps (names.bind name).2 rest steps final →
      BindsSteps names (.field name :: rest) (.field (names.bind name).1 :: steps) final
  | index {names final : NameTable} {position : Nat} {rest : List PathStep} {steps : List TokenStep} :
    BindsSteps names rest steps final →
      BindsSteps names (.index position :: rest) (.index position :: steps) final

/-- A path from a property that the session knows, and that may be referred to in its mode. -/
inductive Resolves (s : Session) : Path → ResolvedPath → Session → Prop where
  | root {root : String} {tail : List PathStep} {property : Property} {steps : List TokenStep} {names : NameTable} :
    s.property root = .ok property →
    s.checkMode property = .ok () →
    (tail ≠ [] → s.keysOnly = true → s.entity = none) →
    BindsSteps (s.names.bind property.attributeName).2 tail steps names →
      Resolves s ⟨.field root :: tail⟩
        ⟨⟨(s.names.bind property.attributeName).1, steps⟩, property, property.rulesAt tail⟩ { s with names }

/-- An operand under given rules for literals. -/
inductive BindsOperand (s : Session) (rules : Option Property) : Expr → TokenOperand → Session → Prop where
  | path {path : Path} {resolved : ResolvedPath} {t : Session} :
    Resolves s path resolved t → BindsOperand s rules (.member path) (.path resolved.path) t
  | value {value : Value} {stored : AttributeValue} {token : String} {t : Session} :
    s.encode value rules none = .ok stored → SessionM.bindValue stored s = .ok token t →
      BindsOperand s rules (.constant value) (.value token) t
  | size {path : Path} {resolved : ResolvedPath} {t : Session} :
    s.keysOnly = false → Resolves s path resolved t →
      BindsOperand s rules (.call "size" [.member path]) (.size resolved.path) t

/-- Some operands, one after the other, under the same rules. -/
inductive BindsAll (rules : Option Property) : Session → List Expr → List TokenOperand → Session → Prop where
  | nil {s : Session} : BindsAll rules s [] [] s
  | cons {s u t : Session} {expr : Expr} {rest : List Expr} {operand : TokenOperand} {operands : List TokenOperand} :
    BindsOperand s rules expr operand u → BindsAll rules u rest operands t →
      BindsAll rules s (expr :: rest) (operand :: operands) t

/-- The two sides of a comparison. -/
inductive BindsPair (s : Session) : Expr → Expr → TokenOperand → TokenOperand → Session → Prop where
  | pathLeft {path : Path} {resolved : ResolvedPath} {u t : Session} {right : Expr} {operand : TokenOperand} :
    Resolves s path resolved u → BindsOperand u resolved.rules right operand t →
      BindsPair s (.member path) right (.path resolved.path) operand t
  | pathRight {path : Path} {resolved : ResolvedPath} {u t : Session} {left : Expr} {operand : TokenOperand} :
    (∀ other, left ≠ .member other) →
    Resolves s path resolved u → BindsOperand u resolved.rules left operand t →
      BindsPair s left (.member path) operand (.path resolved.path) t
  | noPath {u t : Session} {left right : Expr} {l r : TokenOperand} :
    (∀ path, left ≠ .member path) → (∀ path, right ≠ .member path) →
    BindsOperand s none left l u → BindsOperand u none right r t → BindsPair s left right l r t

/-- What others are compared with, and the rules that it gives them. -/
inductive BindsSubject (s : Session) : Expr → TokenOperand → Option Property → Session → Prop where
  | path {path : Path} {resolved : ResolvedPath} {t : Session} :
    Resolves s path resolved t → BindsSubject s (.member path) (.path resolved.path) resolved.rules t
  | other {expr : Expr} {operand : TokenOperand} {t : Session} :
    (∀ path, expr ≠ .member path) → BindsOperand s none expr operand t → BindsSubject s expr operand none t

/-- A condition. -/
inductive BindsCondition : Session → Expr → TokenCondition → Session → Prop where
  | and {s u t : Session} {left right : Expr} {l r : TokenCondition} :
    BindsCondition s left l u → BindsCondition u right r t →
      BindsCondition s (.binary (.logical .and) left right) (.and l r) t
  | or {s u t : Session} {left right : Expr} {l r : TokenCondition} :
    s.keysOnly = false → BindsCondition s left l u → BindsCondition u right r t →
      BindsCondition s (.binary (.logical .or) left right) (.or l r) t
  | not {s t : Session} {inner : Expr} {c : TokenCondition} :
    s.keysOnly = false → BindsCondition s inner c t → BindsCondition s (.not inner) (.not c) t
  | compare {s t : Session} {op : Comparison} {left right : Expr} {l r : TokenOperand} {pins : Bool} :
    (op = .ne → s.keysOnly = false) →
    (pins = true ↔ s.PinsPartition left ∨ s.PinsPartition right) → (pins = true → op = .eq) →
    BindsPair s left right l r t →
      BindsCondition s (.binary (.comparison op) left right) (.compare op l r) (t.noting pins)
  | exists {s t : Session} {path : Path} {resolved : ResolvedPath} :
    s.keysOnly = false → Resolves s path resolved t →
      BindsCondition s (.call "attribute_exists" [.member path]) (.exists resolved.path) t
  | notExists {s t : Session} {path : Path} {resolved : ResolvedPath} :
    s.keysOnly = false → Resolves s path resolved t →
      BindsCondition s (.call "attribute_not_exists" [.member path]) (.notExists resolved.path) t
  | hasType {s u t : Session} {path : Path} {resolved : ResolvedPath} {descriptor token : String} :
    s.keysOnly = false → descriptor ∈ AttributeValue.descriptors → Resolves s path resolved u →
    SessionM.bindValue (.string descriptor) u = .ok token t →
      BindsCondition s (.call "attribute_type" [.member path, .constant (.string descriptor)])
        (.hasType resolved.path token) t
  | beginsWith {s u t : Session} {path : Path} {resolved : ResolvedPath} {start : Expr} {operand : TokenOperand} :
    ¬ s.PinsPartition (.member path) → Resolves s path resolved u → BindsOperand u resolved.rules start operand t →
      BindsCondition s (.call "begins_with" [.member path, start]) (.beginsWith resolved.path operand) t
  | contains {s u t : Session} {path : Path} {resolved : ResolvedPath} {element : Expr} {operand : TokenOperand} :
    s.keysOnly = false → Resolves s path resolved u → BindsOperand u resolved.rules element operand t →
      BindsCondition s (.call "contains" [.member path, element]) (.contains resolved.path operand) t
  | between {s u v t : Session} {tested low high : Expr} {subject l h : TokenOperand} {rules : Option Property} :
    ¬ s.PinsPartition tested → BindsSubject s tested subject rules u →
    BindsOperand u rules low l v → BindsOperand v rules high h t →
      BindsCondition s (.call "between" [tested, low, high]) (.between subject l h) t
  | isIn {s u t : Session} {tested : Expr} {candidates : List Expr} {subject : TokenOperand}
      {operands : List TokenOperand} {rules : Option Property} :
    s.keysOnly = false → candidates ≠ [] → BindsSubject s tested subject rules u →
    BindsAll rules u candidates operands t →
      BindsCondition s (.call "in" (tested :: candidates)) (.isIn subject operands) t

/-- A value that an update sets, under given rules for literals. -/
inductive BindsUpdateValue : Session → Option Property → Expr → TokenValue → Session → Prop where
  | operand {s t : Session} {rules : Option Property} {expr : Expr} {operand : TokenOperand} :
    (∀ method args, expr ≠ .call method args) → BindsOperand s rules expr operand t →
      BindsUpdateValue s rules expr (.operand operand) t
  | add {s u t : Session} {rules : Option Property} {left right : Expr} {l r : TokenValue} :
    BindsUpdateValue s rules left l u → BindsUpdateValue u rules right r t →
      BindsUpdateValue s rules (.binary (.arithmetic .add) left right) (.add l r) t
  | subtract {s u t : Session} {rules : Option Property} {left right : Expr} {l r : TokenValue} :
    BindsUpdateValue s rules left l u → BindsUpdateValue u rules right r t →
      BindsUpdateValue s rules (.binary (.arithmetic .subtract) left right) (.subtract l r) t
  | ifNotExists {s u t : Session} {rules : Option Property} {path : Path} {resolved : ResolvedPath} {fallback : Expr}
      {value : TokenValue} :
    Resolves s path resolved u → BindsUpdateValue u resolved.rules fallback value t →
      BindsUpdateValue s rules (.call "if_not_exists" [.member path, fallback])
        (.ifNotExists resolved.path value) t
  | listAppend {s u t : Session} {rules : Option Property} {first second : Expr} {l r : TokenValue} :
    BindsUpdateValue s rules first l u → BindsUpdateValue u rules second r t →
      BindsUpdateValue s rules (.call "list_append" [first, second]) (.listAppend l r) t

/-- An update of one place outside of the table's key. -/
inductive BindsUpdate (s : Session) : Assignment → TokenUpdate → Session → Prop where
  | set {target : Path} {resolved : ResolvedPath} {value : Expr} {bound : TokenValue} {u t : Session} :
    Resolves s target resolved u → resolved.property.keyRole = .none →
    BindsUpdateValue u resolved.rules value bound t → BindsUpdate s ⟨target, value⟩ (.set resolved.path bound) t
  | remove {target : Path} {resolved : ResolvedPath} {t : Session} :
    Resolves s target resolved t → resolved.property.keyRole = .none →
      BindsUpdate s ⟨target, .call "remove" []⟩ (.remove resolved.path) t
  | add {target : Path} {resolved : ResolvedPath} {method : String} {value : Expr} {operand : TokenOperand}
      {u t : Session} :
    method = "increment" ∨ method = "add_to_set" → Resolves s target resolved u →
    resolved.property.keyRole = .none → BindsOperand u resolved.rules value operand t →
      BindsUpdate s ⟨target, .call method [value]⟩ (.add resolved.path operand) t
  | delete {target : Path} {resolved : ResolvedPath} {value : Expr} {operand : TokenOperand} {u t : Session} :
    Resolves s target resolved u → resolved.property.keyRole = .none →
    BindsOperand u resolved.rules value operand t →
      BindsUpdate s ⟨target, .call "delete_from_set" [value]⟩ (.delete resolved.path operand) t

open Session

variable {s t : Session}

/-! ## Derivations only grow the session -/

theorem BindsSteps.names {names final : NameTable} {tail : List PathStep} {steps : List TokenStep}
    (binds : BindsSteps names tail steps final) : ∃ attributeNames, final = names.bindAll attributeNames := by
  induction binds with
  | nil => exact ⟨[], rfl⟩
  | @field names final name rest steps _ ih =>
    obtain ⟨attributeNames, rfl⟩ := ih
    exact ⟨name :: attributeNames, rfl⟩
  | index _ ih => exact ih

theorem Resolves.grows {path : Path} {resolved : ResolvedPath} (resolves : Resolves s path resolved t) :
    Grows s t := by
  cases resolves with
  | @root root tail property steps names found checked flat binds =>
    obtain ⟨attributeNames, rfl⟩ := binds.names
    exact ⟨rfl, ⟨property.attributeName :: attributeNames, rfl⟩, List.prefix_rfl, rfl, id⟩

theorem BindsOperand.grows {rules : Option Property} {expr : Expr} {operand : TokenOperand}
    (binds : BindsOperand s rules expr operand t) : Grows s t := by
  cases binds with
  | path resolves => exact resolves.grows
  | value _ bound => exact grows_bindValue bound
  | size _ resolves => exact resolves.grows

theorem BindsAll.grows {rules : Option Property} {exprs : List Expr} {operands : List TokenOperand}
    (binds : BindsAll rules s exprs operands t) : Grows s t := by
  induction binds with
  | nil => exact .refl _
  | cons first _ ih => exact first.grows.trans ih

theorem BindsPair.grows {left right : Expr} {l r : TokenOperand} (binds : BindsPair s left right l r t) :
    Grows s t := by
  cases binds with
  | pathLeft resolves other => exact resolves.grows.trans other.grows
  | pathRight _ resolves other => exact resolves.grows.trans other.grows
  | noPath _ _ first second => exact first.grows.trans second.grows

theorem BindsSubject.grows {expr : Expr} {operand : TokenOperand} {rules : Option Property}
    (binds : BindsSubject s expr operand rules t) : Grows s t := by
  cases binds with
  | path resolves => exact resolves.grows
  | other _ bound => exact bound.grows

theorem grows_noting (session : Session) (pins : Bool) : Grows session (session.noting pins) :=
  ⟨rfl, ⟨[], rfl⟩, List.prefix_rfl, rfl, fun bound => by simp [noting, bound]⟩

theorem BindsCondition.grows {expr : Expr} {c : TokenCondition} (binds : BindsCondition s expr c t) :
    Grows s t := by
  induction binds with
  | and _ _ ihLeft ihRight => exact ihLeft.trans ihRight
  | or _ _ _ ihLeft ihRight => exact ihLeft.trans ihRight
  | not _ _ ih => exact ih
  | compare _ _ _ pair => exact pair.grows.trans (grows_noting ..)
  | «exists» _ resolves => exact resolves.grows
  | notExists _ resolves => exact resolves.grows
  | hasType _ _ resolves bound => exact resolves.grows.trans (grows_bindValue bound)
  | beginsWith _ resolves other => exact resolves.grows.trans other.grows
  | contains _ resolves other => exact resolves.grows.trans other.grows
  | between _ subject low high => exact subject.grows.trans (low.grows.trans high.grows)
  | isIn _ _ subject all => exact subject.grows.trans all.grows

theorem BindsUpdateValue.grows {rules : Option Property} {expr : Expr} {value : TokenValue}
    (binds : BindsUpdateValue s rules expr value t) : Grows s t := by
  induction binds with
  | operand _ bound => exact bound.grows
  | add _ _ ihLeft ihRight => exact ihLeft.trans ihRight
  | subtract _ _ ihLeft ihRight => exact ihLeft.trans ihRight
  | ifNotExists resolves _ ih => exact resolves.grows.trans ih
  | listAppend _ _ ihFirst ihSecond => exact ihFirst.trans ihSecond

theorem BindsUpdate.grows {assignment : Assignment} {update : TokenUpdate} (binds : BindsUpdate s assignment update t) :
    Grows s t := by
  cases binds with
  | set resolves _ value => exact resolves.grows.trans value.grows
  | remove resolves => exact resolves.grows
  | add _ resolves _ operand | delete resolves _ operand => exact resolves.grows.trans operand.grows

/-! ## What a call was bound by

The names of calls are texts, so the rule for a call is found by comparing them. -/

/-- The tests of one path that have no other arguments. -/
theorem BindsCondition.of_single {method : String} {path : Path} {c : TokenCondition}
    (binds : BindsCondition s (.call method [.member path]) c t) :
    ∃ resolved, Resolves s path resolved t ∧ (c = .exists resolved.path ∨ c = .notExists resolved.path) := by
  cases binds with
  | «exists» _ resolves => exact ⟨_, resolves, .inl rfl⟩
  | notExists _ resolves => exact ⟨_, resolves, .inr rfl⟩
  | isIn _ nonempty => exact absurd rfl nonempty

theorem BindsCondition.of_hasType {path : Path} {descriptor : String} {c : TokenCondition}
    (binds : BindsCondition s (.call "attribute_type" [.member path, .constant (.string descriptor)]) c t) :
    ∃ resolved token u, Resolves s path resolved u ∧ SessionM.bindValue (.string descriptor) u = .ok token t ∧
      c = .hasType resolved.path token := by
  generalize same : Expr.call "attribute_type" [.member path, .constant (.string descriptor)] = expr at binds
  cases binds with
  | hasType _ _ resolves bound =>
    simp only [Expr.call.injEq, List.cons.injEq, Expr.member.injEq, Expr.constant.injEq, Value.string.injEq, and_true,
      true_and] at same
    obtain ⟨rfl, rfl⟩ := same
    exact ⟨_, _, _, resolves, bound, rfl⟩
  | _ => simp at same

theorem BindsCondition.of_between {tested low high : Expr} {c : TokenCondition}
    (binds : BindsCondition s (.call "between" [tested, low, high]) c t) :
    ∃ subject l h rules u v, BindsSubject s tested subject rules u ∧ BindsOperand u rules low l v ∧
      BindsOperand v rules high h t ∧ c = .between subject l h := by
  generalize same : Expr.call "between" [tested, low, high] = expr at binds
  cases binds with
  | between _ subject first second =>
    simp only [Expr.call.injEq, List.cons.injEq, and_true, true_and] at same
    obtain ⟨rfl, rfl, rfl⟩ := same
    exact ⟨_, _, _, _, _, _, subject, first, second, rfl⟩
  | _ => simp at same

theorem BindsCondition.of_in {tested : Expr} {candidates : List Expr} {c : TokenCondition}
    (binds : BindsCondition s (.call "in" (tested :: candidates)) c t) :
    ∃ subject operands rules u, BindsSubject s tested subject rules u ∧ BindsAll rules u candidates operands t ∧
      c = .isIn subject operands := by
  generalize same : Expr.call "in" (tested :: candidates) = expr at binds
  cases binds with
  | isIn _ _ subject all =>
    simp only [Expr.call.injEq, List.cons.injEq, true_and] at same
    obtain ⟨rfl, rfl⟩ := same
    exact ⟨_, _, _, _, subject, all, rfl⟩
  | _ => simp at same

theorem BindsCondition.of_beginsWith {path : Path} {start : Expr} {c : TokenCondition}
    (binds : BindsCondition s (.call "begins_with" [.member path, start]) c t) :
    ∃ resolved operand u, Resolves s path resolved u ∧ BindsOperand u resolved.rules start operand t ∧
      c = .beginsWith resolved.path operand := by
  generalize same : Expr.call "begins_with" [.member path, start] = expr at binds
  cases binds with
  | beginsWith _ resolves other =>
    simp only [Expr.call.injEq, List.cons.injEq, Expr.member.injEq, and_true, true_and] at same
    obtain ⟨rfl, rfl⟩ := same
    exact ⟨_, _, _, resolves, other, rfl⟩
  | _ => simp at same

theorem BindsCondition.of_contains {path : Path} {element : Expr} {c : TokenCondition}
    (binds : BindsCondition s (.call "contains" [.member path, element]) c t) :
    ∃ resolved operand u, Resolves s path resolved u ∧ BindsOperand u resolved.rules element operand t ∧
      c = .contains resolved.path operand := by
  generalize same : Expr.call "contains" [.member path, element] = expr at binds
  cases binds with
  | contains _ resolves other =>
    simp only [Expr.call.injEq, List.cons.injEq, Expr.member.injEq, and_true, true_and] at same
    obtain ⟨rfl, rfl⟩ := same
    exact ⟨_, _, _, resolves, other, rfl⟩
  | _ => simp at same

/-- A path on the left gives its rules to the other side. -/
theorem BindsPair.of_member {path : Path} {right : Expr} {l r : TokenOperand}
    (binds : BindsPair s (.member path) right l r t) :
    ∃ resolved u, Resolves s path resolved u ∧ BindsOperand u resolved.rules right r t ∧ l = .path resolved.path := by
  cases binds with
  | pathLeft resolves other => exact ⟨_, _, resolves, other, rfl⟩
  | pathRight noPath | noPath noPath => exact absurd rfl (noPath path)

/-- A size on the left gives no rules to a literal. -/
theorem BindsPair.of_size {args : List Expr} {value : Value} {l r : TokenOperand}
    (binds : BindsPair s (.call "size" args) (.constant value) l r t) :
    ∃ u, BindsOperand s none (.call "size" args) l u ∧ BindsOperand u none (.constant value) r t := by
  cases binds with
  | noPath _ _ first second => exact ⟨_, first, second⟩

/-- A path that is tested gives its rules. -/
theorem BindsSubject.of_member {path : Path} {operand : TokenOperand} {rules : Option Property}
    (binds : BindsSubject s (.member path) operand rules t) :
    ∃ resolved, Resolves s path resolved t ∧ operand = .path resolved.path ∧ rules = resolved.rules := by
  cases binds with
  | path resolves => exact ⟨_, resolves, rfl, rfl⟩
  | other noPath => exact absurd rfl (noPath path)

/-- A size that is tested gives no rules. -/
theorem BindsSubject.of_size {args : List Expr} {operand : TokenOperand} {rules : Option Property}
    (binds : BindsSubject s (.call "size" args) operand rules t) :
    BindsOperand s none (.call "size" args) operand t ∧ rules = none := by
  cases binds with
  | other _ bound => exact ⟨bound, rfl⟩

/-- A literal that is tested is bound without rules, and gives none. -/
theorem BindsSubject.of_constant {value : Value} {operand : TokenOperand} {rules : Option Property}
    (binds : BindsSubject s (.constant value) operand rules t) :
    BindsOperand s none (.constant value) operand t ∧ rules = none := by
  cases binds with
  | other _ bound => exact ⟨bound, rfl⟩

/-! ## What an update was bound by -/

theorem BindsUpdateValue.of_ifNotExists {rules : Option Property} {path : Path} {fallback : Expr} {value : TokenValue}
    (binds : BindsUpdateValue s rules (.call "if_not_exists" [.member path, fallback]) value t) :
    ∃ resolved inner u, Resolves s path resolved u ∧ BindsUpdateValue u resolved.rules fallback inner t ∧
      value = .ifNotExists resolved.path inner := by
  generalize same : Expr.call "if_not_exists" [.member path, fallback] = expr at binds
  cases binds with
  | operand noCall => exact absurd same.symm (noCall _ _)
  | ifNotExists resolves bound =>
    simp only [Expr.call.injEq, List.cons.injEq, Expr.member.injEq, and_true, true_and] at same
    obtain ⟨rfl, rfl⟩ := same
    exact ⟨_, _, _, resolves, bound, rfl⟩
  | _ => simp at same

theorem BindsUpdateValue.of_listAppend {rules : Option Property} {first second : Expr} {value : TokenValue}
    (binds : BindsUpdateValue s rules (.call "list_append" [first, second]) value t) :
    ∃ l r u, BindsUpdateValue s rules first l u ∧ BindsUpdateValue u rules second r t ∧ value = .listAppend l r := by
  generalize same : Expr.call "list_append" [first, second] = expr at binds
  cases binds with
  | operand noCall => exact absurd same.symm (noCall _ _)
  | listAppend front behind =>
    simp only [Expr.call.injEq, List.cons.injEq, and_true, true_and] at same
    obtain ⟨rfl, rfl⟩ := same
    exact ⟨_, _, _, front, behind, rfl⟩
  | _ => simp at same

/-- A value that is no call on fewer than two arguments is set. -/
theorem BindsUpdate.of_value {target : Path} {value : Expr} {update : TokenUpdate}
    (binds : BindsUpdate s ⟨target, value⟩ update t)
    (long : ∀ method args, value = .call method args → 2 ≤ args.length) :
    ∃ resolved bound u, Resolves s target resolved u ∧ BindsUpdateValue u resolved.rules value bound t ∧
      update = .set resolved.path bound := by
  cases binds with
  | set resolves _ bound => exact ⟨_, _, _, resolves, bound, rfl⟩
  | remove => exact absurd (long _ _ rfl) (by decide)
  | add | delete =>
    have := long _ _ rfl
    simp at this

/-- A call on no arguments is bound by removing the target. -/
theorem BindsUpdate.of_empty {target : Path} {method : String} {update : TokenUpdate}
    (binds : BindsUpdate s ⟨target, .call method []⟩ update t) :
    ∃ resolved, Resolves s target resolved t ∧ update = .remove resolved.path := by
  cases binds with
  | set _ _ value =>
    cases value with
    | operand noCall => exact absurd rfl (noCall _ _)
  | remove resolves => exact ⟨_, resolves, rfl⟩

/-- A call on one argument is bound by adding to the target or by deleting from it. -/
theorem BindsUpdate.of_single {target : Path} {method : String} {arg : Expr} {update : TokenUpdate}
    (binds : BindsUpdate s ⟨target, .call method [arg]⟩ update t) :
    ∃ resolved operand u, Resolves s target resolved u ∧ BindsOperand u resolved.rules arg operand t ∧
      (update = .add resolved.path operand ∨ update = .delete resolved.path operand) := by
  cases binds with
  | set _ _ value =>
    cases value with
    | operand noCall => exact absurd rfl (noCall _ _)
  | add _ resolves _ operand => exact ⟨_, _, _, resolves, operand, .inl rfl⟩
  | delete resolves _ operand => exact ⟨_, _, _, resolves, operand, .inr rfl⟩

end ItemExpr
