import ItemExpr.Proofs.Binding.Run
import ItemExpr.Proofs.Condition.Keys
import ItemExpr.Proofs.KeySchema
import ItemExpr.Proofs.Subtree

/-!
# The language of conditions on keys

Which trees are compiled as conditions on keys: `AND` over comparisons, `between` and `begins_with`, in which every
operand is a literal or a property of the key itself. Nothing else may stand anywhere in such a tree.

Of the partition key it is checked that it is no side of another comparison than `=`, and that neither `between` nor
`begins_with` tests it. What these two test it against is not looked at, so the partition key may stand there.
-/

namespace ItemExpr

open Session SessionM

/-! ## Places in trees -/

namespace Expr

/-- A side of a comparison with `=`. -/
def EqualitySide (node : Expr) (_i : Nat) : Prop :=
  ∃ left right, node = .compare .eq left right

/-- An argument that `between` or `begins_with` tests its first one against. -/
def RangeArgument (node : Expr) (i : Nat) : Prop :=
  i ≠ 0 ∧ ∃ method args, (method = "between" ∨ method = "begins_with") ∧ node = .call method args

end Expr

/-! ## Trees of the language -/

variable {entity : Entity} {schema : KeySchema}

/-- An operand of a condition on keys: a literal, or a property of the key. -/
inductive IsKeyOperand (entity : Entity) (schema : KeySchema) : Expr → Prop where
  | literal {value : Value} : IsKeyOperand entity schema (.constant value)
  | key {root : String} {property : Property} :
    entity.property? root = some property → schema.hasKey property.attributeName = true →
      IsKeyOperand entity schema (.member ⟨[.field root]⟩)

/-- A condition on keys. -/
inductive IsKeyCondition (entity : Entity) (schema : KeySchema) : Expr → Prop where
  | and {left right : Expr} : IsKeyCondition entity schema left → IsKeyCondition entity schema right →
      IsKeyCondition entity schema (.and left right)
  | compare {op : Comparison} {left right : Expr} : op ≠ .ne → IsKeyOperand entity schema left →
    IsKeyOperand entity schema right → IsKeyCondition entity schema (.compare op left right)
  | between {tested low high : Expr} : IsKeyOperand entity schema tested → IsKeyOperand entity schema low →
    IsKeyOperand entity schema high → IsKeyCondition entity schema (.call "between" [tested, low, high])
  | beginsWith {path : Path} {start : Expr} : IsKeyOperand entity schema (.member path) →
    IsKeyOperand entity schema start → IsKeyCondition entity schema (.call "begins_with" [.member path, start])

/-- A node that no condition on keys has: another operator or call, or a path that is no property of the key. -/
inductive IsForeign (entity : Entity) (schema : KeySchema) : Expr → Prop where
  | or {left right : Expr} : IsForeign entity schema (.or left right)
  | not {inner : Expr} : IsForeign entity schema (.not inner)
  | notEqual {left right : Expr} : IsForeign entity schema (.compare .ne left right)
  | arithmetic {op : Arithmetic} {left right : Expr} : IsForeign entity schema (.binary (.arithmetic op) left right)
  | call {method : String} {args : List Expr} : method ≠ "between" → method ≠ "begins_with" →
      IsForeign entity schema (.call method args)
  | rootless {path : Path} : path.root? = none → IsForeign entity schema (.member path)
  | nested {path : Path} : path.isNested = true → IsForeign entity schema (.member path)
  | unmapped {path : Path} {root : String} : path.root? = some root → entity.property? root = none →
      IsForeign entity schema (.member path)
  | notKey {path : Path} {root : String} {property : Property} : path.root? = some root →
    entity.property? root = some property → schema.hasKey property.attributeName = false →
      IsForeign entity schema (.member path)

/-! ## Nothing foreign stands in them -/

/-- Nothing foreign stands anywhere in a tree. -/
def ForeignFree (entity : Entity) (schema : KeySchema) (expr : Expr) : Prop :=
  ∀ address part, expr.subtree? address = some part → ¬ IsForeign entity schema part

theorem foreignFree_of_children {expr : Expr} (root : ¬ IsForeign entity schema expr)
    (children : ∀ child ∈ expr.children, ForeignFree entity schema child) : ForeignFree entity schema expr := by
  intro address part at_
  cases address with
  | nil =>
    cases at_
    exact root
  | cons i address =>
    obtain ⟨child, found, below⟩ := Option.bind_eq_some_iff.1 at_
    exact children child (List.mem_of_getElem? found) address part below

theorem IsKeyOperand.not_foreign {expr : Expr} (operand : IsKeyOperand entity schema expr) :
    ¬ IsForeign entity schema expr := by
  intro foreign
  cases operand with
  | literal => cases foreign
  | key mapped key =>
    cases foreign with
    | rootless absent => cases absent
    | nested below => cases below
    | unmapped starts missing =>
      cases starts
      rw [mapped] at missing
      cases missing
    | notKey starts declared noKey =>
      cases starts
      rw [mapped] at declared
      cases declared
      rw [key] at noKey
      cases noKey

theorem IsKeyOperand.foreignFree {expr : Expr} (operand : IsKeyOperand entity schema expr) :
    ForeignFree entity schema expr := by
  refine foreignFree_of_children operand.not_foreign fun child member => ?_
  -- An operand has no children.
  cases operand <;> cases member

theorem IsKeyCondition.not_foreign {expr : Expr} (condition : IsKeyCondition entity schema expr) :
    ¬ IsForeign entity schema expr := by
  intro foreign
  cases condition with
  | and => cases foreign
  | compare equal =>
    cases foreign
    exact equal rfl
  | between =>
    cases foreign with
    | call other => exact other rfl
  | beginsWith =>
    cases foreign with
    | call _ other => exact other rfl

theorem IsKeyCondition.foreignFree {expr : Expr} (condition : IsKeyCondition entity schema expr) :
    ForeignFree entity schema expr := by
  have root := condition.not_foreign
  induction condition with
  | and left right ihLeft ihRight =>
    refine foreignFree_of_children root ?_
    simpa [Expr.and, Expr.children] using ⟨ihLeft left.not_foreign, ihRight right.not_foreign⟩
  | compare _ left right =>
    refine foreignFree_of_children root ?_
    simpa [Expr.compare, Expr.children] using ⟨left.foreignFree, right.foreignFree⟩
  | between tested low high =>
    refine foreignFree_of_children root ?_
    simpa [Expr.children] using ⟨tested.foreignFree, low.foreignFree, high.foreignFree⟩
  | beginsWith tested start =>
    refine foreignFree_of_children root ?_
    simpa [Expr.children] using ⟨tested.foreignFree, start.foreignFree⟩

/-! ## What is compiled is in the language -/

variable {s t : Session}

theorem Resolves.isKeyOperand {path : Path} {resolved : ResolvedPath} (resolves : Resolves s path resolved t)
    (keys : s.keysOnly = true) (known : s.entity = some entity) :
    IsKeyOperand entity (s.keySchema entity) (.member path) := by
  obtain ⟨root, rfl, found, key, _⟩ := resolves.key_of_keysOnly keys known
  exact .key (property?_of_property known found) (hasKey_of_isKey known found key)

theorem BindsOperand.isKeyOperand {rules : Option Property} {expr : Expr} {operand : TokenOperand}
    (binds : BindsOperand s rules expr operand t) (keys : s.keysOnly = true) (known : s.entity = some entity) :
    IsKeyOperand entity (s.keySchema entity) expr := by
  cases binds with
  | path resolves => exact resolves.isKeyOperand keys known
  | value => exact .literal
  | size unrestricted =>
    rw [keys] at unrestricted
    cases unrestricted

/-- What is bound after something else is an operand of the same language. -/
theorem BindsOperand.isKeyOperand_later {rules : Option Property} {expr : Expr} {operand : TokenOperand} {u : Session}
    (binds : BindsOperand u rules expr operand t) (grows : Grows s u) (keys : s.keysOnly = true)
    (known : s.entity = some entity) : IsKeyOperand entity (s.keySchema entity) expr := by
  rw [← grows.keySchema]
  exact binds.isKeyOperand (grows.keysOnly.trans keys) (grows.entity.trans known)

theorem BindsPair.isKeyOperand {left right : Expr} {l r : TokenOperand} (binds : BindsPair s left right l r t)
    (keys : s.keysOnly = true) (known : s.entity = some entity) :
    IsKeyOperand entity (s.keySchema entity) left ∧ IsKeyOperand entity (s.keySchema entity) right := by
  cases binds with
  | pathLeft resolves other =>
    exact ⟨resolves.isKeyOperand keys known, other.isKeyOperand_later resolves.grows keys known⟩
  | pathRight _ resolves other =>
    exact ⟨other.isKeyOperand_later resolves.grows keys known, resolves.isKeyOperand keys known⟩
  | noPath _ _ first second =>
    exact ⟨first.isKeyOperand keys known, second.isKeyOperand_later first.grows keys known⟩

theorem BindsSubject.isKeyOperand {expr : Expr} {operand : TokenOperand} {rules : Option Property}
    (binds : BindsSubject s expr operand rules t) (keys : s.keysOnly = true) (known : s.entity = some entity) :
    IsKeyOperand entity (s.keySchema entity) expr := by
  cases binds with
  | path resolves => exact resolves.isKeyOperand keys known
  | other _ binds => exact binds.isKeyOperand keys known

theorem BindsKeyCondition.isKeyCondition {expr : Expr} {c : TokenCondition} (binds : BindsKeyCondition s expr c t)
    (known : s.entity = some entity) : IsKeyCondition entity (s.keySchema entity) expr := by
  induction binds with
  | and left right ihLeft ihRight =>
    have second := ihRight (left.grows.entity.trans known)
    rw [left.grows.keySchema] at second
    exact .and (ihLeft known) second
  | compare keys unequal _ _ pair =>
    obtain ⟨left, right⟩ := pair.isKeyOperand keys known
    exact .compare unequal left right
  | beginsWith keys _ resolves other =>
    exact .beginsWith (resolves.isKeyOperand keys known) (other.isKeyOperand_later resolves.grows keys known)
  | between keys _ tested low high =>
    exact .between (tested.isKeyOperand keys known) (low.isKeyOperand_later tested.grows keys known)
      (high.isKeyOperand_later (tested.grows.trans low.grows) keys known)

/-- What is compiled as a condition on keys is a condition on keys, and so a tree in which anything else stands
anywhere is refused. -/
theorem condition_keysOnly {session : Session} (known : session.entity = some entity) (mode : session.mode = .keysOnly)
    (expr : Expr) :
    (∀ c after, SessionM.condition expr session = .ok c after →
      IsKeyCondition entity (session.keySchema entity) expr) ∧
    ∀ address part, expr.subtree? address = some part → IsForeign entity (session.keySchema entity) part →
      ∃ error after, SessionM.condition expr session = .error error after := by
  have keys : session.keysOnly = true := by simp [keysOnly, mode]
  have language : ∀ c after, SessionM.condition expr session = .ok c after →
      IsKeyCondition entity (session.keySchema entity) expr :=
    fun c after run => ((condition_binds run).onKeys keys).isKeyCondition known
  refine ⟨language, fun address part at_ foreign => ?_⟩
  cases run : SessionM.condition expr session with
  | ok c after => exact absurd foreign ((language c after run).foreignFree address part at_)
  | error error after => exact ⟨error, after, rfl⟩

/-! An entity whose index has the keys of its table the other way round. -/

def orderLog : Entity :=
  { Entity.empty "order-log" with
    properties :=
      [{ Property.plain "CustomerId" "pk" with keyRole := .partition },
        { Property.plain "OrderKey" "sk" with keyRole := .sort }, .plain "Status" "status"]
    indexes := [⟨"inverted", "sk", some "pk"⟩] }

/-- A session that compiles conditions on keys of an index, or else of the table. -/
def Session.ofKeys (entity : Entity) (index : Option Index) : Session :=
  { Session.new .standard (some entity) with index, mode := .keysOnly }

theorem condition_keysOnly_of_inverted :
    let session := Session.ofKeys orderLog (some ⟨"inverted", "sk", some "pk"⟩)
    let order : Expr := .compare .eq (.member ⟨[.field "OrderKey"]⟩) (.constant (.string "o-1"))
    let customer : Expr := .call "begins_with" [.member ⟨[.field "CustomerId"]⟩, .constant (.string "c")]
    let status : Expr := .compare .eq (.member ⟨[.field "Status"]⟩) (.constant (.string "open"))
    IsKeyCondition orderLog (session.keySchema orderLog) (.and order customer) ∧
      ∃ error after, SessionM.condition (.and order (.and status customer)) session = .error error after := by
  intro session order customer status
  have answer : (SessionM.condition (.and order customer)).answer? session = some
      (.and (.compare .eq (.path ⟨"#sk", []⟩) (.value ":p0")) (.beginsWith ⟨"#pk", []⟩ (.value ":p1"))) := by
    decide +kernel
  obtain ⟨after, run⟩ := SessionM.answer?_eq_some.1 answer
  have known : session.entity = some orderLog := rfl
  -- The property of the status is no key of the index, and it stands in the second tree.
  have foreign : IsForeign orderLog (session.keySchema orderLog) (.member ⟨[.field "Status"]⟩) :=
    .notKey rfl rfl (by decide)
  exact ⟨(condition_keysOnly known rfl _).1 _ after run, (condition_keysOnly known rfl _).2 [1, 0, 0] _ rfl foreign⟩

/-! ## Where the partition key stands -/

theorem Session.Grows.pinsPartition {before after : Session} {expr : Expr} (grows : Grows before after) :
    after.PinsPartition expr ↔ before.PinsPartition expr := by
  simp only [Session.PinsPartition, grows.keysOnly, grows.property, grows.isPartitionKey]

/-- Where all children of a node are operands, each subtree but the node itself is one of them. -/
theorem child_of_operands {expr part : Expr} {address : List Nat} (at_ : expr.subtree? address = some part)
    (differs : expr ≠ part) (operands : ∀ child ∈ expr.children, IsKeyOperand entity schema child) :
    ∃ i, address = [i] ∧ expr.children[i]? = some part := by
  cases address with
  | nil => exact absurd (Option.some.inj at_) differs
  | cons i address =>
    obtain ⟨child, found, below⟩ := Option.bind_eq_some_iff.1 at_
    cases address with
    | nil =>
      cases below
      exact ⟨i, rfl, found⟩
    | cons j address => cases operands child (List.mem_of_getElem? found) <;> cases below

/-- A path to the partition key is a side of `=`, or something is tested against it. -/
theorem BindsKeyCondition.partition_stands {expr : Expr} {c : TokenCondition} {address : List Nat} {path : Path}
    (binds : BindsKeyCondition s expr c t) (known : s.entity = some entity)
    (at_ : expr.subtree? address = some (.member path)) (pins : s.PinsPartition (.member path)) :
    expr.StandsIn Expr.EqualitySide address ∨ expr.StandsIn Expr.RangeArgument address := by
  induction binds generalizing address with
  | and left right ihLeft ihRight =>
    match address, at_ with
    | 0 :: address, at_ =>
      exact (ihLeft known at_ pins).imp (.below rfl) (.below rfl)
    | 1 :: address, at_ =>
      have stands := ihRight (left.grows.entity.trans known) at_ (left.grows.pinsPartition.2 pins)
      exact stands.imp (.below rfl) (.below rfl)
  | @compare s t op left right l r noted keys _ pinned equality pair =>
    obtain ⟨first, second⟩ := pair.isKeyOperand keys known
    have operands : ∀ child ∈ [left, right], IsKeyOperand entity (s.keySchema entity) child := by
      simpa using ⟨first, second⟩
    obtain ⟨i, rfl, found⟩ := child_of_operands at_ (by simp [Expr.compare]) operands
    -- The path is one of the sides, and each was looked at.
    have eq : op = .eq := by
      refine equality (pinned.2 ?_)
      match i, found with
      | 0, found => exact .inl (Option.some.inj found ▸ pins)
      | 1, found => exact .inr (Option.some.inj found ▸ pins)
    subst eq
    exact .inl (.root ⟨left, right, rfl⟩)
  | @beginsWith s u t tested resolved start operand keys free resolves other =>
    have operands : ∀ child ∈ [.member tested, start], IsKeyOperand entity (s.keySchema entity) child := by
      simpa using ⟨resolves.isKeyOperand keys known, other.isKeyOperand_later resolves.grows keys known⟩
    obtain ⟨i, rfl, found⟩ := child_of_operands at_ (by simp) operands
    have behind : i ≠ 0 := by
      rintro rfl
      exact free (Option.some.inj found ▸ pins)
    exact .inr (.root ⟨behind, _, _, .inr rfl, rfl⟩)
  | @between s u v t tested low high subject l h rules keys free binds bindsLow bindsHigh =>
    have operands : ∀ child ∈ [tested, low, high], IsKeyOperand entity (s.keySchema entity) child := by
      have atHigh := bindsHigh.isKeyOperand_later (binds.grows.trans bindsLow.grows) keys known
      simpa using ⟨binds.isKeyOperand keys known, bindsLow.isKeyOperand_later binds.grows keys known, atHigh⟩
    obtain ⟨i, rfl, found⟩ := child_of_operands at_ (by simp) operands
    have behind : i ≠ 0 := by
      rintro rfl
      exact free (Option.some.inj found ▸ pins)
    exact .inr (.root ⟨behind, _, _, .inl rfl, rfl⟩)

/-- In a compiled condition on keys a path to the partition key is a side of a comparison with `=`, or it is what
`between` or `begins_with` tests its first argument against. So it is no side of another comparison and is not
tested. -/
theorem partitionKey_stands {session after : Session} {expr : Expr} {c : TokenCondition} {address : List Nat}
    {path : Path} {root : String} {property : Property} (known : session.entity = some entity)
    (mode : session.mode = .keysOnly) (run : SessionM.condition expr session = .ok c after)
    (at_ : expr.subtree? address = some (.member path)) (starts : path.root? = some root)
    (found : entity.property? root = some property) (partition : session.isPartitionKey property = true) :
    expr.StandsIn Expr.EqualitySide address ∨ expr.StandsIn Expr.RangeArgument address := by
  obtain ⟨tail, rfl⟩ := Path.eq_of_root? starts
  have resolves := property_of_property? known found
  have keys : session.keysOnly = true := by simp [keysOnly, mode]
  exact ((condition_binds run).onKeys keys).partition_stands known at_
    ⟨keys, root, tail, property, rfl, resolves, partition⟩

theorem partitionKey_stands_of_inverted :
    let session := Session.ofKeys orderLog (some ⟨"inverted", "sk", some "pk"⟩)
    let expr : Expr := .and (.call "begins_with" [.member ⟨[.field "CustomerId"]⟩, .constant (.string "c")])
      (.compare .eq (.constant (.string "o-1")) (.member ⟨[.field "OrderKey"]⟩))
    ∃ c after, SessionM.condition expr session = .ok c after ∧
      (expr.StandsIn Expr.EqualitySide [1, 1] ∨ expr.StandsIn Expr.RangeArgument [1, 1]) := by
  intro session expr
  have answer : (SessionM.condition expr).answer? session = some
      (.and (.beginsWith ⟨"#pk", []⟩ (.value ":p0")) (.compare .eq (.value ":p1") (.path ⟨"#sk", []⟩))) := by
    decide +kernel
  obtain ⟨after, run⟩ := SessionM.answer?_eq_some.1 answer
  have known : session.entity = some orderLog := rfl
  have at_ : expr.subtree? [1, 1] = some (.member ⟨[.field "OrderKey"]⟩) := rfl
  exact ⟨_, after, run, partitionKey_stands known rfl run at_ rfl rfl (by decide)⟩

/-- What `between` tests against may be the partition key, which then is no side of a comparison. -/
theorem partitionKey_not_equated_of_bound :
    let session := Session.ofKeys orderLog none
    let expr : Expr := .call "between"
      [.member ⟨[.field "OrderKey"]⟩, .member ⟨[.field "CustomerId"]⟩, .constant (.string "z")]
    ∃ c after property, SessionM.condition expr session = .ok c after ∧ c.text = "#sk BETWEEN #pk AND :p0" ∧
      expr.subtree? [1] = some (.member ⟨[.field "CustomerId"]⟩) ∧ orderLog.property? "CustomerId" = some property ∧
      session.isPartitionKey property = true ∧ ¬ expr.StandsIn Expr.EqualitySide [1] := by
  intro session expr
  have answer : (SessionM.condition expr).answer? session = some
      (.between (.path ⟨"#sk", []⟩) (.path ⟨"#pk", []⟩) (.value ":p0")) := by
    decide +kernel
  obtain ⟨after, run⟩ := SessionM.answer?_eq_some.1 answer
  refine ⟨_, after, _, run, by decide +kernel, rfl, rfl, by decide, ?_⟩
  rintro ⟨outer, i, node, address, at_, left, right, rfl⟩
  -- The node above is the call, which is no comparison.
  obtain ⟨rfl, _⟩ : [] = outer ∧ [1] = [i] := List.append_inj' address rfl
  simp [expr, Expr.compare] at at_

end ItemExpr
