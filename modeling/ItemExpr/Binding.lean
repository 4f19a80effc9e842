import ItemExpr.Session
import ItemExpr.Token

/-!
# From trees to expressions over tokens

A tree is a condition if it is built from logical operators over comparisons and the known calls, and an update if its
value is built from the known update calls, sums and differences. Each path becomes a path of tokens, and each literal a
new value token, bound under the rules of the property that it stands beside.

A condition on keys is narrower: it joins comparisons with `AND`, refers only to properties of the key, and compares the
partition key with `=`.
-/

namespace ItemExpr

/-- A path over tokens, the property that it starts at, and the rules for the literals beside it. -/
structure ResolvedPath where
  path : TokenPath
  property : Property
  rules : Option Property

/-- The rules for what lies below a property: its encryption, and nothing else of it. -/
def Property.nestedRules? (property : Property) : Option Property :=
  if property.encrypted then some { property with format := none, timezone := .none, geo := none } else none

namespace SessionM

open Session

def unsupported {α : Type} (cause : Unsupported) : SessionM α :=
  throw (.unsupported cause)

def rejectInKeyCondition (construct : String) : SessionM Unit := do
  if (← get).keysOnly then unsupported (.inKeyCondition construct)

/-! ## Paths and operands -/

def bindStep : PathStep → SessionM TokenStep
  | .field name => return .field (← bindName name)
  | .index position => return .index position

/-- Resolves the property that a path starts at, and binds the names in the path. -/
def resolvePath (path : Path) : SessionM ResolvedPath := do
  match path.steps with
  | .field root :: tail =>
    let property ← query (·.property root)
    query (·.checkMode property)
    let token ← bindName property.attributeName
    let steps ← tail.mapM bindStep
    let session ← get
    -- Refused only now, so the names of a nested path stay bound.
    if !tail.isEmpty && session.keysOnly && session.entity.isSome then
      throw (.invalidKey property.logicalName .nestedPath)
    return ⟨⟨token, steps⟩, property, if tail.isEmpty then some property else property.nestedRules?⟩
  | _ => unsupported (.rootlessPath path)

/-- An operand, where literals are bound under the given rules. -/
def operand (rules : Option Property) : Expr → SessionM TokenOperand
  | .member path => return .path (← resolvePath path).path
  | .constant value => return .value (← bindLiteral value rules none)
  | .call "size" args => do
    rejectInKeyCondition "size"
    match args with
    | [.member path] => return .size (← resolvePath path).path
    | _ => unsupported .sizeArgument
  | .call method _ => unsupported (.notOperand method)
  | expr => unsupported (.notOperand expr.kind)

/-- The operand that others are compared with, and the rules that it gives to the literals among them. -/
def subject : Expr → SessionM (TokenOperand × Option Property)
  | .member path => do
    let resolved ← resolvePath path
    return (.path resolved.path, resolved.rules)
  -- A path among what it is compared with gives no rules to it.
  | expr => return (← operand none expr, none)

/-- The two sides of a comparison. A path gives its rules to a literal on the other side, and is bound before it. -/
def operandPair : Expr → Expr → SessionM (TokenOperand × TokenOperand)
  | .member path, other => do
    let resolved ← resolvePath path
    return (.path resolved.path, ← operand resolved.rules other)
  | other, .member path => do
    let resolved ← resolvePath path
    let side ← operand resolved.rules other
    return (side, .path resolved.path)
  | left, right => return (← operand none left, ← operand none right)

/-! ## Partition keys -/

/-- The name of the partition key, if a condition on keys is being compiled and a tree is a path to it. -/
def partitionKeyName? (expr : Expr) : SessionM (Option String) := do
  if !(← get).keysOnly then return none
  match expr with
  | .member ⟨.field root :: _⟩ =>
    let property ← query (·.property root)
    return if (← get).isPartitionKey property then some property.logicalName else none
  | _ => return none

/-- Whether a side of a comparison is the partition key, for which every operator but `=` is refused. -/
def checkPartitionSide (op : Comparison) (side : Expr) : SessionM Bool := do
  match ← partitionKeyName? side with
  | none => return false
  | some name => if op = .eq then return true else throw (.invalidKey name (.partitionOperator op))

/-- Refuses the partition key where only the sort key may stand. -/
def rejectPartitionKey (expr : Expr) (construct : String) : SessionM Unit := do
  match ← partitionKeyName? expr with
  | none => return
  | some name => throw (.invalidKey name (.sortKeyOnly construct))

/-! ## Conditions -/

/-- A comparison. One with the partition key in a condition on keys is noted. -/
def comparison (op : Comparison) (left right : Expr) : SessionM TokenCondition := do
  if op = .ne then rejectInKeyCondition op.symbol
  let leftPins ← checkPartitionSide op left
  let rightPins ← checkPartitionSide op right
  let (l, r) ← operandPair left right
  if leftPins || rightPins then markPartitionBound
  return .compare op l r

def conditionCall (method : String) (args : List Expr) : SessionM TokenCondition := do
  match method, args with
  | "attribute_exists", [.member path] =>
    rejectInKeyCondition method
    return .exists (← resolvePath path).path
  | "attribute_not_exists", [.member path] =>
    rejectInKeyCondition method
    return .notExists (← resolvePath path).path
  | "attribute_type", [.member path, .constant (.string descriptor)] =>
    rejectInKeyCondition method
    if !AttributeValue.descriptors.contains descriptor then unsupported (.unknownDescriptor descriptor)
    let resolved ← resolvePath path
    -- The descriptor is no value of the property, so the property's rules do not apply to it.
    return .hasType resolved.path (← bindValue (.string descriptor))
  | "begins_with", [.member path, start] =>
    rejectPartitionKey (.member path) method
    let resolved ← resolvePath path
    return .beginsWith resolved.path (← operand resolved.rules start)
  | "contains", [.member path, element] =>
    rejectInKeyCondition method
    let resolved ← resolvePath path
    return .contains resolved.path (← operand resolved.rules element)
  | "between", [tested, low, high] =>
    rejectPartitionKey tested "BETWEEN"
    let (tested, rules) ← subject tested
    let low ← operand rules low
    let high ← operand rules high
    return .between tested low high
  | "in", tested :: candidates =>
    rejectInKeyCondition "IN"
    if candidates.isEmpty then unsupported .noCandidates
    let (tested, rules) ← subject tested
    return .isIn tested (← candidates.mapM (operand rules))
  | _, _ => unsupported (.unknownCall method args.length)

def condition : Expr → SessionM TokenCondition
  | .binary (.logical .and) left right => do
    let l ← condition left
    let r ← condition right
    return .and l r
  | .binary (.logical .or) left right => do
    rejectInKeyCondition Logical.or.symbol
    let l ← condition left
    let r ← condition right
    return .or l r
  | .binary (.comparison op) left right => comparison op left right
  | .binary op _ _ => unsupported (.arithmeticCondition op)
  | .not inner => do
    rejectInKeyCondition "NOT"
    return .not (← condition inner)
  | .call method args => conditionCall method args
  | expr => unsupported (.notBoolean expr.kind)

/-- A path whose value a request asks for. -/
def projection (path : Path) : SessionM TokenPath :=
  return (← resolvePath path).path

/-! ## Updates -/

/-- A value that an update sets, where literals are bound under the given rules. What stands in for a missing value is
bound under the rules of the place that it is missing at. -/
def updateValue (rules : Option Property) : Expr → SessionM TokenValue
  | .binary (.arithmetic .add) left right => do
    let l ← updateValue rules left
    let r ← updateValue rules right
    return .add l r
  | .binary (.arithmetic .subtract) left right => do
    let l ← updateValue rules left
    let r ← updateValue rules right
    return .subtract l r
  | .binary op _ _ => unsupported (.updateOperator op)
  | .call "if_not_exists" [.member path, fallback] => do
    let resolved ← resolvePath path
    -- From here on the rules are those of the tested path, and no longer those of the target.
    return .ifNotExists resolved.path (← updateValue resolved.rules fallback)
  | .call "list_append" [first, second] => do
    let first ← updateValue rules first
    let second ← updateValue rules second
    return .listAppend first second
  | .call method _ => unsupported (.unknownUpdateCall method)
  | .not inner => unsupported (.notUpdateValue (Expr.not inner).kind)
  | .member path => return .operand (← operand rules (.member path))
  | .constant value => return .operand (← operand rules (.constant value))

/-- An update of one place. The properties of the table's key cannot be updated. -/
def assignment (assignment : Assignment) : SessionM TokenUpdate := do
  let target ← resolvePath assignment.target
  if target.property.keyRole.isKey then
    throw (.keyUpdate target.property.logicalName target.property.keyRole)
  match assignment.value with
  | .call "remove" [] => return .remove target.path
  | .call "increment" [value] => return .add target.path (← operand target.rules value)
  | .call "add_to_set" [value] => return .add target.path (← operand target.rules value)
  | .call "delete_from_set" [value] => return .delete target.path (← operand target.rules value)
  | value => return .set target.path (← updateValue target.rules value)

end SessionM

end ItemExpr
