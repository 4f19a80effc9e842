import ItemExpr.Expr

/-!
# Conditions and actions on properties

The typed way to say a condition or an update: methods on the path to a property, with operands that are literals or
other properties. Each has an expression tree. A tree built by hand can stand in the place of either.
-/

namespace ItemExpr

inductive Operand where
  | literal (value : Value)
  | property (path : PropertyPath)

def PropertyPath.toExpr (path : PropertyPath) : Expr :=
  .member path.toPath

def Operand.toExpr : Operand → Expr
  | .literal value => .constant value
  | .property path => path.toExpr

inductive Condition where
  | compare (op : Comparison) (path : PropertyPath) (operand : Operand)
  | between (path : PropertyPath) (low high : Operand)
  | isIn (path : PropertyPath) (candidates : List Operand)
  | exists (path : PropertyPath)
  | notExists (path : PropertyPath)
  | hasType (path : PropertyPath) (descriptor : String)
  | beginsWith (path : PropertyPath) (start : Operand)
  | contains (path : PropertyPath) (element : Value)
  | compareSize (op : Comparison) (path : PropertyPath) (n : UInt64)
  | sizeBetween (path : PropertyPath) (low high : UInt64)
  | and (left right : Condition)
  | or (left right : Condition)
  | not (inner : Condition)
  | ofExpr (expr : Expr)

namespace Condition

def sizeLiteral (n : UInt64) : Expr :=
  .constant (.number (.uint n))

def sizeOf (path : PropertyPath) : Expr :=
  .call "size" [path.toExpr]

def toExpr : Condition → Expr
  | .compare op path operand => .compare op path.toExpr operand.toExpr
  | .between path low high => .call "between" [path.toExpr, low.toExpr, high.toExpr]
  | .isIn path candidates => .call "in" (path.toExpr :: candidates.map Operand.toExpr)
  | .exists path => .call "attribute_exists" [path.toExpr]
  | .notExists path => .call "attribute_not_exists" [path.toExpr]
  | .hasType path descriptor => .call "attribute_type" [path.toExpr, .constant (.string descriptor)]
  | .beginsWith path start => .call "begins_with" [path.toExpr, start.toExpr]
  | .contains path element => .call "contains" [path.toExpr, .constant element]
  | .compareSize op path n => .compare op (sizeOf path) (sizeLiteral n)
  | .sizeBetween path low high => .call "between" [sizeOf path, sizeLiteral low, sizeLiteral high]
  | .and left right => .and left.toExpr right.toExpr
  | .or left right => .or left.toExpr right.toExpr
  | .not inner => .not inner.toExpr
  | .ofExpr expr => expr

end Condition

inductive Action where
  | set (path : PropertyPath) (operand : Operand)
  | setIfNotExists (path : PropertyPath) (operand : Operand)
  | remove (path : PropertyPath)
  | increment (path : PropertyPath) (amount : Value)
  | setSum (path : PropertyPath) (amount : Value)
  | setDifference (path : PropertyPath) (amount : Value)
  | addElements (path : PropertyPath) (elements : Value)
  | deleteElements (path : PropertyPath) (elements : Value)
  | append (path : PropertyPath) (items : Value)
  | prepend (path : PropertyPath) (items : Value)
  | ofAssignment (assignment : Assignment)

namespace Action

def toAssignment : Action → Assignment
  | .set path operand => ⟨path.toPath, operand.toExpr⟩
  | .setIfNotExists path operand => ⟨path.toPath, .call "if_not_exists" [path.toExpr, operand.toExpr]⟩
  | .remove path => ⟨path.toPath, .call "remove" []⟩
  | .increment path amount => ⟨path.toPath, .call "increment" [.constant amount]⟩
  | .setSum path amount => ⟨path.toPath, .binary (.arithmetic .add) path.toExpr (.constant amount)⟩
  | .setDifference path amount => ⟨path.toPath, .binary (.arithmetic .subtract) path.toExpr (.constant amount)⟩
  | .addElements path elements => ⟨path.toPath, .call "add_to_set" [.constant elements]⟩
  | .deleteElements path elements => ⟨path.toPath, .call "delete_from_set" [.constant elements]⟩
  | .append path items => ⟨path.toPath, .call "list_append" [path.toExpr, .constant items]⟩
  | .prepend path items => ⟨path.toPath, .call "list_append" [.constant items, path.toExpr]⟩
  | .ofAssignment assignment => assignment

end Action

end ItemExpr
