import ItemExpr.Path
import ItemExpr.Value

/-!
# Expression trees

A tree of operators, paths, literals and calls by name. Not every tree has a meaning as a condition or as an update;
which do is decided where it is compiled.
-/

namespace ItemExpr

/-! ## Operators -/

inductive Logical where
  | and
  | or
deriving DecidableEq, Repr

inductive Comparison where
  | eq
  | ne
  | lt
  | le
  | gt
  | ge
deriving DecidableEq, Repr

inductive Arithmetic where
  | add
  | subtract
  | multiply
  | divide
  | modulo
deriving DecidableEq, Repr

inductive BinaryOp where
  | logical (op : Logical)
  | comparison (op : Comparison)
  | arithmetic (op : Arithmetic)
deriving DecidableEq, Repr

def Logical.symbol : Logical → String
  | .and => "AND"
  | .or => "OR"

def Comparison.symbol : Comparison → String
  | .eq => "="
  | .ne => "<>"
  | .lt => "<"
  | .le => "<="
  | .gt => ">"
  | .ge => ">="

def Arithmetic.symbol : Arithmetic → String
  | .add => "+"
  | .subtract => "-"
  | .multiply => "*"
  | .divide => "/"
  | .modulo => "%"

namespace BinaryOp

def symbol : BinaryOp → String
  | .logical op => op.symbol
  | .comparison op => op.symbol
  | .arithmetic op => op.symbol

def name : BinaryOp → String
  | .logical .and => "and"
  | .logical .or => "or"
  | .comparison .eq => "equal"
  | .comparison .ne => "not_equal"
  | .comparison .lt => "less_than"
  | .comparison .le => "less_than_or_equal"
  | .comparison .gt => "greater_than"
  | .comparison .ge => "greater_than_or_equal"
  | .arithmetic .add => "add"
  | .arithmetic .subtract => "subtract"
  | .arithmetic .multiply => "multiply"
  | .arithmetic .divide => "divide"
  | .arithmetic .modulo => "modulo"

def isLogical : BinaryOp → Bool
  | .logical _ => true
  | _ => false

def isComparison : BinaryOp → Bool
  | .comparison _ => true
  | _ => false

end BinaryOp

/-! ## Trees -/

/-- An expression tree. -/
inductive Expr where
  | binary (op : BinaryOp) (left right : Expr)
  | not (inner : Expr)
  | member (path : Path)
  | constant (value : Value)
  | call (method : String) (args : List Expr)
deriving Inhabited

namespace Expr

def kind : Expr → String
  | .binary .. => "binary"
  | .not _ => "not"
  | .member _ => "member"
  | .constant _ => "constant"
  | .call .. => "call"

def and (left right : Expr) : Expr :=
  .binary (.logical .and) left right

def or (left right : Expr) : Expr :=
  .binary (.logical .or) left right

def compare (op : Comparison) (left right : Expr) : Expr :=
  .binary (.comparison op) left right

end Expr

structure Assignment where
  target : Path
  value : Expr

end ItemExpr
