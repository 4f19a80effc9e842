import ItemExpr.Expr

/-!
# Expressions over tokens

What a request says: conditions and updates in which attributes and values are named by tokens. Each has one text. In
the text of a condition `NOT` binds tighter than `AND`, and `AND` tighter than `OR`; parentheses stand around the
whole that is negated, and around an alternative that is a side of a conjunction.
-/

namespace ItemExpr

inductive TokenStep where
  | field (token : String)
  | index (position : Nat)
deriving DecidableEq, Repr

structure TokenPath where
  root : String
  tail : List TokenStep
deriving DecidableEq, Repr

/-- An operand: a path, the token of a value, or the size of what a path leads to. -/
inductive TokenOperand where
  | path (path : TokenPath)
  | value (token : String)
  | size (path : TokenPath)
deriving DecidableEq, Repr

inductive TokenCondition where
  | compare (op : Comparison) (left right : TokenOperand)
  | between (subject low high : TokenOperand)
  | isIn (subject : TokenOperand) (candidates : List TokenOperand)
  | exists (path : TokenPath)
  | notExists (path : TokenPath)
  | hasType (path : TokenPath) (descriptor : String)
  | beginsWith (path : TokenPath) (start : TokenOperand)
  | contains (path : TokenPath) (element : TokenOperand)
  | and (left right : TokenCondition)
  | or (left right : TokenCondition)
  | not (inner : TokenCondition)
deriving DecidableEq, Repr

/-- A value that an update sets, over tokens. -/
inductive TokenValue where
  | operand (operand : TokenOperand)
  | add (left right : TokenValue)
  | subtract (left right : TokenValue)
  | ifNotExists (path : TokenPath) (fallback : TokenValue)
  | listAppend (first second : TokenValue)
deriving DecidableEq, Repr

/-- An update of one place, over tokens. -/
inductive TokenUpdate where
  | set (path : TokenPath) (value : TokenValue)
  | remove (path : TokenPath)
  | add (path : TokenPath) (operand : TokenOperand)
  | delete (path : TokenPath) (operand : TokenOperand)
deriving DecidableEq, Repr

/-! ## Clauses -/

/-- The clauses of an update, in the order in which a request has them. -/
inductive UpdateClause where
  | set
  | add
  | remove
  | delete
deriving DecidableEq, Repr

namespace UpdateClause

/-- All clauses, in their order. -/
def all : List UpdateClause :=
  [.set, .add, .remove, .delete]

def keyword : UpdateClause → String
  | .set => "SET"
  | .add => "ADD"
  | .remove => "REMOVE"
  | .delete => "DELETE"

/-- The items of a list in the order of their clauses, and else in their own. -/
def sorted {α : Type} (clause : α → UpdateClause) (items : List α) : List α :=
  all.flatMap fun c => items.filter (clause · == c)

end UpdateClause

def TokenUpdate.clause : TokenUpdate → UpdateClause
  | .set .. => .set
  | .remove _ => .remove
  | .add .. => .add
  | .delete .. => .delete

/-! ## Texts -/

def TokenStep.text : TokenStep → String
  | .field token => "." ++ token
  | .index position => "[" ++ toString position ++ "]"

def TokenPath.text (path : TokenPath) : String :=
  path.root ++ String.join (path.tail.map TokenStep.text)

def TokenOperand.text : TokenOperand → String
  | .path place => place.text
  | .value token => token
  | .size place => "size(" ++ place.text ++ ")"

namespace TokenCondition

/-- Whether a condition is an alternative, which a conjunction puts in parentheses. -/
def isOr : TokenCondition → Bool
  | .or .. => true
  | _ => false

def parenthesized (needed : Bool) (text : String) : String :=
  if needed then "(" ++ text ++ ")" else text

def text : TokenCondition → String
  | .compare op left right => left.text ++ " " ++ op.symbol ++ " " ++ right.text
  | .between subject low high => subject.text ++ " BETWEEN " ++ low.text ++ " AND " ++ high.text
  | .isIn subject candidates =>
    subject.text ++ " IN (" ++ ", ".intercalate (candidates.map TokenOperand.text) ++ ")"
  | .exists path => "attribute_exists(" ++ path.text ++ ")"
  | .notExists path => "attribute_not_exists(" ++ path.text ++ ")"
  | .hasType path descriptor => "attribute_type(" ++ path.text ++ ", " ++ descriptor ++ ")"
  | .beginsWith path start => "begins_with(" ++ path.text ++ ", " ++ start.text ++ ")"
  | .contains path element => "contains(" ++ path.text ++ ", " ++ element.text ++ ")"
  | .and left right => parenthesized left.isOr left.text ++ " AND " ++ parenthesized right.isOr right.text
  | .or left right => left.text ++ " OR " ++ right.text
  | .not inner => "NOT (" ++ inner.text ++ ")"

variable (left right inner : TokenCondition) (path : TokenPath) (subject low high operand : TokenOperand)

@[simp] theorem text_compare (op : Comparison) :
    (compare op low high).text = low.text ++ " " ++ op.symbol ++ " " ++ high.text := rfl

@[simp] theorem text_between :
    (between subject low high).text = subject.text ++ " BETWEEN " ++ low.text ++ " AND " ++ high.text := rfl

@[simp] theorem text_isIn (candidates : List TokenOperand) :
    (isIn subject candidates).text =
      subject.text ++ " IN (" ++ ", ".intercalate (candidates.map TokenOperand.text) ++ ")" := rfl

@[simp] theorem text_exists : («exists» path).text = "attribute_exists(" ++ path.text ++ ")" := rfl

@[simp] theorem text_notExists : (notExists path).text = "attribute_not_exists(" ++ path.text ++ ")" := rfl

@[simp] theorem text_hasType (descriptor : String) :
    (hasType path descriptor).text = "attribute_type(" ++ path.text ++ ", " ++ descriptor ++ ")" := rfl

@[simp] theorem text_beginsWith :
    (beginsWith path operand).text = "begins_with(" ++ path.text ++ ", " ++ operand.text ++ ")" := rfl

@[simp] theorem text_contains :
    (contains path operand).text = "contains(" ++ path.text ++ ", " ++ operand.text ++ ")" := rfl

@[simp] theorem text_and :
    (and left right).text = parenthesized left.isOr left.text ++ " AND " ++ parenthesized right.isOr right.text := rfl

@[simp] theorem text_or : (or left right).text = left.text ++ " OR " ++ right.text := rfl

@[simp] theorem text_not : (not inner).text = "NOT (" ++ inner.text ++ ")" := rfl

end TokenCondition

def TokenValue.text : TokenValue → String
  | .operand leaf => leaf.text
  | .add left right => left.text ++ " + " ++ right.text
  | .subtract left right => left.text ++ " - " ++ right.text
  | .ifNotExists path fallback => "if_not_exists(" ++ path.text ++ ", " ++ fallback.text ++ ")"
  | .listAppend first second => "list_append(" ++ first.text ++ ", " ++ second.text ++ ")"

namespace TokenValue

variable (left right : TokenValue)

@[simp] theorem text_operand (leaf : TokenOperand) : (operand leaf).text = leaf.text := rfl

@[simp] theorem text_add : (add left right).text = left.text ++ " + " ++ right.text := rfl

@[simp] theorem text_subtract : (subtract left right).text = left.text ++ " - " ++ right.text := rfl

@[simp] theorem text_ifNotExists (path : TokenPath) :
    (ifNotExists path right).text = "if_not_exists(" ++ path.text ++ ", " ++ right.text ++ ")" := rfl

@[simp] theorem text_listAppend :
    (listAppend left right).text = "list_append(" ++ left.text ++ ", " ++ right.text ++ ")" := rfl

end TokenValue

def TokenUpdate.text : TokenUpdate → String
  | .set path value => path.text ++ " = " ++ value.text
  | .remove path => path.text
  | .add path operand => path.text ++ " " ++ operand.text
  | .delete path operand => path.text ++ " " ++ operand.text

end ItemExpr
