import ItemExpr.Expr

/-!
# Subtrees

What stands in a tree: the trees below a node, the subtree at an address, and the places at which a child of some kind
of node stands.
-/

namespace ItemExpr

namespace Expr

/-- The trees directly below the root of a tree: the sides of an operator, or the arguments of a call. -/
def children : Expr → List Expr
  | .binary _ left right => [left, right]
  | .not inner => [inner]
  | .call _ args => args
  | .member _ | .constant _ => []

/-- The subtree at an address, which counts the children of each node on the way from zero. -/
def subtree? (expr : Expr) : List Nat → Option Expr
  | [] => some expr
  | i :: address => expr.children[i]?.bind (·.subtree? address)

@[simp] theorem subtree?_nil (expr : Expr) : expr.subtree? [] = some expr := rfl

@[simp] theorem subtree?_cons (expr : Expr) (i : Nat) (address : List Nat) :
    expr.subtree? (i :: address) = expr.children[i]?.bind (·.subtree? address) := rfl

/-- The subtree at an address is a child of a node, and both are as `place` says of the node and the child's number. -/
def StandsIn (place : Expr → Nat → Prop) (expr : Expr) (address : List Nat) : Prop :=
  ∃ outer i node, address = outer ++ [i] ∧ expr.subtree? outer = some node ∧ place node i

theorem StandsIn.root {place : Expr → Nat → Prop} {expr : Expr} {i : Nat} (here : place expr i) :
    expr.StandsIn place [i] :=
  ⟨[], i, expr, rfl, rfl, here⟩

theorem StandsIn.below {place : Expr → Nat → Prop} {expr child : Expr} {i : Nat} {address : List Nat}
    (found : expr.children[i]? = some child) (stands : child.StandsIn place address) :
    expr.StandsIn place (i :: address) := by
  obtain ⟨outer, j, node, rfl, at_, here⟩ := stands
  exact ⟨i :: outer, j, node, rfl, by rw [subtree?_cons, found, Option.bind_some, at_], here⟩

/-- Nothing stands in such a place in a tree if nothing does at its root and in its children. -/
theorem not_standsIn_of_children {place : Expr → Nat → Prop} {expr : Expr} (root : ∀ i, ¬ place expr i)
    (children : ∀ child ∈ expr.children, ∀ address, ¬ child.StandsIn place address) (address : List Nat) :
    ¬ expr.StandsIn place address := by
  rintro ⟨outer, i, node, _, at_, here⟩
  cases outer with
  | nil =>
    cases at_
    exact root i here
  | cons j outer =>
    rw [subtree?_cons, Option.bind_eq_some_iff] at at_
    obtain ⟨child, found, at_⟩ := at_
    exact children child (List.mem_of_getElem? found) (outer ++ [i]) ⟨outer, i, node, rfl, at_, here⟩

end Expr

end ItemExpr
