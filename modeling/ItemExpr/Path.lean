/-!
# Document paths

A path leads from an item to a place inside it: by the name of a property first, and then by the names of fields and the
positions of list items. Only a path that starts with a name has a root.
-/

namespace ItemExpr

inductive PathStep where
  | field (name : String)
  | index (position : Nat)
deriving DecidableEq, Repr

structure Path where
  steps : List PathStep
deriving DecidableEq, Repr

namespace Path

def root? (path : Path) : Option String :=
  match path.steps with
  | .field name :: _ => some name
  | _ => none

theorem eq_of_root? {path : Path} {root : String} (starts : path.root? = some root) :
    ∃ tail, path = ⟨.field root :: tail⟩ := by
  obtain ⟨steps⟩ := path
  match steps, starts with
  | .field _ :: tail, rfl => exact ⟨tail, rfl⟩

def isNested (path : Path) : Bool :=
  1 < path.steps.length

/-- A step behind another one, as messages show it. -/
def displayStep : PathStep → String
  | .field name => "." ++ name
  | .index position => s!"[{position}]"

def display (path : Path) : String :=
  match path.steps with
  | [] => ""
  | .field name :: rest => name ++ String.join (rest.map displayStep)
  | steps => String.join (steps.map displayStep)

end Path

/-- A path to a property or below one: the property's logical name and the steps below it. -/
structure PropertyPath where
  root : String
  tail : List PathStep
deriving DecidableEq, Repr

namespace PropertyPath

def ofName (root : String) : PropertyPath :=
  ⟨root, []⟩

def field (path : PropertyPath) (name : String) : PropertyPath :=
  ⟨path.root, path.tail ++ [.field name]⟩

def index (path : PropertyPath) (position : Nat) : PropertyPath :=
  ⟨path.root, path.tail ++ [.index position]⟩

def toPath (path : PropertyPath) : Path :=
  ⟨.field path.root :: path.tail⟩

end PropertyPath

end ItemExpr
