/-!
# Tables

A table binds names to values and keeps its bindings in the order in which the names were first bound. A name is bound
at most once.
-/

namespace ItemExpr

abbrev Table (α : Type) := List (String × α)

namespace Table

variable {α : Type}

def value? (table : Table α) (name : String) : Option α :=
  table.lookup name

def binds (table : Table α) (name : String) : Bool :=
  (table.value? name).isSome

/-- Binds a name, in the place of its binding if it has one and behind all others if not. -/
def set (table : Table α) (name : String) (value : α) : Table α :=
  match table with
  | [] => [(name, value)]
  | (key, old) :: rest => if key = name then (key, value) :: rest else (key, old) :: set rest name value

/-- The table of some bindings, of which a later one of the same name counts. -/
def ofList (bindings : List (String × α)) : Table α :=
  bindings.foldl (fun table (name, value) => table.set name value) []

theorem value?_append (first second : Table α) (name : String) :
    value? (first ++ second) name = (value? first name).or (value? second name) :=
  List.lookup_append

@[simp] theorem value?_nil (name : String) : value? ([] : Table α) name = none := rfl

theorem value?_cons (key : String) (value : α) (rest : Table α) (name : String) :
    value? ((key, value) :: rest) name = if name = key then some value else value? rest name := by
  by_cases same : name = key
  · simp [value?, same]
  · simp [value?, List.lookup_cons, same, beq_false_of_ne same]

theorem binds_iff (table : Table α) (name : String) : binds table name = true ↔ name ∈ table.map (·.1) := by
  induction table with
  | nil => simp [binds]
  | cons binding rest ih =>
    obtain ⟨key, value⟩ := binding
    by_cases hit : name = key
    · simp [binds, value?_cons, hit]
    · simpa [binds, value?_cons, hit] using ih

end Table

end ItemExpr
