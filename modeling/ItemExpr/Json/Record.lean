import ItemExpr.Json

/-!
# Records in JSON

A record is written as an object whose members are its fields. It may be read from such an object, in any order and with
members of other names ignored, or from the array of its fields in declaration order. No field may be given twice.
-/

namespace ItemExpr.Json

/-- A field of a record: its name, and whether it has a default that stands in when the field is left out. -/
structure Field where
  name : String
  defaulted : Bool

def Field.plain (name : String) : Field :=
  ⟨name, false⟩

def Field.withDefault (name : String) : Field :=
  ⟨name, true⟩

/-- The given fields of a record, by name. -/
abbrev Fields := List (String × Json)

/-- The fields that an object gives: unknown members are ignored, a repeated field is refused. -/
def fieldsOfMembers? (fields : List Field) (members : List (String × Json)) : Option Fields :=
  let known := members.filter fun (key, _) => fields.any (·.name == key)
  let names := known.map (·.1)
  if names.eraseDups.length = names.length then some known else none

/-- The fields that an array gives: the first ones, and each one left out must have a default. -/
def fieldsOfItems? (fields : List Field) (items : List Json) : Option Fields :=
  if items.length ≤ fields.length ∧ (fields.drop items.length).all (·.defaulted) then
    some ((fields.map (·.name)).zip items)
  else none

/-- Reads the fields of a record from either of its two forms. -/
def fields? (fields : List Field) : Json → Option Fields
  | .array items => fieldsOfItems? fields items
  | json => json.members? >>= fieldsOfMembers? fields

namespace Fields

def required {α : Type} (fields : Fields) (name : String) (read : Json → Option α) : Option α := do
  let json ← fields.lookup name
  read json

/-- A field that may be left out or be `null`. -/
def optional {α : Type} (fields : Fields) (name : String) (read : Json → Option α) : Option (Option α) :=
  match fields.lookup name with
  | none | some .null => some none
  | some json => some <$> read json

/-- A field that may be left out, but not be `null`. -/
def defaulted {α : Type} (fields : Fields) (name : String) (default : α) (read : Json → Option α) : Option α :=
  match fields.lookup name with
  | none => some default
  | some json => read json

end Fields

def always (name : String) (value : Json) : List (String × Json) :=
  [(name, value)]

/-- The member of a field that is written only if it has a value. -/
def whenSome {α : Type} (name : String) (write : α → Json) : Option α → List (String × Json)
  | none => []
  | some a => [(name, write a)]

/-- The member of a field that is written only if it is not empty. -/
def whenFilled {α : Type} (name : String) (write : List α → Json) (items : List α) : List (String × Json) :=
  if items.isEmpty then [] else [(name, write items)]

end ItemExpr.Json
