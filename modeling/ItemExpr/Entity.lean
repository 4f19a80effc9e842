/-!
# Entities

An entity says how the properties of a kind of item are stored: under which attributes, in which roles, and with which
rules for their values. A table holds the items of an entity, and secondary indexes order them by other attributes.
-/

namespace ItemExpr

/-- The part that a property has in the key of its table. -/
inductive KeyRole where
  | none
  | partition
  | sort
deriving DecidableEq, Repr, Inhabited

namespace KeyRole

def isKey : KeyRole → Bool
  | .none => false
  | .partition | .sort => true

def display : KeyRole → String
  | .none => "non-key"
  | .partition => "partition"
  | .sort => "sort"

/-- The key of a table has at most two parts. -/
theorem isKey_iff {role : KeyRole} : role.isKey = true ↔ role = .partition ∨ role = .sort := by
  cases role <;> decide

theorem isKey_eq_false_iff {role : KeyRole} : role.isKey = false ↔ role = .none := by
  cases role <;> decide

end KeyRole

/-- The clock on which instants of a property are stored. -/
inductive TimezoneMode where
  /-- Each instant keeps its own offset. -/
  | none
  | utc
  | local
deriving DecidableEq, Repr, Inhabited

/-- How a location is turned into a cell: the name of a scheme, and a precision in it. -/
structure GeoEncoding where
  scheme : String
  precision : UInt8
deriving DecidableEq, Repr

/-- A property of an entity: its logical name, the attribute that stores it, and the rules for its values. -/
structure Property where
  logicalName : String
  attributeName : String
  keyRole : KeyRole
  format : Option String
  timezone : TimezoneMode
  encrypted : Bool
  geo : Option GeoEncoding
deriving DecidableEq, Repr

def Property.plain (logicalName attributeName : String) : Property where
  logicalName
  attributeName
  keyRole := .none
  format := Option.none
  timezone := .none
  encrypted := false
  geo := Option.none

/-- A secondary index: its name and the attributes of its key. -/
structure Index where
  name : String
  partitionKey : String
  sortKey : Option String
deriving DecidableEq, Repr

def Index.hasKeyAttribute (index : Index) (attributeName : String) : Bool :=
  index.partitionKey == attributeName || index.sortKey == some attributeName

/-- A relation of an entity to items of another kind, which are found under sort keys of a pattern. -/
structure Relationship where
  propertyName : String
  sortKeyPattern : String
  entityType : String
  isCollection : Bool
deriving DecidableEq, Repr

/-- An attribute whose value tells the items of an entity from others in the same table. -/
structure Discriminator where
  attributeName : String
  value : String
deriving DecidableEq, Repr

structure Entity where
  tableName : String
  discriminator : Option Discriminator
  properties : List Property
  indexes : List Index
  relationships : List Relationship
  multiItem : Bool
deriving DecidableEq, Repr

namespace Entity

def empty (tableName : String) : Entity where
  tableName
  discriminator := none
  properties := []
  indexes := []
  relationships := []
  multiItem := false

def property? (entity : Entity) (logicalName : String) : Option Property :=
  entity.properties.find? (·.logicalName == logicalName)

def propertyOfAttribute? (entity : Entity) (attributeName : String) : Option Property :=
  entity.properties.find? (·.attributeName == attributeName)

def propertyOfRole? (entity : Entity) (role : KeyRole) : Option Property :=
  entity.properties.find? (·.keyRole == role)

def index? (entity : Entity) (name : String) : Option Index :=
  entity.indexes.find? (·.name == name)

end Entity

end ItemExpr
