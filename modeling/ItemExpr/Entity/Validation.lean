import ItemExpr.Entity

/-!
# Valid entities

In a valid entity each attribute stores at most one property, each key role has at most one property, and the key of
each index is made of attributes that store a property.
-/

namespace ItemExpr

inductive EntityError where
  | duplicateAttribute (entity attributeName : String)
  | duplicateKey (entity : String) (role : KeyRole) (first second : String)
  | unknownIndexAttribute (entity index attributeName : String)
deriving DecidableEq, Repr

def EntityError.message : EntityError → String
  | .duplicateAttribute entity attributeName =>
    s!"entity {entity}: attribute '{attributeName}' is mapped by more than one property"
  | .duplicateKey entity role first second =>
    s!"entity {entity}: more than one {role.display} key property ({first}, {second})"
  | .unknownIndexAttribute entity index attributeName =>
    s!"entity {entity}: index '{index}' references unknown attribute '{attributeName}'"

def Index.keyAttributes (index : Index) : List String :=
  index.partitionKey :: index.sortKey.toList

namespace Entity

/-- The attributes that store the properties, in the order of the properties. -/
def attributes (entity : Entity) : List String :=
  entity.properties.map (·.attributeName)

def firstRepeated? : List String → List String → Option String
  | _, [] => none
  | seen, name :: rest => if name ∈ seen then some name else firstRepeated? (name :: seen) rest

def repeatedAttribute? (entity : Entity) : Option EntityError :=
  (firstRepeated? [] entity.attributes).map (.duplicateAttribute entity.tableName)

/-- The first two properties of a role, if it has more than one. -/
def repeatedRole? (entity : Entity) (role : KeyRole) : Option EntityError :=
  match entity.properties.filter (·.keyRole == role) with
  | first :: second :: _ => some (.duplicateKey entity.tableName role first.logicalName second.logicalName)
  | _ => none

/-- The first attribute in the key of an index that stores no property. -/
def unknownKeyAttribute? (entity : Entity) (index : Index) : Option EntityError :=
  (index.keyAttributes.find? (· ∉ entity.attributes)).map (.unknownIndexAttribute entity.tableName index.name)

/-- The first reason why an entity is not valid: attributes are looked at first, then roles, then indexes. -/
def invalidity? (entity : Entity) : Option EntityError :=
  entity.repeatedAttribute? <|> entity.repeatedRole? .partition <|> entity.repeatedRole? .sort <|>
    entity.indexes.findSome? entity.unknownKeyAttribute?

def validate (entity : Entity) : Except EntityError Unit :=
  match entity.invalidity? with
  | some error => .error error
  | none => .ok ()

end Entity

end ItemExpr
