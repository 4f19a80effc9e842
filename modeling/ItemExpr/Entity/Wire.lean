import ItemExpr.Entity
import ItemExpr.Json.Reader
import ItemExpr.Json.Record
import ItemExpr.Text.Digits

/-!
# The wire form of entities

Entities and their parts as JSON records. What a property or an index does not have is left out; lists without items are
left out too.
-/

namespace ItemExpr

open Json (Field)

/-- The name that an enumeration's case is given by: a string, or an object whose only member has that name and no
value. -/
def Json.caseName? : Json → Option String
  | .string s => s
  | .object [(some name, .null)] => some name
  | _ => none

/-- Reads a byte from a number without sign, point and exponent. -/
def Json.byte? : Json → Option UInt8
  | .number lexeme => ((Text.readDigits? lexeme.toList).filter (· < 256)).map UInt8.ofNat
  | _ => none

namespace KeyRole

def wireName : KeyRole → String
  | .none => "NONE"
  | .partition => "HASH"
  | .sort => "RANGE"

def ofWireName? : String → Option KeyRole
  | "NONE" => some .none
  | "HASH" => some .partition
  | "RANGE" => some .sort
  | _ => Option.none

def toJson (role : KeyRole) : Json :=
  Json.text role.wireName

def ofJson? (json : Json) : Option KeyRole :=
  json.caseName? >>= ofWireName?

end KeyRole

namespace TimezoneMode

def wireName : TimezoneMode → String
  | .none => "none"
  | .utc => "utc"
  | .local => "local"

def ofWireName? : String → Option TimezoneMode
  | "none" => some .none
  | "utc" => some .utc
  | "local" => some .local
  | _ => Option.none

def toJson (mode : TimezoneMode) : Json :=
  Json.text mode.wireName

def ofJson? (json : Json) : Option TimezoneMode :=
  json.caseName? >>= ofWireName?

end TimezoneMode

namespace GeoEncoding

def fields : List Field :=
  [.plain "scheme", .plain "precision"]

def toJson (geo : GeoEncoding) : Json :=
  Json.ofMembers [("scheme", Json.text geo.scheme), ("precision", Json.ofInt geo.precision.toNat)]

def ofJson? (json : Json) : Option GeoEncoding := do
  let given ← json.fields? fields
  let scheme ← given.required "scheme" Json.text?
  let precision ← given.required "precision" Json.byte?
  return { scheme, precision }

end GeoEncoding

namespace Property

def fields : List Field :=
  [.plain "logicalName", .plain "attributeName", .withDefault "keyRole", .withDefault "format", .withDefault "timezone",
    .withDefault "encrypted", .withDefault "geo"]

def toJson (property : Property) : Json :=
  Json.ofMembers <|
    Json.always "logicalName" (Json.text property.logicalName) ++
    Json.always "attributeName" (Json.text property.attributeName) ++
    Json.always "keyRole" property.keyRole.toJson ++
    Json.whenSome "format" Json.text property.format ++
    Json.always "timezone" property.timezone.toJson ++
    Json.always "encrypted" (.bool property.encrypted) ++
    Json.whenSome "geo" GeoEncoding.toJson property.geo

def ofJson? (json : Json) : Option Property := do
  let given ← json.fields? fields
  let logicalName ← given.required "logicalName" Json.text?
  let attributeName ← given.required "attributeName" Json.text?
  let keyRole ← given.defaulted "keyRole" .none KeyRole.ofJson?
  let format ← given.optional "format" Json.text?
  let timezone ← given.defaulted "timezone" .none TimezoneMode.ofJson?
  let encrypted ← given.defaulted "encrypted" false Json.bool?
  let geo ← given.optional "geo" GeoEncoding.ofJson?
  return { logicalName, attributeName, keyRole, format, timezone, encrypted, geo }

end Property

namespace Index

def fields : List Field :=
  [.plain "name", .plain "partitionKey", .withDefault "sortKey"]

def toJson (index : Index) : Json :=
  Json.ofMembers <|
    Json.always "name" (Json.text index.name) ++
    Json.always "partitionKey" (Json.text index.partitionKey) ++
    Json.whenSome "sortKey" Json.text index.sortKey

def ofJson? (json : Json) : Option Index := do
  let given ← json.fields? fields
  let name ← given.required "name" Json.text?
  let partitionKey ← given.required "partitionKey" Json.text?
  let sortKey ← given.optional "sortKey" Json.text?
  return { name, partitionKey, sortKey }

end Index

namespace Relationship

def fields : List Field :=
  [.plain "propertyName", .plain "sortKeyPattern", .plain "entityType", .withDefault "isCollection"]

def toJson (relationship : Relationship) : Json :=
  Json.ofMembers <|
    Json.always "propertyName" (Json.text relationship.propertyName) ++
    Json.always "sortKeyPattern" (Json.text relationship.sortKeyPattern) ++
    Json.always "entityType" (Json.text relationship.entityType) ++
    Json.always "isCollection" (.bool relationship.isCollection)

def ofJson? (json : Json) : Option Relationship := do
  let given ← json.fields? fields
  let propertyName ← given.required "propertyName" Json.text?
  let sortKeyPattern ← given.required "sortKeyPattern" Json.text?
  let entityType ← given.required "entityType" Json.text?
  let isCollection ← given.defaulted "isCollection" false Json.bool?
  return { propertyName, sortKeyPattern, entityType, isCollection }

end Relationship

namespace Discriminator

def fields : List Field :=
  [.plain "attributeName", .plain "value"]

def toJson (discriminator : Discriminator) : Json :=
  Json.ofMembers [("attributeName", Json.text discriminator.attributeName), ("value", Json.text discriminator.value)]

def ofJson? (json : Json) : Option Discriminator := do
  let given ← json.fields? fields
  let attributeName ← given.required "attributeName" Json.text?
  let value ← given.required "value" Json.text?
  return { attributeName, value }

end Discriminator

namespace Entity

def fields : List Field :=
  [.plain "tableName", .withDefault "discriminator", .plain "properties", .withDefault "indexes",
    .withDefault "relationships", .withDefault "multiItem"]

def arrayToJson {α : Type} (write : α → Json) (items : List α) : Json :=
  .array (items.map write)

def arrayOfJson? {α : Type} (read : Json → Option α) (json : Json) : Option (List α) :=
  json.items? >>= List.mapM read

def toJson (entity : Entity) : Json :=
  Json.ofMembers <|
    Json.always "tableName" (Json.text entity.tableName) ++
    Json.whenSome "discriminator" Discriminator.toJson entity.discriminator ++
    Json.always "properties" (arrayToJson Property.toJson entity.properties) ++
    Json.whenFilled "indexes" (arrayToJson Index.toJson) entity.indexes ++
    Json.whenFilled "relationships" (arrayToJson Relationship.toJson) entity.relationships ++
    Json.always "multiItem" (.bool entity.multiItem)

def ofJson? (json : Json) : Option Entity := do
  let given ← json.fields? fields
  let tableName ← given.required "tableName" Json.text?
  let discriminator ← given.optional "discriminator" Discriminator.ofJson?
  let properties ← given.required "properties" (arrayOfJson? Property.ofJson?)
  let indexes ← given.defaulted "indexes" [] (arrayOfJson? Index.ofJson?)
  let relationships ← given.defaulted "relationships" [] (arrayOfJson? Relationship.ofJson?)
  let multiItem ← given.defaulted "multiItem" false Json.bool?
  return { tableName, discriminator, properties, indexes, relationships, multiItem }

end Entity

end ItemExpr
