import ItemExpr.AttributeValue.Wire
import ItemExpr.Json.Record
import ItemExpr.Placeholder

/-!
# Requests

What is sent to an item store: texts over tokens, and the two tables that say what the tokens stand for. On the wire a
request is a JSON record, in which a text that is absent and a table that is empty are left out.
-/

namespace ItemExpr

/-- A query: conditions on the keys of a table or of an index of it, and what is kept and shown of the items found. -/
structure QueryRequest where
  indexName : Option String
  keyCondition : String
  filter : Option String
  projection : Option String
  names : Table String
  values : Table AttributeValue
deriving Repr

/-- A scan: what is kept and shown of all items of a table. -/
structure ScanRequest where
  filter : Option String
  projection : Option String
  names : Table String
  values : Table AttributeValue
deriving Repr

/-- An update of an item, and the condition under which it is made. -/
structure UpdateRequest where
  update : String
  condition : Option String
  names : Table String
  values : Table AttributeValue
deriving Repr

namespace Request

open Json (Field)

def tableFields : List Field :=
  [.withDefault "ExpressionAttributeNames", .withDefault "ExpressionAttributeValues"]

def namesToJson (names : Table String) : Json :=
  Json.ofMembers (names.map fun (token, attributeName) => (token, Json.text attributeName))

def namesOfJson? (json : Json) : Option (Table String) := do
  let members ← match json with
    | .object _ => json.members?
    | _ => none
  let bindings ← members.mapM fun (token, value) => value.text?.map (token, ·)
  return Table.ofList bindings

def tableMembers (names : Table String) (values : Table AttributeValue) : List (String × Json) :=
  Json.whenFilled "ExpressionAttributeNames" namesToJson names ++
    Json.whenFilled "ExpressionAttributeValues" AttributeValue.tableToJson values

def givenNames? (given : Json.Fields) : Option (Table String) :=
  given.defaulted "ExpressionAttributeNames" [] namesOfJson?

def givenValues? (given : Json.Fields) : Option (Table AttributeValue) :=
  given.defaulted "ExpressionAttributeValues" [] AttributeValue.tableOfJson?

/-- Reads a record with the given fields from a text. The fields may not nest too deep; what is ignored may. -/
def parse? {α : Type} (fields : List Field) (ofFields? : Json.Fields → Option α) (text : String) : Option α := do
  let json ← Json.parse? text
  let given ← json.fields? fields
  if given.all fun (_, value) => value.nesting < Json.maxNesting then ofFields? given else none

end Request

open Request

namespace QueryRequest

def fields : List Json.Field :=
  [.plain "IndexName", .plain "KeyConditionExpression", .plain "FilterExpression", .plain "ProjectionExpression"] ++
    tableFields

def toJson (query : QueryRequest) : Json :=
  Json.ofMembers <|
    Json.whenSome "IndexName" Json.text query.indexName ++
    Json.always "KeyConditionExpression" (Json.text query.keyCondition) ++
    Json.whenSome "FilterExpression" Json.text query.filter ++
    Json.whenSome "ProjectionExpression" Json.text query.projection ++
    tableMembers query.names query.values

def ofFields? (given : Json.Fields) : Option QueryRequest := do
  let indexName ← given.optional "IndexName" Json.text?
  let keyCondition ← given.required "KeyConditionExpression" Json.text?
  let filter ← given.optional "FilterExpression" Json.text?
  let projection ← given.optional "ProjectionExpression" Json.text?
  let names ← givenNames? given
  let values ← givenValues? given
  return { indexName, keyCondition, filter, projection, names, values }

def ofJson? (json : Json) : Option QueryRequest :=
  json.fields? fields >>= ofFields?

end QueryRequest

namespace ScanRequest

def fields : List Json.Field :=
  [.plain "FilterExpression", .plain "ProjectionExpression"] ++ tableFields

def toJson (scan : ScanRequest) : Json :=
  Json.ofMembers <|
    Json.whenSome "FilterExpression" Json.text scan.filter ++
    Json.whenSome "ProjectionExpression" Json.text scan.projection ++
    tableMembers scan.names scan.values

def ofFields? (given : Json.Fields) : Option ScanRequest := do
  let filter ← given.optional "FilterExpression" Json.text?
  let projection ← given.optional "ProjectionExpression" Json.text?
  let names ← givenNames? given
  let values ← givenValues? given
  return { filter, projection, names, values }

def ofJson? (json : Json) : Option ScanRequest :=
  json.fields? fields >>= ofFields?

end ScanRequest

namespace UpdateRequest

def fields : List Json.Field :=
  [.plain "UpdateExpression", .plain "ConditionExpression"] ++ tableFields

def toJson (update : UpdateRequest) : Json :=
  Json.ofMembers <|
    Json.always "UpdateExpression" (Json.text update.update) ++
    Json.whenSome "ConditionExpression" Json.text update.condition ++
    tableMembers update.names update.values

def ofFields? (given : Json.Fields) : Option UpdateRequest := do
  let update ← given.required "UpdateExpression" Json.text?
  let condition ← given.optional "ConditionExpression" Json.text?
  let names ← givenNames? given
  let values ← givenValues? given
  return { update, condition, names, values }

def ofJson? (json : Json) : Option UpdateRequest :=
  json.fields? fields >>= ofFields?

end UpdateRequest

end ItemExpr
