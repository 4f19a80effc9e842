import ItemExpr.AttributeValue
import ItemExpr.Json.Printer
import ItemExpr.Json.Reader
import ItemExpr.Text.Base64

/-!
# The wire form of attribute values

An attribute value is written as a JSON object whose only member is named by the value's descriptor. Bytes are base64
texts, numbers are strings, and lists and maps hold wire forms. Reading refuses any other object; of repeated names in a
map the last one counts.
-/

namespace ItemExpr.AttributeValue

def bytesToJson (bytes : Bytes) : Json :=
  Json.text (String.ofList (Text.Base64.encode bytes))

mutual

def toJson : AttributeValue → Json
  | .string text => Json.ofMembers [("S", Json.text text)]
  | .number text => Json.ofMembers [("N", Json.text text)]
  | .binary bytes => Json.ofMembers [("B", bytesToJson bytes)]
  | .stringSet items => Json.ofMembers [("SS", .array (items.map Json.text))]
  | .numberSet items => Json.ofMembers [("NS", .array (items.map Json.text))]
  | .binarySet items => Json.ofMembers [("BS", .array (items.map bytesToJson))]
  | .bool b => Json.ofMembers [("BOOL", .bool b)]
  | .null b => Json.ofMembers [("NULL", .bool b)]
  | .list items => Json.ofMembers [("L", .array (itemsToJson items))]
  | .map entries => Json.ofMembers [("M", .object (entriesToJson entries))]

def itemsToJson : List AttributeValue → List Json
  | [] => []
  | item :: rest => item.toJson :: itemsToJson rest

def entriesToJson : List (String × AttributeValue) → List (Option String × Json)
  | [] => []
  | (name, value) :: rest => (some name, value.toJson) :: entriesToJson rest

end

def bytesOfJson? (json : Json) : Option Bytes :=
  json.text? >>= fun text => Text.Base64.decode? text.toList

def textsOfJson? (json : Json) : Option (List String) :=
  json.items? >>= List.mapM Json.text?

def bytesListOfJson? (json : Json) : Option (List Bytes) :=
  json.items? >>= List.mapM bytesOfJson?

mutual

def ofJson? : Json → Option AttributeValue
  | .object [(some "S", json)] => .string <$> json.text?
  | .object [(some "N", json)] => .number <$> json.text?
  | .object [(some "B", json)] => .binary <$> bytesOfJson? json
  | .object [(some "SS", json)] => .stringSet <$> textsOfJson? json
  | .object [(some "NS", json)] => .numberSet <$> textsOfJson? json
  | .object [(some "BS", json)] => .binarySet <$> bytesListOfJson? json
  | .object [(some "BOOL", json)] => .bool <$> json.bool?
  | .object [(some "NULL", json)] => .null <$> json.bool?
  | .object [(some "L", .array items)] => .list <$> itemsOfJson? items
  | .object [(some "M", .object members)] => (fun entries => .map (Table.ofList entries)) <$> entriesOfJson? members
  | _ => none

def itemsOfJson? : List Json → Option (List AttributeValue)
  | [] => some []
  | json :: rest => do
    let item ← ofJson? json
    let items ← itemsOfJson? rest
    some (item :: items)

def entriesOfJson? : List (Option String × Json) → Option (List (String × AttributeValue))
  | [] => some []
  | (key, json) :: rest => do
    let name ← key
    let value ← ofJson? json
    let entries ← entriesOfJson? rest
    some ((name, value) :: entries)

end

def parse? (text : String) : Option AttributeValue := do
  let json ← Json.parse? text
  if json.nesting ≤ Json.maxNesting then ofJson? json else none

def tableOfJson? : Json → Option (Table AttributeValue)
  | .object members => Table.ofList <$> entriesOfJson? members
  | _ => none

def tableToJson (table : Table AttributeValue) : Json :=
  .object (entriesToJson table)

end ItemExpr.AttributeValue
