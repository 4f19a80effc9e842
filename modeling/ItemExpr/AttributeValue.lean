import ItemExpr.Table
import ItemExpr.Text.Base64
import ItemExpr.Text.Quoted

/-!
# Stored attribute values

A value as an item store keeps it: texts, numbers as decimal texts, byte strings, sets of the three, truth values,
nulls, lists and maps. Sets and lists keep their order; the entries of a map have none, so two maps are the same value
if each binds the same names to the same values.
-/

namespace ItemExpr

/-- A stored attribute value. -/
inductive AttributeValue where
  | string (text : String)
  | number (text : String)
  | binary (bytes : Bytes)
  | stringSet (items : List String)
  | numberSet (items : List String)
  | binarySet (items : List Bytes)
  | bool (b : Bool)
  | null (b : Bool)
  | list (items : List AttributeValue)
  | map (entries : List (String × AttributeValue))
deriving Repr, Inhabited

namespace AttributeValue

def descriptor : AttributeValue → String
  | .string _ => "S"
  | .number _ => "N"
  | .binary _ => "B"
  | .stringSet _ => "SS"
  | .numberSet _ => "NS"
  | .binarySet _ => "BS"
  | .bool _ => "BOOL"
  | .null _ => "NULL"
  | .list _ => "L"
  | .map _ => "M"

def descriptors : List String :=
  ["S", "SS", "N", "NS", "B", "BS", "BOOL", "NULL", "L", "M"]

def string? : AttributeValue → Option String
  | .string text => some text
  | _ => none

def number? : AttributeValue → Option String
  | .number text => some text
  | _ => none

def binary? : AttributeValue → Option Bytes
  | .binary bytes => some bytes
  | _ => none

/-- The contents of a value as messages show them: texts in full, and only the size of bytes, lists and maps. -/
def summary : AttributeValue → String
  | .string text | .number text => text
  | .binary bytes => s!"{bytes.length} bytes"
  | .stringSet items | .numberSet items => Text.quotedList items
  | .binarySet items => s!"{items.length} items"
  | .bool b | .null b => toString b
  | .list items => s!"{items.length} items"
  | .map entries => s!"{entries.length} keys"

def display (value : AttributeValue) : String :=
  "\x7b" ++ value.descriptor ++ ": " ++ value.summary ++ "\x7d"

mutual

/-- Whether two values are the same, whatever the order of the entries of their maps. -/
def same : AttributeValue → AttributeValue → Bool
  | .string a, .string b => a == b
  | .number a, .number b => a == b
  | .binary a, .binary b => a == b
  | .stringSet a, .stringSet b => a == b
  | .numberSet a, .numberSet b => a == b
  | .binarySet a, .binarySet b => a == b
  | .bool a, .bool b => a == b
  | .null a, .null b => a == b
  | .list a, .list b => sameItems a b
  | .map a, .map b => a.length == b.length && sameEntries a b
  | _, _ => false

def sameItems : List AttributeValue → List AttributeValue → Bool
  | [], [] => true
  | a :: as, b :: bs => same a b && sameItems as bs
  | _, _ => false

/-- Whether a table binds each name of some entries to the same value as they do. -/
def sameEntries : List (String × AttributeValue) → Table AttributeValue → Bool
  | [], _ => true
  | (name, a) :: rest, table =>
    match table.value? name with
    | some b => same a b && sameEntries rest table
    | none => false

end

theorem descriptor_mem (value : AttributeValue) : value.descriptor ∈ descriptors := by
  cases value <;> simp [descriptor, descriptors]

end AttributeValue

end ItemExpr
