import ItemExpr.Number.Binary64
import ItemExpr.Text.Base64
import ItemExpr.Time.DateTime

/-!
# Literals

A literal keeps the kind of what was given, so that it can still be formatted: numbers, dates and instants, texts, byte
strings, sets, lists, maps and locations. The entries of a map are in the order of their keys, and each key occurs once;
the items of a set that is built from a collection are in their order, and each occurs once.
-/

namespace ItemExpr

/-- A numeric literal: a signed or unsigned machine integer, a binary floating point number, or a decimal given by its
text, which need not be well formed. -/
inductive Number where
  | int (n : Int64)
  | uint (n : UInt64)
  | float (x : Binary64)
  | decimal (text : String)
deriving DecidableEq, Repr

def Number.kind : Number → String
  | .int _ | .uint _ => "integer"
  | .float _ => "float"
  | .decimal _ => "decimal"

/-- A place on the globe, in degrees. -/
structure Location where
  latitude : Binary64
  longitude : Binary64
deriving DecidableEq, Repr

/-- A literal. -/
inductive Value where
  | null
  | bool (b : Bool)
  | number (n : Number)
  | string (text : String)
  | enumeration (name : String)
  | dateTime (t : DateTime)
  | date (d : Date)
  | binary (bytes : Bytes)
  | stringSet (items : List String)
  | numberSet (items : List String)
  | binarySet (items : List Bytes)
  | list (items : List Value)
  | map (entries : List (String × Value))
  | location (point : Location)
deriving Inhabited

namespace Value

def kind : Value → String
  | .null => "null"
  | .bool _ => "bool"
  | .number n => n.kind
  | .string _ => "string"
  | .enumeration _ => "enum"
  | .dateTime _ => "datetime"
  | .date _ => "date"
  | .binary _ => "binary"
  | .stringSet _ => "string set"
  | .numberSet _ => "number set"
  | .binarySet _ => "binary set"
  | .list _ => "list"
  | .map _ => "map"
  | .location _ => "location"

def isNumber : Value → Bool
  | .number _ => true
  | _ => false

/-! ## Collections -/

/-- Puts an item into ascending items, unless it is there. -/
def insertUnique {α : Type} [LT α] [DecidableLT α] (item : α) : List α → List α
  | [] => [item]
  | head :: rest =>
    if item < head then item :: head :: rest
    else if head < item then head :: insertUnique item rest
    else head :: rest

/-- The items of a collection in ascending order, each once. -/
def ascending {α : Type} [LT α] [DecidableLT α] (items : List α) : List α :=
  items.foldl (fun done item => insertUnique item done) []

def ofTexts (items : List String) : Value :=
  .stringSet (ascending items)

def ofIntegers (items : List Int64) : Value :=
  .numberSet ((ascending items).map fun n => toString n.toInt)

def ofByteStrings (items : List Bytes) : Value :=
  .binarySet (ascending items)

/-- Puts an entry into entries with ascending keys, in the place of the one with its key. -/
def insertEntry (key : String) (value : Value) : List (String × Value) → List (String × Value)
  | [] => [(key, value)]
  | (head, old) :: rest =>
    if key < head then (key, value) :: (head, old) :: rest
    else if head < key then (head, old) :: insertEntry key value rest
    else (key, value) :: rest

/-- The map of some entries, of which a later one with the same key counts. -/
def ofEntries (entries : List (String × Value)) : Value :=
  .map (entries.foldl (fun done (key, value) => insertEntry key value done) [])

def ofOption {α : Type} (literal : α → Value) : Option α → Value
  | none => .null
  | some a => literal a

end Value

end ItemExpr
