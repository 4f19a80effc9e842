import ItemExpr.AttributeValue
import ItemExpr.Format.DateTime
import ItemExpr.Format.Number
import ItemExpr.Text.Blank
import ItemExpr.Value

/-!
# Rendering literals

A literal becomes a stored value. Without a specifier each kind has its own form: numbers become their exact decimal
texts, and dates are formatted by a default. With a specifier numbers and dates are formatted by it, and nothing else
can be; what a formatted number shows is stored as a number if it still is one, and as a text if not.
-/

namespace ItemExpr

/-- The text of a location: its two degrees with a comma between them. -/
def Location.text (point : Location) : List Char :=
  point.latitude.text ++ ',' :: point.longitude.text

namespace Value

def renderNumberText (text : String) : Except FormatError String := do
  let d ← (Number.decimal text).toDecimal
  return String.ofList d.plain

mutual

def renderPlain (dateFormat : String) : Value → Except FormatError AttributeValue
  | .null => .ok (.null true)
  | .bool b => .ok (.bool b)
  | .number n => do
    let d ← n.toDecimal
    return .number (String.ofList d.plain)
  | .string text | .enumeration text => .ok (.string text)
  | .dateTime t => do
    let text ← Format.dateTime t dateFormat
    return .string (String.ofList text)
  | .date d => do
    let text ← Format.date d dateFormat
    return .string (String.ofList text)
  | .binary bytes => .ok (.binary bytes)
  | .stringSet items => .ok (.stringSet items)
  | .numberSet items => .numberSet <$> items.mapM renderNumberText
  | .binarySet items => .ok (.binarySet items)
  | .list items => .list <$> renderItems dateFormat items
  | .map entries => .map <$> renderEntries dateFormat entries
  | .location point => .ok (.string (String.ofList point.text))

/-- The stored values of the items of a list, in order. -/
def renderItems (dateFormat : String) : List Value → Except FormatError (List AttributeValue)
  | [] => .ok []
  | item :: rest => do
    let item ← renderPlain dateFormat item
    let items ← renderItems dateFormat rest
    return item :: items

/-- The stored values of the entries of a map, in the order of their keys. This order is no part of the stored map: it
is one of those in which an encryptor may be given the entries. -/
def renderEntries (dateFormat : String) :
    List (String × Value) → Except FormatError (List (String × AttributeValue))
  | [] => .ok []
  | (key, value) :: rest => do
    let value ← renderPlain dateFormat value
    let entries ← renderEntries dateFormat rest
    return (key, value) :: entries

end

/-- A formatted number, stored as a number if it reads as a decimal. -/
def storeNumberText (text : List Char) : AttributeValue :=
  if (Decimal.parse? text).isSome then .number (String.ofList text) else .string (String.ofList text)

def renderAs (value : Value) (spec : String) : Except FormatError AttributeValue :=
  match value with
  | .dateTime t => (fun text => .string (String.ofList text)) <$> Format.dateTime t spec
  | .date d => (fun text => .string (String.ofList text)) <$> Format.date d spec
  | .number n => storeNumberText <$> Format.number n spec
  | other => .error (.notFormattable spec other.kind)

/-- The specifier that is left of a given one without the blanks around it, if anything is. -/
def effectiveSpec? (spec : Option String) : Option String :=
  (spec.map fun s => Text.trimBlank s.toList).bind fun chars =>
    if chars.isEmpty then none else some (String.ofList chars)

def render (value : Value) (spec : Option String) (dateFormat : String) : Except FormatError AttributeValue :=
  match effectiveSpec? spec with
  | none => value.renderPlain dateFormat
  | some spec => value.renderAs spec

end Value

end ItemExpr
