import ItemExpr.Json.Reader
import ItemExpr.Json.Record

/-!
# Settings

What a caller may choose for all requests: how tokens start, how dates are formatted where nothing else says so, and
whether texts may be taken as they are.
-/

namespace ItemExpr

structure Settings where
  valueSigil : String
  nameSigil : String
  dateFormat : String
  allowRaw : Bool
deriving DecidableEq, Repr

namespace Settings

def standard : Settings where
  valueSigil := ":p"
  nameSigil := "#"
  dateFormat := "o"
  allowRaw := true

/-- The texts that switch a setting on; every other text switches it off. -/
def isOn (text : String) : Bool :=
  ["1", "true", "yes", "TRUE", "YES"].contains text

/-- The standard settings, each replaced by a text that is given for it. -/
def ofTexts (valueSigil nameSigil dateFormat allowRaw : Option String) : Settings where
  valueSigil := valueSigil.getD standard.valueSigil
  nameSigil := nameSigil.getD standard.nameSigil
  dateFormat := dateFormat.getD standard.dateFormat
  allowRaw := (allowRaw.map isOn).getD standard.allowRaw

/-! ## Wire form -/

def fields : List Json.Field :=
  [.plain "valuePrefix", .plain "namePrefix", .plain "defaultDateFormat", .plain "allowRawExpressions"]

def toJson (settings : Settings) : Json :=
  Json.ofMembers
    [("valuePrefix", Json.text settings.valueSigil), ("namePrefix", Json.text settings.nameSigil),
      ("defaultDateFormat", Json.text settings.dateFormat), ("allowRawExpressions", .bool settings.allowRaw)]

def ofJson? (json : Json) : Option Settings := do
  let given ← json.fields? fields
  let valueSigil ← given.required "valuePrefix" Json.text?
  let nameSigil ← given.required "namePrefix" Json.text?
  let dateFormat ← given.required "defaultDateFormat" Json.text?
  let allowRaw ← given.required "allowRawExpressions" Json.bool?
  return { valueSigil, nameSigil, dateFormat, allowRaw }

end Settings

end ItemExpr
