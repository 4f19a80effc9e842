import ItemExpr.Request
import ItemExpr.Template

/-!
# Expressions that stand alone

A text that belongs to no query, scan or update is a request of its own: the text with the tables of its tokens. A guard
is built to one, and so is a template that is compiled without an entity.
-/

namespace ItemExpr

open Request

/-- A text over tokens with the tables of the tokens. -/
structure BoundExpression where
  expression : String
  names : Table String
  values : Table AttributeValue
deriving Repr

namespace BoundExpression

def fields : List Json.Field :=
  .plain "Expression" :: tableFields

def toJson (bound : BoundExpression) : Json :=
  Json.ofMembers (Json.always "Expression" (Json.text bound.expression) ++ tableMembers bound.names bound.values)

def ofFields? (given : Json.Fields) : Option BoundExpression := do
  let expression ← given.required "Expression" Json.text?
  let names ← givenNames? given
  let values ← givenValues? given
  return { expression, names, values }

def ofJson? (json : Json) : Option BoundExpression :=
  json.fields? fields >>= ofFields?

end BoundExpression

/-- Compiles a template on its own, under the standard settings and without an entity. -/
def Template.compileAlone (template : String) (args : List Value) : Except Error BoundExpression :=
  match (Template.compile template args).run (.new .standard none) with
  | .ok expression session => .ok { expression, names := session.names.bindings, values := session.values }
  | .error error _ => .error error

end ItemExpr
