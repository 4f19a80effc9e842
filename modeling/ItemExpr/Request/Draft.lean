import ItemExpr.Condition
import ItemExpr.Request
import ItemExpr.Template
import ItemExpr.Binding

/-!
# Drafts

A request is put together step by step. A draft is the session in which the steps are compiled, and the first failure
among them; once there is one, no further step has an effect. An entity that is not valid is a failure from the start.
-/

namespace ItemExpr

/-- A session and the first failure in it. -/
structure Draft where
  session : Session
  failure : Option Error

namespace Draft

def new (entity : Entity) (settings : Settings) : Draft where
  session := .new settings (some entity)
  failure := entity.invalidity?.map .invalidEntity

/-- Keeps a failure, unless there is one. -/
def fail (draft : Draft) (error : Error) : Draft :=
  { draft with failure := draft.failure <|> some error }

/-- Runs a step in a mode, and answers its result if it succeeds. -/
def run {α : Type} (draft : Draft) (mode : Mode) (step : SessionM α) : Option α × Draft :=
  match draft.failure with
  | some _ => (none, draft)
  | none =>
    -- What a step binds before it fails stays bound, and only its mode is taken back.
    match step.run { draft.session with mode } with
    | .ok a session => (some a, { draft with session := { session with mode := draft.session.mode } })
    | .error error session =>
      (none, { session := { session with mode := draft.session.mode }, failure := some error })

def setEncryptor (draft : Draft) (encryptor : Encryptor) : Draft :=
  { draft with session := { draft.session with encryptor := some encryptor } }

def setGeoEncoder (draft : Draft) (encoder : GeoEncoder) : Draft :=
  { draft with session := { draft.session with geoEncoder := some encoder } }

/-- The clock of the host is given from outside, and may change while a request is put together. So what it is from here
on is a step like the others. -/
def setLocalClock (draft : Draft) (clock : LocalClock) : Draft :=
  { draft with session := { draft.session with clock } }

/-- The session, if nothing failed. -/
def finish (draft : Draft) : Except Error Session :=
  match draft.failure with
  | some error => .error error
  | none => .ok draft.session

end Draft

/-! ## Fragments -/

/-- A text that is taken as it is, and the tokens that it needs. -/
structure RawText where
  expression : String
  names : List (String × String)
  values : List (String × AttributeValue)

/-- Where a condition comes from. -/
inductive ConditionSource where
  | typed (condition : Condition)
  | template (text : String) (args : List Value)
  | raw (text : RawText)

/-- Binds the tokens of a raw text, if raw texts are allowed. -/
def RawText.compile (raw : RawText) : SessionM String := do
  if !(← get).allowRaw then SessionM.unsupported .rawText
  raw.names.forM fun (token, attributeName) => SessionM.insertName token attributeName
  raw.values.forM fun (token, value) => SessionM.insertValue token value
  return raw.expression

namespace ConditionSource

def compile : ConditionSource → SessionM String
  | .typed condition => return (← SessionM.condition condition.toExpr).text
  | .template text args => Template.compile text args
  | .raw text => text.compile

/-- Whether a condition is a tree, so that what it says about keys is known. -/
def isTyped : ConditionSource → Bool
  | .typed _ => true
  | _ => false

end ConditionSource

/-- The conjunction of some conditions, each in parentheses unless it is the only one. -/
def joinConditions : List String → Option String
  | [] => none
  | [single] => some single
  | many => some (" AND ".intercalate (many.map fun text => "(" ++ text ++ ")"))

/-- The list of some paths, if there are any. -/
def joinProjection (paths : List String) : Option String :=
  if paths.isEmpty then none else some (", ".intercalate paths)

end ItemExpr
