import ItemExpr.Request.Draft
import ItemExpr.Request.Standalone

/-!
# Building guards

A guard is the condition under which an item is put or deleted. It needs at least one condition.
-/

namespace ItemExpr

structure Guard where
  draft : Draft
  conditions : List String

namespace Guard

inductive Step where
  | encryptor (encryptor : Encryptor)
  | geoEncoder (encoder : GeoEncoder)
  | localClock (clock : LocalClock)
  | condition (source : ConditionSource)

def new (entity : Entity) (settings : Settings) : Guard where
  draft := .new entity settings
  conditions := []

def addCondition (guard : Guard) (source : ConditionSource) : Guard :=
  match guard.draft.run .unrestricted source.compile with
  | (some text, draft) => { guard with draft, conditions := guard.conditions ++ [text] }
  | (none, draft) => { guard with draft }

def step (guard : Guard) : Step → Guard
  | .encryptor encryptor => { guard with draft := guard.draft.setEncryptor encryptor }
  | .geoEncoder encoder => { guard with draft := guard.draft.setGeoEncoder encoder }
  | .localClock clock => { guard with draft := guard.draft.setLocalClock clock }
  | .condition source => guard.addCondition source

def run (entity : Entity) (settings : Settings) (steps : List Step) : Guard :=
  steps.foldl step (.new entity settings)

def build (guard : Guard) : Except Error BoundExpression := do
  let session ← guard.draft.finish
  let some expression := joinConditions guard.conditions | throw (.unsupported .noCondition)
  return { expression, names := session.names.bindings, values := session.values }

end Guard

end ItemExpr
