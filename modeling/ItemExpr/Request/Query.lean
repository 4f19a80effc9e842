import ItemExpr.Request.Draft

/-!
# Building queries

A query needs a condition on keys. If every part of that condition is a tree, one of them must compare the partition key
by `=`; what a template or a raw text says about keys is not looked at.
-/

namespace ItemExpr

structure Query where
  draft : Draft
  indexName : Option String
  keyConditions : List String
  /-- Whether all conditions on keys are trees. -/
  typedKeys : Bool
  filters : List String
  projection : List String

namespace Query

inductive Step where
  | encryptor (encryptor : Encryptor)
  | geoEncoder (encoder : GeoEncoder)
  | localClock (clock : LocalClock)
  | index (name : String)
  | key (source : ConditionSource)
  | filter (source : ConditionSource)
  | project (path : PropertyPath)

def new (entity : Entity) (settings : Settings) : Query where
  draft := .new entity settings
  indexName := none
  keyConditions := []
  typedKeys := true
  filters := []
  projection := []

def useIndex (query : Query) (name : String) : Query :=
  -- The conditions on keys that are there already are not looked at again.
  match query.draft.run .unrestricted (SessionM.useIndex name) with
  | (some _, draft) => { query with draft, indexName := some name }
  | (none, draft) => { query with draft }

def addKey (query : Query) (source : ConditionSource) : Query :=
  match query.draft.run .keysOnly source.compile with
  | (some text, draft) =>
    { query with draft, keyConditions := query.keyConditions ++ [text], typedKeys := query.typedKeys && source.isTyped }
  | (none, draft) => { query with draft }

def addFilter (query : Query) (source : ConditionSource) : Query :=
  match query.draft.run .unrestricted source.compile with
  | (some text, draft) => { query with draft, filters := query.filters ++ [text] }
  | (none, draft) => { query with draft }

def addProjection (query : Query) (path : PropertyPath) : Query :=
  match query.draft.run .unrestricted (SessionM.projection path.toPath) with
  | (some shown, draft) => { query with draft, projection := query.projection ++ [shown.text] }
  | (none, draft) => { query with draft }

def step (query : Query) : Step → Query
  | .encryptor encryptor => { query with draft := query.draft.setEncryptor encryptor }
  | .geoEncoder encoder => { query with draft := query.draft.setGeoEncoder encoder }
  | .localClock clock => { query with draft := query.draft.setLocalClock clock }
  | .index name => query.useIndex name
  | .key source => query.addKey source
  | .filter source => query.addFilter source
  | .project path => query.addProjection path

def run (entity : Entity) (settings : Settings) (steps : List Step) : Query :=
  steps.foldl step (.new entity settings)

def build (query : Query) : Except Error QueryRequest := do
  let session ← query.draft.finish
  let some keyCondition := joinConditions query.keyConditions | throw (.unsupported .noKeyCondition)
  if query.typedKeys then session.requirePartitionBound
  return {
    indexName := query.indexName
    keyCondition
    filter := joinConditions query.filters
    projection := joinProjection query.projection
    names := session.names.bindings
    values := session.values }

end Query

end ItemExpr
