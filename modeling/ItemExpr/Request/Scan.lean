import ItemExpr.Request.Draft

/-!
# Building scans
-/

namespace ItemExpr

structure Scan where
  draft : Draft
  filters : List String
  projection : List String

namespace Scan

inductive Step where
  | encryptor (encryptor : Encryptor)
  | geoEncoder (encoder : GeoEncoder)
  | localClock (clock : LocalClock)
  | filter (source : ConditionSource)
  | project (path : PropertyPath)

def new (entity : Entity) (settings : Settings) : Scan where
  draft := .new entity settings
  filters := []
  projection := []

def addFilter (scan : Scan) (source : ConditionSource) : Scan :=
  match scan.draft.run .unrestricted source.compile with
  | (some text, draft) => { scan with draft, filters := scan.filters ++ [text] }
  | (none, draft) => { scan with draft }

def addProjection (scan : Scan) (path : PropertyPath) : Scan :=
  match scan.draft.run .unrestricted (SessionM.projection path.toPath) with
  | (some shown, draft) => { scan with draft, projection := scan.projection ++ [shown.text] }
  | (none, draft) => { scan with draft }

def step (scan : Scan) : Step → Scan
  | .encryptor encryptor => { scan with draft := scan.draft.setEncryptor encryptor }
  | .geoEncoder encoder => { scan with draft := scan.draft.setGeoEncoder encoder }
  | .localClock clock => { scan with draft := scan.draft.setLocalClock clock }
  | .filter source => scan.addFilter source
  | .project path => scan.addProjection path

def run (entity : Entity) (settings : Settings) (steps : List Step) : Scan :=
  steps.foldl step (.new entity settings)

def build (scan : Scan) : Except Error ScanRequest := do
  let session ← scan.draft.finish
  return {
    filter := joinConditions scan.filters
    projection := joinProjection scan.projection
    names := session.names.bindings
    values := session.values }

end Scan

end ItemExpr
