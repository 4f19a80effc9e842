import ItemExpr.Request.Draft

/-!
# Building updates

An update needs at least one action. No two typed actions may have the same target. The actions of a clause stand in the
order in which they were added, and the clauses in their own order.
-/

namespace ItemExpr

structure Update where
  draft : Draft
  /-- The texts of the actions with their clauses, in the order in which they were added. -/
  fragments : List (UpdateClause × String)
  /-- The targets of the typed actions. -/
  targets : List Path
  conditions : List String

namespace Update

inductive Step where
  | encryptor (encryptor : Encryptor)
  | geoEncoder (encoder : GeoEncoder)
  | localClock (clock : LocalClock)
  | actions (actions : List Action)
  | template (clause : UpdateClause) (text : String) (args : List Value)
  | raw (clause : UpdateClause) (text : RawText)
  | condition (source : ConditionSource)

def new (entity : Entity) (settings : Settings) : Update where
  draft := .new entity settings
  fragments := []
  targets := []
  conditions := []

def addFragment (update : Update) (clause : UpdateClause) (step : SessionM String) : Update :=
  match update.draft.run .unrestricted step with
  | (some text, draft) => { update with draft, fragments := update.fragments ++ [(clause, text)] }
  | (none, draft) => { update with draft }

/-- Adds actions up to the first that fails. A target is taken even by an action that fails. -/
def addActions (update : Update) : List Action → Update
  | [] => update
  | action :: rest =>
    let assignment := action.toAssignment
    if assignment.target ∈ update.targets then
      -- A failure from before is kept, but the actions that are left are dropped in any case.
      { update with draft := update.draft.fail (.unsupported (.repeatedTarget assignment.target)) }
    else
      let targets := assignment.target :: update.targets
      match update.draft.run .unrestricted (SessionM.assignment assignment) with
      | (some compiled, draft) =>
        addActions
          { update with draft, targets, fragments := update.fragments ++ [(compiled.clause, compiled.text)] } rest
      | (none, draft) => { update with draft, targets }

def addCondition (update : Update) (source : ConditionSource) : Update :=
  match update.draft.run .unrestricted source.compile with
  | (some text, draft) => { update with draft, conditions := update.conditions ++ [text] }
  | (none, draft) => { update with draft }

def step (update : Update) : Step → Update
  | .encryptor encryptor => { update with draft := update.draft.setEncryptor encryptor }
  | .geoEncoder encoder => { update with draft := update.draft.setGeoEncoder encoder }
  | .localClock clock => { update with draft := update.draft.setLocalClock clock }
  | .actions actions => update.addActions actions
  | .template clause text args => update.addFragment clause (Template.compile text args)
  | .raw clause text => update.addFragment clause text.compile
  | .condition source => update.addCondition source

def run (entity : Entity) (settings : Settings) (steps : List Step) : Update :=
  steps.foldl step (.new entity settings)

/-- The text of a clause, if it has an action. -/
def clauseText? (fragments : List (UpdateClause × String)) (clause : UpdateClause) : Option String :=
  match (fragments.filter (·.1 == clause)).map (·.2) with
  | [] => none
  | texts => some (clause.keyword ++ " " ++ ", ".intercalate texts)

def build (update : Update) : Except Error UpdateRequest := do
  let session ← update.draft.finish
  if update.fragments.isEmpty then throw (.unsupported .noAction)
  return {
    update := " ".intercalate (UpdateClause.all.filterMap (clauseText? update.fragments))
    condition := joinConditions update.conditions
    names := session.names.bindings
    values := session.values }

end Update

end ItemExpr
