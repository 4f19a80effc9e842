import ItemExpr.Proofs.Request.KeyCondition
import ItemExpr.Proofs.Request.Progress

/-!
# Recipes

A recipe is a list of steps for a request of any kind. `Recipe.yields_of_build` says what a recipe that can be finished
comes to: its tasks are done in turn, from a new session on, and the request has the texts that they add and the tables
of the session that they leave. So a law of requests of all kinds is a law of tasks that are done in turn.
-/

namespace ItemExpr

/-! ## Requests of any kind -/

/-- What all finished requests have: their texts, and the tables of their tokens. -/
structure Compiled where
  texts : List String
  names : Table String
  values : Table AttributeValue

def QueryRequest.compiled (request : QueryRequest) : Compiled where
  texts := request.keyCondition :: request.filter.toList ++ request.projection.toList
  names := request.names
  values := request.values

def ScanRequest.compiled (request : ScanRequest) : Compiled where
  texts := request.filter.toList ++ request.projection.toList
  names := request.names
  values := request.values

def BoundExpression.compiled (bound : BoundExpression) : Compiled where
  texts := [bound.expression]
  names := bound.names
  values := bound.values

def UpdateRequest.compiled (request : UpdateRequest) : Compiled where
  texts := request.update :: request.condition.toList
  names := request.names
  values := request.values

/-- The steps of a request of some kind. -/
inductive Recipe where
  | query (steps : List Query.Step)
  | scan (steps : List Scan.Step)
  | guard (steps : List Guard.Step)
  | update (steps : List Update.Step)

namespace Recipe

def tasks : Recipe → List Task
  | .query steps => steps.map Query.task
  | .scan steps => steps.map Scan.task
  | .guard steps => steps.map Guard.task
  | .update steps => steps.flatMap Update.tasks

/-- Takes the steps for an entity, and finishes the request. -/
def build (entity : Entity) (settings : Settings) : Recipe → Except Error Compiled
  | .query steps => (Query.run entity settings steps).build.map QueryRequest.compiled
  | .scan steps => (Scan.run entity settings steps).build.map ScanRequest.compiled
  | .guard steps => (Guard.run entity settings steps).build.map BoundExpression.compiled
  | .update steps => (Update.run entity settings steps).build.map UpdateRequest.compiled

end Recipe

/-! ## Layout -/

/-- The text of the actions of a clause, if it has any. -/
def actionsText? (clause : UpdateClause) : List String → Option String
  | [] => none
  | texts => some (clause.keyword ++ " " ++ ", ".intercalate texts)

/-- The texts of the clauses of actions that have any, one behind the other. -/
def updateText? (texts : UpdateClause → List String) : Option String :=
  match UpdateClause.all.filterMap fun clause => actionsText? clause (texts clause) with
  | [] => none
  | present => some (" ".intercalate present)

/-- The texts of a request, from those that were added to its clauses. -/
def Compiled.layout (texts : Clause → List String) : List String :=
  (joinConditions (texts (.conditions .key))).toList ++ (joinConditions (texts (.conditions .filter))).toList ++
    (joinProjection (texts .projection)).toList ++ (updateText? fun clause => texts (.actions clause)).toList ++
    (joinConditions (texts (.conditions .guard))).toList

/-- A recipe for a valid entity comes to a request: its tasks are done in turn, from a new session on, and the request
has the texts that they add and the tables of the session that they leave. -/
structure Recipe.Yields (recipe : Recipe) (entity : Entity) (settings : Settings) (fragments : List Fragment)
    (compiled : Compiled) : Prop where
  valid : entity.invalidity? = none
  performs : ∃ after, Performs (.new settings (some entity)) recipe.tasks fragments after ∧
    compiled.names = after.names.bindings ∧ compiled.values = after.values
  texts : compiled.texts = Compiled.layout fun clause => textsOf clause fragments

/-- The request of any kind that some progress comes to. -/
def Progress.compiled (progress : Progress) : Compiled where
  texts := Compiled.layout progress.texts
  names := progress.draft.session.names.bindings
  values := progress.draft.session.values

theorem Draft.finish_bind_eq_ok {α : Type} {draft : Draft} {f : Session → Except Error α} {a : α} :
    (draft.finish >>= f) = .ok a ↔ draft.failure = none ∧ f draft.session = .ok a := by
  unfold finish
  cases draft.failure <;> simp [bind, Except.bind]

/-- If nothing has failed by the end of some tasks, they have all been done, and no text but theirs is there. -/
theorem Progress.Does.performs {entity : Entity} {settings : Settings} {last : Progress} {tasks : List Task}
    (does : (Progress.new entity settings).Does tasks last) (fine : last.draft.failure = none) :
    entity.invalidity? = none ∧ ∃ fragments,
      Performs (.new settings (some entity)) tasks fragments last.draft.session ∧
        last.texts = fun clause => textsOf clause fragments := by
  obtain ⟨working, fragments, performs, texts⟩ := does fine
  refine ⟨by simpa [Progress.new, Draft.new] using working, fragments, performs, funext fun clause => ?_⟩
  exact texts clause

/-! ## Finished requests -/

@[simp] theorem joinConditions_nil : joinConditions [] = none := rfl

@[simp] theorem joinProjection_nil : joinProjection [] = none := rfl

@[simp] theorem updateText?_nil : (updateText? fun _ => []) = none := rfl

theorem Query.compiled_eq_of_build {query : Query} {request : QueryRequest} (built : query.build = .ok request) :
    query.draft.failure = none ∧ request.compiled = query.progress.compiled := by
  obtain ⟨fine, _, keyCondition, joined, rfl⟩ := build_eq_ok_iff.1 built
  refine ⟨fine, ?_⟩
  simp [QueryRequest.compiled, Progress.compiled, Compiled.layout, progress, joined]

theorem Scan.compiled_eq_of_build {scan : Scan} {request : ScanRequest} (built : scan.build = .ok request) :
    scan.draft.failure = none ∧ request.compiled = scan.progress.compiled := by
  obtain ⟨fine, made⟩ := Draft.finish_bind_eq_ok.1 built
  cases made
  refine ⟨fine, ?_⟩
  simp [ScanRequest.compiled, Progress.compiled, Compiled.layout, progress]

theorem Guard.compiled_eq_of_build {guard : Guard} {bound : BoundExpression} (built : guard.build = .ok bound) :
    guard.draft.failure = none ∧ bound.compiled = guard.progress.compiled := by
  obtain ⟨fine, made⟩ := Draft.finish_bind_eq_ok.1 built
  cases joined : joinConditions guard.conditions with
  | none =>
    rw [joined] at made
    cases made
  | some expression =>
    rw [joined] at made
    cases made
    refine ⟨fine, ?_⟩
    simp [BoundExpression.compiled, Progress.compiled, Compiled.layout, progress, joined]

theorem Update.clauseText?_eq (fragments : List (UpdateClause × String)) (clause : UpdateClause) :
    clauseText? fragments clause = actionsText? clause (textsIn fragments clause) := by
  unfold clauseText? actionsText? textsIn
  generalize (fragments.filter (·.1 == clause)).map (·.2) = texts
  cases texts <;> rfl

/-- An update with an action has a text. -/
theorem Update.updateText?_of_ne_nil {fragments : List (UpdateClause × String)} (nonempty : fragments ≠ []) :
    updateText? (textsIn fragments) =
      some (" ".intercalate (UpdateClause.all.filterMap (clauseText? fragments))) := by
  obtain ⟨⟨clause, text⟩, rest, rfl⟩ := List.exists_cons_of_ne_nil nonempty
  have present : ∃ shown, actionsText? clause (textsIn ((clause, text) :: rest) clause) = some shown := by
    simp [textsIn, actionsText?]
  obtain ⟨shown, present⟩ := present
  have listed : clause ∈ UpdateClause.all := by cases clause <;> decide
  have member : shown ∈ UpdateClause.all.filterMap (clauseText? ((clause, text) :: rest)) :=
    List.mem_filterMap.2 ⟨clause, listed, (clauseText?_eq ..).trans present⟩
  simp only [updateText?, ← clauseText?_eq]
  split
  · rename_i none
    rw [none] at member
    cases member
  · rfl

/-- What a finished update is made of. -/
theorem Update.build_eq_ok_iff {update : Update} {request : UpdateRequest} :
    update.build = .ok request ↔
      update.draft.failure = none ∧ update.fragments ≠ [] ∧
        request =
          { update := " ".intercalate (UpdateClause.all.filterMap (clauseText? update.fragments))
            condition := joinConditions update.conditions
            names := update.draft.session.names.bindings
            values := update.draft.session.values } := by
  unfold build
  rw [Draft.finish_bind_eq_ok]
  refine and_congr_right fun _ => ?_
  cases update.fragments <;>
    simp [throw, throwThe, MonadExceptOf.throw, pure, Except.pure, bind, Except.bind, eq_comm]

theorem Update.compiled_eq_of_build {update : Update} {request : UpdateRequest} (built : update.build = .ok request) :
    update.draft.failure = none ∧ request.compiled = update.progress.compiled := by
  obtain ⟨fine, filled, rfl⟩ := build_eq_ok_iff.1 built
  refine ⟨fine, ?_⟩
  have text := updateText?_of_ne_nil filled
  simp [UpdateRequest.compiled, Progress.compiled, Compiled.layout, progress, text]

theorem Query.does_run (entity : Entity) (settings : Settings) (steps : List Step) :
    (Progress.new entity settings).Does (steps.map task) (run entity settings steps).progress :=
  Progress.does_of_tasks progress_step (progress_new entity settings) steps

theorem Scan.does_run (entity : Entity) (settings : Settings) (steps : List Step) :
    (Progress.new entity settings).Does (steps.map task) (run entity settings steps).progress :=
  Progress.does_of_tasks progress_step (progress_new entity settings) steps

theorem Guard.does_run (entity : Entity) (settings : Settings) (steps : List Step) :
    (Progress.new entity settings).Does (steps.map task) (run entity settings steps).progress :=
  Progress.does_of_tasks progress_step (progress_new entity settings) steps

theorem Update.does_run (entity : Entity) (settings : Settings) (steps : List Step) :
    (Progress.new entity settings).Does (steps.flatMap tasks) (run entity settings steps).progress :=
  Progress.does_of_steps does_step (progress_new entity settings) steps

/-- What a recipe comes to if it can be finished. -/
theorem Recipe.yields_of_build {recipe : Recipe} {entity : Entity} {settings : Settings} {compiled : Compiled}
    (built : recipe.build entity settings = .ok compiled) :
    ∃ fragments, recipe.Yields entity settings fragments compiled := by
  -- Each kind of request has its own state at the end of a run, of which only its progress counts.
  have done : ∀ {last : Progress}, (Progress.new entity settings).Does recipe.tasks last →
      last.draft.failure = none → compiled = last.compiled →
        ∃ fragments, recipe.Yields entity settings fragments compiled := by
    rintro last does fine rfl
    obtain ⟨valid, fragments, performs, texts⟩ := does.performs fine
    exact ⟨fragments, valid, ⟨_, performs, rfl, rfl⟩, by rw [Progress.compiled, texts]⟩
  cases recipe with
  | query steps =>
    obtain ⟨request, finished, rfl⟩ := map_eq_ok.1 built
    obtain ⟨fine, compiled⟩ := Query.compiled_eq_of_build finished
    exact done (Query.does_run entity settings steps) fine compiled
  | scan steps =>
    obtain ⟨request, finished, rfl⟩ := map_eq_ok.1 built
    obtain ⟨fine, compiled⟩ := Scan.compiled_eq_of_build finished
    exact done (Scan.does_run entity settings steps) fine compiled
  | guard steps =>
    obtain ⟨request, finished, rfl⟩ := map_eq_ok.1 built
    obtain ⟨fine, compiled⟩ := Guard.compiled_eq_of_build finished
    exact done (Guard.does_run entity settings steps) fine compiled
  | update steps =>
    obtain ⟨request, finished, rfl⟩ := map_eq_ok.1 built
    obtain ⟨fine, compiled⟩ := Update.compiled_eq_of_build finished
    exact done (Update.does_run entity settings steps) fine compiled

end ItemExpr
