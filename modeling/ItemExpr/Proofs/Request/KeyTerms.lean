import ItemExpr.Proofs.Condition.Formula
import ItemExpr.Proofs.Request.KeyCondition

/-!
# Where the conditions on keys of a query come from

Each condition on keys of a query was compiled from the tree of one of its steps, under the schema that was selected
then. The tables of the finished query have grown from those of that moment, so its tokens still stand for what they
were bound to.
-/

namespace ItemExpr

open Session SessionM

variable {entity : Entity} {names : Table String} {values : Table AttributeValue} {terms : List KeyTerm} {query : Query}

/-! ## Tables only grow -/

namespace Session

variable {s t : Session}

theorem Extends.within (growth : Extends s t) (within : t.Within names values) : s.Within names values :=
  ⟨growth.names.trans within.1, growth.values.trans within.2⟩

/-- Compiling a condition only adds to the tables, whatever it comes from and also if it is one on keys. -/
theorem within_of_source {source : ConditionSource} {text : String} (run : source.compile s = .ok text t)
    (within : t.Within names values) : s.Within names values := by
  cases source with
  | typed condition =>
    obtain ⟨c, compiles, _⟩ := compile_typed run
    exact (condition_binds compiles).grows.within within
  | template template args => exact (extends_template run).within within
  | raw raw => exact (extends_rawText run).within within

theorem within_of_useIndex {name : String} (run : SessionM.useIndex name s = .ok () t)
    (within : t.Within names values) : s.Within names values := by
  obtain ⟨index, _, changes⟩ := query_bind_eq_ok.1 run
  obtain rfl := modify_eq_ok.1 changes
  exact within

end Session

theorem Draft.within_of_run {α : Type} {draft : Draft} {mode : Mode} {op : SessionM α}
    (fine : (draft.run mode op).2.failure = none) (within : (draft.run mode op).2.session.Within names values)
    (grows : ∀ {a s t}, op s = .ok a t → t.Within names values → s.Within names values) :
    draft.session.Within names values := by
  obtain ⟨a, t, _, run, ran⟩ | ⟨next, ran, failed⟩ := draft.run_cases mode op
  · rw [ran] at within
    -- The mode has no part in what is bound.
    have before : ({ draft.session with mode } : Session).Within names values := grows run within
    exact before
  · rw [ran] at fine
    exact absurd fine failed

namespace Query

theorem within_of_step {step : Step} (fine : (query.step step).draft.failure = none)
    (within : (query.step step).draft.session.Within names values) : query.draft.session.Within names values := by
  cases step with
  | encryptor | geoEncoder | localClock => exact within
  | index name =>
    exact Draft.within_of_run (draft_useIndex name ▸ fine) (draft_useIndex name ▸ within) within_of_useIndex
  | key source =>
    exact Draft.within_of_run (draft_addKey source ▸ fine) (draft_addKey source ▸ within) within_of_source
  | filter source =>
    exact Draft.within_of_run (draft_addFilter source ▸ fine) (draft_addFilter source ▸ within) within_of_source
  | project path =>
    exact Draft.within_of_run (draft_addProjection path ▸ fine) (draft_addProjection path ▸ within)
      fun run => (extends_projection run).within

theorem within_of_foldl {steps : List Step} (fine : (steps.foldl step query).draft.failure = none)
    (within : (steps.foldl step query).draft.session.Within names values) :
    query.draft.session.Within names values := by
  induction steps generalizing query with
  | nil => exact within
  | cons first rest ih => exact within_of_step (failure_of_foldl fine) (ih fine within)

/-! ## The step that added a term -/

theorem mem_keyTerms {steps : List Step} {term : KeyTerm} (member : term ∈ query.keyTerms steps) :
    ∃ before condition after, steps = before ++ .key (.typed condition) :: after ∧
      (before.foldl step query).keyTerm? (.key (.typed condition)) = some term := by
  induction steps generalizing query with
  | nil => cases member
  | cons first rest ih =>
    rcases List.mem_append.1 member with here | later
    · have added := Option.mem_toList.1 here
      -- Only a step with a condition on keys that is a tree adds a term.
      match first, added with
      | .key (.typed condition), added => exact ⟨[], condition, rest, rfl, added⟩
    · obtain ⟨before, condition, after, rfl, added⟩ := ih later
      exact ⟨first :: before, condition, after, rfl, added⟩

end Query

/-- A term was compiled from a tree under the schema of its index, in a session that has grown into the given tables. -/
def KeyTerm.Compiled (entity : Entity) (names : Table String) (values : Table AttributeValue) (tree : Expr)
    (term : KeyTerm) : Prop :=
  ∃ s t, s.entity = some entity ∧ s.names.Distinct ∧ entity.keySchema term.indexName = some (s.keySchema entity) ∧
    BindsKeyCondition s tree term.condition t ∧ t.Within names values

/-- A condition on keys that is a tree is compiled in the session of the draft, which looks at keys alone then. -/
theorem KeyInvariant.compiled (invariant : KeyInvariant entity terms query) {condition : Condition} {term : KeyTerm}
    (added : query.keyTerm? (.key (.typed condition)) = some term)
    (within : (query.step (.key (.typed condition))).draft.session.Within names values) :
    term.Compiled entity names values condition.toExpr := by
  obtain ⟨c, answered, rfl⟩ := Option.map_eq_some_iff.1 added
  obtain ⟨a, t, _, run, ran⟩ | ⟨next, ran, _⟩ :=
    query.draft.run_cases .keysOnly (SessionM.condition condition.toExpr)
  · have compiles : (query.step (.key (.typed condition))).draft =
        { query.draft with session := { t with mode := query.draft.session.mode } } := by
      rw [Query.step, Query.draft_addKey, ConditionSource.compile, Draft.run_map, ran]
    rw [compiles] at within
    rw [ran] at answered
    cases answered
    exact ⟨{ query.draft.session with mode := .keysOnly }, t, invariant.known, invariant.distinct,
      invariant.schema, (condition_binds run).onKeys rfl, within⟩
  · rw [ran] at answered
    cases answered

namespace Query

/-- In a query in which nothing fails, each condition on keys was compiled from the tree of one of its steps. -/
theorem compiled_of_mem_keyTerms (valid : entity.invalidity? = none) (invariant : KeyInvariant entity terms query)
    {steps : List Step} (typed : ∀ step ∈ steps, step.IsTyped)
    (fine : (steps.foldl step query).draft.failure = none)
    (within : (steps.foldl step query).draft.session.Within names values) {term : KeyTerm}
    (member : term ∈ query.keyTerms steps) :
    ∃ condition, .key (.typed condition) ∈ steps ∧ term.Compiled entity names values condition.toExpr := by
  obtain ⟨before, condition, after, rfl, added⟩ := mem_keyTerms member
  rw [List.foldl_append, List.foldl_cons] at fine within
  -- What the steps behind the term add, they add to the tables that its own step left.
  have reached := failure_of_step (failure_of_foldl fine)
  have earlier := invariant.foldl valid (fun step member => typed step (List.mem_append_left _ member)) reached
  exact ⟨condition, by simp, earlier.compiled added (within_of_foldl fine within)⟩

end Query

end ItemExpr
