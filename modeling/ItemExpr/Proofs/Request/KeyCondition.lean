import ItemExpr.Proofs.KeySchema
import ItemExpr.Proofs.Request.Draft
import ItemExpr.Request.Query

/-!
# The conditions on keys of a query

Each condition on keys that is a tree belongs to the schema that was selected when it was added, and if the query can be
finished, one of them compares the partition key of its schema. So they belong to the schema that the finished query
names if that schema was the one all along. Nothing keeps a query from selecting another index afterwards, and then the
query names a schema that its conditions do not belong to.
-/

namespace ItemExpr

open Session SessionM

/-- A compiled condition on keys, and the index that was selected when it was added. -/
structure KeyTerm where
  indexName : Option String
  condition : TokenCondition
deriving DecidableEq

namespace Query

/-- The condition on keys that a step adds, if it is a tree. -/
def keyTerm? (query : Query) : Step → Option KeyTerm
  | .key (.typed condition) =>
    (query.draft.run .keysOnly (SessionM.condition condition.toExpr)).1.map (⟨query.indexName, ·⟩)
  | _ => none

/-- The conditions on keys that some steps add, in order. -/
def keyTerms (query : Query) : List Step → List KeyTerm
  | [] => []
  | step :: rest => (query.keyTerm? step).toList ++ (query.step step).keyTerms rest

/-- Whether a step does not add a condition on keys that is a template or a raw text. -/
def Step.IsTyped : Step → Prop
  | .key source => source.isTyped = true
  | _ => True

end Query

/-! ## What the steps keep -/

variable {entity : Entity} {names : Table String} {terms : List KeyTerm} {query : Query}

/-- A term refers to key attributes of its schema alone. -/
def KeyTerm.Belongs (entity : Entity) (names : Table String) (term : KeyTerm) : Prop :=
  ∃ schema, entity.keySchema term.indexName = some schema ∧
    StandFor names (schema.hasKey · = true) term.condition.nameTokens

/-- A term compares the partition key of its schema. -/
def KeyTerm.Pins (entity : Entity) (names : Table String) (term : KeyTerm) : Prop :=
  ∃ schema attributeName, entity.keySchema term.indexName = some schema ∧ schema.partition = some attributeName ∧
    term.condition.Equates names attributeName

/-- Some conditions on keys are conditions on the key of a schema: they refer to its attributes alone, and one of them
compares its partition key with `=`, if it has one. -/
def KeySchema.Governs (schema : KeySchema) (names : Table String) (terms : List KeyTerm) : Prop :=
  (∀ term ∈ terms, StandFor names (schema.hasKey · = true) term.condition.nameTokens) ∧
    ∀ attributeName, schema.partition = some attributeName →
      ∃ term ∈ terms, term.condition.Equates names attributeName

theorem KeyTerm.Belongs.mono {more : Table String} {term : KeyTerm} (grown : names <+: more)
    (belongs : term.Belongs entity names) : term.Belongs entity more := by
  obtain ⟨schema, found, stand⟩ := belongs
  exact ⟨schema, found, stand.mono grown fun _ key => key⟩

theorem KeyTerm.Pins.mono {more : Table String} {term : KeyTerm} (grown : names <+: more)
    (pins : term.Pins entity names) : term.Pins entity more := by
  obtain ⟨schema, attributeName, found, partition, equates⟩ := pins
  exact ⟨schema, attributeName, found, partition, equates.mono grown⟩

/-- What holds of a query with the terms that were added so far, as long as nothing has failed. -/
structure KeyInvariant (entity : Entity) (terms : List KeyTerm) (query : Query) : Prop where
  known : query.draft.session.entity = some entity
  schema : entity.keySchema query.indexName = some (query.draft.session.keySchema entity)
  distinct : query.draft.session.names.Distinct
  typed : query.typedKeys = true
  conditions : query.keyConditions = terms.map (·.condition.text)
  belong : ∀ term ∈ terms, term.Belongs entity query.draft.session.names.bindings
  pinned : query.draft.session.partitionBound = true →
    ∃ term ∈ terms, term.Pins entity query.draft.session.names.bindings

namespace KeyInvariant

/-- What only adds to the tables keeps the invariant. -/
theorem extend {next : Query} (invariant : KeyInvariant entity terms query)
    (growth : Extends query.draft.session next.draft.session) (indexName : next.indexName = query.indexName)
    (typed : next.typedKeys = query.typedKeys) (conditions : next.keyConditions = query.keyConditions) :
    KeyInvariant entity terms next where
  known := growth.entity.trans invariant.known
  schema := by
    rw [indexName, invariant.schema]
    simp only [Session.keySchema, growth.index]
  distinct := growth.distinct invariant.distinct
  typed := typed.trans invariant.typed
  conditions := conditions.trans invariant.conditions
  belong term member := (invariant.belong term member).mono growth.names
  pinned noted := by
    obtain ⟨term, member, pins⟩ := invariant.pinned (growth.partition ▸ noted)
    exact ⟨term, member, pins.mono growth.names⟩

theorem useIndex (invariant : KeyInvariant entity terms query) {name : String}
    (fine : (query.useIndex name).draft.failure = none) : KeyInvariant entity terms (query.useIndex name) := by
  unfold Query.useIndex at fine ⊢
  obtain ⟨_, t, _, selects, ran⟩ | ⟨next, ran, failed⟩ :=
    query.draft.run_cases .unrestricted (SessionM.useIndex name)
  · obtain ⟨index, found, changes⟩ := query_bind_eq_ok.1 selects
    obtain rfl := modify_eq_ok.1 changes
    rw [ran]
    unfold findIndex at found
    rw [show ({ query.draft.session with mode := Mode.unrestricted } : Session).entity = some entity
      from invariant.known] at found
    dsimp only at found
    split at found
    · rename_i index' declared
      cases found
      refine ⟨invariant.known, ?_, invariant.distinct, invariant.typed, invariant.conditions, invariant.belong,
        invariant.pinned⟩
      simp only [Entity.keySchema, declared, Option.map_some, Session.keySchema]
    · cases found
  · rw [ran] at fine
    exact absurd fine failed

/-- A condition on keys is compiled under the schema that the query looks at. -/
theorem addKey (valid : entity.invalidity? = none) (invariant : KeyInvariant entity terms query)
    {condition : Condition} (fine : (query.addKey (.typed condition)).draft.failure = none) :
    KeyInvariant entity (terms ++ (query.keyTerm? (.key (.typed condition))).toList)
      (query.addKey (.typed condition)) := by
  unfold Query.addKey at fine ⊢
  obtain ⟨text, t, working, compiles, ran⟩ | ⟨next, ran, failed⟩ :=
    query.draft.run_cases .keysOnly (ConditionSource.typed condition).compile
  · obtain ⟨c, run, rfl⟩ := compile_typed compiles
    have term : query.keyTerm? (.key (.typed condition)) = some ⟨query.indexName, c⟩ := by
      simp [Query.keyTerm?, Draft.run, working, EStateM.run, run]
    have binds := condition_binds run
    have grows := binds.grows
    have grown : query.draft.session.names.bindings <+: t.names.bindings := grows.prefix_names
    rw [ran, term]
    -- The mode of the step is `keysOnly`, so every name in it was checked against the schema of the session.
    have belongs : KeyTerm.Belongs entity t.names.bindings ⟨query.indexName, c⟩ := by
      refine ⟨_, invariant.schema, ?_⟩
      refine ((binds.onKeys rfl).standFor invariant.known invariant.distinct List.prefix_rfl).mono List.prefix_rfl ?_
      rintro _ ⟨root, property, found, key, rfl⟩
      exact hasKey_of_isKey invariant.known found key
    refine ⟨grows.entity.trans invariant.known, ?_, grows.distinct invariant.distinct, ?_, ?_, ?_, ?_⟩
    · rw [invariant.schema]
      simp only [Session.keySchema, grows.index]
    · simp [invariant.typed, ConditionSource.isTyped]
    · simp [invariant.conditions]
    · intro other member
      rcases List.mem_append.1 member with earlier | new
      · exact (invariant.belong other earlier).mono grown
      · obtain rfl := List.mem_singleton.1 new
        exact belongs
    · intro noted
      -- The flag was set before, and then an older term compares the partition key, or this term does.
      obtain earlier | ⟨root, property, found, partition, equates⟩ :=
        (binds.onKeys rfl).partition invariant.distinct List.prefix_rfl noted
      · obtain ⟨other, member, pins⟩ := invariant.pinned earlier
        exact ⟨other, List.mem_append_left _ member, pins.mono grown⟩
      · have schema := partition_of_isPartitionKey invariant.known valid found partition
        exact ⟨⟨query.indexName, c⟩, List.mem_append_right _ (List.mem_singleton.2 rfl),
          _, _, invariant.schema, schema, equates⟩
  · rw [ran] at fine
    exact absurd fine failed

theorem addFilter (invariant : KeyInvariant entity terms query) {source : ConditionSource}
    (fine : (query.addFilter source).draft.failure = none) : KeyInvariant entity terms (query.addFilter source) := by
  unfold Query.addFilter at fine ⊢
  obtain ⟨text, t, _, compiles, ran⟩ | ⟨next, ran, failed⟩ := query.draft.run_cases .unrestricted source.compile
  · rw [ran]
    exact invariant.extend (extends_source compiles rfl).withMode rfl rfl rfl
  · rw [ran] at fine
    exact absurd fine failed

theorem addProjection (invariant : KeyInvariant entity terms query) {path : PropertyPath}
    (fine : (query.addProjection path).draft.failure = none) :
    KeyInvariant entity terms (query.addProjection path) := by
  unfold Query.addProjection at fine ⊢
  obtain ⟨shown, t, _, resolves, ran⟩ | ⟨next, ran, failed⟩ :=
    query.draft.run_cases .unrestricted (SessionM.projection path.toPath)
  · rw [ran]
    exact invariant.extend (extends_projection resolves).withMode rfl rfl rfl
  · rw [ran] at fine
    exact absurd fine failed

/-- A step that does not fail keeps the invariant, with the term that it adds. -/
theorem step (valid : entity.invalidity? = none) (invariant : KeyInvariant entity terms query) {step : Query.Step}
    (typed : step.IsTyped) (fine : (query.step step).draft.failure = none) :
    KeyInvariant entity (terms ++ (query.keyTerm? step).toList) (query.step step) := by
  cases step with
  -- Only a condition on keys adds a term.
  | encryptor | geoEncoder | localClock =>
    show KeyInvariant entity (terms ++ []) _
    rw [List.append_nil]
    exact invariant.extend ⟨⟨rfl, List.prefix_rfl, id, List.prefix_rfl⟩, rfl, rfl⟩ rfl rfl rfl
  | index name =>
    show KeyInvariant entity (terms ++ []) _
    rw [List.append_nil]
    exact invariant.useIndex fine
  | key source =>
    cases source with
    | typed condition => exact invariant.addKey valid fine
    | template | raw => cases typed
  | filter source =>
    show KeyInvariant entity (terms ++ []) _
    rw [List.append_nil]
    exact invariant.addFilter fine
  | project path =>
    show KeyInvariant entity (terms ++ []) _
    rw [List.append_nil]
    exact invariant.addProjection fine

end KeyInvariant

/-! ## Whole queries -/

namespace Query

/-! What a step leaves of the draft is what the operation leaves that it runs. -/

theorem draft_useIndex (name : String) :
    (query.useIndex name).draft = (query.draft.run .unrestricted (SessionM.useIndex name)).2 := by
  unfold useIndex
  rcases query.draft.run .unrestricted (SessionM.useIndex name) with ⟨_ | _, _⟩ <;> rfl

theorem draft_addKey (source : ConditionSource) :
    (query.addKey source).draft = (query.draft.run .keysOnly source.compile).2 := by
  unfold addKey
  rcases query.draft.run .keysOnly source.compile with ⟨_ | _, _⟩ <;> rfl

theorem draft_addFilter (source : ConditionSource) :
    (query.addFilter source).draft = (query.draft.run .unrestricted source.compile).2 := by
  unfold addFilter
  rcases query.draft.run .unrestricted source.compile with ⟨_ | _, _⟩ <;> rfl

theorem draft_addProjection (path : PropertyPath) :
    (query.addProjection path).draft =
      (query.draft.run .unrestricted (SessionM.projection path.toPath)).2 := by
  unfold addProjection
  rcases query.draft.run .unrestricted (SessionM.projection path.toPath) with ⟨_ | _, _⟩ <;> rfl

theorem failure_of_step {step : Step} (fine : (query.step step).draft.failure = none) :
    query.draft.failure = none := by
  cases step with
  | encryptor | geoEncoder | localClock => exact fine
  | index name => exact Draft.failure_of_run (draft_useIndex name ▸ fine)
  | key source => exact Draft.failure_of_run (draft_addKey source ▸ fine)
  | filter source => exact Draft.failure_of_run (draft_addFilter source ▸ fine)
  | project path => exact Draft.failure_of_run (draft_addProjection path ▸ fine)

theorem failure_of_foldl {steps : List Step} (fine : (steps.foldl step query).draft.failure = none) :
    query.draft.failure = none := by
  induction steps generalizing query with
  | nil => exact fine
  | cons first rest ih => exact failure_of_step (ih fine)

end Query

/-- Steps that do not fail keep the invariant, with the terms that they add. -/
theorem KeyInvariant.foldl (valid : entity.invalidity? = none) (invariant : KeyInvariant entity terms query)
    {steps : List Query.Step} (typed : ∀ step ∈ steps, step.IsTyped)
    (fine : (steps.foldl Query.step query).draft.failure = none) :
    KeyInvariant entity (terms ++ query.keyTerms steps) (steps.foldl Query.step query) := by
  induction steps generalizing query terms with
  | nil =>
    rw [Query.keyTerms, List.append_nil]
    exact invariant
  | cons first rest ih =>
    rw [List.forall_mem_cons] at typed
    rw [Query.keyTerms, ← List.append_assoc]
    -- A failure never goes away, so the first step did not fail if the last did not.
    exact ih (invariant.step valid typed.1 (Query.failure_of_foldl fine)) typed.2 fine

theorem keyInvariant_new (entity : Entity) (settings : Settings) : KeyInvariant entity [] (.new entity settings) where
  known := rfl
  schema := rfl
  distinct := NameTable.distinct_empty _
  typed := rfl
  conditions := rfl
  belong _ member := absurd member List.not_mem_nil
  pinned noted := by cases noted

namespace Query

variable {settings : Settings} {steps : List Step} {request : QueryRequest}

/-- A query is finished where nothing failed, there is a condition on keys, and the partition key is compared if what
the conditions say is known. -/
theorem build_eq_ok_iff : query.build = .ok request ↔ query.draft.failure = none ∧
    (query.typedKeys = true → query.draft.session.requirePartitionBound = .ok ()) ∧
    ∃ keyCondition, joinConditions query.keyConditions = some keyCondition ∧
      request = {
        indexName := query.indexName
        keyCondition
        filter := joinConditions query.filters
        projection := joinProjection query.projection
        names := query.draft.session.names.bindings
        values := query.draft.session.values } := by
  unfold build Draft.finish
  cases failed : query.draft.failure with
  | some error => simp [bind, Except.bind]
  | none =>
    cases joined : joinConditions query.keyConditions with
    | none => simp [bind, Except.bind, throw, throwThe, MonadExceptOf.throw]
    | some keyCondition =>
      cases typed : query.typedKeys with
      | false => simp [bind, Except.bind, pure, Except.pure, eq_comm]
      | true =>
        cases required : query.draft.session.requirePartitionBound with
        | error error => simp [required, bind, Except.bind]
        | ok => simp [required, bind, Except.bind, pure, Except.pure, eq_comm]

theorem build_eq_ok (built : query.build = .ok request) :
    query.draft.failure = none ∧ request.indexName = query.indexName ∧
      joinConditions query.keyConditions = some request.keyCondition ∧
      request.names = query.draft.session.names.bindings ∧
      (query.typedKeys = true → query.draft.session.requirePartitionBound = .ok ()) := by
  obtain ⟨fine, required, keyCondition, joined, rfl⟩ := build_eq_ok_iff.1 built
  exact ⟨fine, rfl, joined, rfl, required⟩

/-- Each condition on keys of a finished query belongs to the schema that was selected when it was added, and if the
schema that the query names has a partition key, one of the conditions compares that of its own. -/
theorem keyTerms_belong (typed : ∀ step ∈ steps, step.IsTyped)
    (built : (run entity settings steps).build = .ok request) :
    joinConditions (((new entity settings).keyTerms steps).map (·.condition.text)) = some request.keyCondition ∧
      (∀ term ∈ (new entity settings).keyTerms steps, term.Belongs entity request.names) ∧
      ∃ schema, entity.keySchema request.indexName = some schema ∧
        (schema.partition ≠ none → ∃ term ∈ (new entity settings).keyTerms steps, term.Pins entity request.names) := by
  obtain ⟨fine, indexName, joined, names, bound⟩ := build_eq_ok built
  have valid : entity.invalidity? = none := by
    simpa [new, Draft.new] using failure_of_foldl fine
  have invariant : KeyInvariant entity ((new entity settings).keyTerms steps) (run entity settings steps) :=
    (keyInvariant_new entity settings).foldl valid typed fine
  rw [← joined, invariant.conditions, indexName, names]
  refine ⟨rfl, invariant.belong, _, invariant.schema, fun partition => ?_⟩
  obtain noted | missing := requirePartitionBound_eq_ok invariant.known (bound invariant.typed)
  · exact invariant.pinned noted
  · exact absurd missing partition

/-- The condition on keys of a finished query is joined from terms that each belong to the schema that was selected when
it was added, and one of which compares the partition key of its own schema. If all were added under the schema that the
query names, they are conditions on its key. -/
theorem keyCondition_governed (typed : ∀ step ∈ steps, step.IsTyped)
    (built : (run entity settings steps).build = .ok request) :
    joinConditions (((new entity settings).keyTerms steps).map (·.condition.text)) = some request.keyCondition ∧
      (∀ term ∈ (new entity settings).keyTerms steps, term.Belongs entity request.names) ∧
      ∃ schema, entity.keySchema request.indexName = some schema ∧
        (schema.partition ≠ none → ∃ term ∈ (new entity settings).keyTerms steps, term.Pins entity request.names) ∧
        ((∀ term ∈ (new entity settings).keyTerms steps, entity.keySchema term.indexName = some schema) →
          schema.Governs request.names ((new entity settings).keyTerms steps)) := by
  obtain ⟨joined, belong, schema, named, pinned⟩ := keyTerms_belong typed built
  refine ⟨joined, belong, schema, named, pinned, fun settled => ⟨?_, ?_⟩⟩
  · intro term member
    obtain ⟨own, found, stand⟩ := belong term member
    rw [settled term member] at found
    cases found
    exact stand
  · intro attributeName partition
    obtain ⟨term, member, own, compared, found, same, equates⟩ := pinned (by simp [partition])
    rw [settled term member] at found
    cases found
    rw [partition] at same
    cases same
    exact ⟨term, member, equates⟩

/-! An entity whose index has another key than its table, and two queries of it. -/

def orders : Entity :=
  { Entity.empty "orders" with
    properties :=
      [{ Property.plain "CustomerId" "pk" with keyRole := .partition }, .plain "Status" "status",
        .plain "Total" "total"]
    indexes := [⟨"by-status", "status", some "total"⟩] }

/-- The index is selected before the condition on its key is added. -/
def selectedFirst : List Step :=
  [.filter (.typed (.exists (.ofName "CustomerId"))), .index "by-status",
    .key (.typed (.compare .eq (.ofName "Status") (.literal (.string "open")))),
    .key (.typed (.compare .lt (.ofName "Total") (.literal (.string "9"))))]

/-- The index is selected after a condition on the key of the table was added. -/
def selectedLast : List Step :=
  [.key (.typed (.compare .eq (.ofName "CustomerId") (.literal (.string "a")))), .index "by-status"]

theorem keyCondition_governed_of_selectedFirst :
    ∃ request, (run orders .standard selectedFirst).build = .ok request ∧
      request.keyCondition = "(#status = :p0) AND (#total < :p1)" ∧
      ∃ schema, orders.keySchema request.indexName = some schema ∧
        schema.Governs request.names ((new orders .standard).keyTerms selectedFirst) := by
  have finished : ((run orders .standard selectedFirst).build.toOption.map fun request =>
      (request.indexName, request.keyCondition)) = some (some "by-status", "(#status = :p0) AND (#total < :p1)") := by
    decide +kernel
  have terms : ((new orders .standard).keyTerms selectedFirst).map (·.indexName) =
      [some "by-status", some "by-status"] := by
    decide +kernel
  obtain ⟨request, given, parts⟩ := Option.map_eq_some_iff.1 finished
  obtain ⟨indexName, keyCondition⟩ := Prod.mk.inj parts
  have built := toOption_eq_some.1 given
  have typed : ∀ step ∈ selectedFirst, step.IsTyped := by
    simp [selectedFirst, Step.IsTyped, ConditionSource.isTyped]
  obtain ⟨_, _, schema, named, _, governs⟩ := keyCondition_governed typed built
  refine ⟨request, built, keyCondition, schema, named, governs fun term member => ?_⟩
  have own : term.indexName ∈ [some "by-status", some "by-status"] := terms ▸ List.mem_map_of_mem member
  have same : term.indexName = some "by-status" := by simpa using own
  rw [same, ← indexName, named]

theorem keyCondition_not_governed_of_selectedLast :
    (∀ step ∈ selectedLast, step.IsTyped) ∧
      ∃ request, (run orders .standard selectedLast).build = .ok request ∧ request.indexName = some "by-status" ∧
        ∃ schema, orders.keySchema request.indexName = some schema ∧
          ¬ schema.Governs request.names ((new orders .standard).keyTerms selectedLast) := by
  have finished : ((run orders .standard selectedLast).build.toOption.map fun request =>
      (request.indexName, request.names)) = some (some "by-status", [("#pk", "pk")]) := by
    decide +kernel
  have terms : (new orders .standard).keyTerms selectedLast =
      [⟨none, .compare .eq (.path ⟨"#pk", []⟩) (.value ":p0")⟩] := by
    decide +kernel
  obtain ⟨request, given, parts⟩ := Option.map_eq_some_iff.1 finished
  obtain ⟨indexName, names⟩ := Prod.mk.inj parts
  have built := toOption_eq_some.1 given
  refine ⟨by simp [selectedLast, Step.IsTyped, ConditionSource.isTyped], request, built, indexName, ?_⟩
  refine ⟨Index.keySchema ⟨"by-status", "status", some "total"⟩, by rw [indexName]; rfl, ?_⟩
  rintro ⟨stand, _⟩
  rw [terms, names] at stand
  obtain ⟨attributeName, bound, key⟩ := stand _ (List.mem_singleton.2 rfl) "#pk" (by decide)
  obtain rfl : "pk" = attributeName := by simpa [Table.value?] using bound
  revert key
  decide

end Query

end ItemExpr
