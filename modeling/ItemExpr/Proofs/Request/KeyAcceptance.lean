import ItemExpr.Proofs.Condition.KeyTests
import ItemExpr.Proofs.Request.PartitionPin

/-!
# Queries that are accepted

A query that tests its partition key for equality with a literal, alone or together with a test of its sort key, can be
finished, however the two tests are given and whatever was added before. It says what the tests say.
-/

namespace ItemExpr

open Session SessionM

/-! ## Legal tests -/

variable {entity : Entity} {schema : KeySchema} {selected : Option String} {session : Session} {part : KeyPart}

/-- A test whose name resolves to its property, and whose literals are stored as it says. -/
structure KeyPart.Resolved (part : KeyPart) (entity : Entity) (session : Session) : Prop where
  found : entity.property? part.root = some part.property
  encodes : ∀ value ∈ part.test.literals,
    session.encode value (some part.property) none = .ok (part.stored value)

/-- A test of the partition key of a schema for equality. -/
structure KeyPart.TestsPartition (part : KeyPart) (entity : Entity) (schema : KeySchema) (session : Session) : Prop
    extends part.Resolved entity session where
  partition : schema.partition = some part.property.attributeName
  equality : part.test.isEquality = true

/-- A test of the sort key of an index, or of the table without one, that a query may use. -/
structure KeyPart.TestsSort (part : KeyPart) (entity : Entity) (selected : Option String) (session : Session) : Prop
    extends part.Resolved entity session where
  sort : entity.sortAttribute? selected = some part.property.attributeName
  contiguous : part.test.isContiguous = true

theorem KeyPart.TestsPartition.allowed (tests : part.TestsPartition entity (session.keySchema entity) session)
    (known : session.entity = some entity) (valid : entity.invalidity? = none) :
    part.Allowed { session with mode := .keysOnly } ∧
      ({ session with mode := .keysOnly } : Session).isPartitionKey part.property = true := by
  have found := property_of_property? known tests.found
  have partition := isPartitionKey_of_partition known valid found tests.partition
  refine ⟨⟨rfl, found, ?_, ?_, fun _ => tests.equality, tests.encodes⟩, partition⟩
  · exact isKey_of_isPartitionKey partition
  · exact KeyTest.isContiguous_of_isEquality tests.equality

theorem KeyPart.TestsSort.allowed (tests : part.TestsSort entity selected session)
    (known : session.entity = some entity) (valid : entity.invalidity? = none)
    (declared : entity.keySchema selected = some (session.keySchema entity))
    (differs : (session.keySchema entity).partition ≠ some part.property.attributeName) :
    part.Allowed { session with mode := .keysOnly } := by
  have found := property_of_property? known tests.found
  have key := Entity.hasKey_of_sortAttribute? declared tests.sort
  refine ⟨rfl, found, isKey_of_hasKey known valid found key, tests.contiguous, fun partition => ?_, tests.encodes⟩
  exact absurd (partition_of_isPartitionKey known valid found partition) differs

/-! ## Steps that succeed -/

namespace Query

variable {query : Query} {settings : Settings}

theorem addKey_of_binds {condition : Condition} {c : TokenCondition} {t : Session}
    (fine : query.draft.failure = none)
    (binds : BindsCondition { query.draft.session with mode := .keysOnly } condition.toExpr c t) :
    query.addKey (.typed condition) = { query with
      draft := { query.draft with session := { t with mode := query.draft.session.mode } }
      keyConditions := query.keyConditions ++ [c.text] } := by
  have compiles : (ConditionSource.typed condition).compile { query.draft.session with mode := .keysOnly } =
      .ok c.text t := bind_pure_eq_ok.2 ⟨c, binds.run, rfl⟩
  simp [addKey, Draft.run_of_ok fine compiles, ConditionSource.isTyped]

/-- Conditions on keys that are compiled one after the other are added one after the other. -/
theorem foldl_of_bindsEach {conditions : List Condition} {bound : List TokenCondition} {t : Session}
    (fine : query.draft.failure = none)
    (each : BindsEach { query.draft.session with mode := .keysOnly } (conditions.map Condition.toExpr) bound t) :
    (conditions.map fun condition => Step.key (.typed condition)).foldl step query = { query with
      draft := { query.draft with session := { t with mode := query.draft.session.mode } }
      keyConditions := query.keyConditions ++ bound.map TokenCondition.text } := by
  induction conditions generalizing query bound with
  | nil =>
    cases each
    simp
  | cons condition rest ih =>
    cases each with
    | @cons _ u _ _ _ c later binds each =>
      rw [List.map_cons, List.foldl_cons, step, addKey_of_binds fine binds]
      -- The mode is taken back behind a step, and set again for the next one.
      have mode : ({ u with mode := .keysOnly } : Session) = u := by rw [binds.grows.frame]
      rw [← mode] at each
      refine Eq.trans (ih fine each) ?_
      simp

theorem useIndex_of_declared {name : String} {index : Index} (fine : query.draft.failure = none)
    (known : query.draft.session.entity = some entity) (declared : entity.index? name = some index) :
    (query.useIndex name).draft.failure = none ∧ (query.useIndex name).indexName = some name := by
  have selects : SessionM.useIndex name { query.draft.session with mode := .unrestricted } =
      .ok () { query.draft.session with mode := .unrestricted, index := some index } := by
    refine query_bind_eq_ok.2 ⟨index, ?_, modify_eq_ok.2 rfl⟩
    simp [findIndex, known, declared]
  simp [useIndex, Draft.run_of_ok fine selects, fine]

theorem joinConditions_of_ne_nil {texts : List String} (filled : texts ≠ []) :
    ∃ text, joinConditions texts = some text :=
  match texts, filled with
  | [single], _ => ⟨single, rfl⟩
  | _ :: _ :: _, _ => ⟨_, rfl⟩

/-- A query whose only conditions on keys have noted a comparison of the partition key can be finished. -/
theorem build_of_bindsEach (invariant : KeyInvariant entity [] query) (fine : query.draft.failure = none)
    {conditions : List Condition} {bound : List TokenCondition} {t : Session}
    (each : BindsEach { query.draft.session with mode := .keysOnly } (conditions.map Condition.toExpr) bound t)
    (filled : bound ≠ []) (noted : t.partitionBound = true) :
    ∃ request, ((conditions.map fun condition => Step.key (.typed condition)).foldl step query).build = .ok request ∧
      request.indexName = query.indexName ∧ request.names = t.names.bindings ∧ request.values = t.values ∧
      joinConditions (bound.map TokenCondition.text) = some request.keyCondition := by
  obtain ⟨keyCondition, joined⟩ := joinConditions_of_ne_nil (List.map_eq_nil_iff.not.2 filled)
  rw [foldl_of_bindsEach fine each]
  refine ⟨_, build_eq_ok_iff.2 ⟨fine, fun _ => ?_, keyCondition, ?_, rfl⟩, rfl, rfl, rfl, joined⟩
  · simp [requirePartitionBound, noted]
  · simpa [invariant.conditions] using joined

/-- What a query looks like in which nothing failed and that has no conditions on keys yet. -/
theorem keyInvariant_of_fine {before : List Step} (noKeys : ∀ step ∈ before, ¬ step.AddsKey)
    (fine : (run entity settings before).draft.failure = none) :
    entity.invalidity? = none ∧ KeyInvariant entity [] (run entity settings before) := by
  have valid : entity.invalidity? = none := by
    simpa [new, Draft.new] using failure_of_foldl fine
  have invariant := (keyInvariant_new entity settings).foldl valid
    (fun step member => Step.isTyped_of_not_addsKey (noKeys step member)) fine
  rw [keyTerms_eq_nil noKeys, List.append_nil] at invariant
  exact ⟨valid, invariant⟩

theorem failure_new (valid : entity.validate = .ok ()) : (new entity settings).draft.failure = none := by
  unfold Entity.validate at valid
  split at valid
  · cases valid
  · rename_i none
    simp [new, Draft.new, none]

end Query

/-! ## Legal tests are accepted -/

/-- A legal way to test the keys of a query: its partition key for equality, alone or together with one test of its sort
key, in conditions that say just this. -/
structure KeyTests (entity : Entity) (query : Query) where
  schema : KeySchema
  active : entity.keySchema query.indexName = some schema
  pin : KeyPart
  testsPartition : pin.TestsPartition entity schema query.draft.session
  range : Option KeyPart
  testsSort : ∀ part ∈ range, part.TestsSort entity query.indexName query.draft.session
  differ : ∀ part ∈ range, part.property.attributeName ≠ pin.property.attributeName
  order : KeyOrder
  conditions : List Condition
  given : conditions.map Condition.toExpr = order.trees pin range

namespace KeyTests

variable {query : Query}

def steps (tests : KeyTests entity query) : List Query.Step :=
  tests.conditions.map fun condition => .key (.typed condition)

/-- What the conditions say, one formula for each. -/
def formulas (tests : KeyTests entity query) : List (Formula Atom) :=
  tests.order.formulas tests.pin tests.range

theorem bindsEach (tests : KeyTests entity query) (valid : entity.invalidity? = none)
    (invariant : KeyInvariant entity [] query) :
    ∃ bound t,
      BindsEach { query.draft.session with mode := .keysOnly } (tests.conditions.map Condition.toExpr) bound t ∧
      t.partitionBound = true ∧ bound ≠ [] ∧
      bound.mapM (TokenCondition.formula? t.names.bindings t.values) = some tests.formulas := by
  obtain ⟨schema, active, pin, testsPartition, range, testsSort, differ, order, conditions, given⟩ := tests
  obtain rfl : schema = query.draft.session.keySchema entity := Option.some.inj (active.symm.trans invariant.schema)
  obtain ⟨allowed, partition⟩ := testsPartition.allowed invariant.known valid
  have allowedRange : ∀ part ∈ range, part.Allowed { query.draft.session with mode := .keysOnly } := by
    intro part member
    refine (testsSort part member).allowed invariant.known valid active ?_
    rw [testsPartition.partition]
    exact fun same => differ part member (Option.some.inj same).symm
  obtain ⟨bound, t, each, noted⟩ := order.bindsEach_trees allowed partition allowedRange
  obtain ⟨formulas, sources, bounds⟩ := each.formula? invariant.distinct ⟨List.prefix_rfl, List.prefix_rfl⟩
  obtain rfl : order.formulas pin range = formulas :=
    Option.some.inj ((order.formula?_trees allowed allowedRange).symm.trans sources)
  have filled : bound ≠ [] := by
    rintro rfl
    have nothing : order.formulas pin range = [] := by simpa using bounds.symm
    exact order.arrange_ne_nil _ _ _ nothing
  rw [← given] at each
  exact ⟨bound, t, each, noted, filled, bounds⟩

end KeyTests

namespace Query

variable {settings : Settings}

/-- A query for a valid entity begins without a failure, and any declared index can be selected. After any steps that
add no condition on keys and do not fail it takes each legal way to test its keys, can be finished, and says just what
the tests say. -/
theorem keyCondition_accepted (valid : entity.validate = .ok ()) :
    (new entity settings).draft.failure = none ∧
    ∀ before : List Step, (∀ step ∈ before, ¬ step.AddsKey) → (run entity settings before).draft.failure = none →
      (∀ name index, entity.index? name = some index →
        (run entity settings (before ++ [.index name])).draft.failure = none ∧
        (run entity settings (before ++ [.index name])).indexName = some name) ∧
      ∀ tests : KeyTests entity (run entity settings before), ∃ (request : QueryRequest) (bound : List TokenCondition),
        (run entity settings (before ++ tests.steps)).build = .ok request ∧
        request.indexName = (run entity settings before).indexName ∧
        joinConditions (bound.map TokenCondition.text) = some request.keyCondition ∧
        bound.mapM (TokenCondition.formula? request.names request.values) = some tests.formulas := by
  refine ⟨failure_new valid, ?_⟩
  intro before noKeys fine
  obtain ⟨valid, invariant⟩ := keyInvariant_of_fine noKeys fine
  have append : ∀ steps, run entity settings (before ++ steps) = steps.foldl step (run entity settings before) :=
    fun steps => List.foldl_append
  refine ⟨?_, ?_⟩
  · intro name index declared
    rw [append]
    exact useIndex_of_declared fine invariant.known declared
  · intro tests
    obtain ⟨bound, t, each, noted, filled, bounds⟩ := tests.bindsEach valid invariant
    obtain ⟨request, built, indexName, names, values, joined⟩ := build_of_bindsEach invariant fine each filled noted
    refine ⟨request, bound, ?_, indexName, joined, ?_⟩
    · rw [append]
      exact built
    · rw [names, values]
      exact bounds

/-! A query of the index that has the keys of its table the other way round. -/

/-- The index is selected between a filter and a projection. -/
def selectedBetween : List Step :=
  [.filter (.typed (.exists (.ofName "Status"))), .index "inverted", .project (.ofName "Status")]

theorem indexName_selectedBetween : (run orderLog .standard selectedBetween).indexName = some "inverted" := by
  decide +kernel

def plainStored : Value → AttributeValue
  | .string text => .string text
  | _ => .null true

/-- The sort key of the index is tested first, and the literal that its partition key equals stands on the left. -/
def flippedTests : KeyTests orderLog (run orderLog .standard selectedBetween) where
  schema := Index.keySchema ⟨"inverted", "sk", some "pk"⟩
  active := by rw [indexName_selectedBetween]; rfl
  pin := ⟨"OrderKey", { Property.plain "OrderKey" "sk" with keyRole := .sort }, .compareFlipped .eq (.string "o-1"),
    plainStored⟩
  testsPartition := ⟨⟨rfl, by simp [KeyTest.literals]; rfl⟩, rfl, rfl⟩
  range := some ⟨"CustomerId", { Property.plain "CustomerId" "pk" with keyRole := .partition },
    .between (.string "a") (.string "c"), plainStored⟩
  testsSort part member := by
    cases member
    exact ⟨⟨rfl, by simp [KeyTest.literals]; exact ⟨rfl, rfl⟩⟩, by rw [indexName_selectedBetween]; rfl, rfl⟩
  differ part member := by
    cases member
    decide
  order := ⟨true, false⟩
  conditions := [.between (.ofName "CustomerId") (.literal (.string "a")) (.literal (.string "c")),
    .ofExpr (.compare .eq (.constant (.string "o-1")) (.member ⟨[.field "OrderKey"]⟩))]
  given := rfl

theorem keyCondition_accepted_of_flippedTests :
    orderLog.validate = .ok () ∧ ∃ (request : QueryRequest) (bound : List TokenCondition),
      (run orderLog .standard (selectedBetween ++ flippedTests.steps)).build = .ok request ∧
      request.indexName = some "inverted" ∧
      request.keyCondition = "(#pk BETWEEN :p0 AND :p1) AND (:p2 = #sk)" ∧
      bound.mapM (TokenCondition.formula? request.names request.values) =
        some [.atom (.between (.place ⟨"pk", []⟩) (.value (.string "a")) (.value (.string "c"))),
          .atom (.compare .eq (.value (.string "o-1")) (.place ⟨"sk", []⟩))] := by
  have finished : ((run orderLog .standard (selectedBetween ++ flippedTests.steps)).build.toOption.map
      (·.keyCondition)) = some "(#pk BETWEEN :p0 AND :p1) AND (:p2 = #sk)" := by
    decide +kernel
  have valid : orderLog.validate = .ok () := by decide
  have noKeys : ∀ step ∈ selectedBetween, ¬ step.AddsKey := by simp [selectedBetween, Step.AddsKey]
  have fine : (run orderLog .standard selectedBetween).draft.failure = none := by decide +kernel
  obtain ⟨request, bound, built, indexName, joined, formulas⟩ :=
    ((keyCondition_accepted valid).2 selectedBetween noKeys fine).2 flippedTests
  have text : request.keyCondition = "(#pk BETWEEN :p0 AND :p1) AND (:p2 = #sk)" := by
    simpa [built, Except.toOption] using finished
  exact ⟨valid, request, bound, built, indexName.trans indexName_selectedBetween, text, formulas⟩

end Query

end ItemExpr
