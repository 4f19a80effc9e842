import ItemExpr.Proofs.Condition.Conjuncts
import ItemExpr.Proofs.Request.KeyTerms

/-!
# How a query pins the partition key

Where a query selects its index before it has conditions on keys, all of them are conditions on the key that it names.
If that key has a partition key, one of their conjuncts compares it by `=`. The other side is a value, unless a
condition compares the partition key with another property: a query counts that as a comparison of the partition key
too.
-/

namespace ItemExpr

open Session SessionM

variable {entity : Entity} {query : Query}

theorem KeyTerm.Compiled.text {term : KeyTerm} {names : Table String} {values : Table AttributeValue} {tree : Expr}
    (compiled : term.Compiled entity names values tree) :
    term.condition.text = " AND ".intercalate (term.condition.conjuncts.map TokenCondition.text) := by
  obtain ⟨s, t, _, _, _, binds, _⟩ := compiled
  exact TokenCondition.text_eq_conjuncts binds.not_isOr

namespace Query

/-! ## The index of a query -/

def Step.AddsKey : Step → Prop
  | .key _ => True
  | _ => False

def Step.SelectsIndex : Step → Prop
  | .index _ => True
  | _ => False

theorem Step.isTyped_of_not_addsKey {step : Step} (noKey : ¬ step.AddsKey) : step.IsTyped := by
  cases step with
  | key source => exact absurd trivial noKey
  | _ => trivial

theorem indexName_step {step : Step} (settled : ¬ step.SelectsIndex) :
    (query.step step).indexName = query.indexName := by
  cases step with
  | encryptor | geoEncoder | localClock => rfl
  | index name => exact absurd trivial settled
  | key source =>
    simp only [Query.step, addKey]
    split <;> rfl
  | filter source =>
    simp only [Query.step, addFilter]
    split <;> rfl
  | project path =>
    simp only [Query.step, addProjection]
    split <;> rfl

theorem indexName_foldl {steps : List Step} (settled : ∀ step ∈ steps, ¬ step.SelectsIndex) :
    (steps.foldl step query).indexName = query.indexName := by
  induction steps generalizing query with
  | nil => rfl
  | cons first rest ih =>
    rw [List.forall_mem_cons] at settled
    exact (ih settled.2).trans (indexName_step settled.1)

/-- Where no index is selected any more, all terms have the one that is selected. -/
theorem indexName_of_mem_keyTerms {steps : List Step} (settled : ∀ step ∈ steps, ¬ step.SelectsIndex) {term : KeyTerm}
    (member : term ∈ query.keyTerms steps) : term.indexName = query.indexName := by
  obtain ⟨before, condition, after, rfl, added⟩ := mem_keyTerms member
  obtain ⟨c, _, rfl⟩ := Option.map_eq_some_iff.1 added
  exact indexName_foldl fun step member => settled step (List.mem_append_left _ member)

theorem keyTerms_append (first later : List Step) :
    query.keyTerms (first ++ later) = query.keyTerms first ++ (first.foldl step query).keyTerms later := by
  induction first generalizing query with
  | nil => rfl
  | cons step rest ih => simp [keyTerms, ih]

theorem keyTerms_eq_nil {steps : List Step} (noKey : ∀ step ∈ steps, ¬ step.AddsKey) : query.keyTerms steps = [] := by
  refine List.eq_nil_iff_forall_not_mem.2 fun term member => ?_
  obtain ⟨before, condition, after, rfl, _⟩ := mem_keyTerms member
  exact noKey (.key (.typed condition)) (by simp) trivial

/-! ## The conjunct that pins the partition key -/

/-- The conjuncts of the conditions on keys that some steps add, in order. -/
def keyConjuncts (query : Query) (steps : List Step) : List TokenCondition :=
  (query.keyTerms steps).flatMap (·.condition.conjuncts)

variable {settings : Settings} {request : QueryRequest}

/-- What is known of each condition on keys in a finished query. -/
theorem compiled_of_build {steps : List Step} (typed : ∀ step ∈ steps, step.IsTyped)
    (built : (run entity settings steps).build = .ok request) {term : KeyTerm}
    (member : term ∈ (new entity settings).keyTerms steps) :
    ∃ condition, .key (.typed condition) ∈ steps ∧
      term.Compiled entity request.names request.values condition.toExpr := by
  obtain ⟨fine, _, keyCondition, _, rfl⟩ := build_eq_ok_iff.1 built
  have valid : entity.invalidity? = none := by
    simpa [new, Draft.new] using failure_of_foldl fine
  exact compiled_of_mem_keyTerms valid (keyInvariant_new entity settings) typed fine
    ⟨List.prefix_rfl, List.prefix_rfl⟩ member

/-- Where all conditions on keys are added behind the selection of the index, they have the index that the query
names. -/
theorem indexName_of_build {before after : List Step} (keysLater : ∀ step ∈ before, ¬ step.AddsKey)
    (settled : ∀ step ∈ after, ¬ step.SelectsIndex)
    (built : (run entity settings (before ++ after)).build = .ok request) {term : KeyTerm}
    (member : term ∈ (new entity settings).keyTerms (before ++ after)) : term.indexName = request.indexName := by
  obtain ⟨_, _, keyCondition, _, rfl⟩ := build_eq_ok_iff.1 built
  rw [keyTerms_append, keyTerms_eq_nil keysLater, List.nil_append] at member
  rw [indexName_of_mem_keyTerms settled member, run, List.foldl_append, indexName_foldl settled]

/-- A query that selects its index before it has conditions on keys has a conjunct in which the partition key of that
index is compared by `=`. It is compared with a value, or a condition compares it with another property. -/
theorem keyCondition_pins {before after : List Step} (keysLater : ∀ step ∈ before, ¬ step.AddsKey)
    (settled : ∀ step ∈ after, ¬ step.SelectsIndex) (typed : ∀ step ∈ after, step.IsTyped)
    (built : (run entity settings (before ++ after)).build = .ok request) :
    let conjuncts := (new entity settings).keyConjuncts (before ++ after)
    joinConditions (((new entity settings).keyTerms (before ++ after)).map fun term =>
        " AND ".intercalate (term.condition.conjuncts.map TokenCondition.text)) = some request.keyCondition ∧
      ∃ schema, entity.keySchema request.indexName = some schema ∧
        ∀ attributeName, schema.partition = some attributeName →
          (∃ conjunct ∈ conjuncts, conjunct.EquatesWith request.names attributeName (·.IsValue request.values)) ∨
          (∃ condition, .key (.typed condition) ∈ after ∧ condition.toExpr.EquatesProperties entity attributeName) ∧
            ∃ conjunct ∈ conjuncts, conjunct.EquatesWith request.names attributeName
              (·.IsName request.names (schema.hasKey · = true)) := by
  intro conjuncts
  have typedAll : ∀ step ∈ before ++ after, step.IsTyped :=
    List.forall_mem_append.2 ⟨fun step member => Step.isTyped_of_not_addsKey (keysLater step member), typed⟩
  obtain ⟨joined, _, schema, named, pinned⟩ := keyTerms_belong typedAll built
  refine ⟨?_, schema, named, fun attributeName partition => ?_⟩
  · rw [← joined]
    refine congrArg joinConditions (List.map_congr_left fun term member => ?_)
    obtain ⟨condition, _, compiled⟩ := compiled_of_build typedAll built member
    exact compiled.text.symm
  · obtain ⟨term, member, own, compared, found, same, equates⟩ := pinned (by simp [partition])
    -- The schema of the term is the one that the query names.
    have indexName := indexName_of_build keysLater settled built member
    rw [indexName, named] at found
    cases found
    rw [partition] at same
    cases same
    obtain ⟨condition, step, s, t, known, distinct, looked, binds, within⟩ :=
      compiled_of_build typedAll built member
    rw [indexName, named] at looked
    cases looked
    have later : .key (.typed condition) ∈ after :=
      (List.mem_append.1 step).resolve_left fun early => keysLater _ early trivial
    have collected : ∀ conjunct ∈ term.condition.conjuncts, conjunct ∈ conjuncts := fun conjunct part =>
      List.mem_flatMap.2 ⟨term, member, part⟩
    rcases binds.equatesWith known distinct within equates with ⟨conjunct, part, value⟩ | ⟨tree, conjunct, part, key⟩
    · exact .inl ⟨conjunct, collected conjunct part, value⟩
    · exact .inr ⟨⟨condition, later, tree⟩, conjunct, collected conjunct part, key⟩

/-! Two queries of items whose index has the keys of their table the other way round. -/

/-- The index is selected behind a filter, and its keys are compared in one condition. -/
def pinnedByValue : List Step × List Step :=
  ([.filter (.typed (.exists (.ofName "Status"))), .index "inverted"],
    [.key (.typed (.ofExpr (.and (.call "begins_with" [.member ⟨[.field "CustomerId"]⟩, .constant (.string "c")])
      (.compare .eq (.constant (.string "o-1")) (.member ⟨[.field "OrderKey"]⟩)))))])

/-- The partition key of the table is compared with its sort key. -/
def pinnedByName : List Step :=
  [.key (.typed (.compare .eq (.ofName "CustomerId") (.property (.ofName "OrderKey"))))]

theorem keyCondition_pins_of_pinnedByValue :
    ∃ request, (run orderLog .standard (pinnedByValue.1 ++ pinnedByValue.2)).build = .ok request ∧
      request.keyCondition = "begins_with(#pk, :p0) AND :p1 = #sk" ∧
      ∃ conjunct ∈ (new orderLog .standard).keyConjuncts (pinnedByValue.1 ++ pinnedByValue.2),
        conjunct.EquatesWith request.names "sk" (·.IsValue request.values) := by
  have finished : ((run orderLog .standard (pinnedByValue.1 ++ pinnedByValue.2)).build.toOption.map fun request =>
      (request.indexName, request.keyCondition)) = some (some "inverted", "begins_with(#pk, :p0) AND :p1 = #sk") := by
    decide +kernel
  obtain ⟨request, given, parts⟩ := Option.map_eq_some_iff.1 finished
  obtain ⟨indexName, keyCondition⟩ := Prod.mk.inj parts
  have built := toOption_eq_some.1 given
  have keysLater : ∀ step ∈ pinnedByValue.1, ¬ step.AddsKey := by simp [pinnedByValue, Step.AddsKey]
  have settled : ∀ step ∈ pinnedByValue.2, ¬ step.SelectsIndex := by simp [pinnedByValue, Step.SelectsIndex]
  have typed : ∀ step ∈ pinnedByValue.2, step.IsTyped := by
    simp [pinnedByValue, Step.IsTyped, ConditionSource.isTyped]
  obtain ⟨_, schema, named, pins⟩ := keyCondition_pins keysLater settled typed built
  rw [indexName] at named
  cases named
  obtain value | ⟨⟨condition, member, address, path, other, _, _, at_, _⟩, _⟩ := pins "sk" rfl
  · exact ⟨request, built, keyCondition, value⟩
  · -- The tree has one comparison, and a side of it is a literal.
    obtain rfl : condition = _ := by simpa [pinnedByValue] using member
    rcases address with _ | ⟨_ | _ | i, _ | ⟨_ | _ | j, _ | ⟨k, rest⟩⟩⟩ <;>
      simp [Condition.toExpr, Expr.and, Expr.compare, Expr.children] at at_

theorem keyCondition_not_pinned_of_pinnedByName :
    (∀ step ∈ pinnedByName, step.IsTyped ∧ ¬ step.SelectsIndex) ∧
      ∃ request schema, (run orderLog .standard pinnedByName).build = .ok request ∧
        request.keyCondition = "#pk = #sk" ∧ orderLog.keySchema request.indexName = some schema ∧
        schema.partition = some "pk" ∧
        ¬ ∃ conjunct ∈ (new orderLog .standard).keyConjuncts pinnedByName,
          conjunct.EquatesWith request.names "pk" (·.IsValue request.values) := by
  have finished : ((run orderLog .standard pinnedByName).build.toOption.map fun request =>
      (request.indexName, request.keyCondition)) = some (none, "#pk = #sk") := by
    decide +kernel
  have conjuncts : (new orderLog .standard).keyConjuncts pinnedByName =
      [.compare .eq (.path ⟨"#pk", []⟩) (.path ⟨"#sk", []⟩)] := by
    decide +kernel
  obtain ⟨request, given, parts⟩ := Option.map_eq_some_iff.1 finished
  obtain ⟨indexName, keyCondition⟩ := Prod.mk.inj parts
  refine ⟨by simp [pinnedByName, Step.IsTyped, Step.SelectsIndex, ConditionSource.isTyped], request,
    orderLog.tableKeySchema, toOption_eq_some.1 given, keyCondition, by rw [indexName]; rfl, rfl, ?_⟩
  rintro ⟨conjunct, member, token, other, _, ⟨value, rfl, _⟩, sides⟩
  rw [conjuncts, List.mem_singleton] at member
  subst member
  -- Both sides are names.
  rcases sides with same | same <;> simp at same

end Query

end ItemExpr
