import ItemExpr.Proofs.Request.Failure

/-!
# The outcome of a request

A request is refused for what is wrong with its entity, with the error of the first task that fails, or for what it
lacks at the end: a condition, an action, or a comparison of the partition key. Whatever is added behind a task that
fails, the request is refused with the same error (`Recipe.first_failure_decides`).
-/

namespace ItemExpr

open Session SessionM

variable {s t : Session} {entity : Entity} {settings : Settings} {error : Error}

/-! ## What tasks add to the clauses -/

/-- What a part makes a condition of a clause from. -/
def Part.source? (clause : ConditionClause) : Part → Option ConditionSource
  | .condition own source => if own = clause then some source else none
  | _ => none

def sourcesOf (clause : ConditionClause) (tasks : List Task) : List ConditionSource :=
  (tasks.filterMap Task.part?).filterMap (Part.source? clause)

def Part.isAction : Part → Bool
  | .action _ | .template .. | .raw .. => true
  | .condition .. | .project _ => false

theorem Part.clause_of_compile {part : Part} {clause : Clause} {text : String}
    (run : part.compile s = .ok (clause, text) t) :
    (∀ own, clause = .conditions own ↔ (part.source? own).isSome) ∧
      ((∃ own, clause = .actions own) ↔ part.isAction = true) := by
  cases part with
  | condition added source =>
    obtain ⟨_, _, made⟩ := bind_pure_eq_ok.1 run
    cases made
    refine ⟨fun own => ?_, by simp [isAction]⟩
    by_cases same : added = own <;> simp [source?, same]
  | project path =>
    obtain ⟨_, _, made⟩ := bind_pure_eq_ok.1 run
    cases made
    simp [source?, isAction]
  | action action =>
    obtain ⟨_, _, made⟩ := bind_pure_eq_ok.1 run
    cases made
    simp [source?, isAction]
  | template | raw =>
    obtain ⟨_, _, made⟩ := bind_pure_eq_ok.1 run
    cases made
    simp [source?, isAction]

theorem textsOf_eq_nil {clause : Clause} {fragments : List Fragment} :
    textsOf clause fragments = [] ↔ ∀ fragment ∈ fragments, fragment.clause ≠ clause := by
  simp [textsOf]

namespace Performs

variable {tasks : List Task} {fragments : List Fragment}

/-- A clause of conditions is empty if no task adds one to it. -/
theorem textsOf_conditions (performs : Performs s tasks fragments t) (clause : ConditionClause) :
    textsOf (.conditions clause) fragments = [] ↔ sourcesOf clause tasks = [] := by
  rw [textsOf_eq_nil, sourcesOf, ← performs.parts, List.filterMap_map, List.filterMap_eq_nil_iff]
  refine forall₂_congr fun fragment member => ?_
  obtain ⟨_, _, compiles, _⟩ := performs.compiled_between member
  have own := (Part.clause_of_compile compiles).1 clause
  simp [own]

/-- The clauses of actions are empty if no task adds one. -/
theorem textsOf_actions (performs : Performs s tasks fragments t) :
    (∀ clause, textsOf (.actions clause) fragments = []) ↔
      ∀ part ∈ tasks.filterMap Task.part?, part.isAction = false := by
  rw [← performs.parts, List.forall_mem_map]
  simp only [textsOf_eq_nil]
  rw [forall_comm]
  refine forall_congr' fun fragment => ?_
  rw [forall_comm]
  refine forall_congr' fun member => ?_
  obtain ⟨_, _, compiles, _⟩ := performs.compiled_between member
  have own := (Part.clause_of_compile compiles).2
  rw [← Bool.not_eq_true, ← own, not_exists]

end Performs

/-! ## What a request lacks -/

/-- The requirements that recipes have of what their tasks come to, and with which errors they are refused. -/
inductive Recipe.Lacks (after : Session) : Recipe → Error → Prop where
  | keyCondition {steps : List Query.Step} :
    sourcesOf .key (Recipe.query steps).tasks = [] → Lacks after (.query steps) (.unsupported .noKeyCondition)
  | partitionKey {steps : List Query.Step} {attributeName : String} :
    sourcesOf .key (Recipe.query steps).tasks ≠ [] →
    (∀ source ∈ sourcesOf .key (Recipe.query steps).tasks, source.isTyped = true) →
    after.partitionBound = false → after.partitionAttribute? = some attributeName →
      Lacks after (.query steps)
        (.invalidKey (after.nameOfAttribute attributeName) (.partitionNotCompared attributeName))
  | condition {steps : List Guard.Step} :
    sourcesOf .guard (Recipe.guard steps).tasks = [] → Lacks after (.guard steps) (.unsupported .noCondition)
  | action {steps : List Update.Step} :
    (∀ part ∈ (Recipe.update steps).tasks.filterMap Task.part?, part.isAction = false) →
      Lacks after (.update steps) (.unsupported .noAction)

theorem Session.requirePartitionBound_eq_error : s.requirePartitionBound = .error error ↔
    s.partitionBound = false ∧ ∃ attributeName, s.partitionAttribute? = some attributeName ∧
      error = .invalidKey (s.nameOfAttribute attributeName) (.partitionNotCompared attributeName) := by
  unfold requirePartitionBound
  cases s.partitionBound <;> cases s.partitionAttribute? <;> simp [eq_comm]

theorem Draft.finish_bind_eq_error {α : Type} {draft : Draft} {f : Session → Except Error α} :
    (draft.finish >>= f) = .error error ↔
      draft.failure = some error ∨ draft.failure = none ∧ f draft.session = .error error := by
  unfold finish
  cases draft.failure <;> simp [bind, Except.bind]

theorem map_eq_error {ε α β : Type} {f : α → β} {x : Except ε α} {e : ε} : x.map f = .error e ↔ x = .error e := by
  cases x <;> simp [Except.map]

theorem joinConditions_eq_none {texts : List String} : joinConditions texts = none ↔ texts = [] := by
  rcases texts with _ | ⟨first, _ | _⟩ <;> simp [joinConditions]

theorem Query.build_eq_error {query : Query} : query.build = .error error ↔
    query.draft.failure = some error ∨ query.draft.failure = none ∧
      (query.keyConditions = [] ∧ error = .unsupported .noKeyCondition ∨
        query.keyConditions ≠ [] ∧ query.typedKeys = true ∧
          query.draft.session.requirePartitionBound = .error error) := by
  unfold build
  rw [Draft.finish_bind_eq_error]
  refine or_congr_right (and_congr_right fun _ => ?_)
  cases joined : joinConditions query.keyConditions with
  | none => simpa [joinConditions_eq_none.1 joined, throw, throwThe, MonadExceptOf.throw] using eq_comm
  | some keyCondition =>
    have filled : query.keyConditions ≠ [] := fun empty => by simp [empty] at joined
    cases query.typedKeys with
    | false => simp [filled, pure, Except.pure]
    | true => cases query.draft.session.requirePartitionBound <;> simp [filled, bind, Except.bind, pure, Except.pure]

theorem Scan.build_eq_error {scan : Scan} : scan.build = .error error ↔ scan.draft.failure = some error := by
  unfold build
  rw [Draft.finish_bind_eq_error]
  simp [pure, Except.pure]

theorem Guard.build_eq_error {guard : Guard} : guard.build = .error error ↔
    guard.draft.failure = some error ∨ guard.draft.failure = none ∧
      guard.conditions = [] ∧ error = .unsupported .noCondition := by
  unfold build
  rw [Draft.finish_bind_eq_error]
  refine or_congr_right (and_congr_right fun _ => ?_)
  rw [← joinConditions_eq_none]
  cases joinConditions guard.conditions <;> simp [throw, throwThe, MonadExceptOf.throw, pure, Except.pure, eq_comm]

theorem Update.build_eq_error {update : Update} : update.build = .error error ↔
    update.draft.failure = some error ∨ update.draft.failure = none ∧
      update.fragments = [] ∧ error = .unsupported .noAction := by
  unfold build
  rw [Draft.finish_bind_eq_error]
  refine or_congr_right (and_congr_right fun _ => ?_)
  cases update.fragments <;>
    simp [throw, throwThe, MonadExceptOf.throw, pure, Except.pure, bind, Except.bind, eq_comm]

/-- An update has an action if one of its clauses has a text. -/
theorem Update.textsIn_eq_nil {fragments : List (UpdateClause × String)} :
    (∀ clause, textsIn fragments clause = []) ↔ fragments = [] := by
  constructor
  · intro empty
    cases fragments with
    | nil => rfl
    | cons first rest =>
      have none := empty first.1
      simp [textsIn] at none
  · rintro rfl _
    rfl

/-- The keys of a query are typed as long as all conditions on them are trees. -/
theorem Query.typedKeys_step {query : Query} {step : Step} (fine : (query.step step).draft.failure = none) :
    (query.step step).typedKeys = (query.typedKeys && (sourcesOf .key [task step]).all (·.isTyped)) := by
  cases step with
  | encryptor | geoEncoder | localClock => simp [Query.step, sourcesOf, task, Task.part?]
  | index name =>
    simp only [Query.step, useIndex]
    rcases query.draft.run .unrestricted (SessionM.useIndex name) with ⟨_ | _, draft⟩ <;>
      simp [sourcesOf, task, Task.part?]
  | key source =>
    obtain ⟨text, t, _, _, ran⟩ | ⟨next, ran, failed⟩ := query.draft.run_cases .keysOnly source.compile
    · simp [Query.step, addKey, ran, sourcesOf, task, Task.part?, Part.source?]
    · simp only [Query.step, addKey, ran] at fine
      exact absurd fine failed
  | filter source =>
    simp only [Query.step, addFilter]
    rcases query.draft.run .unrestricted source.compile with ⟨_ | _, draft⟩ <;>
      simp [sourcesOf, task, Task.part?, Part.source?]
  | project path =>
    simp only [Query.step, addProjection]
    rcases query.draft.run .unrestricted (SessionM.projection path.toPath) with ⟨_ | _, draft⟩ <;>
      simp [sourcesOf, task, Task.part?, Part.source?]

theorem sourcesOf_append (clause : ConditionClause) (first second : List Task) :
    sourcesOf clause (first ++ second) = sourcesOf clause first ++ sourcesOf clause second := by
  simp [sourcesOf]

theorem Query.typedKeys_foldl {query : Query} {steps : List Step}
    (fine : (steps.foldl step query).draft.failure = none) :
    (steps.foldl step query).typedKeys =
      (query.typedKeys && (sourcesOf .key (steps.map task)).all (·.isTyped)) := by
  induction steps generalizing query with
  | nil => simp [sourcesOf]
  | cons first rest ih =>
    rw [List.foldl_cons, ih fine, typedKeys_step (failure_of_foldl fine), List.map_cons, Bool.and_assoc,
      ← List.all_append, ← sourcesOf_append, List.singleton_append]

/-! ## Outcomes -/

namespace Recipe

/-- How far a request has come when all steps of a recipe are done. -/
def progress (entity : Entity) (settings : Settings) : Recipe → Progress
  | .query steps => (Query.run entity settings steps).progress
  | .scan steps => (Scan.run entity settings steps).progress
  | .guard steps => (Guard.run entity settings steps).progress
  | .update steps => (Update.run entity settings steps).progress

variable {recipe : Recipe}

theorem reflects (recipe : Recipe) (entity : Entity) (settings : Settings) :
    (recipe.progress entity settings).Reflects entity settings recipe.tasks := by
  have fresh := Progress.reflects_new entity settings
  cases recipe with
  | query steps =>
    rw [← Query.progress_new] at fresh
    exact fresh.foldl Query.progress_step (fun step => by cases step <;> rfl) steps
  | scan steps =>
    rw [← Scan.progress_new] at fresh
    exact fresh.foldl Scan.progress_step (fun step => by cases step <;> rfl) steps
  | guard steps =>
    rw [← Guard.progress_new] at fresh
    exact fresh.foldl Guard.progress_step (fun step => by cases step <;> rfl) steps
  | update steps =>
    rw [← Update.progress_new] at fresh
    have start : (Update.new entity settings).Reflects entity settings [] := ⟨fresh, fun _ path => Iff.rfl⟩
    exact (start.foldl steps).progress

theorem lacks_query {steps : List Query.Step} : (Recipe.query steps).Lacks s error ↔
    sourcesOf .key (Recipe.query steps).tasks = [] ∧ error = .unsupported .noKeyCondition ∨
      ¬ sourcesOf .key (Recipe.query steps).tasks = [] ∧
        (∀ source ∈ sourcesOf .key (Recipe.query steps).tasks, source.isTyped = true) ∧
          s.requirePartitionBound = .error error := by
  rw [requirePartitionBound_eq_error]
  constructor
  · rintro (empty | ⟨filled, typed, unbound, key⟩)
    · exact .inl ⟨empty, rfl⟩
    · exact .inr ⟨filled, typed, unbound, _, key, rfl⟩
  · rintro (⟨empty, rfl⟩ | ⟨filled, typed, unbound, _, key, rfl⟩)
    · exact .keyCondition empty
    · exact .partitionKey filled typed unbound key

theorem not_lacks_scan {steps : List Scan.Step} : ¬ (Recipe.scan steps).Lacks s error := by
  intro lacks
  cases lacks

theorem lacks_guard {steps : List Guard.Step} : (Recipe.guard steps).Lacks s error ↔
    sourcesOf .guard (Recipe.guard steps).tasks = [] ∧ error = .unsupported .noCondition :=
  ⟨fun | .condition empty => ⟨empty, rfl⟩, fun ⟨empty, same⟩ => same ▸ .condition empty⟩

theorem lacks_update {steps : List Update.Step} : (Recipe.update steps).Lacks s error ↔
    (∀ part ∈ (Recipe.update steps).tasks.filterMap Task.part?, part.isAction = false) ∧
      error = .unsupported .noAction :=
  ⟨fun | .action idle => ⟨idle, rfl⟩, fun ⟨idle, same⟩ => same ▸ .action idle⟩

/-- A recipe is refused with the error that is left by its steps, or for what it lacks if there is none. -/
theorem build_eq_error : recipe.build entity settings = .error error ↔
    (recipe.progress entity settings).draft.failure = some error ∨
      (recipe.progress entity settings).draft.failure = none ∧
        recipe.Lacks (recipe.progress entity settings).draft.session error := by
  have done := (recipe.reflects entity settings).done
  cases recipe with
  | query steps =>
    simp only [build, map_eq_error, progress, Query.build_eq_error, lacks_query]
    refine or_congr_right (and_congr_right fun fine => ?_)
    obtain ⟨_, fragments, completes, texts⟩ := done fine
    have empty : (Query.run entity settings steps).keyConditions = [] ↔
        sourcesOf .key (Recipe.query steps).tasks = [] := by
      rw [← completes.performs.textsOf_conditions, ← congrFun texts]
      rfl
    have typed : (Query.run entity settings steps).typedKeys = true ↔
        ∀ source ∈ sourcesOf .key (Recipe.query steps).tasks, source.isTyped = true := by
      rw [Query.run, Query.typedKeys_foldl fine, Query.new, Bool.true_and, List.all_eq_true]
      rfl
    rw [ne_eq, empty, typed]
    rfl
  | scan steps =>
    simp only [build, map_eq_error, progress, Scan.build_eq_error]
    exact (or_iff_left fun missing => not_lacks_scan missing.2).symm
  | guard steps =>
    simp only [build, map_eq_error, progress, Guard.build_eq_error, lacks_guard]
    refine or_congr_right (and_congr_right fun fine => ?_)
    obtain ⟨_, fragments, completes, texts⟩ := done fine
    rw [← completes.performs.textsOf_conditions, ← congrFun texts]
    rfl
  | update steps =>
    simp only [build, map_eq_error, progress, Update.build_eq_error, lacks_update]
    refine or_congr_right (and_congr_right fun fine => ?_)
    obtain ⟨_, fragments, completes, texts⟩ := done fine
    have shown : ∀ clause, Update.textsIn (Update.run entity settings steps).fragments clause =
        textsOf (.actions clause) fragments := fun clause => congrFun texts (.actions clause)
    rw [← completes.performs.textsOf_actions, ← Update.textsIn_eq_nil]
    simp only [shown]

/-- Where no task fails, all of them are done, and a request is refused for nothing but what it lacks. -/
theorem build_of_fine (fine : (recipe.progress entity settings).draft.failure = none) :
    ∃ fragments after, Completes (.new settings (some entity)) recipe.tasks fragments after ∧
      ∀ error, recipe.build entity settings = .error error ↔ recipe.Lacks after error := by
  obtain ⟨_, fragments, completes, _⟩ := (recipe.reflects entity settings).done fine
  exact ⟨fragments, _, completes, fun error => by simp [build_eq_error, fine]⟩

theorem build_of_failsFirst (valid : entity.invalidity? = none)
    (fails : FailsFirst (.new settings (some entity)) recipe.tasks error) :
    recipe.build entity settings = .error error := by
  have reflects := recipe.reflects entity settings
  refine build_eq_error.2 (.inl ?_)
  cases failure : (recipe.progress entity settings).draft.failure with
  | none =>
    obtain ⟨_, _, completes, _⟩ := reflects.done failure
    exact absurd fails completes.not_failsFirst
  | some other => rw [(reflects.failed other valid failure).unique fails]

end Recipe

/-- What a recipe comes to is decided by what is wrong with its entity, or else by the first of its tasks that fails,
whatever follows. If there is neither, it is refused for nothing but what it lacks. -/
theorem Recipe.first_failure_decides {recipe longer : Recipe} (continues : recipe.Continues longer) (entity : Entity)
    (settings : Settings) :
    (∀ fault, entity.validate = .error fault → longer.build entity settings = .error (.invalidEntity fault)) ∧
      (entity.validate = .ok () →
        (∀ error, FailsFirst (.new settings (some entity)) recipe.tasks error →
          recipe.build entity settings = .error error ∧ longer.build entity settings = .error error) ∧
        ((∀ error, ¬ FailsFirst (.new settings (some entity)) longer.tasks error) →
          ∃ fragments after, Completes (.new settings (some entity)) longer.tasks fragments after ∧
            ∀ error, longer.build entity settings = .error error ↔ longer.Lacks after error)) := by
  have reflects := longer.reflects entity settings
  refine ⟨fun fault wrong => ?_, fun valid => ⟨fun error fails => ?_, fun fine => ?_⟩⟩
  · exact build_eq_error.2 (.inl (reflects.invalid fault (Entity.validate_eq_error.1 wrong)))
  · have valid := Entity.validate_eq_ok.1 valid
    obtain ⟨more, longerTasks⟩ := continues.tasks
    exact ⟨build_of_failsFirst valid fails, build_of_failsFirst valid (longerTasks ▸ fails.append more)⟩
  · refine build_of_fine ?_
    cases failure : (longer.progress entity settings).draft.failure with
    | none => rfl
    | some error => exact absurd (reflects.failed error (Entity.validate_eq_ok.1 valid) failure) (fine error)

/-! An action that changes the same place as one before, with a registration and an action on a key behind it. -/

def renewTwice : List Action :=
  [.set (.ofName "Status") (.literal (.string "new")), .remove (.ofName "Status")]

def takeOver : List Update.Step :=
  [.encryptor fun _ _ plaintext => .ok plaintext, .actions [.set (.ofName "CustomerId") (.literal (.string "a"))]]

theorem first_failure_decides_of_renewTwice :
    (Recipe.update [.actions renewTwice]).build Query.orders .standard =
        .error (.unsupported (.repeatedTarget ⟨[.field "Status"]⟩)) ∧
      (Recipe.update ([.actions renewTwice] ++ takeOver)).build Query.orders .standard =
        .error (.unsupported (.repeatedTarget ⟨[.field "Status"]⟩)) := by
  let renew : Part := .action (.set (.ofName "Status") (.literal (.string "new")))
  let start : Session := .new .standard (some Query.orders)
  have answer : renew.compile.answer? { start with mode := renew.mode } =
      some (.actions .set, "#status = :p0") := by
    decide +kernel
  obtain ⟨after, compiles⟩ := SessionM.answer?_eq_some.1 answer
  have done : Completes start [.part renew] _ _ := ⟨.part compiles .nil, List.nodup_singleton _⟩
  have repeats (session : Session) :
      Task.Fails session (targetsOf [.part renew]) (.part (.action (.remove (.ofName "Status"))))
        (.unsupported (.repeatedTarget ⟨[.field "Status"]⟩)) :=
    .repeated (List.mem_singleton.2 rfl)
  have fails : FailsFirst start (Recipe.update [.actions renewTwice]).tasks
      (.unsupported (.repeatedTarget ⟨[.field "Status"]⟩)) :=
    ⟨[.part renew], _, [], _, _, rfl, done, repeats _⟩
  have continues : (Recipe.update [.actions renewTwice]).Continues (.update ([.actions renewTwice] ++ takeOver)) :=
    .update
  obtain ⟨_, decides⟩ := Recipe.first_failure_decides continues Query.orders .standard
  exact (decides rfl).1 _ fails

end ItemExpr
