import ItemExpr.Proofs.Condition.Joining
import ItemExpr.Proofs.Condition.KeyTests
import ItemExpr.Proofs.Request.Legibility

/-!
# Conditions one by one and in one

To add some conditions to a clause one after the other is the same as to add their conjunction: the same error, or the
same tables and two texts that say the same (`Recipe.conditions_joined`).
-/

namespace ItemExpr

open Session SessionM

variable {s t : Session}

/-! ## Compiling a conjunction -/

/-- A conjunction compiles its conditions one after the other. -/
theorem SessionM.condition_foldl (first : Expr) (rest : List Expr) :
    condition (rest.foldl .and first) = do
      let c ← condition first
      let cs ← rest.mapM condition
      return cs.foldl .and c := by
  induction rest generalizing first with
  | nil => simp
  | cons second rest ih =>
    rw [List.foldl_cons, ih, Expr.and, condition, List.mapM_cons]
    simp only [bind_assoc, pure_bind, List.foldl_cons]

theorem condition_foldl_of_ok {first : Expr} {rest : List Expr} {cs : List TokenCondition}
    (run : (first :: rest).mapM condition s = .ok cs t) :
    ∃ c later, cs = c :: later ∧ condition (rest.foldl .and first) s = .ok (later.foldl .and c) t := by
  rw [List.mapM_cons] at run
  obtain ⟨c, u, compiles, run⟩ := bind_eq_ok.1 run
  obtain ⟨later, compilesRest, rfl⟩ := bind_pure_eq_ok.1 run
  refine ⟨c, later, rfl, ?_⟩
  rw [condition_foldl]
  exact bind_eq_ok.2 ⟨c, u, compiles, bind_pure_eq_ok.2 ⟨later, compilesRest, rfl⟩⟩

theorem condition_foldl_of_error {first : Expr} {rest : List Expr} {error : Error}
    (run : (first :: rest).mapM condition s = .error error t) :
    condition (rest.foldl .and first) s = .error error t := by
  rw [List.mapM_cons, bind_eq_error] at run
  rw [condition_foldl, bind_eq_error]
  simpa only [bind_pure_eq_error] using run

theorem bindsEach_of_mapM {exprs : List Expr} {cs : List TokenCondition} (run : exprs.mapM condition s = .ok cs t) :
    BindsEach s exprs cs t := by
  induction exprs generalizing s cs with
  | nil =>
    obtain ⟨rfl, rfl⟩ := pure_eq_ok.1 run
    exact .nil
  | cons first rest ih =>
    rw [List.mapM_cons] at run
    obtain ⟨c, u, compiles, run⟩ := bind_eq_ok.1 run
    obtain ⟨later, compilesRest, rfl⟩ := bind_pure_eq_ok.1 run
    exact .cons (condition_binds compiles) (ih compilesRest)

/-- Conditions that are compiled say what their trees say. -/
theorem formula?_of_mapM {first : Expr} {rest : List Expr} {c : TokenCondition} {later : List TokenCondition}
    {mode : Mode} (distinct : s.names.Distinct)
    (run : (first :: rest).mapM condition { s with mode } = .ok (c :: later) t) :
    ∃ f fs, s.knowledge.formula? first = some f ∧ rest.mapM s.knowledge.formula? = some fs ∧
      c.formula? t.names.bindings t.values = some f ∧
      later.mapM (TokenCondition.formula? t.names.bindings t.values) = some fs := by
  cases bindsEach_of_mapM run with
  | cons binds each =>
    obtain ⟨f, source, means⟩ := binds.formula? distinct (each.grows.within ⟨List.prefix_rfl, List.prefix_rfl⟩)
    obtain ⟨fs, sources, meanLater⟩ := each.formula? (binds.grows.distinct distinct) ⟨List.prefix_rfl, List.prefix_rfl⟩
    rw [binds.grows.knowledge] at sources
    -- What is known does not depend on the mode.
    exact ⟨f, fs, source, sources, means, meanLater⟩

theorem Condition.toExpr_foldl (first : Condition) (rest : List Condition) :
    (rest.foldl .and first).toExpr = (rest.map toExpr).foldl .and first.toExpr := by
  induction rest generalizing first with
  | nil => rfl
  | cons second rest ih => exact ih (.and first second)

/-! ## Adding conditions to a clause -/

/-- The mode in which the conditions of a clause are compiled. -/
def ConditionClause.mode : ConditionClause → Mode
  | .key => .keysOnly
  | .filter | .guard => .unrestricted

/-- Adds a condition to a clause. -/
def Task.adding (clause : ConditionClause) (condition : Condition) : Task :=
  .part (.condition clause (.typed condition))

namespace Progress

variable {progress : Progress} {clause : ConditionClause}

/-- Some texts behind the others of a clause, compiled up to a session. -/
def addTexts (progress : Progress) (session : Session) (clause : Clause) (texts : List String) : Progress where
  draft := { progress.draft with session := { session with mode := progress.draft.session.mode } }
  texts other := progress.texts other ++ if other = clause then texts else []

theorem perform_adding_of_ok {condition : Condition} {c : TokenCondition} (working : progress.draft.failure = none)
    (run : SessionM.condition condition.toExpr { progress.draft.session with mode := clause.mode } = .ok c t) :
    progress.perform (.adding clause condition) = progress.addTexts t (.conditions clause) [c.text] := by
  have mode : (Part.condition clause (.typed condition)).mode = clause.mode := by cases clause <;> rfl
  have compiles : (Part.condition clause (.typed condition)).compile
      { progress.draft.session with mode := clause.mode } = .ok (.conditions clause, c.text) t :=
    bind_pure_eq_ok.2 ⟨c.text, bind_pure_eq_ok.2 ⟨c, run, rfl⟩, rfl⟩
  simp only [Task.adding, perform, mode, Draft.run_of_ok working compiles]
  rfl

theorem perform_adding_of_error {condition : Condition} {error : Error} (working : progress.draft.failure = none)
    (run : SessionM.condition condition.toExpr { progress.draft.session with mode := clause.mode } = .error error t) :
    (progress.perform (.adding clause condition)).draft.failure = some error := by
  have mode : (Part.condition clause (.typed condition)).mode = clause.mode := by cases clause <;> rfl
  have compiles : (Part.condition clause (.typed condition)).compile
      { progress.draft.session with mode := clause.mode } = .error error t :=
    bind_pure_eq_error.2 (bind_pure_eq_error.2 run)
  simp only [Task.adding, perform, mode, Draft.run_of_error working compiles]

theorem failure_foldl {error : Error} (failed : progress.draft.failure = some error) (tasks : List Task) :
    (tasks.foldl perform progress).draft.failure = some error := by
  induction tasks generalizing progress with
  | nil => exact failed
  | cons task rest ih => exact ih (failure_perform failed task)

/-- Conditions that are compiled one after the other add their texts. -/
theorem foldl_adding_of_ok {conditions : List Condition} {cs : List TokenCondition}
    (working : progress.draft.failure = none)
    (run : (conditions.map Condition.toExpr).mapM condition { progress.draft.session with mode := clause.mode } =
      .ok cs t) :
    (conditions.map (Task.adding clause)).foldl perform progress =
      progress.addTexts t (.conditions clause) (cs.map TokenCondition.text) := by
  induction conditions generalizing progress cs with
  | nil =>
    obtain ⟨rfl, rfl⟩ := pure_eq_ok.1 run
    simp [addTexts]
  | cons first rest ih =>
    rw [List.map_cons, List.mapM_cons] at run
    obtain ⟨c, u, compiles, run⟩ := bind_eq_ok.1 run
    obtain ⟨later, compilesRest, rfl⟩ := bind_pure_eq_ok.1 run
    -- The mode is taken back behind a condition, and set again for the next one.
    have mode : u = { u with mode := clause.mode } := by rw [(condition_binds compiles).grows.frame]
    rw [mode] at compilesRest
    rw [List.map_cons, List.foldl_cons, perform_adding_of_ok working compiles]
    have further : (rest.map (Task.adding clause)).foldl perform (progress.addTexts u (.conditions clause) [c.text]) =
        (progress.addTexts u (.conditions clause) [c.text]).addTexts t (.conditions clause)
          (later.map TokenCondition.text) := ih working compilesRest
    refine further.trans (Progress.ext rfl (funext fun other => ?_))
    by_cases same : other = .conditions clause <;> simp [addTexts, same]

/-- The first condition that fails leaves its error. -/
theorem foldl_adding_of_error {conditions : List Condition} {error : Error} (working : progress.draft.failure = none)
    (run : (conditions.map Condition.toExpr).mapM condition { progress.draft.session with mode := clause.mode } =
      .error error t) :
    ((conditions.map (Task.adding clause)).foldl perform progress).draft.failure = some error := by
  induction conditions generalizing progress with
  | nil => cases run
  | cons first rest ih =>
    rw [List.map_cons, List.mapM_cons] at run
    rw [List.map_cons, List.foldl_cons]
    obtain fails | ⟨c, u, compiles, run⟩ := bind_eq_error.1 run
    · exact failure_foldl (perform_adding_of_error working fails) _
    · have failsLater := bind_pure_eq_error.1 run
      have mode : u = { u with mode := clause.mode } := by rw [(condition_binds compiles).grows.frame]
      rw [mode] at failsLater
      rw [perform_adding_of_ok working compiles]
      exact ih working failsLater

end Progress

theorem BindsEach.filled {exprs : List Expr} {cs : List TokenCondition} (each : BindsEach s exprs cs t) :
    ∀ c ∈ cs, c.Filled := by
  induction each with
  | nil => exact nofun
  | cons first _ ih => exact List.forall_mem_cons.2 ⟨first.filled, ih⟩

theorem BindsEach.readable {exprs : List Expr} {cs : List TokenCondition} (each : BindsEach s exprs cs t)
    (legible : s.Legible) : ∀ c ∈ cs, c.Readable := by
  induction each with
  | nil => exact nofun
  | cons first _ ih =>
    exact List.forall_mem_cons.2 ⟨first.readable_of_legible legible, ih (first.grows.legible legible)⟩

/-! ## Recipes that add conditions -/

/-- A recipe adds some conditions to a clause, behind the steps of another one. -/
inductive Recipe.Adds (conditions : List Condition) : ConditionClause → Recipe → Recipe → Prop where
  | key {steps : List Query.Step} :
    Adds conditions .key (.query steps) (.query (steps ++ conditions.map fun condition => .key (.typed condition)))
  | queryFilter {steps : List Query.Step} :
    Adds conditions .filter (.query steps)
      (.query (steps ++ conditions.map fun condition => .filter (.typed condition)))
  | scanFilter {steps : List Scan.Step} :
    Adds conditions .filter (.scan steps) (.scan (steps ++ conditions.map fun condition => .filter (.typed condition)))
  | guard {steps : List Guard.Step} :
    Adds conditions .guard (.guard steps)
      (.guard (steps ++ conditions.map fun condition => .condition (.typed condition)))
  | updateGuard {steps : List Update.Step} :
    Adds conditions .guard (.update steps)
      (.update (steps ++ conditions.map fun condition => .condition (.typed condition)))

namespace Recipe.Adds

variable {conditions others : List Condition} {clause : ConditionClause} {prior next other : Recipe}
  {entity : Entity} {settings : Settings} {error : Error}

theorem tasks (adds : prior.Adds conditions clause next) :
    next.tasks = prior.tasks ++ conditions.map (Task.adding clause) := by
  cases adds with
  | key | queryFilter | scanFilter | guard =>
    simp only [Recipe.tasks, List.map_append, List.map_map]
    rfl
  | updateGuard =>
    simp only [Recipe.tasks, List.flatMap_append, List.flatMap_map]
    exact congrArg _ List.map_eq_flatMap.symm

theorem progress (adds : prior.Adds conditions clause next) :
    next.progress entity settings =
      (conditions.map (Task.adding clause)).foldl Progress.perform (prior.progress entity settings) := by
  cases adds with
  | key =>
    simp only [Recipe.progress, Query.run, List.foldl_append, List.foldl_map]
    exact (List.foldl_hom Query.progress fun query _ => (query.progress_addKey _).symm).symm
  | queryFilter =>
    simp only [Recipe.progress, Query.run, List.foldl_append, List.foldl_map]
    exact (List.foldl_hom Query.progress fun query _ => (query.progress_addFilter _).symm).symm
  | scanFilter =>
    simp only [Recipe.progress, Scan.run, List.foldl_append, List.foldl_map]
    exact (List.foldl_hom Scan.progress fun scan _ => (scan.progress_addFilter _).symm).symm
  | guard =>
    simp only [Recipe.progress, Guard.run, List.foldl_append, List.foldl_map]
    exact (List.foldl_hom Guard.progress fun guard _ => (guard.progress_addCondition _).symm).symm
  | updateGuard =>
    simp only [Recipe.progress, Update.run, List.foldl_append, List.foldl_map]
    exact (List.foldl_hom Update.progress fun update _ => (update.progress_addCondition _).symm).symm

theorem sourcesOf_eq (adds : prior.Adds conditions clause next) (own : ConditionClause) :
    sourcesOf own next.tasks =
      sourcesOf own prior.tasks ++ if clause = own then conditions.map .typed else [] := by
  rw [adds.tasks, sourcesOf_append]
  congr 1
  by_cases same : clause = own <;>
    simp [sourcesOf, Task.adding, Task.part?, Part.source?, List.filterMap_map, Function.comp_def, same]

theorem actions_iff (adds : prior.Adds conditions clause next) :
    (∀ part ∈ next.tasks.filterMap Task.part?, part.isAction = false) ↔
      ∀ part ∈ prior.tasks.filterMap Task.part?, part.isAction = false := by
  rw [adds.tasks, List.filterMap_append, List.forall_mem_append, and_iff_left]
  simp [Task.adding, Task.part?, Part.isAction, List.filterMap_map, Function.comp_def]

/-- What a request lacks is the same for any conditions that are added to a clause, as long as there are some. -/
theorem lacks_iff (adds : prior.Adds conditions clause next) (addsOthers : prior.Adds others clause other)
    (some : conditions ≠ []) (someOthers : others ≠ []) : next.Lacks s error ↔ other.Lacks s error := by
  have empty (own : ConditionClause) : sourcesOf own next.tasks = [] ↔ sourcesOf own other.tasks = [] := by
    rw [adds.sourcesOf_eq, addsOthers.sourcesOf_eq]
    by_cases same : clause = own <;> simp [same, some, someOthers]
  have typed (own : ConditionClause) : (∀ source ∈ sourcesOf own next.tasks, source.isTyped = true) ↔
      ∀ source ∈ sourcesOf own other.tasks, source.isTyped = true := by
    rw [adds.sourcesOf_eq, addsOthers.sourcesOf_eq]
    by_cases same : clause = own <;> simp [same, ConditionSource.isTyped, or_imp, forall_and]
  have actions := adds.actions_iff.trans addsOthers.actions_iff.symm
  cases adds <;> cases addsOthers
  · rw [lacks_query, lacks_query, empty, typed]
  · rw [lacks_query, lacks_query, empty, typed]
  · exact iff_of_false not_lacks_scan not_lacks_scan
  · rw [lacks_guard, lacks_guard, empty]
  · rw [lacks_update, lacks_update, actions]

end Recipe.Adds

/-! ## The texts of clauses -/

/-- The text of a clause of conditions in a finished request. -/
def QueryRequest.conditionText? (request : QueryRequest) : ConditionClause → Option String
  | .key => some request.keyCondition
  | .filter => request.filter
  | .guard => none

def ScanRequest.conditionText? (request : ScanRequest) : ConditionClause → Option String
  | .filter => request.filter
  | .key | .guard => none

def BoundExpression.conditionText? (bound : BoundExpression) : ConditionClause → Option String
  | .guard => some bound.expression
  | .key | .filter => none

def UpdateRequest.conditionText? (request : UpdateRequest) : ConditionClause → Option String
  | .guard => request.condition
  | .key | .filter => none

namespace Recipe

/-- The text of a clause of conditions in the request that a recipe comes to. -/
def conditionText? (entity : Entity) (settings : Settings) (clause : ConditionClause) : Recipe → Option String
  | .query steps => (Query.run entity settings steps).build.toOption.bind (·.conditionText? clause)
  | .scan steps => (Scan.run entity settings steps).build.toOption.bind (·.conditionText? clause)
  | .guard steps => (Guard.run entity settings steps).build.toOption.bind (·.conditionText? clause)
  | .update steps => (Update.run entity settings steps).build.toOption.bind (·.conditionText? clause)

variable {recipe : Recipe} {entity : Entity} {settings : Settings} {compiled : Compiled}

/-- A finished request has the texts and the tables of its progress. -/
theorem of_build (built : recipe.build entity settings = .ok compiled) :
    compiled = (recipe.progress entity settings).compiled ∧
      ∀ clause, recipe.conditionText? entity settings clause =
        joinConditions ((recipe.progress entity settings).texts (.conditions clause)) := by
  cases recipe with
  | query steps =>
    obtain ⟨request, finished, rfl⟩ := map_eq_ok.1 built
    refine ⟨(Query.compiled_eq_of_build finished).2, fun clause => ?_⟩
    simp only [conditionText?, toOption_eq_some.2 finished, Option.bind_some]
    obtain ⟨_, _, keyCondition, joined, rfl⟩ := Query.build_eq_ok_iff.1 finished
    cases clause with
    | key => exact joined.symm
    | filter | guard => rfl
  | scan steps =>
    obtain ⟨request, finished, rfl⟩ := map_eq_ok.1 built
    refine ⟨(Scan.compiled_eq_of_build finished).2, fun clause => ?_⟩
    simp only [conditionText?, toOption_eq_some.2 finished, Option.bind_some]
    obtain ⟨_, made⟩ := Draft.finish_bind_eq_ok.1 finished
    cases made
    cases clause <;> rfl
  | guard steps =>
    obtain ⟨bound, finished, rfl⟩ := map_eq_ok.1 built
    refine ⟨(Guard.compiled_eq_of_build finished).2, fun clause => ?_⟩
    simp only [conditionText?, toOption_eq_some.2 finished, Option.bind_some]
    obtain ⟨_, made⟩ := Draft.finish_bind_eq_ok.1 finished
    split at made
    · rename_i expression joined
      cases made
      cases clause with
      | guard => exact joined.symm
      | key | filter => rfl
    · cases made
  | update steps =>
    obtain ⟨request, finished, rfl⟩ := map_eq_ok.1 built
    refine ⟨(Update.compiled_eq_of_build finished).2, fun clause => ?_⟩
    simp only [conditionText?, toOption_eq_some.2 finished, Option.bind_some]
    obtain ⟨_, made⟩ := Draft.finish_bind_eq_ok.1 finished
    cases idle : (Update.run entity settings steps).fragments.isEmpty with
    | true =>
      rw [idle] at made
      cases made
    | false =>
      rw [idle] at made
      cases made
      cases clause <;> rfl

/-- A finished request has a text for a clause, and what is read from it says a formula in the tables of the request. If
`plain`, it is read by the lexemes that it is cut into. -/
def ConditionSays (recipe : Recipe) (entity : Entity) (settings : Settings) (clause : ConditionClause)
    (compiled : Compiled) (plain : Prop) (formula : Formula Atom) : Prop :=
  ∃ text cut, recipe.conditionText? entity settings clause = some text ∧
    Expresses compiled.names compiled.values cut text formula ∧ (plain → lexemes text.toList = cut)

end Recipe

section Joined

variable {conditions : List Condition} {clause : ConditionClause} {prior next : Recipe} {entity : Entity}
  {settings : Settings} {compiled : Compiled}

/-- Recipes that add some conditions to a clause and leave the same draft are refused with the same error, or come to
requests with the same tables. -/
theorem Recipe.Adds.build_alike {others : List Condition} {other : Recipe} (adds : prior.Adds conditions clause next)
    (addsOthers : prior.Adds others clause other) (some : conditions ≠ []) (someOthers : others ≠ [])
    (same : (other.progress entity settings).draft = (next.progress entity settings).draft) :
    (∃ error, next.build entity settings = .error error ∧ other.build entity settings = .error error) ∨
    ∃ one another, next.build entity settings = .ok one ∧ other.build entity settings = .ok another ∧
      one.names = another.names ∧ one.values = another.values := by
  have refused (error : Error) :
      next.build entity settings = .error error ↔ other.build entity settings = .error error := by
    rw [Recipe.build_eq_error, Recipe.build_eq_error, same, adds.lacks_iff addsOthers some someOthers]
  cases built : next.build entity settings with
  | error error => exact .inl ⟨error, rfl, (refused error).1 built⟩
  | ok one =>
    cases builtOther : other.build entity settings with
    | error error => cases built.symm.trans ((refused error).2 builtOther)
    | ok another =>
      refine .inr ⟨one, another, rfl, rfl, ?_⟩
      obtain ⟨rfl, _⟩ := Recipe.of_build built
      obtain ⟨rfl, _⟩ := Recipe.of_build builtOther
      simp only [Progress.compiled, same, and_self]

/-- The text of a clause to which some conditions are added says their conjunction, if it was empty before. -/
theorem Recipe.Adds.conditionSays (adds : prior.Adds conditions clause next)
    (working : (prior.progress entity settings).draft.failure = none)
    (empty : (prior.progress entity settings).texts (.conditions clause) = [])
    {c : TokenCondition} {later : List TokenCondition}
    (run : (conditions.map Condition.toExpr).mapM condition
      { (prior.progress entity settings).draft.session with mode := clause.mode } = .ok (c :: later) t)
    (built : next.build entity settings = .ok compiled) {f : Formula Atom} {fs : List (Formula Atom)}
    (means : c.formula? t.names.bindings t.values = some f)
    (meanLater : later.mapM (TokenCondition.formula? t.names.bindings t.values) = some fs) :
    next.ConditionSays entity settings clause compiled (prior.Legible settings) (f.all fs) := by
  obtain ⟨rfl, texts⟩ := Recipe.of_build built
  have each := bindsEach_of_mapM run
  have ends := adds.progress.trans (Progress.foldl_adding_of_ok working run)
  obtain ⟨text, cut, joined, expresses, plain⟩ := TokenCondition.expresses_joined each.filled means meanLater
  refine ⟨text, cut, ?_, ?_, fun legible => ?_⟩
  · rw [texts, ends, ← joined]
    simp [Progress.addTexts, empty]
  · rw [ends]
    exact expresses
  · have before := legible.session working
    exact plain (each.readable ⟨before.names, before.valueSigil⟩)

end Joined

/-! An alternative and a negation behind a condition on the key: parentheses stand around both where they are joined,
and around the alternative alone where they are one condition. -/

def openOrdersByStatus : List Query.Step :=
  [.index "by-status", .key (.typed (.compare .eq (.ofName "Status") (.literal (.string "open"))))]

def cheapOrOwned : Condition :=
  .or (.compare .lt (.ofName "Total") (.literal (.string "9"))) (.exists (.ofName "CustomerId"))

def notNew : Condition :=
  .not (.compare .eq (.ofName "Status") (.literal (.string "new")))

end ItemExpr
