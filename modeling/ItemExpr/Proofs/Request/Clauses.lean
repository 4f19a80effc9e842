import Mathlib.Data.List.Perm.Basic
import ItemExpr.Proofs.Request.Outcome

/-!
# The clauses of an update

Steps of three kinds add actions to an update, and each action belongs to a clause. A finished update has every action
once, in the group of its clause. What becomes of the steps is decided by their tasks alone
(`Update.build_eq_of_tasks`), and the tasks of a call are those of its actions, so it does not matter how actions are
divided among calls. `Update.actions_grouped` is both.
-/

namespace ItemExpr

open Session

variable {s t u : Session} {entity : Entity} {settings : Settings}

/-! ## What each step adds -/

namespace Update

/-- The parts that a step adds: one for each action, and one for a template, a raw text or a condition. -/
def Step.parts : Step → List Part
  | .encryptor _ | .geoEncoder _ | .localClock _ => []
  | .actions typed => typed.map .action
  | .template clause text args => [.template clause text args]
  | .raw clause text => [.raw clause text]
  | .condition source => [.condition .guard source]

theorem Step.parts_eq (step : Step) : (tasks step).filterMap Task.part? = step.parts := by
  cases step with
  | actions typed =>
    rw [tasks, List.filterMap_map]
    exact congrFun (List.filterMap_eq_map (f := Part.action)) typed
  | encryptor | geoEncoder | localClock | template | raw | condition => rfl

/-- Some steps are taken in turn, and each of them adds some fragments. -/
inductive Adds : Session → List Step → List (List Fragment) → Session → Prop where
  | nil {s : Session} : Adds s [] [] s
  | step {s u t : Session} {step : Step} {fragments : List Fragment} {steps : List Step}
      {added : List (List Fragment)} :
    Performs s (tasks step) fragments u → Adds u steps added t → Adds s (step :: steps) (fragments :: added) t

theorem Adds.parts {steps : List Step} {added : List (List Fragment)} (adds : Adds s steps added t) :
    added.map (List.map Fragment.part) = steps.map Step.parts := by
  induction adds with
  | nil => rfl
  | step performs _ ih => rw [List.map_cons, List.map_cons, performs.parts, Step.parts_eq, ih]

/-- Tasks of some steps that are done in turn are done step by step. -/
theorem adds_of_performs {steps : List Step} {fragments : List Fragment}
    (performs : Performs s (steps.flatMap tasks) fragments t) :
    ∃ added, Adds s steps added t ∧ added.flatten = fragments := by
  induction steps generalizing s fragments with
  | nil =>
    cases performs
    exact ⟨[], .nil, rfl⟩
  | cons step rest ih =>
    obtain ⟨first, later, u, rfl, now, further⟩ := performs.split
    obtain ⟨added, adds, rfl⟩ := ih further
    exact ⟨first :: added, .step now adds, rfl⟩

end Update

/-! ## Groups -/

/-- The clause and the text of a fragment that is an action. -/
def Fragment.action? (fragment : Fragment) : Option (UpdateClause × String) :=
  match fragment.clause with
  | .actions clause => some (clause, fragment.text)
  | _ => none

/-- A clause with the texts of its actions. -/
structure ActionGroup where
  clause : UpdateClause
  texts : List String

namespace ActionGroup

def text (group : ActionGroup) : String :=
  group.clause.keyword ++ " " ++ ", ".intercalate group.texts

def actions (group : ActionGroup) : List (UpdateClause × String) :=
  group.texts.map (group.clause, ·)

/-- The clauses that have a text, in their order. -/
def ofTexts (texts : UpdateClause → List String) : List ActionGroup :=
  (UpdateClause.all.map fun clause => ⟨clause, texts clause⟩).filter fun group => !group.texts.isEmpty

theorem mem_ofTexts {texts : UpdateClause → List String} {group : ActionGroup} :
    group ∈ ofTexts texts ↔ group.texts = texts group.clause ∧ group.texts ≠ [] := by
  have listed : group.clause ∈ UpdateClause.all := by cases group.clause <;> decide
  simp only [ofTexts, List.mem_filter, List.mem_map, Bool.not_eq_true', List.isEmpty_eq_false_iff]
  constructor
  · rintro ⟨⟨_, _, rfl⟩, filled⟩
    exact ⟨rfl, filled⟩
  · rintro ⟨own, filled⟩
    exact ⟨⟨group.clause, listed, own ▸ rfl⟩, filled⟩

theorem map_text_ofTexts (texts : UpdateClause → List String) :
    (ofTexts texts).map text = UpdateClause.all.filterMap fun clause => actionsText? clause (texts clause) := by
  unfold ofTexts
  induction UpdateClause.all with
  | nil => rfl
  | cons clause rest ih =>
    rw [List.map_cons]
    cases own : texts clause with
    | nil => rw [List.filter_cons_of_neg (by simp), ih, List.filterMap_cons_none (by rw [own]; rfl)]
    | cons first others =>
      rw [List.filter_cons_of_pos (by simp), List.map_cons, ih, List.filterMap_cons_some (by rw [own]; rfl)]
      rfl

theorem flatMap_actions_ofTexts (texts : UpdateClause → List String) :
    (ofTexts texts).flatMap actions = UpdateClause.all.flatMap fun clause => (texts clause).map (clause, ·) := by
  unfold ofTexts
  induction UpdateClause.all with
  | nil => rfl
  | cons clause rest ih =>
    rw [List.map_cons, List.flatMap_cons, ← ih]
    cases own : texts clause with
    | nil => rw [List.filter_cons_of_neg (by simp), List.map_nil, List.nil_append]
    | cons first others =>
      rw [List.filter_cons_of_pos (by simp), List.flatMap_cons]
      rfl

end ActionGroup

/-- The actions among some fragments are divided into groups: one for each clause that has any, with the texts of this
clause and no others, in the order of the fragments. -/
structure GroupedByClause (fragments : List Fragment) (groups : List ActionGroup) : Prop where
  order : (groups.map (·.clause)).Sublist [.set, .add, .remove, .delete]
  present : ∀ clause, clause ∈ groups.map (·.clause) ↔ ∃ fragment ∈ fragments, fragment.clause = .actions clause
  texts : ∀ group ∈ groups, group.texts = textsOf (.actions group.clause) fragments
  once : (groups.flatMap (·.actions)).Perm (fragments.filterMap Fragment.action?)

/-- To sort items by their clauses moves them, and does nothing else. -/
theorem UpdateClause.sorted_perm {α : Type} (clause : α → UpdateClause) (items : List α) :
    (sorted clause items).Perm items := by
  induction items with
  | nil => exact .refl _
  | cons first rest ih =>
    -- The first item is sorted in at one of the clauses.
    have once : sorted clause [first] = [first] := by
      cases own : clause first <;> simp [sorted, all, own]
    have parted (c : UpdateClause) : (first :: rest).filter (clause · == c) =
        [first].filter (clause · == c) ++ rest.filter (clause · == c) := List.filter_append [first] rest
    unfold sorted at once ih ⊢
    simp only [parted]
    refine (List.flatMap_append_perm ..).symm.trans ?_
    rw [once]
    exact ih.cons first

theorem filter_action? (fragments : List Fragment) (clause : UpdateClause) :
    (fragments.filterMap Fragment.action?).filter (·.1 == clause) =
      (textsOf (.actions clause) fragments).map (clause, ·) := by
  induction fragments with
  | nil => rfl
  | cons fragment rest ih =>
    rw [← List.singleton_append, textsOf_append, List.filterMap_append, List.filter_append, List.map_append, ih]
    refine congrArg (· ++ _) ?_
    cases own : fragment.clause with
    | conditions | projection => simp [textsOf, Fragment.action?, own]
    | actions other => by_cases same : other = clause <;> simp [textsOf, Fragment.action?, own, same]

theorem groupedByClause_ofTexts (fragments : List Fragment) :
    GroupedByClause fragments (ActionGroup.ofTexts fun clause => textsOf (.actions clause) fragments) where
  order := by
    have kept := (List.filter_sublist (p := fun group : ActionGroup => !group.texts.isEmpty)
      (l := UpdateClause.all.map fun clause => ⟨clause, textsOf (.actions clause) fragments⟩)).map (·.clause)
    rwa [List.map_map] at kept
  present clause := by
    rw [List.mem_map]
    constructor
    · rintro ⟨group, member, rfl⟩
      obtain ⟨own, filled⟩ := ActionGroup.mem_ofTexts.1 member
      rw [own, Ne, textsOf_eq_nil] at filled
      simpa using filled
    · rintro ⟨fragment, member, own⟩
      refine ⟨⟨clause, textsOf (.actions clause) fragments⟩, ActionGroup.mem_ofTexts.2 ⟨rfl, ?_⟩, rfl⟩
      exact fun empty => textsOf_eq_nil.1 empty fragment member own
  texts group member := (ActionGroup.mem_ofTexts.1 member).1
  once := by
    rw [ActionGroup.flatMap_actions_ofTexts]
    simp only [← filter_action?]
    exact UpdateClause.sorted_perm Prod.fst _

/-! ## Steps with the same tasks -/

/-- Two ways to the same tasks come equally far, or leave the same failure. -/
theorem Progress.Reflects.agree {first second : Progress} {tasks : List Task}
    (reflects : first.Reflects entity settings tasks) (also : second.Reflects entity settings tasks) :
    first = second ∨ ∃ error, first.draft.failure = some error ∧ second.draft.failure = some error := by
  cases valid : entity.invalidity? with
  | some fault => exact .inr ⟨_, reflects.invalid fault valid, also.invalid fault valid⟩
  | none =>
    cases failure : first.draft.failure with
    | none =>
      -- Tasks that are all done come to one session and to one list of fragments, and none of them is a first failure.
      obtain ⟨_, fragments, completes, texts⟩ := reflects.done failure
      cases otherwise : second.draft.failure with
      | some error => exact absurd (also.failed error valid otherwise) completes.not_failsFirst
      | none =>
        obtain ⟨_, others, completesOthers, textsOthers⟩ := also.done otherwise
        obtain ⟨rfl, session⟩ := completes.performs.functional completesOthers.performs
        have draft : first.draft = second.draft := by
          rw [Draft.mk.injEq]
          exact ⟨session, failure.trans otherwise.symm⟩
        exact .inl (Progress.ext draft (texts.trans textsOthers.symm))
    | some error =>
      have fails := reflects.failed error valid failure
      cases otherwise : second.draft.failure with
      | none =>
        obtain ⟨_, _, completes, _⟩ := also.done otherwise
        exact absurd fails completes.not_failsFirst
      | some other =>
        obtain rfl := fails.unique (also.failed other valid otherwise)
        exact .inr ⟨error, rfl, rfl⟩

namespace Update

/-- An update is built from its progress alone. -/
theorem build_congr {first second : Update} (same : first.progress = second.progress) :
    first.build = second.build := by
  have draft : first.draft = second.draft := congrArg Progress.draft same
  have texts (clause : Clause) : first.progress.texts clause = second.progress.texts clause := by rw [same]
  have conditions : first.conditions = second.conditions := texts (.conditions .guard)
  have actions : textsIn first.fragments = textsIn second.fragments := funext fun clause => texts (.actions clause)
  have clauses : clauseText? first.fragments = clauseText? second.fragments := by
    funext clause
    rw [clauseText?_eq, clauseText?_eq, actions]
  have empty : first.fragments.isEmpty = second.fragments.isEmpty := by
    rw [Bool.eq_iff_iff, List.isEmpty_iff, List.isEmpty_iff, ← textsIn_eq_nil, ← textsIn_eq_nil, actions]
  simp only [build, draft, conditions, clauses, empty]

theorem build_of_failure {update : Update} {error : Error} (failed : update.draft.failure = some error) :
    update.build = .error error :=
  build_eq_error.2 (.inl failed)

/-- How tasks are divided among steps has no part in what the steps come to. -/
theorem build_eq_of_tasks (entity : Entity) (settings : Settings) {steps others : List Step}
    (same : steps.flatMap tasks = others.flatMap tasks) :
    (run entity settings steps).build = (run entity settings others).build := by
  have reflects : (run entity settings steps).progress.Reflects entity settings (steps.flatMap tasks) :=
    (Recipe.update steps).reflects entity settings
  have also : (run entity settings others).progress.Reflects entity settings (others.flatMap tasks) :=
    (Recipe.update others).reflects entity settings
  obtain equal | ⟨error, failed, failedOther⟩ := reflects.agree (same ▸ also)
  · exact build_congr equal
  · rw [build_of_failure failed, build_of_failure failedOther]

/-- The tasks of some calls are those of one call with all their actions. -/
theorem tasks_flatten (calls : List (List Action)) :
    (calls.map Step.actions).flatMap tasks = tasks (.actions calls.flatten) := by
  rw [List.flatMap_map, tasks, List.map_flatten, List.flatMap_def]
  rfl

/-! ## Finished updates -/

theorem update_of_build {update : Update} {request : UpdateRequest} (built : update.build = .ok request) :
    update.draft.failure = none ∧
      request.update = " ".intercalate ((ActionGroup.ofTexts fun clause =>
        update.progress.texts (.actions clause)).map ActionGroup.text) := by
  obtain ⟨fine, _, rfl⟩ := build_eq_ok_iff.1 built
  have clauses : clauseText? update.fragments = fun clause =>
      actionsText? clause (update.progress.texts (.actions clause)) := funext (clauseText?_eq update.fragments)
  exact ⟨fine, by rw [ActionGroup.map_text_ofTexts, clauses]⟩

/-- A finished update has what its steps have added: each action once, in the group of its clause and in the order of
the steps, and the groups in the order of their clauses. How actions are divided among consecutive calls has no part in
what an update comes to, be it a request or an error. -/
theorem actions_grouped (entity : Entity) (settings : Settings) :
    (∀ (steps : List Step) (request : UpdateRequest), (run entity settings steps).build = .ok request →
      ∃ added after groups, Adds (.new settings (some entity)) steps added after ∧
        added.map (List.map Fragment.part) = steps.map Step.parts ∧
        GroupedByClause added.flatten groups ∧
        request.update = " ".intercalate (groups.map ActionGroup.text)) ∧
    ∀ (prior : List Step) (calls : List (List Action)) (later : List Step),
      (run entity settings (prior ++ calls.map .actions ++ later)).build =
        (run entity settings (prior ++ [.actions calls.flatten] ++ later)).build := by
  constructor
  · intro steps request built
    obtain ⟨fine, shown⟩ := update_of_build built
    obtain ⟨_, fragments, performs, texts⟩ := (does_run entity settings steps).performs fine
    obtain ⟨added, adds, rfl⟩ := adds_of_performs performs
    rw [texts] at shown
    exact ⟨added, _, _, adds, adds.parts, groupedByClause_ofTexts _, shown⟩
  · intro prior calls later
    refine build_eq_of_tasks entity settings ?_
    simp only [List.flatMap_append, tasks_flatten, List.flatMap_singleton]

/-! Actions of three clauses from three kinds of steps, and two calls that change the same place. -/

def shipOrder : List Step :=
  [.actions [.remove (.ofName "Total"), .set (.ofName "Status") (.literal (.string "shipped"))],
    .template .add "visits {0}" [.number (.uint 1)], .condition (.typed (.exists (.ofName "Status"))),
    .raw .set ⟨"note = #status", [], []⟩]

theorem actions_grouped_of_shipOrder :
    (∃ request, (run Query.orders .standard shipOrder).build = .ok request ∧
      request.update = "SET #status = :p0, note = #status ADD visits :p1 REMOVE #total" ∧
      ∃ added after groups, Adds (.new .standard (some Query.orders)) shipOrder added after ∧
        added.map (List.map Fragment.part) = shipOrder.map Step.parts ∧
        GroupedByClause added.flatten groups ∧
        request.update = " ".intercalate (groups.map ActionGroup.text)) ∧
    (run Query.orders .standard (renewTwice.map fun action => .actions [action])).build =
      .error (.unsupported (.repeatedTarget ⟨[.field "Status"]⟩)) := by
  obtain ⟨grouped, divided⟩ := actions_grouped Query.orders .standard
  constructor
  · have finished : ((run Query.orders .standard shipOrder).build.toOption.map (·.update)) =
        some "SET #status = :p0, note = #status ADD visits :p1 REMOVE #total" := by
      decide +kernel
    obtain ⟨request, given, shown⟩ := Option.map_eq_some_iff.1 finished
    have built := toOption_eq_some.1 given
    exact ⟨request, built, shown, grouped _ _ built⟩
  · have joined : (run Query.orders .standard [.actions renewTwice]).build =
        .error (.unsupported (.repeatedTarget ⟨[.field "Status"]⟩)) := by
      rfl
    exact (divided [] (renewTwice.map ([·])) []).trans joined

end Update

end ItemExpr
