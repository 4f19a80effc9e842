import ItemExpr.Proofs.Request.Accumulation

/-!
# The first failure of a request

The tasks of a recipe are done in turn up to the first that fails. `FailsFirst` says so of the tasks alone, and
`Progress.Reflects` that the draft of a request always tells what has become of them: once there is an error in it, it
is that of the first task that failed, whatever is done behind it.
-/

namespace ItemExpr

open Session SessionM

variable {s t u : Session}

/-! ## Tasks that fail -/

/-- The place that a typed action changes. -/
def Task.target? : Task → Option Path
  | .part (.action action) => some action.toAssignment.target
  | _ => none

def targetsOf (tasks : List Task) : List Path :=
  tasks.filterMap Task.target?

theorem targetsOf_append (first second : List Task) :
    targetsOf (first ++ second) = targetsOf first ++ targetsOf second :=
  List.filterMap_append

theorem nodup_targetsOf_concat {tasks : List Task} {task : Task} (distinct : (targetsOf tasks).Nodup)
    (fresh : ∀ target, task.target? = some target → target ∉ targetsOf tasks) :
    (targetsOf (tasks ++ [task])).Nodup := by
  rw [targetsOf_append]
  cases own : task.target? with
  | none => simpa [targetsOf, own] using distinct
  | some target =>
    have single : targetsOf [task] = [target] := by simp [targetsOf, own]
    rw [single, ← List.concat_eq_append]
    exact distinct.concat (fresh target own)

/-- A task fails in a session, behind actions that have taken some targets. -/
inductive Task.Fails (s : Session) (taken : List Path) : Task → Error → Prop where
  | index {name : String} {error : Error} {t : Session} :
    useIndex name { s with mode := .unrestricted } = .error error t → Fails s taken (.index name) error
  | repeated {action : Action} :
    action.toAssignment.target ∈ taken →
      Fails s taken (.part (.action action)) (.unsupported (.repeatedTarget action.toAssignment.target))
  | part {part : Part} {error : Error} {t : Session} :
    (∀ target, Task.target? (.part part) = some target → target ∉ taken) →
      part.compile { s with mode := part.mode } = .error error t → Fails s taken (.part part) error

theorem Task.Fails.unique {taken : List Path} {task : Task} {first second : Error} (fails : task.Fails s taken first)
    (again : task.Fails s taken second) : first = second := by
  cases fails with
  | index selects =>
    cases again with
    | index reselects =>
      cases selects.symm.trans reselects
      rfl
  | repeated known =>
    cases again with
    | repeated => rfl
    | part fresh _ => exact absurd known (fresh _ rfl)
  | part fresh compiles =>
    cases again with
    | repeated known => exact absurd known (fresh _ rfl)
    | part _ recompiles =>
      cases compiles.symm.trans recompiles
      rfl

/-- Some tasks are all done: none of them fails, and no two of them change the same place. -/
structure Completes (s : Session) (tasks : List Task) (fragments : List Fragment) (t : Session) : Prop where
  performs : Performs s tasks fragments t
  distinct : (targetsOf tasks).Nodup

/-- Some tasks are done in turn up to one that fails with an error. -/
def FailsFirst (s : Session) (tasks : List Task) (error : Error) : Prop :=
  ∃ done task left fragments t, tasks = done ++ task :: left ∧ Completes s done fragments t ∧
    task.Fails t (targetsOf done) error

theorem FailsFirst.append {tasks : List Task} {error : Error} (fails : FailsFirst s tasks error) (more : List Task) :
    FailsFirst s (tasks ++ more) error := by
  obtain ⟨done, task, left, fragments, t, rfl, completes, fails⟩ := fails
  exact ⟨done, task, left ++ more, fragments, t, by simp, completes, fails⟩

theorem Completes.nil : Completes s [] [] s :=
  ⟨.nil, List.nodup_nil⟩

/-- A task among others that are all done does not fail behind those before it. -/
theorem Completes.not_fails {done left : List Task} {task : Task} {error : Error} {fragments others : List Fragment}
    (completes : Completes s (done ++ task :: left) others u) (performs : Performs s done fragments t) :
    ¬ task.Fails t (targetsOf done) error := by
  intro fails
  obtain ⟨earlier, later, middle, _, front, behind⟩ := completes.performs.split
  obtain rfl : t = middle := (performs.functional front).2
  cases fails with
  | index selects =>
    cases behind with
    | index reselects _ => cases selects.symm.trans reselects
  | repeated known =>
    have distinct := completes.distinct
    rw [targetsOf_append] at distinct
    exact (List.nodup_append.1 distinct).2.2 _ known _ (List.mem_cons_self ..) rfl
  | part _ compiles =>
    cases behind with
    | part recompiles _ => cases compiles.symm.trans recompiles

theorem Completes.not_failsFirst {tasks : List Task} {fragments : List Fragment} {error : Error}
    (completes : Completes s tasks fragments t) : ¬ FailsFirst s tasks error := by
  rintro ⟨done, task, left, _, _, rfl, before, fails⟩
  exact completes.not_fails before.performs fails

theorem FailsFirst.unique {tasks : List Task} {first second : Error} (fails : FailsFirst s tasks first)
    (again : FailsFirst s tasks second) : first = second := by
  obtain ⟨done, task, left, _, t, rfl, completes, fails⟩ := fails
  obtain ⟨others, otherTask, otherLeft, _, u, same, completesOthers, failsOther⟩ := again
  -- Of two tasks that both fail none is before the other, as those before either of them are done.
  obtain ⟨between, rfl, rest⟩ | ⟨between, rfl, rest⟩ := List.append_eq_append_iff.1 same
  · cases between with
    | nil =>
      cases rest
      rw [List.append_nil] at completesOthers failsOther
      obtain rfl : t = u := (completes.performs.functional completesOthers.performs).2
      exact fails.unique failsOther
    | cons _ between =>
      cases rest
      exact absurd fails (completesOthers.not_fails completes.performs)
  · cases between with
    | nil =>
      cases rest
      rw [List.append_nil] at completes fails
      obtain rfl : t = u := (completes.performs.functional completesOthers.performs).2
      exact fails.unique failsOther
    | cons _ between =>
      cases rest
      exact absurd failsOther (completes.not_fails completesOthers.performs)

/-! ## Drafts -/

theorem Draft.run_of_error {α : Type} {draft : Draft} {mode : Mode} {step : SessionM α} {error : Error}
    (working : draft.failure = none) (failed : step { draft.session with mode } = .error error t) :
    draft.run mode step = (none, ⟨{ t with mode := draft.session.mode }, some error⟩) := by
  simp [run, working, EStateM.run, failed]

theorem Draft.run_of_failure {α : Type} {draft : Draft} {error : Error} (failed : draft.failure = some error)
    (mode : Mode) (step : SessionM α) : draft.run mode step = (none, draft) := by
  simp [run, failed]

namespace Progress

variable {entity : Entity} {settings : Settings} {progress : Progress} {tasks : List Task}

/-- Some progress tells what has become of the tasks so far: they are all done and have added its texts, or it keeps
what was wrong with the entity, or the error of the first of them that failed. -/
structure Reflects (entity : Entity) (settings : Settings) (tasks : List Task) (progress : Progress) : Prop where
  done : progress.draft.failure = none → entity.invalidity? = none ∧ ∃ fragments,
    Completes (.new settings (some entity)) tasks fragments progress.draft.session ∧
      progress.texts = fun clause => textsOf clause fragments
  invalid : ∀ fault, entity.invalidity? = some fault → progress.draft.failure = some (.invalidEntity fault)
  failed : ∀ error, entity.invalidity? = none → progress.draft.failure = some error →
    FailsFirst (.new settings (some entity)) tasks error

theorem reflects_new (entity : Entity) (settings : Settings) :
    (Progress.new entity settings).Reflects entity settings [] where
  done fine := ⟨by simpa [Progress.new, Draft.new] using fine, [], .nil, rfl⟩
  invalid fault wrong := by simp [Progress.new, Draft.new, wrong]
  failed error valid failed := by simp [Progress.new, Draft.new, valid] at failed

/-- A failure is kept, and what is left to do has no part in it. -/
theorem Reflects.of_failure {error : Error} {after : Progress} (reflects : progress.Reflects entity settings tasks)
    (before : progress.draft.failure = some error) (kept : after.draft.failure = some error) (more : List Task) :
    after.Reflects entity settings (tasks ++ more) where
  done fine := by
    rw [kept] at fine
    cases fine
  invalid fault wrong := kept.trans (before.symm.trans (reflects.invalid fault wrong))
  failed error valid failed := (reflects.failed error valid (before.trans (kept.symm.trans failed))).append more

/-- The first failure, if there has been none before. -/
theorem Reflects.of_fails {task : Task} {error : Error} {after : Progress}
    (reflects : progress.Reflects entity settings tasks) (working : progress.draft.failure = none)
    (fails : task.Fails progress.draft.session (targetsOf tasks) error) (failed : after.draft.failure = some error)
    (left : List Task) : after.Reflects entity settings (tasks ++ task :: left) := by
  obtain ⟨valid, fragments, completes, _⟩ := reflects.done working
  refine ⟨fun fine => ?_, fun fault wrong => ?_, fun other _ kept => ?_⟩
  · rw [failed] at fine
    cases fine
  · rw [valid] at wrong
    cases wrong
  · cases failed.symm.trans kept
    exact ⟨tasks, task, left, fragments, _, rfl, completes, fails⟩

theorem failure_perform {error : Error} (failed : progress.draft.failure = some error) (task : Task) :
    (progress.perform task).draft.failure = some error := by
  cases task with
  | encryptor | geoEncoder | localClock => exact failed
  | index name => simp only [perform, Draft.run_of_failure failed, failed]
  | part part => simp only [perform, Draft.run_of_failure failed, failed]

theorem fails_of_perform {task : Task} {error : Error} (working : progress.draft.failure = none)
    (fresh : ∀ target, task.target? = some target → target ∉ targetsOf tasks)
    (failed : (progress.perform task).draft.failure = some error) :
    task.Fails progress.draft.session (targetsOf tasks) error := by
  cases task with
  | encryptor | geoEncoder | localClock => cases working.symm.trans failed
  | index name =>
    cases selects : useIndex name { progress.draft.session with mode := .unrestricted } with
    | ok _ t =>
      simp only [perform, Draft.run_of_ok working selects] at failed
      cases working.symm.trans failed
    | error other t =>
      simp only [perform, Draft.run_of_error working selects] at failed
      cases failed
      exact .index selects
  | part part =>
    cases compiles : part.compile { progress.draft.session with mode := part.mode } with
    | ok answer t =>
      simp only [perform, Draft.run_of_ok working compiles] at failed
      cases working.symm.trans failed
    | error other t =>
      simp only [perform, Draft.run_of_error working compiles] at failed
      cases failed
      exact .part fresh compiles

/-- One more task, which changes no place that was changed before. -/
theorem Reflects.perform {task : Task} (reflects : progress.Reflects entity settings tasks)
    (fresh : ∀ target, task.target? = some target → target ∉ targetsOf tasks) :
    (progress.perform task).Reflects entity settings (tasks ++ [task]) := by
  cases before : progress.draft.failure with
  | some error => exact reflects.of_failure before (failure_perform before task) [task]
  | none =>
    cases after : (progress.perform task).draft.failure with
    | some error => exact reflects.of_fails before (fails_of_perform before fresh after) after []
    | none =>
      obtain ⟨valid, fragments, completes, texts⟩ := reflects.done before
      refine ⟨fun fine => ⟨valid, ?_⟩, fun fault wrong => ?_, fun error _ failed => ?_⟩
      · obtain ⟨_, added, performs, more⟩ := progress.does_perform task fine
        have distinct := nodup_targetsOf_concat completes.distinct fresh
        refine ⟨fragments ++ added, ⟨completes.performs.append performs, distinct⟩, funext fun clause => ?_⟩
        rw [more, texts, textsOf_append]
      · rw [valid] at wrong
        cases wrong
      · rw [after] at failed
        cases failed

/-- Steps that are one task each, none of which changes a place. -/
theorem Reflects.foldl {β σ : Type} {progress : β → Progress} {step : β → σ → β} {task : σ → Task}
    (each : ∀ b s, progress (step b s) = (progress b).perform (task s)) (changeless : ∀ s, (task s).target? = none)
    {b : β} (reflects : (progress b).Reflects entity settings tasks) (steps : List σ) :
    (progress (steps.foldl step b)).Reflects entity settings (tasks ++ steps.map task) := by
  induction steps generalizing b tasks with
  | nil => simpa using reflects
  | cons first rest ih =>
    have next : ((progress b).perform (task first)).Reflects entity settings (tasks ++ [task first]) :=
      reflects.perform (by simp [changeless])
    rw [List.map_cons, ← List.singleton_append, ← List.append_assoc]
    exact ih (each b first ▸ next)

end Progress

/-! ## Updates -/

namespace Update

variable {entity : Entity} {settings : Settings} {update next : Update} {tasks : List Task}

/-- The progress of an update, and that it has taken the targets of its actions, as long as nothing has failed. -/
structure Reflects (entity : Entity) (settings : Settings) (tasks : List Task) (update : Update) : Prop where
  progress : update.progress.Reflects entity settings tasks
  targets : update.draft.failure = none → ∀ path, path ∈ update.targets ↔ path ∈ targetsOf tasks

/-- One more task that changes no place. -/
theorem Reflects.perform {task : Task} (reflects : update.Reflects entity settings tasks)
    (performed : next.progress = update.progress.perform task) (kept : next.targets = update.targets)
    (changeless : task.target? = none) : next.Reflects entity settings (tasks ++ [task]) where
  progress := performed ▸ reflects.progress.perform (by simp [changeless])
  targets fine path := by
    have working : update.draft.failure = none := by
      cases before : update.draft.failure with
      | none => rfl
      | some error =>
        have failed : next.progress.draft.failure = some error := performed ▸ Progress.failure_perform before task
        cases failed.symm.trans fine
    rw [kept, reflects.targets working, targetsOf_append]
    simp [targetsOf, changeless]

theorem Reflects.of_failed {error : Error} (progress : update.progress.Reflects entity settings tasks)
    (failed : update.draft.failure = some error) : update.Reflects entity settings tasks :=
  ⟨progress, fun fine => by cases failed.symm.trans fine⟩

theorem targets_addFragment (update : Update) (clause : UpdateClause) (op : SessionM String) :
    (update.addFragment clause op).targets = update.targets := by
  unfold addFragment
  rcases update.draft.run .unrestricted op with ⟨_ | _, _⟩ <;> rfl

theorem targets_addCondition (update : Update) (source : ConditionSource) :
    (update.addCondition source).targets = update.targets := by
  unfold addCondition
  rcases update.draft.run .unrestricted source.compile with ⟨_ | _, _⟩ <;> rfl

section

variable {action : Action} {rest : List Action}

theorem addActions_of_repeated (repeated : action.toAssignment.target ∈ update.targets) :
    update.addActions (action :: rest) =
      { update with draft := update.draft.fail (.unsupported (.repeatedTarget action.toAssignment.target)) } := by
  simp [addActions, repeated]

theorem addActions_of_error {error : Error} (working : update.draft.failure = none)
    (new : action.toAssignment.target ∉ update.targets)
    (run : SessionM.assignment action.toAssignment { update.draft.session with mode := .unrestricted } =
      .error error t) :
    (update.addActions (action :: rest)).draft.failure = some error := by
  simp [addActions, new, Draft.run_of_error working run]

/-- An action that is compiled is one task more, behind which the other actions are added. -/
theorem addActions_of_ok {compiled : TokenUpdate} (working : update.draft.failure = none)
    (new : action.toAssignment.target ∉ update.targets)
    (run : SessionM.assignment action.toAssignment { update.draft.session with mode := .unrestricted } =
      .ok compiled t) (rest : List Action) :
    ∃ next : Update, update.addActions (action :: rest) = next.addActions rest ∧
      next.progress = update.progress.perform (.part (.action action)) ∧
      next.targets = action.toAssignment.target :: update.targets := by
  rw [addActions]
  simp only [if_neg new, Draft.run_of_ok working run]
  refine ⟨_, rfl, ?_, rfl⟩
  rw [Progress.perform_part update.draft .unrestricted (SessionM.assignment action.toAssignment)
    (fun compiled => (.actions compiled.clause, compiled.text)) rfl rfl rfl, Draft.run_of_ok working run]
  exact update.progress_added ..

end

theorem failure_addActions {error : Error} (failed : update.draft.failure = some error) (actions : List Action) :
    (update.addActions actions).draft.failure = some error := by
  cases actions with
  | nil => exact failed
  | cons action rest =>
    by_cases repeated : action.toAssignment.target ∈ update.targets
    · simp [addActions_of_repeated repeated, Draft.fail, failed]
    · simp [addActions, repeated, Draft.run_of_failure failed, failed]

/-- Actions are done one after the other up to the first that repeats a target or fails. -/
theorem Reflects.addActions (reflects : update.Reflects entity settings tasks) (actions : List Action) :
    (update.addActions actions).Reflects entity settings
      (tasks ++ actions.map fun action => .part (.action action)) := by
  induction actions generalizing update tasks with
  | nil => simpa [Update.addActions] using reflects
  | cons action rest ih =>
    cases before : update.draft.failure with
    | some error =>
      have kept := failure_addActions before (action :: rest)
      exact .of_failed (reflects.progress.of_failure before kept _) kept
    | none =>
      have taken := reflects.targets before action.toAssignment.target
      by_cases repeated : action.toAssignment.target ∈ update.targets
      · have failed : (update.addActions (action :: rest)).draft.failure =
            some (.unsupported (.repeatedTarget action.toAssignment.target)) := by
          simp [addActions_of_repeated repeated, Draft.fail, before]
        have fails := Task.Fails.repeated (s := update.draft.session) (taken.1 repeated)
        exact .of_failed (reflects.progress.of_fails before fails failed _) failed
      · have fresh : ∀ target, Task.target? (.part (.action action)) = some target → target ∉ targetsOf tasks := by
          rintro _ ⟨⟩
          exact fun known => repeated (taken.2 known)
        let start := { update.draft.session with mode := .unrestricted }
        cases run : SessionM.assignment action.toAssignment start with
        | error error t =>
          have failed : (update.addActions (action :: rest)).draft.failure = some error :=
            addActions_of_error before repeated run
          have compiles : (Part.action action).compile start = .error error t := bind_pure_eq_error.2 run
          exact .of_failed (reflects.progress.of_fails before (.part fresh compiles) failed _) failed
        | ok compiled t =>
          obtain ⟨next, added, performed, targets⟩ := addActions_of_ok before repeated run rest
          have reflectsNext : next.Reflects entity settings (tasks ++ [.part (.action action)]) := by
            refine ⟨performed ▸ reflects.progress.perform fresh, fun _ path => ?_⟩
            rw [targets, targetsOf_append, List.mem_append, ← reflects.targets before]
            simp [targetsOf, Task.target?, or_comm]
          rw [added]
          simpa using ih reflectsNext

theorem Reflects.step (reflects : update.Reflects entity settings tasks) (step : Step) :
    (update.step step).Reflects entity settings (tasks ++ Update.tasks step) := by
  cases step with
  | encryptor | geoEncoder | localClock => exact reflects.perform rfl rfl rfl
  | actions actions => exact reflects.addActions actions
  | template clause text args =>
    exact reflects.perform (update.progress_addFragment clause rfl rfl) (targets_addFragment ..) rfl
  | raw clause text =>
    exact reflects.perform (update.progress_addFragment clause rfl rfl) (targets_addFragment ..) rfl
  | condition source => exact reflects.perform (update.progress_addCondition source) (targets_addCondition ..) rfl

theorem Reflects.foldl (reflects : update.Reflects entity settings tasks) (steps : List Step) :
    (steps.foldl Update.step update).Reflects entity settings (tasks ++ steps.flatMap Update.tasks) := by
  induction steps generalizing update tasks with
  | nil => simpa using reflects
  | cons first rest ih =>
    rw [List.flatMap_cons, ← List.append_assoc]
    exact ih (reflects.step first)

end Update

end ItemExpr
