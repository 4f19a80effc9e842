import ItemExpr.Proofs.Request.Draft
import ItemExpr.Request.Guard
import ItemExpr.Request.Query
import ItemExpr.Request.Scan
import ItemExpr.Request.Update

/-!
# How requests come about

Queries, scans, guards and updates are put together in the same way: each step does some tasks in the session of the
draft, one after the other, and most tasks add a text to a clause of the request. `Progress` is what the states of all
of them have in common, `Progress.perform` what a task does to it, and `Performs` what some tasks do that do not fail.
-/

namespace ItemExpr

open SessionM

/-! ## Parts of requests -/

/-- The clauses of conditions. -/
inductive ConditionClause where
  | key
  | filter
  | guard
deriving DecidableEq

/-- The clauses of requests. -/
inductive Clause where
  | conditions (clause : ConditionClause)
  | projection
  | actions (clause : UpdateClause)
deriving DecidableEq

/-- What adds a text to a clause. -/
inductive Part where
  | condition (clause : ConditionClause) (source : ConditionSource)
  | project (path : PropertyPath)
  | action (action : Action)
  | template (clause : UpdateClause) (text : String) (args : List Value)
  | raw (clause : UpdateClause) (text : RawText)

namespace Part

/-- The mode that a part is compiled in. -/
def mode : Part → Mode
  | .condition .key _ => .keysOnly
  | _ => .unrestricted

def compile : Part → SessionM (Clause × String)
  | .condition clause source => return (.conditions clause, ← source.compile)
  | .project path => do
    let shown ← SessionM.projection path.toPath
    return (.projection, shown.text)
  | .action typed => do
    let update ← SessionM.assignment typed.toAssignment
    return (.actions update.clause, update.text)
  | .template clause text args => return (.actions clause, ← Template.compile text args)
  | .raw clause text => return (.actions clause, ← text.compile)

end Part

/-- Something that a step does in the session of its draft. -/
inductive Task where
  | encryptor (encryptor : Encryptor)
  | geoEncoder (encoder : GeoEncoder)
  | localClock (clock : LocalClock)
  | index (name : String)
  | part (part : Part)

def Task.part? : Task → Option Part
  | .part own => some own
  | _ => none

/-- A compiled part, with the session that it was compiled in. -/
structure Fragment where
  part : Part
  start : Session
  clause : Clause
  text : String

/-- The texts of a clause, in the order in which they were added. -/
def textsOf (clause : Clause) (fragments : List Fragment) : List String :=
  (fragments.filter (·.clause = clause)).map (·.text)

theorem textsOf_append (clause : Clause) (first second : List Fragment) :
    textsOf clause (first ++ second) = textsOf clause first ++ textsOf clause second := by
  simp [textsOf]

/-- Some tasks are done in turn, and their parts are compiled to some fragments. -/
inductive Performs : Session → List Task → List Fragment → Session → Prop where
  | nil {s : Session} : Performs s [] [] s
  | encryptor {s t : Session} {encryptor : Encryptor} {tasks : List Task} {fragments : List Fragment} :
    Performs { s with encryptor := some encryptor } tasks fragments t →
      Performs s (.encryptor encryptor :: tasks) fragments t
  | geoEncoder {s t : Session} {encoder : GeoEncoder} {tasks : List Task} {fragments : List Fragment} :
    Performs { s with geoEncoder := some encoder } tasks fragments t →
      Performs s (.geoEncoder encoder :: tasks) fragments t
  | localClock {s t : Session} {clock : LocalClock} {tasks : List Task} {fragments : List Fragment} :
    Performs { s with clock } tasks fragments t → Performs s (.localClock clock :: tasks) fragments t
  | index {s u t : Session} {name : String} {tasks : List Task} {fragments : List Fragment} :
    useIndex name { s with mode := .unrestricted } = .ok () u →
    Performs { u with mode := s.mode } tasks fragments t → Performs s (.index name :: tasks) fragments t
  | part {s u t : Session} {part : Part} {clause : Clause} {text : String} {tasks : List Task}
      {fragments : List Fragment} :
    part.compile { s with mode := part.mode } = .ok (clause, text) u →
    Performs { u with mode := s.mode } tasks fragments t →
      Performs s (.part part :: tasks) (⟨part, { s with mode := part.mode }, clause, text⟩ :: fragments) t

theorem Performs.append {s t u : Session} {first second : List Task} {earlier later : List Fragment}
    (performs : Performs s first earlier t) (further : Performs t second later u) :
    Performs s (first ++ second) (earlier ++ later) u := by
  induction performs with
  | nil => exact further
  | encryptor _ ih => exact .encryptor (ih further)
  | geoEncoder _ ih => exact .geoEncoder (ih further)
  | localClock _ ih => exact .localClock (ih further)
  | index selects _ ih => exact .index selects (ih further)
  | part compiles _ ih => exact .part compiles (ih further)

/-! ## Progress -/

/-- How far a request of any kind has come: its draft, and the texts that were added to each clause. -/
@[ext]
structure Progress where
  draft : Draft
  texts : Clause → List String

namespace Progress

def new (entity : Entity) (settings : Settings) : Progress where
  draft := .new entity settings
  texts _ := []

/-- A text behind the others of its clause. -/
def addText (progress : Progress) (clause : Clause) (text : String) : Progress :=
  { progress with texts := fun other => progress.texts other ++ if other = clause then [text] else [] }

def perform (progress : Progress) : Task → Progress
  | .encryptor encryptor => { progress with draft := progress.draft.setEncryptor encryptor }
  | .geoEncoder encoder => { progress with draft := progress.draft.setGeoEncoder encoder }
  | .localClock clock => { progress with draft := progress.draft.setLocalClock clock }
  | .index name => { progress with draft := (progress.draft.run .unrestricted (useIndex name)).2 }
  | .part part =>
    match progress.draft.run part.mode part.compile with
    | (some (clause, text), draft) => { progress with draft }.addText clause text
    | (none, draft) => { progress with draft }

/-- On the way from one state to another some tasks are done, if nothing has failed by then. -/
def Does (before : Progress) (tasks : List Task) (after : Progress) : Prop :=
  after.draft.failure = none →
    before.draft.failure = none ∧ ∃ fragments,
      Performs before.draft.session tasks fragments after.draft.session ∧
        ∀ clause, after.texts clause = before.texts clause ++ textsOf clause fragments

theorem Does.refl (progress : Progress) : progress.Does [] progress :=
  fun fine => ⟨fine, [], .nil, fun _ => by simp [textsOf]⟩

theorem Does.trans {first second third : Progress} {tasks more : List Task} (earlier : first.Does tasks second)
    (later : second.Does more third) : first.Does (tasks ++ more) third := by
  intro fine
  obtain ⟨working, behind, performsLater, textsLater⟩ := later fine
  obtain ⟨start, front, performs, texts⟩ := earlier working
  refine ⟨start, front ++ behind, performs.append performsLater, ?_⟩
  intro clause
  rw [textsLater, texts, textsOf_append, List.append_assoc]

theorem does_of_failure {before after : Progress} {tasks : List Task} (failed : after.draft.failure ≠ none) :
    before.Does tasks after :=
  fun fine => absurd fine failed

theorem does_perform (progress : Progress) (task : Task) : progress.Does [task] (progress.perform task) := by
  intro fine
  cases task with
  | encryptor encryptor => exact ⟨fine, [], .encryptor .nil, fun _ => by simp [textsOf, perform]⟩
  | geoEncoder encoder => exact ⟨fine, [], .geoEncoder .nil, fun _ => by simp [textsOf, perform]⟩
  | localClock clock => exact ⟨fine, [], .localClock .nil, fun _ => by simp [textsOf, perform]⟩
  | index name =>
    simp only [perform] at fine ⊢
    obtain ⟨_, t, working, selects, ran⟩ | ⟨next, ran, failed⟩ :=
      progress.draft.run_cases .unrestricted (useIndex name)
    · rw [ran]
      exact ⟨working, [], .index selects .nil, fun _ => by simp [textsOf]⟩
    · rw [ran] at fine
      exact absurd fine failed
  | part part =>
    simp only [perform] at fine ⊢
    obtain ⟨⟨clause, text⟩, t, working, compiles, ran⟩ | ⟨next, ran, failed⟩ :=
      progress.draft.run_cases part.mode part.compile
    · rw [ran]
      refine ⟨working, _, .part compiles .nil, ?_⟩
      intro other
      by_cases same : other = clause
      · simp [textsOf, addText, same]
      · simp [textsOf, addText, same, Ne.symm same]
    · rw [ran] at fine
      exact absurd fine failed

/-- To compile a part is to run an operation in the mode of the part, and to put what it answers into a clause. -/
theorem perform_part {α : Type} {progress : Progress} {part : Part} (draft : Draft) (mode : Mode) (op : SessionM α)
    (shown : α → Clause × String) (sameDraft : progress.draft = draft) (sameMode : part.mode = mode)
    (compile : part.compile = op >>= fun a => pure (shown a)) :
    progress.perform (.part part) =
      match draft.run mode op with
      | (some a, draft) => { progress with draft }.addText (shown a).1 (shown a).2
      | (none, draft) => { progress with draft } := by
  subst sameDraft sameMode
  simp only [perform, compile, Draft.run_map]
  rcases progress.draft.run part.mode op with ⟨_ | a, draft⟩ <;> rfl

section Steps

variable {β σ : Type} {progress : β → Progress} {step : β → σ → β} {entity : Entity} {settings : Settings}

/-- Steps that each do some tasks do all of them in turn. -/
theorem does_foldl {tasks : σ → List Task} (each : ∀ b s, (progress b).Does (tasks s) (progress (step b s)))
    (steps : List σ) (b : β) : (progress b).Does (steps.flatMap tasks) (progress (steps.foldl step b)) := by
  induction steps generalizing b with
  | nil => exact .refl _
  | cons first rest ih => exact (each b first).trans (ih _)

theorem does_of_steps {tasks : σ → List Task} (each : ∀ b s, (progress b).Does (tasks s) (progress (step b s)))
    {start : β} (fresh : progress start = .new entity settings) (steps : List σ) :
    (new entity settings).Does (steps.flatMap tasks) (progress (steps.foldl step start)) :=
  fresh ▸ does_foldl each steps start

/-- The same for steps that are one task each. -/
theorem does_of_tasks {task : σ → Task} (each : ∀ b s, progress (step b s) = (progress b).perform (task s))
    {start : β} (fresh : progress start = .new entity settings) (steps : List σ) :
    (new entity settings).Does (steps.map task) (progress (steps.foldl step start)) := by
  rw [List.map_eq_flatMap]
  exact does_of_steps (fun b s => each b s ▸ (progress b).does_perform (task s)) fresh steps

end Steps

end Progress

/-! ## The steps of each kind of request -/

namespace Query

def progress (query : Query) : Progress where
  draft := query.draft
  texts
    | .conditions .key => query.keyConditions
    | .conditions .filter => query.filters
    | .projection => query.projection
    | _ => []

def task : Step → Task
  | .encryptor encryptor => .encryptor encryptor
  | .geoEncoder encoder => .geoEncoder encoder
  | .localClock clock => .localClock clock
  | .index name => .index name
  | .key source => .part (.condition .key source)
  | .filter source => .part (.condition .filter source)
  | .project path => .part (.project path)

theorem progress_new (entity : Entity) (settings : Settings) :
    (new entity settings).progress = .new entity settings := by
  refine Progress.ext rfl (funext fun clause => ?_)
  rcases clause with (_ | _ | _) | _ | _ <;> rfl

theorem progress_addKey (query : Query) (source : ConditionSource) :
    (query.addKey source).progress = query.progress.perform (.part (.condition .key source)) := by
  rw [Progress.perform_part query.draft .keysOnly source.compile
    (fun text => (.conditions .key, text)) rfl rfl rfl, addKey]
  rcases query.draft.run .keysOnly source.compile with ⟨_ | answer, draft⟩
  · rfl
  · refine Progress.ext rfl (funext fun clause => ?_)
    rcases clause with (_ | _ | _) | _ | _ <;> simp [progress, Progress.addText]

theorem progress_addFilter (query : Query) (source : ConditionSource) :
    (query.addFilter source).progress = query.progress.perform (.part (.condition .filter source)) := by
  rw [Progress.perform_part query.draft .unrestricted source.compile
    (fun text => (.conditions .filter, text)) rfl rfl rfl, addFilter]
  rcases query.draft.run .unrestricted source.compile with ⟨_ | answer, draft⟩
  · rfl
  · refine Progress.ext rfl (funext fun clause => ?_)
    rcases clause with (_ | _ | _) | _ | _ <;> simp [progress, Progress.addText]

theorem progress_addProjection (query : Query) (path : PropertyPath) :
    (query.addProjection path).progress = query.progress.perform (.part (.project path)) := by
  rw [Progress.perform_part query.draft .unrestricted (SessionM.projection path.toPath)
    (fun shown => (.projection, shown.text)) rfl rfl rfl, addProjection]
  rcases query.draft.run .unrestricted (SessionM.projection path.toPath) with ⟨_ | answer, draft⟩
  · rfl
  · refine Progress.ext rfl (funext fun clause => ?_)
    rcases clause with (_ | _ | _) | _ | _ <;> simp [progress, Progress.addText]

theorem progress_step (query : Query) (step : Step) :
    (query.step step).progress = query.progress.perform (task step) := by
  cases step with
  | encryptor | geoEncoder | localClock => rfl
  | index name =>
    simp only [Query.step, useIndex, task, Progress.perform, progress]
    rcases query.draft.run .unrestricted (SessionM.useIndex name) with ⟨_ | _, draft⟩ <;> rfl
  | key source => exact query.progress_addKey source
  | filter source => exact query.progress_addFilter source
  | project path => exact query.progress_addProjection path

end Query

namespace Scan

def progress (scan : Scan) : Progress where
  draft := scan.draft
  texts
    | .conditions .filter => scan.filters
    | .projection => scan.projection
    | _ => []

def task : Step → Task
  | .encryptor encryptor => .encryptor encryptor
  | .geoEncoder encoder => .geoEncoder encoder
  | .localClock clock => .localClock clock
  | .filter source => .part (.condition .filter source)
  | .project path => .part (.project path)

theorem progress_new (entity : Entity) (settings : Settings) :
    (new entity settings).progress = .new entity settings := by
  refine Progress.ext rfl (funext fun clause => ?_)
  rcases clause with (_ | _ | _) | _ | _ <;> rfl

theorem progress_addFilter (scan : Scan) (source : ConditionSource) :
    (scan.addFilter source).progress = scan.progress.perform (.part (.condition .filter source)) := by
  rw [Progress.perform_part scan.draft .unrestricted source.compile
    (fun text => (.conditions .filter, text)) rfl rfl rfl, addFilter]
  rcases scan.draft.run .unrestricted source.compile with ⟨_ | answer, draft⟩
  · rfl
  · refine Progress.ext rfl (funext fun clause => ?_)
    rcases clause with (_ | _ | _) | _ | _ <;> simp [progress, Progress.addText]

theorem progress_addProjection (scan : Scan) (path : PropertyPath) :
    (scan.addProjection path).progress = scan.progress.perform (.part (.project path)) := by
  rw [Progress.perform_part scan.draft .unrestricted (SessionM.projection path.toPath)
    (fun shown => (.projection, shown.text)) rfl rfl rfl, addProjection]
  rcases scan.draft.run .unrestricted (SessionM.projection path.toPath) with ⟨_ | answer, draft⟩
  · rfl
  · refine Progress.ext rfl (funext fun clause => ?_)
    rcases clause with (_ | _ | _) | _ | _ <;> simp [progress, Progress.addText]

theorem progress_step (scan : Scan) (step : Step) : (scan.step step).progress = scan.progress.perform (task step) := by
  cases step with
  | encryptor | geoEncoder | localClock => rfl
  | filter source => exact scan.progress_addFilter source
  | project path => exact scan.progress_addProjection path

end Scan

namespace Guard

def progress (guard : Guard) : Progress where
  draft := guard.draft
  texts
    | .conditions .guard => guard.conditions
    | _ => []

def task : Step → Task
  | .encryptor encryptor => .encryptor encryptor
  | .geoEncoder encoder => .geoEncoder encoder
  | .localClock clock => .localClock clock
  | .condition source => .part (.condition .guard source)

theorem progress_new (entity : Entity) (settings : Settings) :
    (new entity settings).progress = .new entity settings := by
  refine Progress.ext rfl (funext fun clause => ?_)
  rcases clause with (_ | _ | _) | _ | _ <;> rfl

theorem progress_addCondition (guard : Guard) (source : ConditionSource) :
    (guard.addCondition source).progress = guard.progress.perform (.part (.condition .guard source)) := by
  rw [Progress.perform_part guard.draft .unrestricted source.compile
    (fun text => (.conditions .guard, text)) rfl rfl rfl, addCondition]
  rcases guard.draft.run .unrestricted source.compile with ⟨_ | answer, draft⟩
  · rfl
  · refine Progress.ext rfl (funext fun clause => ?_)
    rcases clause with (_ | _ | _) | _ | _ <;> simp [progress, Progress.addText]

theorem progress_step (guard : Guard) (step : Step) :
    (guard.step step).progress = guard.progress.perform (task step) := by
  cases step with
  | encryptor | geoEncoder | localClock => rfl
  | condition source => exact guard.progress_addCondition source

end Guard

namespace Update

/-- The texts of a clause, in the order in which they were added. -/
def textsIn (fragments : List (UpdateClause × String)) (clause : UpdateClause) : List String :=
  (fragments.filter (·.1 == clause)).map (·.2)

def progress (update : Update) : Progress where
  draft := update.draft
  texts
    | .conditions .guard => update.conditions
    | .actions clause => textsIn update.fragments clause
    | _ => []

def tasks : Step → List Task
  | .encryptor encryptor => [.encryptor encryptor]
  | .geoEncoder encoder => [.geoEncoder encoder]
  | .localClock clock => [.localClock clock]
  | .actions actions => actions.map fun action => .part (.action action)
  | .template clause text args => [.part (.template clause text args)]
  | .raw clause text => [.part (.raw clause text)]
  | .condition source => [.part (.condition .guard source)]

theorem progress_new (entity : Entity) (settings : Settings) :
    (new entity settings).progress = .new entity settings := by
  refine Progress.ext rfl (funext fun clause => ?_)
  rcases clause with (_ | _ | _) | _ | _ <;> rfl

theorem textsIn_append (fragments : List (UpdateClause × String)) (added clause : UpdateClause) (text : String) :
    textsIn (fragments ++ [(added, text)]) clause =
      textsIn fragments clause ++ if clause = added then [text] else [] := by
  by_cases same : clause = added
  · simp [textsIn, same]
  · simp [textsIn, same, Ne.symm same]

theorem progress_added (update : Update) (draft : Draft) (targets : List Path) (clause : UpdateClause) (text : String) :
    progress { update with draft, targets, fragments := update.fragments ++ [(clause, text)] } =
      { update.progress with draft }.addText (.actions clause) text := by
  refine Progress.ext rfl (funext fun other => ?_)
  rcases other with (_ | _ | _) | _ | other <;> simp [progress, Progress.addText, textsIn_append]

theorem progress_addFragment (update : Update) (clause : UpdateClause) {op : SessionM String} {part : Part}
    (mode : part.mode = .unrestricted) (compile : part.compile = op >>= fun text => pure (.actions clause, text)) :
    (update.addFragment clause op).progress = update.progress.perform (.part part) := by
  rw [Progress.perform_part update.draft .unrestricted op (fun text => (.actions clause, text)) rfl mode compile,
    addFragment]
  rcases update.draft.run .unrestricted op with ⟨_ | text, draft⟩
  · rfl
  · exact update.progress_added draft update.targets clause text

theorem progress_addCondition (update : Update) (source : ConditionSource) :
    (update.addCondition source).progress = update.progress.perform (.part (.condition .guard source)) := by
  rw [Progress.perform_part update.draft .unrestricted source.compile
    (fun text => (.conditions .guard, text)) rfl rfl rfl, addCondition]
  rcases update.draft.run .unrestricted source.compile with ⟨_ | answer, draft⟩
  · rfl
  · refine Progress.ext rfl (funext fun clause => ?_)
    rcases clause with (_ | _ | _) | _ | _ <;> simp [progress, Progress.addText]

/-- Actions are done one after the other. If one of them repeats a target, or fails, the others are not looked at. -/
theorem does_addActions (update : Update) (actions : List Action) :
    update.progress.Does (actions.map fun action => .part (.action action)) (update.addActions actions).progress := by
  induction actions generalizing update with
  | nil => exact .refl _
  | cons action rest ih =>
    by_cases repeated : action.toAssignment.target ∈ update.targets
    · refine Progress.does_of_failure ?_
      simp [addActions, repeated, progress, Draft.fail]
    · have performed := update.progress.does_perform (.part (.action action))
      rw [Progress.perform_part update.draft .unrestricted (SessionM.assignment action.toAssignment)
        (fun compiled => (.actions compiled.clause, compiled.text)) rfl rfl rfl] at performed
      rw [addActions]
      simp only [if_neg repeated]
      obtain ⟨compiled, t, _, _, ran⟩ | ⟨next, ran, failed⟩ :=
        update.draft.run_cases .unrestricted (SessionM.assignment action.toAssignment)
      · obtain ⟨draft, ran⟩ : ∃ draft, update.draft.run .unrestricted (SessionM.assignment action.toAssignment) =
            (some compiled, draft) := ⟨_, ran⟩
        have added := update.progress_added draft (action.toAssignment.target :: update.targets) compiled.clause
          compiled.text
        simp only [ran] at performed ⊢
        exact performed.trans (added ▸ ih _)
      · rw [ran]
        exact Progress.does_of_failure failed

theorem does_step (update : Update) (step : Step) : update.progress.Does (tasks step) (update.step step).progress := by
  cases step with
  | encryptor encryptor => exact update.progress.does_perform (.encryptor encryptor)
  | geoEncoder encoder => exact update.progress.does_perform (.geoEncoder encoder)
  | localClock clock => exact update.progress.does_perform (.localClock clock)
  | actions actions => exact update.does_addActions actions
  | template clause text args =>
    have performed : (update.addFragment clause (Template.compile text args)).progress =
        update.progress.perform (.part (.template clause text args)) := update.progress_addFragment clause rfl rfl
    exact performed ▸ update.progress.does_perform _
  | raw clause text =>
    have performed : (update.addFragment clause text.compile).progress =
        update.progress.perform (.part (.raw clause text)) := update.progress_addFragment clause rfl rfl
    exact performed ▸ update.progress.does_perform _
  | condition source => exact update.progress_addCondition source ▸ update.progress.does_perform _

end Update

end ItemExpr
