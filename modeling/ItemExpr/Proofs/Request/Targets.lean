import ItemExpr.Proofs.Condition.Formula
import ItemExpr.Proofs.Condition.Reading
import ItemExpr.Proofs.Request.KeyProtection
import ItemExpr.Proofs.Request.Legibility

/-!
# What an update changes

The text of a typed action starts with a path, and the tables of the request say which place of an item it leads to. No
two actions of an update have the same target, a valid entity stores different properties under different attributes,
and a path is read back from its text; so no two actions of a finished update change the same place
(`Recipe.targets_distinct`).
-/

namespace ItemExpr

open Session SessionM
open NameTable (Spelled isTokenChar)

variable {s t : Session} {names : Table String}

/-! ## Places of paths -/

/-- The place that a path stands for: its property is where its attribute is, and the steps below it are the same. -/
def Entity.place? (entity : Entity) (path : Path) : Option Place :=
  match path.steps with
  | .field root :: tail => (entity.property? root).map fun property => ⟨property.attributeName, tail⟩
  | _ => none

theorem Entity.place?_eq_some {entity : Entity} {path : Path} {place : Place} :
    entity.place? path = some place ↔ ∃ root property, path = ⟨.field root :: place.tail⟩ ∧
      entity.property? root = some property ∧ place.attributeName = property.attributeName := by
  obtain ⟨steps⟩ := path
  obtain ⟨attributeName, below⟩ := place
  unfold place?
  constructor
  · intro found
    split at found
    · rename_i root tail start
      obtain ⟨property, known, same⟩ := Option.map_eq_some_iff.1 found
      cases same
      exact ⟨root, property, congrArg Path.mk start, known, rfl⟩
    · cases found
  · rintro ⟨root, property, same, known, rfl⟩
    cases same
    simp [known]

/-- In a valid entity no two paths stand for the same place. -/
theorem Entity.place?_injective {entity : Entity} (valid : entity.invalidity? = none) {first second : Path}
    {place : Place} (foundFirst : entity.place? first = some place) (foundSecond : entity.place? second = some place) :
    first = second := by
  obtain ⟨root, property, rfl, known, stored⟩ := place?_eq_some.1 foundFirst
  obtain ⟨rootSecond, propertySecond, rfl, knownSecond, storedSecond⟩ := place?_eq_some.1 foundSecond
  rw [root_eq_of_attributeName valid known knownSecond (stored.symm.trans storedSecond)]

theorem Session.place?_knowledge {entity : Entity} (known : s.entity = some entity) (path : Path) :
    s.knowledge.place? path = entity.place? path := by
  obtain ⟨steps⟩ := path
  match steps with
  | [] | .index _ :: _ => rfl
  | .field root :: tail =>
    simp only [Knowledge.place?, Entity.place?, knowledge, Session.property, known]
    cases entity.property? root <;> rfl

/-! ## Reading a path -/

/-- Reads a text as a path and looks up where it leads to, as an item store does. -/
def Place.read? (names : Table String) (text : String) : Option Place :=
  match Grammar.path (lexemes text.toList) with
  | some (path, []) => path.place? names
  | _ => none

/-- A path is read back from its text. -/
theorem Place.read?_pathText {path : TokenPath} (readable : path.Readable) :
    Place.read? names path.text = path.place? names := by
  have cut : lexemes path.text.toList = path.lexemes ++ [] := by
    simpa [lexemes] using lexemes_pathText readable ends_nil
  have stops : Grammar.StopsPath [] := by simp [Grammar.StopsPath]
  rw [Place.read?, cut, Grammar.path_lexemes path stops]

theorem TokenStep.readable_of_step? (spelled : ∀ binding ∈ names, Spelled "#" binding.1) {step : TokenStep}
    {below : PathStep} (found : step.step? names = some below) : step.Readable := by
  cases step with
  | index position => trivial
  | field token =>
    obtain ⟨name, bound, _⟩ := Option.map_eq_some_iff.1 found
    have member := (Table.binds_iff names token).1 (Option.isSome_iff_exists.2 ⟨name, bound⟩)
    obtain ⟨binding, listed, rfl⟩ := List.mem_map.1 member
    exact spelled binding listed

theorem TokenStep.readable_of_mapM (spelled : ∀ binding ∈ names, Spelled "#" binding.1) {steps : List TokenStep}
    {tail : List PathStep} (found : steps.mapM (TokenStep.step? names) = some tail) :
    ∀ step ∈ steps, step.Readable := by
  induction steps generalizing tail with
  | nil => exact List.forall_mem_nil _
  | cons step rest ih =>
    rw [List.mapM_cons] at found
    obtain ⟨below, first, found⟩ := Option.bind_eq_some_iff.1 found
    obtain ⟨later, others, _⟩ := Option.bind_eq_some_iff.1 found
    exact List.forall_mem_cons.2 ⟨readable_of_step? spelled first, ih others⟩

/-- A path that leads anywhere is made of bound tokens, and can be read if all of these can. -/
theorem TokenPath.readable_of_place? (spelled : ∀ binding ∈ names, Spelled "#" binding.1) {path : TokenPath}
    {place : Place} (found : path.place? names = some place) : path.Readable := by
  obtain ⟨attributeName, bound, rest⟩ := Option.bind_eq_some_iff.1 found
  obtain ⟨tail, steps, _⟩ := Option.bind_eq_some_iff.1 rest
  have root : (TokenStep.field path.root).step? names = some (.field attributeName) := by
    rw [TokenStep.step?, bound]
    rfl
  exact ⟨TokenStep.readable_of_step? spelled root, TokenStep.readable_of_mapM spelled steps⟩

/-! ## The path in the text of an action -/

/-- What stands in front of the first blank of a text. -/
def beforeBlank (text : String) : String :=
  String.ofList (text.toList.takeWhile (· != ' '))

theorem not_mem_blank_of_spelled {token : String} (spelled : Spelled "#" token) : ' ' ∉ token.toList := by
  obtain ⟨chars, rfl, all⟩ := spelled
  intro member
  simp only [String.toList_append, String.toList_ofList, List.mem_append] at member
  obtain sigil | own := member
  · exact absurd sigil (by decide)
  · exact absurd (all ' ' own) (by decide)

theorem TokenStep.not_mem_blank {step : TokenStep} (readable : step.Readable) : ' ' ∉ step.text.toList := by
  cases step with
  | field token =>
    simpa [text] using not_mem_blank_of_spelled readable
  | index position =>
    have digits : ' ' ∉ Text.digits position := fun member =>
      absurd (NameTable.isTokenChar_of_mem_digits member) (by decide)
    simpa [text, Text.digits] using digits

theorem TokenPath.not_mem_blank {path : TokenPath} (readable : path.Readable) : ' ' ∉ path.text.toList := by
  have steps : ' ' ∉ path.tail.flatMap (fun step => step.text.toList) := by
    intro member
    obtain ⟨step, listed, own⟩ := List.mem_flatMap.1 member
    exact TokenStep.not_mem_blank (readable.2 step listed) own
  have text : path.text.toList = path.root.toList ++ path.tail.flatMap (fun step => step.text.toList) := by
    simp [TokenPath.text, List.flatMap_map]
  rw [text, List.mem_append]
  exact not_or.2 ⟨not_mem_blank_of_spelled readable.1, steps⟩

theorem beforeBlank_append {path : TokenPath} (readable : path.Readable) (behind : String) :
    beforeBlank (path.text ++ " " ++ behind) = path.text := by
  have shape : (path.text ++ " " ++ behind).toList = path.text.toList ++ ' ' :: behind.toList := by simp
  rw [beforeBlank, shape, (Text.split_at_first (path.not_mem_blank readable) _).1, String.ofList_toList]

/-- The path in the text of an update: the whole text of a removal, and else what stands in front of the first blank. -/
def UpdateClause.targetText (clause : UpdateClause) (text : String) : String :=
  if clause = .remove then text else beforeBlank text

theorem TokenUpdate.targetText_eq {update : TokenUpdate} (readable : update.target.Readable) :
    update.clause.targetText update.text = update.target.text := by
  cases update with
  | remove path => rfl
  | set path value =>
    have shape : path.text ++ " = " ++ value.text = path.text ++ " " ++ ("= " ++ value.text) := by
      simp only [String.append_assoc]
      rfl
    exact (congrArg beforeBlank shape).trans (beforeBlank_append readable _)
  | add path operand | delete path operand => exact beforeBlank_append readable operand.text

/-- The path in the text of a typed action. -/
def Fragment.targetText? (fragment : Fragment) : Option String :=
  match fragment.part, fragment.clause with
  | .action _, .actions clause => some (clause.targetText fragment.text)
  | _, _ => none

/-- The text of a typed action names the place of its target: that is where its path leads to. -/
def Fragment.NamesTarget (fragment : Fragment) (entity : Entity) (names : Table String) : Prop :=
  ∀ action, fragment.part = .action action →
    ∃ text place, fragment.targetText? = some text ∧ Place.read? names text = some place ∧
      entity.place? action.toAssignment.target = some place

theorem Fragment.namesTarget {fragment : Fragment} {entity : Entity} (known : fragment.start.entity = some entity)
    (distinct : fragment.start.names.Distinct)
    (compiles : fragment.part.compile fragment.start = .ok (fragment.clause, fragment.text) t)
    (stays : t.names.bindings <+: names) (spelled : ∀ binding ∈ names, Spelled "#" binding.1) :
    fragment.NamesTarget entity names := by
  intro action typed
  rw [typed] at compiles
  obtain ⟨update, run, shown⟩ := bind_pure_eq_ok.1 compiles
  obtain ⟨clause, text⟩ := Prod.mk.inj shown
  obtain ⟨resolved, u, resolves, later, target, _⟩ := (assignment_binds run).target
  obtain ⟨place, source, bound⟩ := resolves.place? distinct (later.prefix_names.trans stays)
  rw [← target] at bound
  have readable := TokenPath.readable_of_place? spelled bound
  refine ⟨update.target.text, place, ?_, ?_, ?_⟩
  · rw [targetText?, typed, ← clause, ← text, ← TokenUpdate.targetText_eq readable]
  · rw [Place.read?_pathText readable, bound]
  · rw [← place?_knowledge known, source]

/-! ## All actions of an update -/

/-- The target of a typed action. -/
def Fragment.target? (fragment : Fragment) : Option Path :=
  Task.target? (.part fragment.part)

theorem Performs.targetsOf_eq {tasks : List Task} {fragments : List Fragment}
    (performs : Performs s tasks fragments t) : targetsOf tasks = fragments.filterMap Fragment.target? := by
  induction performs with
  | nil => rfl
  | encryptor _ ih | geoEncoder _ ih | localClock _ ih | index _ _ ih => exact ih
  | part _ _ ih => rw [targetsOf, List.filterMap_cons, List.filterMap_cons, ← ih]; rfl

/-- Where each typed action names the place of its target, so do all of them in their order. -/
theorem exists_places {entity : Entity} {fragments : List Fragment}
    (reads : ∀ fragment ∈ fragments, fragment.NamesTarget entity names) :
    ∃ places : List Place, (fragments.filterMap Fragment.targetText?).map (Place.read? names) = places.map some ∧
      (fragments.filterMap Fragment.target?).map entity.place? = places.map some := by
  induction fragments with
  | nil => exact ⟨[], rfl, rfl⟩
  | cons fragment rest ih =>
    obtain ⟨own, others⟩ := List.forall_mem_cons.1 reads
    obtain ⟨places, texts, targets⟩ := ih others
    cases typed : fragment.part with
    | action action =>
      obtain ⟨text, place, shown, read, named⟩ := own action typed
      refine ⟨place :: places, ?_, ?_⟩
      · rw [List.filterMap_cons_some shown, List.map_cons, List.map_cons, read, texts]
      · have target : fragment.target? = some action.toAssignment.target := by rw [Fragment.target?, typed]; rfl
        rw [List.filterMap_cons_some target, List.map_cons, List.map_cons, named, targets]
    | condition | project | template | raw =>
      have shown : fragment.targetText? = none := by rw [Fragment.targetText?, typed]
      have target : fragment.target? = none := by rw [Fragment.target?, typed]; rfl
      refine ⟨places, ?_, ?_⟩
      · rw [List.filterMap_cons_none shown, texts]
      · rw [List.filterMap_cons_none target, targets]

/-- Without raw texts all tokens of a finished request can be read. -/
theorem Recipe.spelled_names {recipe : Recipe} {entity : Entity} {fragments : List Fragment}
    (noRaw : recipe.rawTexts = []) (performs : Performs (.new .standard (some entity)) recipe.tasks fragments t) :
    ∀ binding ∈ t.names.bindings, Spelled "#" binding.1 := by
  refine (performs.legible (fun part member raw made => ?_) (legible_new _)).names.bindings
  have listed : raw ∈ recipe.rawTexts := List.mem_filterMap.2 ⟨.part part, member, made⟩
  rw [noRaw] at listed
  cases listed

/-- No two typed actions of a finished update change the same place: their texts name the places of their targets, and
different ones. -/
theorem Recipe.targets_distinct {entity : Entity} {steps : List Update.Step} {compiled : Compiled}
    (noRaw : (Recipe.update steps).rawTexts = [])
    (built : (Recipe.update steps).build entity .standard = .ok compiled) :
    ∃ fragments, (Recipe.update steps).Yields entity .standard fragments compiled ∧
      fragments.map (·.part) = (Recipe.update steps).tasks.filterMap Task.part? ∧
      (fragments.filterMap Fragment.targetText?).Nodup ∧
      ∃ places : List Place, places.Nodup ∧
        (fragments.filterMap Fragment.targetText?).map (Place.read? compiled.names) = places.map some ∧
        (targetsOf (Recipe.update steps).tasks).map entity.place? = places.map some := by
  obtain ⟨fragments, yields⟩ := Recipe.yields_of_build built
  obtain ⟨last, performs, names, _⟩ := yields.performs
  have targets : (targetsOf (Recipe.update steps).tasks).Nodup := by
    have fine : ((Recipe.update steps).progress entity .standard).draft.failure = none := by
      cases failure : ((Recipe.update steps).progress entity .standard).draft.failure with
      | none => rfl
      | some error => cases built.symm.trans (Recipe.build_eq_error.2 (.inl failure))
    obtain ⟨_, _, completes, _⟩ := ((Recipe.update steps).reflects entity .standard).done fine
    exact completes.distinct
  have spelled := Recipe.spelled_names noRaw performs
  have reads : ∀ fragment ∈ fragments, fragment.NamesTarget entity compiled.names := by
    intro fragment member
    obtain ⟨earlier, u, compiles, later⟩ := performs.compiled_between member
    have distinct := earlier.distinct (NameTable.distinct_empty _)
    exact Fragment.namesTarget earlier.entity distinct compiles (names ▸ later.names) (names ▸ spelled)
  obtain ⟨places, texts, named⟩ := exists_places reads
  rw [← performs.targetsOf_eq] at named
  have distinct : (places.map some).Nodup := by
    rw [← named]
    refine targets.map_on fun first memberFirst second memberSecond same => ?_
    obtain ⟨place, _, found⟩ : ∃ place ∈ places, some place = entity.place? first :=
      List.mem_map.1 (named ▸ List.mem_map_of_mem memberFirst)
    exact Entity.place?_injective yields.valid found.symm (same ▸ found.symm)
  refine ⟨fragments, yields, performs.parts, ?_, places, distinct.of_map some, texts, named⟩
  rw [← texts] at distinct
  exact distinct.of_map _

/-! Attributes that differ only in what a token cannot show, with a condition and a template in between. -/

def ledger : Entity :=
  { Entity.empty "ledger" with
    properties :=
      [{ Property.plain "CustomerId" "pk" with keyRole := .partition }, .plain "OrderDate" "order-date",
        .plain "OrderDay" "order.date", .plain "Lines" "lines"] }

def reorder : List Update.Step :=
  [.actions
      [.set (.ofName "OrderDate") (.literal (.string "monday")), .remove ((PropertyPath.ofName "Lines").field "note")],
    .condition (.typed (.exists (.ofName "OrderDay"))),
    .template .set "closed = {0}" [.bool false],
    .actions [.set (.ofName "OrderDay") (.literal (.string "friday")),
      .increment ((PropertyPath.ofName "Lines").index 0) (.number (.uint 1))]]

theorem targets_distinct_of_reorder :
    (Recipe.update reorder).rawTexts = [] ∧
      ∃ compiled, (Recipe.update reorder).build ledger .standard = .ok compiled ∧
        compiled.texts =
          ["SET #order_date = :p0, closed = :p1, #order_date_1 = :p2 ADD #lines[0] :p3 REMOVE #lines.#note",
            "attribute_exists(#order_date_1)"] ∧
        ∃ fragments, (Recipe.update reorder).Yields ledger .standard fragments compiled ∧
          fragments.map (·.part) = (Recipe.update reorder).tasks.filterMap Task.part? ∧
          (fragments.filterMap Fragment.targetText?).Nodup ∧
          ∃ places : List Place, places.Nodup ∧
            (fragments.filterMap Fragment.targetText?).map (Place.read? compiled.names) = places.map some ∧
            (targetsOf (Recipe.update reorder).tasks).map ledger.place? = places.map some := by
  have finished : ((Recipe.update reorder).build ledger .standard).toOption.map (·.texts) =
      some ["SET #order_date = :p0, closed = :p1, #order_date_1 = :p2 ADD #lines[0] :p3 REMOVE #lines.#note",
        "attribute_exists(#order_date_1)"] := by
    decide +kernel
  obtain ⟨compiled, given, texts⟩ := Option.map_eq_some_iff.1 finished
  have built := toOption_eq_some.1 given
  exact ⟨rfl, compiled, built, texts, Recipe.targets_distinct rfl built⟩

end ItemExpr
