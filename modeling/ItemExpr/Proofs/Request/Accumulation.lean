import ItemExpr.Proofs.AttributeValue
import ItemExpr.Proofs.Binding.Run
import ItemExpr.Proofs.Request.Recipe

/-!
# What a request accumulates

Whatever is compiled on the way to a request, the tables of its tokens only grow, and a raw text adds its bindings to
them or is refused. So a request keeps all bindings of a shorter recipe, and has those of every raw text just as they
were given (`Recipe.bindings_kept`).
-/

namespace ItemExpr

open Session SessionM

variable {s t u : Session}

/-! ## Growth of the tables -/

theorem accumulates_useIndex {name : String} (run : useIndex name s = .ok () t) : Accumulates s t := by
  obtain ⟨index, _, changes⟩ := query_bind_eq_ok.1 run
  obtain rfl := modify_eq_ok.1 changes
  exact ⟨rfl, List.prefix_rfl, id, List.prefix_rfl⟩

theorem ConditionSource.accumulates {source : ConditionSource} {text : String} (run : source.compile s = .ok text t) :
    Accumulates s t := by
  cases source with
  | typed condition =>
    obtain ⟨c, compiles, _⟩ := compile_typed run
    exact (condition_binds compiles).grows.accumulates
  | template template args => exact (extends_template run).toAccumulates
  | raw raw => exact (extends_rawText run).toAccumulates

theorem Part.accumulates {part : Part} {clause : Clause} {text : String}
    (run : part.compile s = .ok (clause, text) t) : Accumulates s t := by
  cases part with
  | condition clause source =>
    obtain ⟨text, compiles, _⟩ := bind_pure_eq_ok.1 run
    exact source.accumulates compiles
  | project path =>
    obtain ⟨shown, compiles, _⟩ := bind_pure_eq_ok.1 run
    exact (extends_projection compiles).toAccumulates
  | action action =>
    obtain ⟨update, compiles, _⟩ := bind_pure_eq_ok.1 run
    exact (assignment_binds compiles).grows.accumulates
  | template clause template args =>
    obtain ⟨text, compiles, _⟩ := bind_pure_eq_ok.1 run
    exact (extends_template compiles).toAccumulates
  | raw clause raw =>
    obtain ⟨text, compiles, _⟩ := bind_pure_eq_ok.1 run
    exact (extends_rawText compiles).toAccumulates

/-! ## Runs of tasks -/

namespace Performs

variable {tasks first second : List Task} {fragments : List Fragment}

theorem accumulates (performs : Performs s tasks fragments t) : Accumulates s t := by
  induction performs with
  | nil => exact .refl _
  | encryptor _ ih | geoEncoder _ ih | localClock _ ih => exact ⟨ih.entity, ih.names, ih.distinct, ih.values⟩
  | index selects _ ih => exact ((accumulates_useIndex selects).within _).trans ih
  | part compiles _ ih => exact ((Part.accumulates compiles).within _).trans ih

/-- The parts among some tasks are compiled to their fragments, one after the other. -/
theorem parts (performs : Performs s tasks fragments t) :
    fragments.map (·.part) = tasks.filterMap Task.part? := by
  induction performs with
  | nil => rfl
  | encryptor _ ih | geoEncoder _ ih | localClock _ ih | index _ _ ih => exact ih
  | part _ _ ih => rw [List.map_cons, ih, List.filterMap_cons]; rfl

/-- Where a fragment was compiled: in a session that has grown from the first one, and grows into the last one. -/
theorem compiled_between (performs : Performs s tasks fragments t) {fragment : Fragment}
    (member : fragment ∈ fragments) :
    Accumulates s fragment.start ∧
      ∃ u, fragment.part.compile fragment.start = .ok (fragment.clause, fragment.text) u ∧ Accumulates u t := by
  induction performs with
  | nil => cases member
  | encryptor _ ih | geoEncoder _ ih | localClock _ ih =>
    obtain ⟨start, later⟩ := ih member
    exact ⟨⟨start.entity, start.names, start.distinct, start.values⟩, later⟩
  | index selects _ ih =>
    obtain ⟨start, later⟩ := ih member
    exact ⟨((accumulates_useIndex selects).within _).trans start, later⟩
  | part compiles further ih =>
    cases member with
    | head => exact ⟨accumulates_mode _ _, _, compiles, (accumulates_mode _ _).trans further.accumulates⟩
    | tail _ member =>
      obtain ⟨start, later⟩ := ih member
      exact ⟨((Part.accumulates compiles).within _).trans start, later⟩

/-- Tasks that are done one after the other can be done up to any point, and from there on. -/
theorem split (performs : Performs s (first ++ second) fragments t) :
    ∃ earlier later u, fragments = earlier ++ later ∧ Performs s first earlier u ∧ Performs u second later t := by
  induction first generalizing s fragments with
  | nil => exact ⟨[], fragments, s, rfl, .nil, performs⟩
  | cons task rest ih =>
    cases performs with
    | encryptor further | geoEncoder further | localClock further =>
      obtain ⟨earlier, later, u, parted, front, behind⟩ := ih further
      refine ⟨earlier, later, u, parted, ?_, behind⟩
      constructor
      exact front
    | index selects further =>
      obtain ⟨earlier, later, u, parted, front, behind⟩ := ih further
      exact ⟨earlier, later, u, parted, .index selects front, behind⟩
    | part compiles further =>
      obtain ⟨earlier, later, u, parted, front, behind⟩ := ih further
      exact ⟨_ :: earlier, later, u, by rw [parted, List.cons_append], .part compiles front, behind⟩

/-- What some tasks come to depends on nothing but the session in which they start. -/
theorem functional {others : List Fragment} (performs : Performs s tasks fragments t)
    (again : Performs s tasks others u) : fragments = others ∧ t = u := by
  induction performs generalizing others with
  | nil =>
    cases again
    exact ⟨rfl, rfl⟩
  | encryptor _ ih | geoEncoder _ ih | localClock _ ih =>
    cases again
    rename_i further
    exact ih further
  | index selects _ ih =>
    cases again with
    | index reselects further =>
      cases selects.symm.trans reselects
      exact ih further
  | part compiles _ ih =>
    cases again with
    | part recompiles further =>
      cases compiles.symm.trans recompiles
      obtain ⟨rfl, rfl⟩ := ih further
      exact ⟨rfl, rfl⟩

end Performs

/-! ## Raw texts -/

theorem attribute?_insertName {token attributeName : String} (run : insertName token attributeName s = .ok () t) :
    t.names.attribute? token = some attributeName := by
  obtain ⟨names, inserted, changes⟩ := query_bind_eq_ok.1 run
  obtain rfl := modify_eq_ok.1 changes
  have inserted : s.names.insert token attributeName = .ok names := mapError_eq_ok.1 inserted
  unfold NameTable.insert at inserted
  split at inserted
  · rename_i new
    cases inserted
    exact Table.value?_append_new attributeName (by simpa [Table.binds, NameTable.attribute?] using new)
  · rename_i existing bound
    split at inserted
    · rename_i same
      cases inserted
      exact same ▸ bound
    · cases inserted

/-- A token that is given for a value stands for it, or for a value that only has its entries in another order. -/
theorem value?_insertValue {token : String} {value : AttributeValue} (run : insertValue token value s = .ok () t) :
    ∃ stored, Table.value? t.values token = some stored ∧ stored.MatchesGiven value := by
  obtain ⟨values, inserted, changes⟩ := query_bind_eq_ok.1 run
  obtain rfl := modify_eq_ok.1 changes
  have inserted : ValueTable.insert s.values token value = .ok values := mapError_eq_ok.1 inserted
  unfold ValueTable.insert at inserted
  split at inserted
  · rename_i new
    cases inserted
    exact ⟨value, Table.value?_append_new value (by simp [Table.binds, new]), .of_same (.inl rfl)⟩
  · rename_i existing bound
    split at inserted
    · rename_i same
      cases inserted
      exact ⟨existing, bound, .of_same (.inr same)⟩
    · cases inserted

/-- What is done for each of some items holds for all of them in the end, if it is kept by what is done for others. -/
theorem forM_establishes {α : Type} {items : List α} {op : α → SessionM PUnit} (holds : α → Session → Prop)
    (each : ∀ {item s t}, op item s = .ok () t → Extends s t ∧ holds item t)
    (kept : ∀ {item s t}, Extends s t → holds item s → holds item t) (run : items.forM op s = .ok () t) :
    ∀ item ∈ items, holds item t := by
  induction items generalizing s with
  | nil => exact nofun
  | cons first rest ih =>
    have both : (op first >>= fun _ => rest.forM op) s = .ok () t := run
    obtain ⟨_, u, done, later⟩ := bind_eq_ok.1 both
    have further : Extends u t := forM_extends (fun run => (each run).1) later
    exact List.forall_mem_cons.2 ⟨kept further (each done).2, ih later⟩

/-- Tables that bind the tokens of a raw text to what it gives for them. -/
structure RawText.Bound (raw : RawText) (names : Table String) (values : Table AttributeValue) : Prop where
  names : ∀ token attributeName, (token, attributeName) ∈ raw.names → names.value? token = some attributeName
  values : ∀ token value, (token, value) ∈ raw.values →
    ∃ stored, values.value? token = some stored ∧ stored.MatchesGiven value

theorem RawText.Bound.mono {raw : RawText} {names more : Table String} {values further : Table AttributeValue}
    (bound : raw.Bound names values) (namesGrow : names <+: more) (valuesGrow : values <+: further) :
    raw.Bound more further where
  names token attributeName given := Table.value?_of_prefix namesGrow (bound.names token attributeName given)
  values token value given := by
    obtain ⟨stored, found, same⟩ := bound.values token value given
    exact ⟨stored, Table.value?_of_prefix valuesGrow found, same⟩

theorem RawText.bound_of_compile {raw : RawText} {text : String} (run : raw.compile s = .ok text t) :
    raw.Bound t.names.bindings t.values := by
  unfold RawText.compile at run
  obtain ⟨_, _, read, run⟩ := bind_eq_ok.1 run
  obtain ⟨rfl, rfl⟩ := get_eq_ok.1 read
  split at run
  · obtain ⟨_, _, thrown, _⟩ := bind_eq_ok.1 run
    exact absurd thrown unsupported_ne_ok
  · obtain ⟨_, u, names, run⟩ := bind_eq_ok.1 run
    obtain ⟨_, values, _⟩ := bind_pure_eq_ok.1 run
    -- The values are inserted behind the names, which stay.
    have further : Extends u t := forM_extends extends_insertValue values
    have named := forM_establishes
      (fun (binding : String × String) session => session.names.attribute? binding.1 = some binding.2)
      (fun run => ⟨extends_insertName run, attribute?_insertName run⟩)
      (fun grows bound => Table.value?_of_prefix grows.names bound) names
    have valued := forM_establishes
      (fun (binding : String × AttributeValue) session =>
        ∃ stored, Table.value? session.values binding.1 = some stored ∧ stored.MatchesGiven binding.2)
      (fun run => ⟨extends_insertValue run, value?_insertValue run⟩)
      (fun grows ⟨stored, bound, same⟩ => ⟨stored, Table.value?_of_prefix grows.values bound, same⟩) values
    exact ⟨fun token attributeName given => Table.value?_of_prefix further.names (named _ given),
      fun token value given => valued _ given⟩

/-- The raw text that a part is made from. -/
def Part.raw? : Part → Option RawText
  | .condition _ (.raw text) | .raw _ text => some text
  | _ => none

theorem Part.bound_of_raw? {part : Part} {raw : RawText} {clause : Clause} {text : String} (made : part.raw? = some raw)
    (run : part.compile s = .ok (clause, text) t) : raw.Bound t.names.bindings t.values := by
  match part, made with
  | .condition clause (.raw _), rfl =>
    obtain ⟨text, compiles, _⟩ := bind_pure_eq_ok.1 run
    exact RawText.bound_of_compile compiles
  | .raw clause _, rfl =>
    obtain ⟨text, compiles, _⟩ := bind_pure_eq_ok.1 run
    exact RawText.bound_of_compile compiles

theorem Performs.bound_of_raw? {tasks : List Task} {fragments : List Fragment} (performs : Performs s tasks fragments t)
    {part : Part} {raw : RawText} (member : .part part ∈ tasks) (made : part.raw? = some raw) :
    raw.Bound t.names.bindings t.values := by
  have listed : part ∈ tasks.filterMap Task.part? := List.mem_filterMap.2 ⟨.part part, member, rfl⟩
  rw [← performs.parts] at listed
  obtain ⟨fragment, compiled, rfl⟩ := List.mem_map.1 listed
  obtain ⟨_, u, compiles, later⟩ := performs.compiled_between compiled
  exact (Part.bound_of_raw? made compiles).mono later.names later.values

/-! ## Longer recipes -/

/-- A recipe of the same kind with more steps behind the steps of a recipe. -/
inductive Recipe.Continues : Recipe → Recipe → Prop where
  | query {steps more : List Query.Step} : Continues (.query steps) (.query (steps ++ more))
  | scan {steps more : List Scan.Step} : Continues (.scan steps) (.scan (steps ++ more))
  | guard {steps more : List Guard.Step} : Continues (.guard steps) (.guard (steps ++ more))
  | update {steps more : List Update.Step} : Continues (.update steps) (.update (steps ++ more))

theorem Recipe.Continues.tasks {recipe longer : Recipe} (continues : recipe.Continues longer) :
    ∃ more, longer.tasks = recipe.tasks ++ more := by
  cases continues with
  | query | scan | guard => exact ⟨_, List.map_append⟩
  | update => exact ⟨_, List.flatMap_append⟩

/-- The raw texts among the steps of a recipe. -/
def Recipe.rawTexts (recipe : Recipe) : List RawText :=
  recipe.tasks.filterMap fun task => task.part?.bind Part.raw?

variable {longer : Recipe} {entity : Entity} {settings : Settings}

/-- What the tables of a finished request bind stays bound in every request that continues its recipe, and each raw text
of a finished request is bound in it as it was given. -/
theorem Recipe.bindings_kept {last : Compiled} (built : longer.build entity settings = .ok last) :
    (∀ (recipe : Recipe) (first : Compiled), recipe.Continues longer → recipe.build entity settings = .ok first →
      (∀ token attributeName, first.names.value? token = some attributeName →
        last.names.value? token = some attributeName) ∧
      ∀ token value, first.values.value? token = some value → last.values.value? token = some value) ∧
    ∀ raw ∈ longer.rawTexts, raw.Bound last.names last.values := by
  obtain ⟨fragments, yields⟩ := longer.yields_of_build built
  obtain ⟨after, performs, names, values⟩ := yields.performs
  refine ⟨?_, ?_⟩
  · intro recipe first continues builtFirst
    obtain ⟨others, yieldsFirst⟩ := recipe.yields_of_build builtFirst
    obtain ⟨middle, performsFirst, namesFirst, valuesFirst⟩ := yieldsFirst.performs
    obtain ⟨more, longerTasks⟩ := continues.tasks
    -- The longer recipe passes through the session in which the shorter one ends.
    rw [longerTasks] at performs
    obtain ⟨earlier, later, passed, _, front, behind⟩ := performs.split
    obtain rfl : middle = passed := (performsFirst.functional front).2
    rw [names, values, namesFirst, valuesFirst]
    exact ⟨fun token attributeName => Table.value?_of_prefix behind.accumulates.names,
      fun token value => Table.value?_of_prefix behind.accumulates.values⟩
  · intro raw member
    obtain ⟨task, listed, made⟩ := List.mem_filterMap.1 member
    obtain ⟨part, own, made⟩ := Option.bind_eq_some_iff.1 made
    obtain rfl : task = .part part := by cases task <;> simp_all [Task.part?]
    rw [names, values]
    exact performs.bound_of_raw? listed made

/-! A raw text that takes a token of its own between two conditions whose tokens are made, so the last one passes over
it. -/

def notClosed : RawText :=
  ⟨"#status <> :p1", [("#status", "status")], [(":p1", .string "closed")]⟩

def openOrders : List Scan.Step :=
  [.filter (.typed (.compare .ne (.ofName "Status") (.literal (.string "new")))), .filter (.raw notClosed)]

def cheapOrders : List Scan.Step :=
  [.filter (.typed (.compare .lt (.ofName "Total") (.literal (.string "9"))))]

theorem bindings_kept_of_openOrders :
    ∃ first last, (Recipe.scan openOrders).build Query.orders .standard = .ok first ∧
      (Recipe.scan (openOrders ++ cheapOrders)).build Query.orders .standard = .ok last ∧
      last.texts = ["(#status <> :p0) AND (#status <> :p1) AND (#total < :p2)"] ∧
      first.names.value? "#status" = some "status" ∧ last.names.value? "#status" = some "status" ∧
      notClosed.Bound last.names last.values := by
  have short : ((Recipe.scan openOrders).build Query.orders .standard).toOption.map
      (fun compiled => compiled.names.value? "#status") = some (some "status") := by
    decide +kernel
  have long : ((Recipe.scan (openOrders ++ cheapOrders)).build Query.orders .standard).toOption.map (·.texts) =
      some ["(#status <> :p0) AND (#status <> :p1) AND (#total < :p2)"] := by
    decide +kernel
  obtain ⟨first, givenFirst, bound⟩ := Option.map_eq_some_iff.1 short
  obtain ⟨last, givenLast, texts⟩ := Option.map_eq_some_iff.1 long
  have builtFirst := toOption_eq_some.1 givenFirst
  have builtLast := toOption_eq_some.1 givenLast
  obtain ⟨kept, raw⟩ := Recipe.bindings_kept builtLast
  obtain ⟨names, _⟩ := kept _ first .scan builtFirst
  exact ⟨first, last, builtFirst, builtLast, texts, bound, names _ _ bound, raw _ (List.mem_singleton.2 rfl)⟩

end ItemExpr
