import ItemExpr.Proofs.Condition.Acceptance
import ItemExpr.Proofs.Condition.Lexing
import ItemExpr.Proofs.KeySchema
import ItemExpr.Proofs.Request.Accumulation

/-!
# Keys are not updated

An update of a property of the table's key is refused, whatever it is and however deep it goes. So no typed action of a
finished update starts with a token of an attribute of the key, whatever tokens other steps have bound.
-/

namespace ItemExpr

open Session SessionM

variable {s t : Session}

/-! ## Targets -/

/-- The place that an update changes. -/
def TokenUpdate.target : TokenUpdate → TokenPath
  | .set path _ | .remove path | .add path _ | .delete path _ => path

/-- The text of an update starts with the token of its attribute, and the token ends there. -/
theorem TokenUpdate.text_starts (update : TokenUpdate) :
    ∃ rest, update.text = update.target.root ++ rest ∧ Ends rest.toList := by
  have behind : ∀ (path : TokenPath) {text : String}, Ends text.toList →
      ∃ rest, path.text ++ text = path.root ++ rest ∧ Ends rest.toList := by
    intro path text ends
    refine ⟨String.join (path.tail.map TokenStep.text) ++ text, by rw [TokenPath.text, String.append_assoc], ?_⟩
    simpa [List.flatMap_map] using ends_stepTexts ends
  cases update with
  | set path value =>
    have ends : Ends (" = " ++ value.text).toList := by simpa using ends_blank
    simpa only [text, target, String.append_assoc] using behind path ends
  | remove path =>
    have ends : Ends "".toList := ends_nil
    simpa only [text, target, String.append_empty] using behind path ends
  | add path operand | delete path operand =>
    have ends : Ends (" " ++ operand.text).toList := by simpa using ends_blank
    simpa only [text, target, String.append_assoc] using behind path ends

/-- What an update changes is a place below a property that is not in the key of the table. -/
theorem BindsUpdate.target {assignment : Assignment} {update : TokenUpdate}
    (binds : BindsUpdate s assignment update t) :
    ∃ resolved u, Resolves s assignment.target resolved u ∧ Grows u t ∧ update.target = resolved.path ∧
      resolved.property.keyRole = .none := by
  cases binds with
  | set resolves free value => exact ⟨_, _, resolves, value.grows, rfl, free⟩
  | remove resolves free => exact ⟨_, _, resolves, .refl _, rfl, free⟩
  | add _ resolves free operand => exact ⟨_, _, resolves, operand.grows, rfl, free⟩
  | delete resolves free operand => exact ⟨_, _, resolves, operand.grows, rfl, free⟩

/-- The first token of a path stands for the attribute of its property. -/
theorem Resolves.root_bound {path : Path} {resolved : ResolvedPath} {names : Table String}
    (resolves : Resolves s path resolved t) (distinct : s.names.Distinct) (more : t.names.bindings <+: names) :
    names.value? resolved.path.root = some resolved.property.attributeName ∧
      ∃ root, s.property root = .ok resolved.property := by
  cases resolves with
  | @root root tail property steps final found checked flat binds =>
    obtain ⟨attributeNames, rfl⟩ := binds.names
    exact ⟨Table.value?_of_prefix ((NameTable.bindings_prefix_bindAll ..).trans more)
      (NameTable.attribute?_bind distinct _), root, found⟩

/-! ## Keys -/

/-- An update of a property of the key is refused, wherever below it it goes and whatever its value is. -/
theorem assignment_of_isKey {root : String} {property : Property} (unrestricted : s.keysOnly = false)
    (found : s.property root = .ok property) (key : property.keyRole.isKey = true) (tail : List PathStep)
    (value : Expr) : ∃ after, SessionM.assignment ⟨⟨.field root :: tail⟩, value⟩ s =
      .error (.keyUpdate property.logicalName property.keyRole) after := by
  have reaches : s.knowledge.Reaches ⟨.field root :: tail⟩ := .field (knowledge_property_eq_some.2 found)
  obtain ⟨resolved, t, resolves⟩ := reaches.resolves unrestricted
  obtain rfl : property = resolved.property := by
    cases resolves with
    | root declared =>
      cases found.symm.trans declared
      rfl
  refine ⟨t, bind_eq_error.2 (.inr ⟨resolved, t, resolves.run, ?_⟩)⟩
  simp only [key, if_true]
  rfl

/-- In a valid entity no attribute of the key stores a property that is not in the key. -/
theorem attributeName_ne_of_isKey {entity : Entity} (known : s.entity = some entity)
    (valid : entity.invalidity? = none) {root : String} {property other : Property}
    (found : s.property root = .ok property) (free : property.keyRole = .none) (member : other ∈ entity.properties)
    (key : other.keyRole.isKey = true) : property.attributeName ≠ other.attributeName := by
  intro same
  have own := Entity.mem_of_property? (property?_of_property known found)
  obtain rfl := Entity.eq_of_attributeName valid own member same
  rw [free] at key
  cases key

/-- A typed action changes no attribute of the key: the token that its text starts with, and that ends where the rest
begins, stands for another attribute in the tables of the request. -/
structure Fragment.SparesKey (fragment : Fragment) (entity : Entity) (names : Table String) (update : TokenUpdate) :
    Prop where
  text : fragment.text = update.text
  starts : ∃ rest, fragment.text = update.target.root ++ rest ∧ Ends rest.toList
  spares : ∃ attributeName, names.value? update.target.root = some attributeName ∧
    ∀ property ∈ entity.properties, property.keyRole.isKey = true → attributeName ≠ property.attributeName

theorem Fragment.sparesKey {fragment : Fragment} {entity : Entity} {names : Table String} {action : Action}
    (typed : fragment.part = .action action) (known : fragment.start.entity = some entity)
    (valid : entity.invalidity? = none) (distinct : fragment.start.names.Distinct)
    (compiles : fragment.part.compile fragment.start = .ok (fragment.clause, fragment.text) t)
    (stays : t.names.bindings <+: names) :
    ∃ update after, SessionM.assignment action.toAssignment fragment.start = .ok update after ∧
      fragment.SparesKey entity names update := by
  rw [typed] at compiles
  obtain ⟨update, run, shown⟩ := bind_pure_eq_ok.1 compiles
  have text : fragment.text = update.text := (congrArg Prod.snd shown).symm
  obtain ⟨resolved, u, resolves, later, target, free⟩ := (assignment_binds run).target
  obtain ⟨bound, root, found⟩ := resolves.root_bound distinct (later.prefix_names.trans stays)
  refine ⟨update, t, run, text, text ▸ update.text_starts, resolved.property.attributeName, target ▸ bound, ?_⟩
  exact fun property member key => attributeName_ne_of_isKey known valid found free member key

/-- An update of a property of the table's key is refused, and no typed action of a finished update starts with a token
of an attribute of the key. -/
theorem Recipe.keys_not_updated :
    (∀ (session : Session) (root : String) (property : Property) (tail : List PathStep) (value : Expr),
      session.mode = .unrestricted → session.property root = .ok property → property.keyRole.isKey = true →
      ∃ after, SessionM.assignment ⟨⟨.field root :: tail⟩, value⟩ session =
        .error (.keyUpdate property.logicalName property.keyRole) after) ∧
    ∀ (entity : Entity) (settings : Settings) (steps : List Update.Step) (compiled : Compiled),
      (Recipe.update steps).build entity settings = .ok compiled →
      ∃ fragments, (Recipe.update steps).Yields entity settings fragments compiled ∧
        fragments.map (·.part) = (Recipe.update steps).tasks.filterMap Task.part? ∧
        ∀ fragment ∈ fragments, ∀ action, fragment.part = .action action →
          ∃ update after, SessionM.assignment action.toAssignment fragment.start = .ok update after ∧
            fragment.SparesKey entity compiled.names update := by
  constructor
  · intro session root property tail value unrestricted found key
    exact assignment_of_isKey (by simp [keysOnly, unrestricted]) found key tail value
  · intro entity settings steps compiled built
    obtain ⟨fragments, yields⟩ := Recipe.yields_of_build built
    obtain ⟨last, performs, names, _⟩ := yields.performs
    refine ⟨fragments, yields, performs.parts, fun fragment member action typed => ?_⟩
    obtain ⟨earlier, u, compiles, later⟩ := performs.compiled_between member
    have distinct := earlier.distinct (NameTable.distinct_empty _)
    exact Fragment.sparesKey typed earlier.entity yields.valid distinct compiles (names ▸ later.names)

/-! A raw text that takes, for the attribute of the key, the token that the attribute of another property would get. -/

def reopen : List Update.Step :=
  [.condition (.raw ⟨"attribute_exists(#status)", [("#status", "pk")], []⟩),
    .actions [.set (.ofName "Status") (.literal (.string "open"))]]

theorem keys_not_updated_of_reopen :
    (∃ after, SessionM.assignment ⟨⟨[.field "CustomerId", .index 0]⟩, .not (.constant (.string "a"))⟩
        (.new .standard (some Query.orders)) = .error (.keyUpdate "CustomerId" .partition) after) ∧
      ∃ compiled, (Recipe.update reopen).build Query.orders .standard = .ok compiled ∧
        compiled.texts = ["SET #status_1 = :p0", "attribute_exists(#status)"] ∧
        ∃ fragments, (Recipe.update reopen).Yields Query.orders .standard fragments compiled ∧
          fragments.map (·.part) = (Recipe.update reopen).tasks.filterMap Task.part? ∧
          ∀ fragment ∈ fragments, ∀ action, fragment.part = .action action →
            ∃ update after, SessionM.assignment action.toAssignment fragment.start = .ok update after ∧
              fragment.SparesKey Query.orders compiled.names update := by
  obtain ⟨refuses, spares⟩ := Recipe.keys_not_updated
  have finished : ((Recipe.update reopen).build Query.orders .standard).toOption.map (·.texts) =
      some ["SET #status_1 = :p0", "attribute_exists(#status)"] := by
    decide +kernel
  obtain ⟨compiled, given, texts⟩ := Option.map_eq_some_iff.1 finished
  have built := toOption_eq_some.1 given
  refine ⟨?_, compiled, built, texts, spares _ _ _ _ built⟩
  exact refuses _ _ { Property.plain "CustomerId" "pk" with keyRole := .partition } _ _ rfl rfl rfl

end ItemExpr
