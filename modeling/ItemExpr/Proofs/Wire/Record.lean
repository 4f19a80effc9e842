import Mathlib.Data.List.Nodup
import ItemExpr.Json.Record

/-!
# Records are read as they are written

A record is written as an object whose members are some of its fields, in their order. Such an object gives these
members when its fields are asked for (`Json.fields?_ofMembers`), and each field is found among them with the value that
it was written with, or not at all if it was left out. However a record is given, it nests deeper than its fields.
-/

namespace ItemExpr.Json

/-! ## Members -/

/-- Members are named by some names in the order of these; not every name needs to have a member. -/
def Within (names : List String) (members : List (String × Json)) : Prop :=
  (members.map (·.1)).Sublist names

section

variable {α : Type} {names more : List String} {members others : List (String × Json)} {name key : String}

theorem Within.append (front : Within names members) (behind : Within more others) :
    Within (names ++ more) (members ++ others) := by
  rw [Within, List.map_append]
  exact List.Sublist.append front behind

theorem within_always (name : String) (value : Json) : Within [name] (always name value) :=
  List.Sublist.refl _

theorem within_whenSome (name : String) (write : α → Json) (o : Option α) : Within [name] (whenSome name write o) := by
  cases o with
  | none => exact List.nil_sublist _
  | some a => exact List.Sublist.refl _

theorem within_whenFilled (name : String) (write : List α → Json) (items : List α) :
    Within [name] (whenFilled name write items) := by
  cases items with
  | nil => exact List.nil_sublist _
  | cons item rest => exact List.Sublist.refl _

theorem lookup_singleton (value : Json) : [(name, value)].lookup key = if key = name then some value else none := by
  by_cases same : key = name
  · simp [same]
  · simp [List.lookup_cons, same, beq_false_of_ne same]

@[simp] theorem lookup_always (value : Json) :
    (always name value).lookup key = if key = name then some value else none :=
  lookup_singleton value

@[simp] theorem lookup_whenSome (write : α → Json) (o : Option α) :
    (whenSome name write o).lookup key = if key = name then o.map write else none := by
  cases o with
  | none => exact (ite_self none).symm
  | some a => exact lookup_singleton (write a)

@[simp] theorem lookup_whenFilled (write : List α → Json) (items : List α) :
    (whenFilled name write items).lookup key =
      if key = name then (if items = [] then none else some (write items)) else none := by
  cases items with
  | nil => exact (ite_self none).symm
  | cons item rest => exact lookup_singleton (write (item :: rest))

end

/-! ## Fields -/

theorem members?_ofMembers (members : List (String × Json)) : (ofMembers members).members? = some members := by
  rw [ofMembers, members?]
  induction members with
  | nil => rfl
  | cons member rest ih => simp [ih]

/-- The value of the member with a name. -/
def member? (key : String) (json : Json) : Option Json :=
  json.members? >>= List.lookup key

theorem member?_ofMembers (key : String) (members : List (String × Json)) :
    (ofMembers members).member? key = members.lookup key := by
  rw [member?, members?_ofMembers]
  rfl

theorem eraseDups_of_nodup {names : List String} (distinct : names.Nodup) : names.eraseDups = names := by
  induction names with
  | nil => rfl
  | cons name rest ih =>
    obtain ⟨absent, distinct⟩ := List.nodup_cons.1 distinct
    have kept : rest.filter (fun other => !other == name) = rest := by
      refine List.filter_eq_self.2 fun other member => ?_
      have differs : other ≠ name := fun same => absent (same ▸ member)
      simpa using differs
    rw [List.eraseDups_cons, kept, ih distinct]

/-- Members that are named by the fields of a record are what it gives. -/
theorem fields?_ofMembers {fields : List Field} {names : List String} {members : List (String × Json)}
    (within : Within names members) (declared : fields.map (·.name) = names) (distinct : names.Nodup) :
    (ofMembers members).fields? fields = (ofMembers members).members? := by
  have known : members.filter (fun member => fields.any (·.name == member.1)) = members := by
    refine List.filter_eq_self.2 fun member listed => ?_
    have name : member.1 ∈ fields.map (·.name) := by
      rw [declared]
      exact within.subset (List.mem_map_of_mem listed)
    simpa using name
  have single : (members.map (·.1)).eraseDups = members.map (·.1) := eraseDups_of_nodup (distinct.sublist within)
  show ((ofMembers members).members? >>= fieldsOfMembers? fields) = (ofMembers members).members?
  rw [members?_ofMembers]
  show (let known := members.filter fun member => fields.any (·.name == member.1)
    if (known.map (·.1)).eraseDups.length = (known.map (·.1)).length then some known else none) = some members
  simp only [known, single, if_true]

/-! ## Values of members -/

/-- What holds for the value of each of some members. -/
def Each (holds : Json → Prop) (members : List (String × Json)) : Prop :=
  ∀ member ∈ members, holds member.2

section

variable {α : Type} {holds : Json → Prop} {name : String}

@[simp] theorem each_nil : Each holds [] :=
  List.forall_mem_nil _

@[simp] theorem each_cons {member : String × Json} {rest : List (String × Json)} :
    Each holds (member :: rest) ↔ holds member.2 ∧ Each holds rest :=
  List.forall_mem_cons

@[simp] theorem each_append {members others : List (String × Json)} :
    Each holds (members ++ others) ↔ Each holds members ∧ Each holds others :=
  List.forall_mem_append

@[simp] theorem each_always {value : Json} : Each holds (always name value) ↔ holds value := by
  simp [always]

@[simp] theorem each_whenSome {write : α → Json} {o : Option α} :
    Each holds (whenSome name write o) ↔ ∀ a, o = some a → holds (write a) := by
  cases o <;> simp [whenSome]

@[simp] theorem each_whenFilled {write : List α → Json} {items : List α} :
    Each holds (whenFilled name write items) ↔ (items ≠ [] → holds (write items)) := by
  cases items <;> simp [whenFilled]

end

/-! ## Nesting -/

section

variable {n : Nat}

/-- A record nests one deeper than its fields. -/
@[simp] theorem nesting_ofMembers_le_iff {members : List (String × Json)} :
    (ofMembers members).nesting ≤ n + 1 ↔ Each (·.nesting ≤ n) members := by
  show nestingMembers (members.map fun member => (some member.1, member.2)) + 1 ≤ n + 1 ↔ _
  rw [Nat.add_le_add_iff_right]
  induction members with
  | nil => exact ⟨fun _ => each_nil, fun _ => Nat.zero_le n⟩
  | cons member rest ih =>
    rw [each_cons, ← ih]
    exact Nat.max_le

theorem nesting_arrayOf_le {α : Type} {write : α → Json} (each : ∀ a, (write a).nesting ≤ n) (items : List α) :
    (array (items.map write)).nesting ≤ n + 1 := by
  refine Nat.succ_le_succ ?_
  induction items with
  | nil => exact Nat.zero_le n
  | cons item rest ih => exact Nat.max_le.2 ⟨each item, ih⟩

@[simp] theorem nesting_text (s : String) : (text s).nesting = 0 := rfl

@[simp] theorem nesting_bool (b : Bool) : (Json.bool b).nesting = 0 := rfl

@[simp] theorem nesting_ofInt (z : Int) : (ofInt z).nesting = 0 := rfl

end

/-! ## Reading fields -/

@[simp] theorem text?_text (s : String) : (text s).text? = some s := rfl

@[simp] theorem bool?_bool (b : Bool) : (Json.bool b).bool? = some b := rfl

namespace Fields

/-- What the value of a field that may be left out or be `null` is read as, where it is not left out. -/
def readOptional {α : Type} (read : Json → Option α) : Option Json → Option (Option α)
  | none | some .null => some none
  | some json => some <$> read json

/-- What the value of a field with a default is read as, where it is not left out. -/
def readDefaulted {α : Type} (default : α) (read : Json → Option α) : Option Json → Option α
  | none => some default
  | some json => read json

variable {α : Type} {given : Fields} {name : String} {read : Json → Option α}

theorem required_eq : given.required name read = (given.lookup name).bind read := rfl

theorem optional_eq : given.optional name read = readOptional read (given.lookup name) := rfl

theorem defaulted_eq {default : α} :
    given.defaulted name default read = readDefaulted default read (given.lookup name) := rfl

/-- A field that is left out where it has no value is read as it is written, if no value of it is written as `null`. -/
theorem readOptional_map {write : α → Json} (exact : ∀ a, read (write a) = some a) (filled : ∀ a, write a ≠ .null)
    (o : Option α) : readOptional read (o.map write) = some o := by
  cases o with
  | none => rfl
  | some a =>
    rw [Option.map_some, readOptional.eq_3 _ _ (filled a), exact]
    rfl

@[simp] theorem readOptional_text (o : Option String) : readOptional text? (o.map text) = some o :=
  readOptional_map text?_text (fun _ => nofun) o

@[simp] theorem readDefaulted_some {default : α} (json : Json) :
    readDefaulted default read (some json) = read json := rfl

/-- A list that is left out where it is empty is read as it is written. -/
theorem readDefaulted_filled {write : List α → Json} {read : Json → Option (List α)} {items : List α}
    (exact : read (write items) = some items) :
    readDefaulted [] read (if items = [] then none else some (write items)) = some items := by
  cases items with
  | nil => rfl
  | cons item rest => exact exact

end Fields

end ItemExpr.Json
