import Mathlib.Data.List.Nodup
import ItemExpr.Proofs.Session

/-!
# Valid entities and what is wrong with others

An entity is accepted if and only if it is valid: no two of its properties share an attribute, neither key role has two
properties, and the keys of its indexes are made of attributes that properties are stored under. Any other entity is
refused with the first violation in that order, which is a real one: the error names the attribute that two properties
share, the first two properties of a role, or an index with an attribute of its key that no property has. In a valid
entity two names are never resolved to one attribute (`Entity.validate_exact`).
-/

namespace ItemExpr

namespace Entity

/-- No two of some properties are stored under the same attribute. -/
def DistinctAttributes (properties : List Property) : Prop :=
  properties.Pairwise fun first second => first.attributeName ≠ second.attributeName

/-- Some property of the entity is stored under an attribute. -/
def Maps (entity : Entity) (attributeName : String) : Prop :=
  ∃ property ∈ entity.properties, property.attributeName = attributeName

/-- At most one property has a role. -/
def SingleRole (entity : Entity) (role : KeyRole) : Prop :=
  entity.properties.countP (·.keyRole == role) ≤ 1

/-- The key of an index is made of attributes that properties are stored under. -/
def Covers (entity : Entity) (index : Index) : Prop :=
  entity.Maps index.partitionKey ∧ ∀ attributeName, index.sortKey = some attributeName → entity.Maps attributeName

structure Valid (entity : Entity) : Prop where
  attributes : DistinctAttributes entity.properties
  partition : entity.SingleRole .partition
  sort : entity.SingleRole .sort
  indexes : ∀ index ∈ entity.indexes, entity.Covers index

/-- Two properties have a role, and none in front of the second has it but the first. -/
def FirstHolders (entity : Entity) (role : KeyRole) (first second : Property) : Prop :=
  ∃ before between after, entity.properties = before ++ first :: (between ++ second :: after) ∧
    first.keyRole = role ∧ second.keyRole = role ∧ ∀ other ∈ before ++ between, other.keyRole ≠ role

/-- The first attribute of an index's key, partition key before sort key, that no property is stored under. -/
def FirstUnmapped (entity : Entity) (index : Index) (attributeName : String) : Prop :=
  ¬ entity.Maps attributeName ∧
    (attributeName = index.partitionKey ∨ entity.Maps index.partitionKey ∧ index.sortKey = some attributeName)

/-- What an error says is wrong with an entity, and nothing that is looked at before is wrong with it. -/
inductive FirstViolation (entity : Entity) : EntityError → Prop where
  | sharedAttribute {before after : List Property} {first second : Property} :
    entity.properties = before ++ second :: after → DistinctAttributes before →
      first ∈ before → first.attributeName = second.attributeName →
        FirstViolation entity (.duplicateAttribute entity.tableName second.attributeName)
  | partition {first second : Property} :
    DistinctAttributes entity.properties → entity.FirstHolders .partition first second →
      FirstViolation entity (.duplicateKey entity.tableName .partition first.logicalName second.logicalName)
  | sort {first second : Property} :
    DistinctAttributes entity.properties → entity.SingleRole .partition → entity.FirstHolders .sort first second →
      FirstViolation entity (.duplicateKey entity.tableName .sort first.logicalName second.logicalName)
  | index {before after : List Index} {index : Index} {attributeName : String} :
    DistinctAttributes entity.properties → entity.SingleRole .partition → entity.SingleRole .sort →
      entity.indexes = before ++ index :: after → (∀ earlier ∈ before, entity.Covers earlier) →
        entity.FirstUnmapped index attributeName →
          FirstViolation entity (.unknownIndexAttribute entity.tableName index.name attributeName)

variable {entity : Entity} {error : EntityError}

/-! ## Attributes -/

theorem firstRepeated?_eq_none {seen names : List String} :
    firstRepeated? seen names = none ↔ names.Nodup ∧ ∀ name ∈ names, name ∉ seen := by
  induction names generalizing seen with
  | nil => simp [firstRepeated?]
  | cons head rest ih =>
    by_cases old : head ∈ seen
    · simp [firstRepeated?, old]
    · rw [firstRepeated?, if_neg old, ih, List.nodup_cons, List.forall_mem_cons]
      -- What comes behind the head is new if it neither is the head nor was seen before.
      constructor
      · rintro ⟨nodup, fresh⟩
        have absent : head ∉ rest := fun member => fresh head member List.mem_cons_self
        exact ⟨⟨absent, nodup⟩, old, fun name member known => fresh name member (List.mem_cons_of_mem _ known)⟩
      · rintro ⟨⟨absent, nodup⟩, -, fresh⟩
        refine ⟨nodup, fun name member known => ?_⟩
        obtain rfl | known := List.mem_cons.1 known
        · exact absent member
        · exact fresh name member known

/-- The first name that repeats another is the one behind names that are all new. -/
theorem firstRepeated?_eq_some {seen names : List String} {name : String} :
    firstRepeated? seen names = some name ↔ ∃ before after, names = before ++ name :: after ∧
      firstRepeated? seen before = none ∧ (name ∈ before ∨ name ∈ seen) := by
  induction names generalizing seen with
  | nil => simp [firstRepeated?]
  | cons head rest ih =>
    by_cases old : head ∈ seen
    · rw [firstRepeated?, if_pos old, Option.some.injEq]
      constructor
      · rintro rfl
        exact ⟨[], rest, rfl, rfl, .inr old⟩
      · rintro ⟨before, after, split, new, -⟩
        cases before with
        | nil => exact (List.cons.inj split).1
        | cons first before =>
          obtain ⟨rfl, -⟩ := List.cons.inj split
          simp [firstRepeated?, old] at new
    · rw [firstRepeated?, if_neg old, ih]
      constructor
      · rintro ⟨before, after, rfl, new, member⟩
        refine ⟨head :: before, after, rfl, by rwa [firstRepeated?, if_neg old], ?_⟩
        simpa [or_assoc, or_left_comm] using member
      · rintro ⟨before, after, split, new, member⟩
        cases before with
        | nil =>
          obtain ⟨rfl, -⟩ := List.cons.inj split
          exact absurd member (by simp [old])
        | cons first before =>
          obtain ⟨rfl, rfl⟩ := List.cons.inj split
          rw [firstRepeated?, if_neg old] at new
          exact ⟨before, after, rfl, new, by simpa [or_assoc, or_left_comm] using member⟩

theorem distinctAttributes_iff {properties : List Property} :
    DistinctAttributes properties ↔ firstRepeated? [] (properties.map (·.attributeName)) = none := by
  rw [firstRepeated?_eq_none, List.Nodup, List.pairwise_map]
  simp [DistinctAttributes]

theorem repeatedAttribute?_eq_none : entity.repeatedAttribute? = none ↔ DistinctAttributes entity.properties := by
  rw [repeatedAttribute?, Option.map_eq_none_iff, attributes, distinctAttributes_iff]

theorem repeatedAttribute?_eq_some :
    entity.repeatedAttribute? = some error ↔ ∃ before second after, entity.properties = before ++ second :: after ∧
      DistinctAttributes before ∧ (∃ first ∈ before, first.attributeName = second.attributeName) ∧
        .duplicateAttribute entity.tableName second.attributeName = error := by
  simp only [repeatedAttribute?, Option.map_eq_some_iff, firstRepeated?_eq_some, attributes, distinctAttributes_iff]
  constructor
  · rintro ⟨name, ⟨before, after, split, new, member⟩, rfl⟩
    obtain ⟨properties, others, shape, rfl, behind⟩ := List.map_eq_append_iff.1 split
    obtain ⟨second, later, rfl, rfl, -⟩ := List.map_eq_cons_iff.1 behind
    exact ⟨properties, second, later, shape, new, by simpa using member, rfl⟩
  · rintro ⟨before, second, after, shape, new, shared, rfl⟩
    exact ⟨_, ⟨_, after.map (·.attributeName), by simp [shape], new, by simpa using shared⟩, rfl⟩

/-! ## Roles -/

theorem repeatedRole?_eq_none {role : KeyRole} : entity.repeatedRole? role = none ↔ entity.SingleRole role := by
  rw [SingleRole, List.countP_eq_length_filter, repeatedRole?]
  cases entity.properties.filter (·.keyRole == role) with
  | nil => simp
  | cons first rest => cases rest <;> simp

theorem firstHolders_iff {role : KeyRole} {first second : Property} :
    entity.FirstHolders role first second ↔
      ∃ rest, entity.properties.filter (·.keyRole == role) = first :: second :: rest := by
  simp only [FirstHolders, List.filter_eq_cons_iff, beq_iff_eq, List.mem_append]
  constructor
  · rintro ⟨before, between, after, shape, own, ownSecond, others⟩
    exact ⟨_, before, _, shape, fun other member => others other (.inl member), own, between, after, rfl,
      fun other member => others other (.inr member), ownSecond, rfl⟩
  · rintro ⟨_, before, _, shape, others, own, between, after, rfl, othersBetween, ownSecond, -⟩
    exact ⟨before, between, after, shape, own, ownSecond, fun other member =>
      member.elim (others other) (othersBetween other)⟩

theorem repeatedRole?_eq_some {role : KeyRole} :
    entity.repeatedRole? role = some error ↔ ∃ first second, entity.FirstHolders role first second ∧
      .duplicateKey entity.tableName role first.logicalName second.logicalName = error := by
  simp only [firstHolders_iff, repeatedRole?]
  cases entity.properties.filter (·.keyRole == role) with
  | nil => simp
  | cons first rest => cases rest <;> simp

/-! ## Indexes -/

theorem mem_attributes {attributeName : String} : attributeName ∈ entity.attributes ↔ entity.Maps attributeName :=
  List.mem_map

theorem find?_keyAttributes_eq_none {index : Index} :
    index.keyAttributes.find? (· ∉ entity.attributes) = none ↔ entity.Covers index := by
  simp [Index.keyAttributes, Covers, mem_attributes]

theorem find?_keyAttributes_eq_some {index : Index} {attributeName : String} :
    index.keyAttributes.find? (· ∉ entity.attributes) = some attributeName ↔
      entity.FirstUnmapped index attributeName := by
  rw [List.find?_eq_some_iff_append]
  simp only [decide_eq_true_eq, Bool.not_eq_true', decide_eq_false_iff_not, not_not, mem_attributes]
  refine and_congr_right fun unmapped => ?_
  -- Either the partition key is the one, or it is in front of the sort key.
  constructor
  · rintro ⟨before, after, split, mapped⟩
    cases before with
    | nil => exact .inl (List.cons.inj split).1.symm
    | cons first before =>
      obtain ⟨rfl, behind⟩ := List.cons.inj split
      have member : attributeName ∈ index.sortKey.toList := by simp [behind]
      exact .inr ⟨mapped _ List.mem_cons_self, by simpa using member⟩
  · rintro (rfl | ⟨mapped, sort⟩)
    · exact ⟨[], _, rfl, List.forall_mem_nil _⟩
    · exact ⟨[index.partitionKey], [], by simp [Index.keyAttributes, sort], by simpa using mapped⟩

theorem unknownKeyAttribute?_eq_none {index : Index} :
    entity.unknownKeyAttribute? index = none ↔ entity.Covers index := by
  rw [unknownKeyAttribute?, Option.map_eq_none_iff, find?_keyAttributes_eq_none]

theorem unknownKeyAttribute?_eq_some {index : Index} :
    entity.unknownKeyAttribute? index = some error ↔ ∃ attributeName, entity.FirstUnmapped index attributeName ∧
      .unknownIndexAttribute entity.tableName index.name attributeName = error := by
  simp only [unknownKeyAttribute?, Option.map_eq_some_iff, find?_keyAttributes_eq_some]

/-! ## The first violation -/

theorem invalidity?_eq_none : entity.invalidity? = none ↔ entity.Valid := by
  simp only [invalidity?, Option.orElse_eq_orElse, Option.orElse_eq_or, Option.or_eq_none_iff,
    List.findSome?_eq_none_iff, repeatedAttribute?_eq_none, repeatedRole?_eq_none, unknownKeyAttribute?_eq_none]
  exact ⟨fun ⟨attributes, partition, sort, indexes⟩ => ⟨attributes, partition, sort, indexes⟩,
    fun valid => ⟨valid.attributes, valid.partition, valid.sort, valid.indexes⟩⟩

theorem invalidity?_eq_some : entity.invalidity? = some error ↔ entity.FirstViolation error := by
  simp only [invalidity?, Option.orElse_eq_orElse, Option.orElse_eq_or, Option.or_eq_some_iff,
    List.findSome?_eq_some_iff, repeatedAttribute?_eq_none, repeatedRole?_eq_none, unknownKeyAttribute?_eq_none,
    repeatedAttribute?_eq_some, repeatedRole?_eq_some, unknownKeyAttribute?_eq_some]
  constructor
  · rintro (⟨_, _, _, shape, new, ⟨_, member, same⟩, rfl⟩ | ⟨distinct, ⟨_, _, holders, rfl⟩ |
      ⟨single, ⟨_, _, holders, rfl⟩ | ⟨singleSort, before, index, after, shape, ⟨_, unmapped, rfl⟩, covered⟩⟩⟩)
    · exact .sharedAttribute shape new member same
    · exact .partition distinct holders
    · exact .sort distinct single holders
    · exact .index distinct single singleSort shape covered unmapped
  · intro violation
    cases violation with
    | sharedAttribute shape new member same => exact .inl ⟨_, _, _, shape, new, ⟨_, member, same⟩, rfl⟩
    | partition distinct holders => exact .inr ⟨distinct, .inl ⟨_, _, holders, rfl⟩⟩
    | sort distinct single holders => exact .inr ⟨distinct, .inr ⟨single, .inl ⟨_, _, holders, rfl⟩⟩⟩
    | index distinct single singleSort shape covered unmapped =>
      exact .inr ⟨distinct, .inr ⟨single, .inr ⟨singleSort, _, _, _, shape, ⟨_, unmapped, rfl⟩, covered⟩⟩⟩

theorem validate_eq_ok : entity.validate = .ok () ↔ entity.invalidity? = none := by
  unfold validate
  cases entity.invalidity? <;> simp

theorem validate_eq_error : entity.validate = .error error ↔ entity.invalidity? = some error := by
  unfold validate
  cases entity.invalidity? <;> simp

/-! ## Looking up in a valid entity -/

theorem mem_of_property? {root : String} {property : Property} (found : entity.property? root = some property) :
    property ∈ entity.properties :=
  List.mem_of_find?_eq_some found

/-- A property is found under its own name only. -/
theorem logicalName_of_property? {root : String} {property : Property} (found : entity.property? root = some property) :
    property.logicalName = root := by
  simpa using List.find?_some found

/-- In a valid entity an attribute stores at most one property. -/
theorem eq_of_attributeName (valid : entity.invalidity? = none) {first second : Property}
    (memberFirst : first ∈ entity.properties) (memberSecond : second ∈ entity.properties)
    (same : first.attributeName = second.attributeName) : first = second :=
  List.inj_on_of_nodup_map (List.pairwise_map.2 (invalidity?_eq_none.1 valid).attributes) memberFirst memberSecond same

/-- In a valid entity two names are not resolved to one attribute. -/
theorem root_eq_of_attributeName (valid : entity.invalidity? = none) {root other : String}
    {property namesake : Property} (found : entity.property? root = some property)
    (foundOther : entity.property? other = some namesake)
    (same : property.attributeName = namesake.attributeName) : root = other := by
  obtain rfl := eq_of_attributeName valid (mem_of_property? found) (mem_of_property? foundOther) same
  rw [← logicalName_of_property? found, ← logicalName_of_property? foundOther]

/-- Validation accepts the valid entities, and refuses any other with the first violation in it. In an entity that it
accepts, two names that a session resolves are resolved to two attributes. -/
theorem validate_exact (entity : Entity) :
    (entity.validate = .ok () ↔ entity.Valid) ∧
      (∀ error, entity.validate = .error error ↔ entity.FirstViolation error) ∧
      (entity.validate = .ok () → ∀ session : Session, session.entity = some entity →
        ∀ first second firstProperty secondProperty, session.property first = .ok firstProperty →
          session.property second = .ok secondProperty → first ≠ second →
            firstProperty.attributeName ≠ secondProperty.attributeName) := by
  refine ⟨?accepted, ?refused, ?resolved⟩
  case accepted => rw [validate_eq_ok, invalidity?_eq_none]
  case refused =>
    intro error
    rw [validate_eq_error, invalidity?_eq_some]
  case resolved =>
    intro accepted session known first second firstProperty secondProperty foundFirst foundSecond differ same
    exact differ (root_eq_of_attributeName (validate_eq_ok.1 accepted) (Session.property?_of_property known foundFirst)
      (Session.property?_of_property known foundSecond) same)

def visits : Entity :=
  { empty "visits" with
    properties := [{ Property.plain "Guest" "pk" with keyRole := .partition },
      { Property.plain "Day" "sk" with keyRole := .sort }, .plain "Room" "room"]
    indexes := [⟨"by-room", "room", some "pk"⟩] }

/-- A second partition key is found before an index on an attribute that is not mapped. -/
theorem validate_exact_of_visits :
    visits.validate = .ok () ∧
      (∃ guest room, (Session.new .standard (some visits)).property "Guest" = .ok guest ∧
        (Session.new .standard (some visits)).property "Room" = .ok room ∧ "Guest" ≠ "Room" ∧
          guest.attributeName ≠ room.attributeName) ∧
      { visits with
        properties := visits.properties ++ [{ Property.plain "Host" "host" with keyRole := .partition }]
        indexes := ⟨"by-bed", "bed", none⟩ :: visits.indexes }.FirstViolation
          (.duplicateKey "visits" .partition "Guest" "Host") := by
  have accepted : visits.validate = .ok () := by decide
  have differ : "Guest" ≠ "Room" := by decide
  refine ⟨accepted, ⟨_, _, rfl, rfl, differ, ?_⟩, ((validate_exact _).2.1 _).1 (by decide)⟩
  exact (validate_exact visits).2.2 accepted (.new .standard (some visits)) rfl "Guest" "Room" _ _ rfl rfl differ

end Entity

end ItemExpr
