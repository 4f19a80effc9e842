import ItemExpr.Proofs.Entity.Validity

/-!
# Key schemas

The table of an entity and each of its indexes have a key. A session looks at one of them, that of the selected index or
else of the table, and what it answers about keys is what that schema holds.
-/

namespace ItemExpr

/-- The key of a table or of an index: its attributes, and which of them is the partition key. -/
structure KeySchema where
  hasKey : String → Bool
  partition : Option String

def Index.keySchema (index : Index) : KeySchema where
  hasKey := index.hasKeyAttribute
  partition := some index.partitionKey

namespace Entity

variable {entity : Entity}

/-- The key of the table: the properties that have a role. -/
def tableKeySchema (entity : Entity) : KeySchema where
  hasKey attributeName :=
    entity.properties.any fun property => property.attributeName == attributeName && property.keyRole.isKey
  partition := (entity.propertyOfRole? .partition).map (·.attributeName)

theorem hasKey_tableKeySchema_iff {attributeName : String} :
    entity.tableKeySchema.hasKey attributeName = true ↔
      ∃ property ∈ entity.properties, property.attributeName = attributeName ∧
        (property.keyRole = .partition ∨ property.keyRole = .sort) := by
  simp [tableKeySchema, KeyRole.isKey_iff]

/-- The key of the index of a name, or of the table without one. -/
def keySchema (entity : Entity) : Option String → Option KeySchema
  | none => some entity.tableKeySchema
  | some name => (entity.index? name).map Index.keySchema

/-- In a valid entity each property with the role of the partition key is the one that is looked up by it. -/
theorem propertyOfRole?_partition (valid : entity.invalidity? = none) {property : Property}
    (member : property ∈ entity.properties) (role : property.keyRole = .partition) :
    entity.propertyOfRole? .partition = some property := by
  have single := (invalidity?_eq_none.1 valid).partition
  rw [SingleRole, List.countP_eq_length_filter] at single
  rw [propertyOfRole?, ← List.head?_filter]
  -- The property is among those of its role, and there is at most one of them.
  have kept : property ∈ entity.properties.filter (·.keyRole == .partition) :=
    List.mem_filter.2 ⟨member, by simp [role]⟩
  obtain ⟨other, only⟩ := List.length_eq_one_iff.1 (Nat.le_antisymm single (List.length_pos_of_mem kept))
  rw [only] at kept ⊢
  rw [List.mem_singleton.1 kept, List.head?_cons]

/-- The attribute of the sort key of an index, or of the table without one. -/
def sortAttribute? (entity : Entity) : Option String → Option String
  | none => (entity.propertyOfRole? .sort).map (·.attributeName)
  | some name => (entity.index? name).bind (·.sortKey)

theorem hasKey_of_sortAttribute? {selected : Option String} {schema : KeySchema} {attributeName : String}
    (declared : entity.keySchema selected = some schema)
    (sort : entity.sortAttribute? selected = some attributeName) : schema.hasKey attributeName = true := by
  cases selected with
  | none =>
    cases declared
    obtain ⟨property, found, rfl⟩ := Option.map_eq_some_iff.1 sort
    have role : property.keyRole = .sort := by simpa using List.find?_some found
    exact hasKey_tableKeySchema_iff.2 ⟨property, List.mem_of_find?_eq_some found, rfl, .inr role⟩
  | some name =>
    obtain ⟨index, found, rfl⟩ := Option.map_eq_some_iff.1 declared
    have sortKey : index.sortKey = some attributeName := by simpa [sortAttribute?, found] using sort
    simp [Index.keySchema, Index.hasKeyAttribute, sortKey]

end Entity

namespace Session

/-- The schema that conditions on keys are compiled under. -/
def keySchema (session : Session) (entity : Entity) : KeySchema :=
  match session.index with
  | some index => index.keySchema
  | none => entity.tableKeySchema

variable {s t : Session} {entity : Entity} {property : Property} {root : String}

theorem Grows.keySchema {before after : Session} (grows : Grows before after) :
    after.keySchema = before.keySchema := by
  rw [grows.frame]; rfl

theorem hasKey_of_isKey (known : s.entity = some entity) (found : s.property root = .ok property)
    (key : s.isKey property = true) : (s.keySchema entity).hasKey property.attributeName = true := by
  unfold isKey at key
  unfold keySchema
  cases selected : s.index with
  | some index => simpa [selected, Index.keySchema] using key
  | none =>
    rw [selected] at key
    have member := Entity.mem_of_property? (property?_of_property known found)
    exact Entity.hasKey_tableKeySchema_iff.2 ⟨property, member, rfl, KeyRole.isKey_iff.1 key⟩

theorem isKey_of_isPartitionKey (partition : s.isPartitionKey property = true) : s.isKey property = true := by
  unfold isPartitionKey at partition
  unfold isKey
  have here := (Bool.and_eq_true_iff.1 partition).2
  cases selected : s.index with
  | some index =>
    rw [selected] at here
    simp [Index.hasKeyAttribute, here]
  | none =>
    rw [selected] at here
    have role : property.keyRole = .partition := by simpa using here
    exact KeyRole.isKey_iff.2 (.inl role)

theorem partition_of_isPartitionKey (known : s.entity = some entity) (valid : entity.invalidity? = none)
    (found : s.property root = .ok property) (key : s.isPartitionKey property = true) :
    (s.keySchema entity).partition = some property.attributeName := by
  unfold isPartitionKey at key
  unfold keySchema
  cases selected : s.index with
  | some index => simpa [selected, known, Index.keySchema] using key
  | none =>
    have role : property.keyRole = .partition := by simpa [selected, known] using key
    have member := Entity.mem_of_property? (property?_of_property known found)
    simp only [Entity.tableKeySchema, Entity.propertyOfRole?_partition valid member role, Option.map_some]

/-- In a valid entity a property that an attribute of the key stores is a property of the key. -/
theorem isKey_of_hasKey (known : s.entity = some entity) (valid : entity.invalidity? = none)
    (found : s.property root = .ok property) (key : (s.keySchema entity).hasKey property.attributeName = true) :
    s.isKey property = true := by
  unfold keySchema at key
  unfold isKey
  cases selected : s.index with
  | some index => simpa [selected, Index.keySchema] using key
  | none =>
    rw [selected] at key
    obtain ⟨other, member, same, role⟩ := Entity.hasKey_tableKeySchema_iff.1 key
    obtain rfl := Entity.eq_of_attributeName valid member
      (Entity.mem_of_property? (property?_of_property known found)) same
    exact KeyRole.isKey_iff.2 role

/-- In a valid entity the property that the attribute of the partition key stores is the partition key. -/
theorem isPartitionKey_of_partition (known : s.entity = some entity) (valid : entity.invalidity? = none)
    (found : s.property root = .ok property)
    (partition : (s.keySchema entity).partition = some property.attributeName) : s.isPartitionKey property = true := by
  unfold keySchema at partition
  unfold isPartitionKey
  cases selected : s.index with
  | some index => simpa [selected, known, Index.keySchema] using partition
  | none =>
    rw [selected] at partition
    obtain ⟨other, first, same⟩ := Option.map_eq_some_iff.1 partition
    have role : other.keyRole = .partition := by simpa using List.find?_some first
    obtain rfl := Entity.eq_of_attributeName valid (List.mem_of_find?_eq_some first)
      (Entity.mem_of_property? (property?_of_property known found)) same
    simp [known, role]

theorem partitionAttribute?_eq (known : s.entity = some entity) :
    s.partitionAttribute? = (s.keySchema entity).partition := by
  unfold partitionAttribute? keySchema
  rw [known]
  cases s.index <;> rfl

/-- A session that does not miss a comparison of the partition key has noted one, or there is no such key. -/
theorem requirePartitionBound_eq_ok (known : s.entity = some entity) (required : s.requirePartitionBound = .ok ()) :
    s.partitionBound = true ∨ (s.keySchema entity).partition = none := by
  unfold requirePartitionBound at required
  rw [partitionAttribute?_eq known] at required
  split at required
  · exact .inl ‹_›
  · split at required
    · exact .inr ‹_›
    · cases required

end Session

end ItemExpr
