import ItemExpr.Entity.Wire
import ItemExpr.Proofs.Wire.Record

/-!
# Entities are read as they are written

Each part of an entity is read back from its wire form, whichever of its fields were left out because they have no value
or are empty. So an entity is read back too (`Entity.ofJson?_toJson`).
-/

namespace ItemExpr

open Json

/-! ## Parts -/

theorem Json.byte?_ofInt (byte : UInt8) : (Json.ofInt byte.toNat).byte? = some byte := by
  have small : byte.toNat < 256 := byte.toNat_lt
  rw [Json.ofInt, Json.byte?, Text.toList_toString, Text.readDigits?_digits]
  simp [small]

@[simp] theorem KeyRole.ofJson?_toJson (role : KeyRole) : ofJson? role.toJson = some role := by
  cases role <;> rfl

@[simp] theorem TimezoneMode.ofJson?_toJson (mode : TimezoneMode) : ofJson? mode.toJson = some mode := by
  cases mode <;> rfl

/-! A record is read from its members, each of which is found under the name of its field. -/

theorem GeoEncoding.ofJson?_toJson (geo : GeoEncoding) : ofJson? geo.toJson = some geo := by
  have given : geo.toJson.fields? fields = geo.toJson.members? :=
    fields?_ofMembers ((within_always _ _).append (within_always _ _)) rfl (by decide)
  rw [ofJson?, given, toJson, members?_ofMembers]
  simp [Fields.required_eq, List.lookup_cons, Json.byte?_ofInt]

theorem Property.ofJson?_toJson (property : Property) : ofJson? property.toJson = some property := by
  have given : property.toJson.fields? fields = property.toJson.members? :=
    fields?_ofMembers
      (((((((within_always _ _).append (within_always _ _)).append (within_always _ _)).append
        (within_whenSome _ _ _)).append (within_always _ _)).append (within_always _ _)).append
          (within_whenSome _ _ _)) rfl (by decide)
  have geo := Fields.readOptional_map GeoEncoding.ofJson?_toJson (fun _ => nofun) property.geo
  rw [ofJson?, given, toJson, members?_ofMembers]
  simp [Fields.required_eq, Fields.optional_eq, Fields.defaulted_eq, List.lookup_append, geo]

theorem Index.ofJson?_toJson (index : Index) : ofJson? index.toJson = some index := by
  have given : index.toJson.fields? fields = index.toJson.members? :=
    fields?_ofMembers (((within_always _ _).append (within_always _ _)).append (within_whenSome _ _ _)) rfl (by decide)
  rw [ofJson?, given, toJson, members?_ofMembers]
  simp [Fields.required_eq, Fields.optional_eq, List.lookup_append]

theorem Relationship.ofJson?_toJson (relationship : Relationship) :
    ofJson? relationship.toJson = some relationship := by
  have given : relationship.toJson.fields? fields = relationship.toJson.members? :=
    fields?_ofMembers
      ((((within_always _ _).append (within_always _ _)).append (within_always _ _)).append (within_always _ _))
      rfl (by decide)
  rw [ofJson?, given, toJson, members?_ofMembers]
  simp [Fields.required_eq, Fields.defaulted_eq, List.lookup_append]

theorem Discriminator.ofJson?_toJson (discriminator : Discriminator) :
    ofJson? discriminator.toJson = some discriminator := by
  have given : discriminator.toJson.fields? fields = discriminator.toJson.members? :=
    fields?_ofMembers ((within_always _ _).append (within_always _ _)) rfl (by decide)
  rw [ofJson?, given, toJson, members?_ofMembers]
  simp [Fields.required_eq, List.lookup_cons]

/-! ## Entities -/

namespace Entity

theorem arrayOfJson?_arrayToJson {α : Type} {read : Json → Option α} {write : α → Json}
    (exact : ∀ a, read (write a) = some a) (items : List α) :
    arrayOfJson? read (arrayToJson write items) = some items := by
  show List.mapM read (items.map write) = some items
  induction items with
  | nil => rfl
  | cons item rest ih => simp [exact, ih]

theorem ofJson?_toJson (entity : Entity) : ofJson? entity.toJson = some entity := by
  have given : entity.toJson.fields? fields = entity.toJson.members? :=
    fields?_ofMembers
      ((((((within_always _ _).append (within_whenSome _ _ _)).append (within_always _ _)).append
        (within_whenFilled _ _ _)).append (within_whenFilled _ _ _)).append (within_always _ _)) rfl (by decide)
  have discriminator :=
    Fields.readOptional_map Discriminator.ofJson?_toJson (fun _ => nofun) entity.discriminator
  have properties := arrayOfJson?_arrayToJson Property.ofJson?_toJson entity.properties
  have indexes := Fields.readDefaulted_filled (arrayOfJson?_arrayToJson Index.ofJson?_toJson entity.indexes)
  have relationships :=
    Fields.readDefaulted_filled (arrayOfJson?_arrayToJson Relationship.ofJson?_toJson entity.relationships)
  rw [ofJson?, given, toJson, members?_ofMembers]
  simp [Fields.required_eq, Fields.optional_eq, Fields.defaulted_eq, List.lookup_append, discriminator, properties,
    indexes, relationships]

end Entity

end ItemExpr
