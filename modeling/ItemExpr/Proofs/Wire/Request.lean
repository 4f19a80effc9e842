import ItemExpr.Proofs.Wire.AttributeValue
import ItemExpr.Proofs.Wire.Record
import ItemExpr.Request.Standalone

/-!
# Requests are read as they are written

The two tables of a request are objects, which repeat no name since a table binds no token twice. So each kind of
request is read back from its wire form, whichever of its texts are absent and whichever of its tables are empty.
-/

namespace ItemExpr

open Json

namespace Request

variable {names : Table String} {values : Table AttributeValue}

/-- The tables of a request bind each token once, and so do the maps among the values that the tokens stand for. -/
structure DistinctTables (names : Table String) (values : Table AttributeValue) : Prop where
  names : (names.map (·.1)).Nodup
  values : (AttributeValue.map values).Distinct

/-! ## Tables -/

theorem namesOfJson?_namesToJson (distinct : (names.map (·.1)).Nodup) :
    namesOfJson? (namesToJson names) = some names := by
  have members : (namesToJson names).members? = some (names.map fun binding => (binding.1, text binding.2)) :=
    members?_ofMembers _
  have read : (names.map fun binding => (binding.1, text binding.2)).mapM
      (fun member => member.2.text?.map (member.1, ·)) = some names := by
    clear distinct members
    induction names with
    | nil => rfl
    | cons binding rest ih => simp [ih]
  show ((namesToJson names).members? >>= fun members =>
    members.mapM (fun member => member.2.text?.map (member.1, ·)) >>= fun bindings => some (Table.ofList bindings)) = _
  rw [members, Option.bind_eq_bind, Option.bind_some, read, Option.bind_eq_bind, Option.bind_some,
    Table.ofList_of_nodup distinct]

theorem tableOfJson?_tableToJson (distinct : (AttributeValue.map values).Distinct) :
    AttributeValue.tableOfJson? (AttributeValue.tableToJson values) = some values := by
  rw [AttributeValue.tableToJson, AttributeValue.tableOfJson?,
    AttributeValue.entriesOfJson?_entriesToJson values distinct.2]
  exact congrArg some (Table.ofList_of_nodup distinct.1)

theorem within_tableMembers (names : Table String) (values : Table AttributeValue) :
    Within (["ExpressionAttributeNames"] ++ ["ExpressionAttributeValues"]) (tableMembers names values) :=
  (within_whenFilled _ _ _).append (within_whenFilled _ _ _)

theorem DistinctTables.readNames (distinct : DistinctTables names values) :
    Fields.readDefaulted [] namesOfJson? (if names = [] then none else some (namesToJson names)) = some names :=
  Fields.readDefaulted_filled (namesOfJson?_namesToJson distinct.names)

theorem DistinctTables.readValues (distinct : DistinctTables names values) :
    Fields.readDefaulted [] AttributeValue.tableOfJson?
      (if values = [] then none else some (AttributeValue.tableToJson values)) = some values :=
  Fields.readDefaulted_filled (tableOfJson?_tableToJson distinct.values)

end Request

open Request

/-! ## Requests -/

/-! The members of a request are its fields. -/

theorem BoundExpression.fields?_toJson (bound : BoundExpression) :
    bound.toJson.fields? fields = bound.toJson.members? :=
  fields?_ofMembers ((within_always _ _).append (within_tableMembers _ _)) rfl (by decide)

theorem QueryRequest.fields?_toJson (query : QueryRequest) : query.toJson.fields? fields = query.toJson.members? :=
  fields?_ofMembers
    (((((within_whenSome _ _ _).append (within_always _ _)).append (within_whenSome _ _ _)).append
      (within_whenSome _ _ _)).append (within_tableMembers _ _)) rfl (by decide)

theorem ScanRequest.fields?_toJson (scan : ScanRequest) : scan.toJson.fields? fields = scan.toJson.members? :=
  fields?_ofMembers
    (((within_whenSome _ _ _).append (within_whenSome _ _ _)).append (within_tableMembers _ _)) rfl (by decide)

theorem UpdateRequest.fields?_toJson (update : UpdateRequest) :
    update.toJson.fields? fields = update.toJson.members? :=
  fields?_ofMembers
    (((within_always _ _).append (within_whenSome _ _ _)).append (within_tableMembers _ _)) rfl (by decide)

/-! A request is read from its members, each of which is found under the name of its field. -/

theorem BoundExpression.ofJson?_toJson {bound : BoundExpression} (distinct : DistinctTables bound.names bound.values) :
    ofJson? bound.toJson = some bound := by
  rw [ofJson?, fields?_toJson, toJson, members?_ofMembers]
  simp [ofFields?, givenNames?, givenValues?, tableMembers, Fields.required_eq, Fields.defaulted_eq,
    List.lookup_append, distinct.readNames, distinct.readValues]

theorem QueryRequest.ofJson?_toJson {query : QueryRequest} (distinct : DistinctTables query.names query.values) :
    ofJson? query.toJson = some query := by
  rw [ofJson?, fields?_toJson, toJson, members?_ofMembers]
  simp [ofFields?, givenNames?, givenValues?, tableMembers, Fields.required_eq, Fields.optional_eq,
    Fields.defaulted_eq, List.lookup_append, distinct.readNames, distinct.readValues]

theorem ScanRequest.ofJson?_toJson {scan : ScanRequest} (distinct : DistinctTables scan.names scan.values) :
    ofJson? scan.toJson = some scan := by
  rw [ofJson?, fields?_toJson, toJson, members?_ofMembers]
  simp [ofFields?, givenNames?, givenValues?, tableMembers, Fields.optional_eq, Fields.defaulted_eq,
    List.lookup_append, distinct.readNames, distinct.readValues]

theorem UpdateRequest.ofJson?_toJson {update : UpdateRequest} (distinct : DistinctTables update.names update.values) :
    ofJson? update.toJson = some update := by
  rw [ofJson?, fields?_toJson, toJson, members?_ofMembers]
  simp [ofFields?, givenNames?, givenValues?, tableMembers, Fields.required_eq, Fields.optional_eq,
    Fields.defaulted_eq, List.lookup_append, distinct.readNames, distinct.readValues]

end ItemExpr
