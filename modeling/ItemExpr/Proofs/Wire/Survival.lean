import ItemExpr.Proofs.Wire.Entity
import ItemExpr.Proofs.Wire.Request
import ItemExpr.Proofs.Wire.Text

/-!
# Requests and entities survive their wire form

A request or an entity is read back from its wire form, and the text of the wire form is read as that wire form; of its
optional texts and its tables, a request leaves out those that are absent or empty (`wire_survives`). What is assumed of
a request is that its tables, and the maps among its values, bind a name once.

How deep the values of a request nest does not matter to its wire form. It matters to the reader of requests from texts,
which gives up exactly on what nests too deep. Entities never do.
-/

namespace ItemExpr

open Json

/-! ## Entities as texts -/

theorem GeoEncoding.spelled_toJson (geo : GeoEncoding) : geo.toJson.Spelled := by
  simp [toJson]

theorem Property.spelled_toJson (property : Property) : property.toJson.Spelled := by
  simp [toJson, KeyRole.toJson, TimezoneMode.toJson, GeoEncoding.spelled_toJson]

theorem Index.spelled_toJson (index : Index) : index.toJson.Spelled := by
  simp [toJson]

theorem Relationship.spelled_toJson (relationship : Relationship) : relationship.toJson.Spelled := by
  simp [toJson]

theorem Discriminator.spelled_toJson (discriminator : Discriminator) : discriminator.toJson.Spelled := by
  simp [toJson]

theorem Entity.spelled_toJson (entity : Entity) : entity.toJson.Spelled := by
  simp [toJson, arrayToJson, spelled_arrayOf, Property.spelled_toJson, Index.spelled_toJson,
    Relationship.spelled_toJson, Discriminator.spelled_toJson]

/-! An entity is a record with arrays of records, of which some have records in them. -/

theorem Property.nesting_toJson (property : Property) : property.toJson.nesting ≤ 2 := by
  simp [toJson, KeyRole.toJson, TimezoneMode.toJson, GeoEncoding.toJson]

theorem Index.nesting_toJson (index : Index) : index.toJson.nesting ≤ 2 := by
  simp [toJson]

theorem Relationship.nesting_toJson (relationship : Relationship) : relationship.toJson.nesting ≤ 2 := by
  simp [toJson]

theorem Entity.nesting_toJson (entity : Entity) : entity.toJson.nesting ≤ 4 := by
  simp [toJson, arrayToJson, Discriminator.toJson, nesting_arrayOf_le Property.nesting_toJson,
    nesting_arrayOf_le Index.nesting_toJson, nesting_arrayOf_le Relationship.nesting_toJson]

/-! ## Requests as texts -/

namespace AttributeValue

mutual

theorem spelled_toJson : ∀ value : AttributeValue, value.toJson.Spelled
  | .string _ | .number _ | .binary _ => ⟨trivial, trivial⟩
  | .bool _ | .null _ => ⟨trivial, trivial⟩
  | .stringSet items | .numberSet items => ⟨spelled_arrayOf spelled_text items, trivial⟩
  | .binarySet items => ⟨spelled_arrayOf (fun _ => spelled_text _) items, trivial⟩
  | .list items => ⟨spelledItems_toJson items, trivial⟩
  | .map entries => ⟨spelledMembers_toJson entries, trivial⟩

theorem spelledItems_toJson : ∀ items : List AttributeValue, SpelledItems (itemsToJson items)
  | [] => trivial
  | item :: rest => ⟨spelled_toJson item, spelledItems_toJson rest⟩

theorem spelledMembers_toJson : ∀ entries : List (String × AttributeValue), SpelledMembers (entriesToJson entries)
  | [] => trivial
  | (_, value) :: rest => ⟨spelled_toJson value, spelledMembers_toJson rest⟩

end

end AttributeValue

namespace Request

theorem spelled_tableMembers (names : Table String) (values : Table AttributeValue) :
    Each Spelled (tableMembers names values) := by
  have bindings : Each Spelled (names.map fun binding => (binding.1, text binding.2)) :=
    List.forall_mem_map.2 fun binding _ => spelled_text binding.2
  have written : (namesToJson names).Spelled := spelled_ofMembers.2 bindings
  have literals : (AttributeValue.tableToJson values).Spelled := AttributeValue.spelledMembers_toJson values
  simp [tableMembers, written, literals]

/-- Of the two tables of a request, its wire form leaves out those that are empty. -/
def OmitsEmptyTables (json : Json) (names : Table String) (values : Table AttributeValue) : Prop :=
  (json.member? "ExpressionAttributeNames" = none ↔ names = []) ∧
    (json.member? "ExpressionAttributeValues" = none ↔ values = [])

end Request

open Request

theorem BoundExpression.spelled_toJson (bound : BoundExpression) : bound.toJson.Spelled := by
  simp [toJson, spelled_tableMembers]

theorem QueryRequest.spelled_toJson (query : QueryRequest) : query.toJson.Spelled := by
  simp [toJson, spelled_tableMembers]

theorem ScanRequest.spelled_toJson (scan : ScanRequest) : scan.toJson.Spelled := by
  simp [toJson, spelled_tableMembers]

theorem UpdateRequest.spelled_toJson (update : UpdateRequest) : update.toJson.Spelled := by
  simp [toJson, spelled_tableMembers]

/-! ## What is left out -/

theorem BoundExpression.omits (bound : BoundExpression) :
    OmitsEmptyTables bound.toJson bound.names bound.values := by
  simp [OmitsEmptyTables, toJson, tableMembers, member?_ofMembers, List.lookup_append]

theorem QueryRequest.omits (query : QueryRequest) :
    OmitsEmptyTables query.toJson query.names query.values ∧
      (query.toJson.member? "IndexName" = none ↔ query.indexName = none) ∧
      (query.toJson.member? "FilterExpression" = none ↔ query.filter = none) ∧
      (query.toJson.member? "ProjectionExpression" = none ↔ query.projection = none) := by
  simp [OmitsEmptyTables, toJson, tableMembers, member?_ofMembers, List.lookup_append]

theorem ScanRequest.omits (scan : ScanRequest) :
    OmitsEmptyTables scan.toJson scan.names scan.values ∧
      (scan.toJson.member? "FilterExpression" = none ↔ scan.filter = none) ∧
      (scan.toJson.member? "ProjectionExpression" = none ↔ scan.projection = none) := by
  simp [OmitsEmptyTables, toJson, tableMembers, member?_ofMembers, List.lookup_append]

theorem UpdateRequest.omits (update : UpdateRequest) :
    OmitsEmptyTables update.toJson update.names update.values ∧
      (update.toJson.member? "ConditionExpression" = none ↔ update.condition = none) := by
  simp [OmitsEmptyTables, toJson, tableMembers, member?_ofMembers, List.lookup_append]

/-! ## Survival -/

/-- A value is what its wire form is read as, and the text of the wire form is read as the wire form. -/
def Json.Survives {α : Type} (read : Json → Option α) (json : Json) (a : α) : Prop :=
  read json = some a ∧ parse? json.print = some json

/-- The reader of requests takes the text of a JSON value for a request, unless the value nests too deep: then it takes
it for none. -/
def Json.ReadsBack {α : Type} (fields : List Field) (ofFields? : Json.Fields → Option α) (json : Json) (a : α) : Prop :=
  Request.parse? fields ofFields? json.print = if json.nesting ≤ maxNesting then some a else none

/-- A record that survives is read from its text at once, up to the nesting at which the reader gives up. -/
theorem Json.Survives.readsBack {α : Type} {fields : List Field} {ofFields? : Json.Fields → Option α}
    {members : List (String × Json)} {a : α}
    (survives : Survives (fun json => json.fields? fields >>= ofFields?) (ofMembers members) a)
    (given : (ofMembers members).fields? fields = (ofMembers members).members?) :
    ReadsBack fields ofFields? (ofMembers members) a := by
  obtain ⟨read, text⟩ := survives
  simp only [given, members?_ofMembers, Option.bind_eq_bind, Option.bind_some] at read
  -- The reader bounds how deep each field nests, which the record around them exceeds by one.
  have bounded : (members.all fun field => field.2.nesting < maxNesting) = true ↔
      (ofMembers members).nesting ≤ maxNesting := by
    rw [List.all_eq_true, maxNesting, nesting_ofMembers_le_iff]
    exact forall₂_congr fun field _ => decide_eq_true_iff.trans Nat.lt_succ_iff
  rw [ReadsBack, Request.parse?, text]
  simp only [Option.bind_eq_bind, Option.bind_some, given, members?_ofMembers]
  rw [← read]
  exact if_congr bounded rfl rfl

/-- Requests and entities are read back from their wire forms and from the texts of these, whatever their tables hold
and whichever of their parts are absent or empty; only the reader of requests from texts gives up on what nests too
deep. The optional texts and the tables that the wire form of a request leaves out are those that are absent and those
that are empty. -/
theorem wire_survives :
    (∀ bound : BoundExpression,
      (DistinctTables bound.names bound.values →
        Survives BoundExpression.ofJson? bound.toJson bound ∧
        ReadsBack BoundExpression.fields BoundExpression.ofFields? bound.toJson bound) ∧
      OmitsEmptyTables bound.toJson bound.names bound.values) ∧
    (∀ query : QueryRequest,
      (DistinctTables query.names query.values →
        Survives QueryRequest.ofJson? query.toJson query ∧
        ReadsBack QueryRequest.fields QueryRequest.ofFields? query.toJson query) ∧
      OmitsEmptyTables query.toJson query.names query.values ∧
      (query.toJson.member? "IndexName" = none ↔ query.indexName = none) ∧
      (query.toJson.member? "FilterExpression" = none ↔ query.filter = none) ∧
      (query.toJson.member? "ProjectionExpression" = none ↔ query.projection = none)) ∧
    (∀ scan : ScanRequest,
      (DistinctTables scan.names scan.values →
        Survives ScanRequest.ofJson? scan.toJson scan ∧
        ReadsBack ScanRequest.fields ScanRequest.ofFields? scan.toJson scan) ∧
      OmitsEmptyTables scan.toJson scan.names scan.values ∧
      (scan.toJson.member? "FilterExpression" = none ↔ scan.filter = none) ∧
      (scan.toJson.member? "ProjectionExpression" = none ↔ scan.projection = none)) ∧
    (∀ update : UpdateRequest,
      (DistinctTables update.names update.values →
        Survives UpdateRequest.ofJson? update.toJson update ∧
        ReadsBack UpdateRequest.fields UpdateRequest.ofFields? update.toJson update) ∧
      OmitsEmptyTables update.toJson update.names update.values ∧
      (update.toJson.member? "ConditionExpression" = none ↔ update.condition = none)) ∧
    ∀ entity : Entity,
      Survives Entity.ofJson? entity.toJson entity ∧
      (parse? entity.toJson.print >>= Entity.ofJson?) = some entity ∧ entity.toJson.nesting ≤ maxNesting := by
  refine ⟨fun bound => ⟨fun distinct => ?bound, bound.omits⟩, fun query => ⟨fun distinct => ?query, query.omits⟩,
    fun scan => ⟨fun distinct => ?scan, scan.omits⟩, fun update => ⟨fun distinct => ?update, update.omits⟩,
    fun entity => ?entity⟩
  case bound =>
    have survives : Survives _ _ _ := ⟨BoundExpression.ofJson?_toJson distinct, parse?_print bound.spelled_toJson⟩
    exact ⟨survives, survives.readsBack bound.fields?_toJson⟩
  case query =>
    have survives : Survives _ _ _ := ⟨QueryRequest.ofJson?_toJson distinct, parse?_print query.spelled_toJson⟩
    exact ⟨survives, survives.readsBack query.fields?_toJson⟩
  case scan =>
    have survives : Survives _ _ _ := ⟨ScanRequest.ofJson?_toJson distinct, parse?_print scan.spelled_toJson⟩
    exact ⟨survives, survives.readsBack scan.fields?_toJson⟩
  case update =>
    have survives : Survives _ _ _ := ⟨UpdateRequest.ofJson?_toJson distinct, parse?_print update.spelled_toJson⟩
    exact ⟨survives, survives.readsBack update.fields?_toJson⟩
  case entity =>
    have read := Entity.ofJson?_toJson entity
    have text := parse?_print entity.spelled_toJson
    have shallow : 4 ≤ maxNesting := by decide
    exact ⟨⟨read, text⟩, by rw [text, Option.bind_eq_bind, Option.bind_some, read], entity.nesting_toJson.trans shallow⟩

/-- Requests over the same tables, in which a list holds an empty map; none of their optional texts are given but one,
which is empty. -/
theorem wire_survives_of_openOrders :
    let names : Table String := []
    let values : Table AttributeValue :=
      [(":p0", .map [("lines", .list [.map [], .null true]), ("tag", .binary [102, 111])]), (":p1", .stringSet [])]
    let query : QueryRequest :=
      { indexName := none, keyCondition := "pk = :p1", filter := some "", projection := none, names, values }
    let update : UpdateRequest := { update := "SET order = :p0", condition := none, names, values }
    DistinctTables names values ∧
      Survives QueryRequest.ofJson? query.toJson query ∧ query.toJson.member? "IndexName" = none ∧
      query.toJson.member? "ExpressionAttributeNames" = none ∧ query.toJson.nesting = 8 ∧
      Request.parse? QueryRequest.fields QueryRequest.ofFields? query.toJson.print = some query ∧
      Survives UpdateRequest.ofJson? update.toJson update ∧ update.toJson.member? "ConditionExpression" = none ∧
      Survives BoundExpression.ofJson? (BoundExpression.mk "pk = :p1" names values).toJson ⟨"pk = :p1", names, values⟩ ∧
      Survives ScanRequest.ofJson? (ScanRequest.mk none none names values).toJson ⟨none, none, names, values⟩ := by
  intro names values query update
  have literals : (AttributeValue.map values).Distinct := by
    simp [values, AttributeValue.Distinct, AttributeValue.DistinctEntries, AttributeValue.DistinctItems]
  have distinct : DistinctTables names values := ⟨List.nodup_nil, literals⟩
  obtain ⟨bounds, queries, scans, updates, -⟩ := wire_survives
  obtain ⟨queryBack, ⟨noNames, -⟩, noIndex, -⟩ := queries query
  obtain ⟨updateBack, -, noCondition⟩ := updates update
  obtain ⟨queryValue, queryText⟩ := queryBack distinct
  have depth : query.toJson.nesting = 8 := by decide +kernel
  have shallow : query.toJson.nesting ≤ maxNesting := by
    rw [depth]
    decide
  exact ⟨distinct, queryValue, noIndex.2 rfl, noNames.2 rfl, depth, queryText.trans (if_pos shallow),
    (updateBack distinct).1, noCondition.2 rfl, ((bounds _).1 distinct).1, ((scans _).1 distinct).1⟩

end ItemExpr
