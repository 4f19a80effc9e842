import Mathlib.Data.List.Nodup
import ItemExpr.AttributeValue.Wire
import ItemExpr.Proofs.AttributeValue
import ItemExpr.Proofs.Wire.Base64

/-!
# Attribute values are read as they are written

The wire form of a value is read as that value, and a JSON value that is read as some value is its wire form
(`AttributeValue.wire_roundTrip`). Both need names to be distinct: no map may bind a name twice, and no object may
repeat a key. Of repeated keys the last one counts, so such an object is the wire form of no value; but whatever is read
binds names once.
-/

namespace ItemExpr

/-! ## Tables of distinct names -/

namespace Table

variable {α : Type}

theorem set_of_not_mem {table : Table α} {name : String} (value : α) (absent : name ∉ table.map (·.1)) :
    set table name value = table ++ [(name, value)] := by
  induction table with
  | nil => rfl
  | cons binding rest ih =>
    obtain ⟨key, old⟩ := binding
    rw [List.map_cons, List.mem_cons, not_or] at absent
    rw [set, if_neg (Ne.symm absent.1), ih absent.2, List.cons_append]

/-- Bindings of distinct names are a table as they are. -/
theorem ofList_of_nodup {bindings : List (String × α)} (distinct : (bindings.map (·.1)).Nodup) :
    ofList bindings = bindings := by
  -- The bindings so far are in front of those to come, and none of the latter is among them.
  have go : ∀ (rest done : List (String × α)), ((done ++ rest).map (·.1)).Nodup →
      rest.foldl (fun table binding => set table binding.1 binding.2) done = done ++ rest := by
    intro rest
    induction rest with
    | nil => simp
    | cons binding rest ih =>
      intro done distinct
      obtain ⟨name, value⟩ := binding
      have absent : name ∉ done.map (·.1) := by
        intro member
        rw [List.map_append, List.nodup_append] at distinct
        exact distinct.2.2 name member name (by simp) rfl
      rw [List.foldl_cons]
      show rest.foldl _ (set done name value) = done ++ (name, value) :: rest
      rw [set_of_not_mem value absent, ih]
      · simp
      · simpa using distinct
  exact go bindings [] distinct

theorem map_fst_set (table : Table α) (name : String) (value : α) :
    (set table name value).map (·.1) =
      if name ∈ table.map (·.1) then table.map (·.1) else table.map (·.1) ++ [name] := by
  induction table with
  | nil => simp [set]
  | cons binding rest ih =>
    obtain ⟨key, old⟩ := binding
    by_cases same : key = name
    · simp [set, same]
    · rw [set, if_neg same, List.map_cons, ih]
      by_cases member : name ∈ rest.map (·.1) <;> simp [member, Ne.symm same]

theorem nodup_set {table : Table α} (distinct : (table.map (·.1)).Nodup) (name : String) (value : α) :
    ((set table name value).map (·.1)).Nodup := by
  rw [map_fst_set]
  split
  · exact distinct
  · rename_i absent
    refine List.nodup_append.2 ⟨distinct, by simp, ?_⟩
    intro key member new single same
    rw [List.mem_singleton] at single
    exact absent (single ▸ same ▸ member)

theorem mem_of_mem_set {table : Table α} {name : String} {value : α} {binding : String × α}
    (member : binding ∈ set table name value) : binding.2 = value ∨ binding ∈ table := by
  induction table with
  | nil =>
    rw [set, List.mem_singleton] at member
    exact .inl (member ▸ rfl)
  | cons first rest ih =>
    obtain ⟨key, old⟩ := first
    rw [set] at member
    split at member
    · obtain rfl | later := List.mem_cons.1 member
      · exact .inl rfl
      · exact .inr (List.mem_cons_of_mem _ later)
    · obtain rfl | later := List.mem_cons.1 member
      · exact .inr List.mem_cons_self
      · exact (ih later).imp_right (List.mem_cons_of_mem _)

theorem nodup_ofList (bindings : List (String × α)) : ((ofList bindings).map (·.1)).Nodup := by
  have go : ∀ (rest : List (String × α)) (done : Table α), (done.map (·.1)).Nodup →
      ((rest.foldl (fun table binding => set table binding.1 binding.2) done).map (·.1)).Nodup := by
    intro rest
    induction rest with
    | nil => exact fun _ distinct => distinct
    | cons binding rest ih => exact fun done distinct => ih _ (nodup_set distinct _ _)
  exact go bindings [] List.nodup_nil

theorem mem_of_mem_ofList {bindings : List (String × α)} {binding : String × α} (member : binding ∈ ofList bindings) :
    ∃ given ∈ bindings, given.2 = binding.2 := by
  have go : ∀ (rest : List (String × α)) (done : Table α),
      binding ∈ rest.foldl (fun table binding => set table binding.1 binding.2) done →
        (∃ given ∈ rest, given.2 = binding.2) ∨ binding ∈ done := by
    intro rest
    induction rest with
    | nil => exact fun _ member => .inr member
    | cons first rest ih =>
      intro done member
      obtain ⟨given, later, same⟩ | before := ih _ member
      · exact .inl ⟨given, List.mem_cons_of_mem _ later, same⟩
      · obtain same | old := mem_of_mem_set before
        · exact .inl ⟨first, List.mem_cons_self, same.symm⟩
        · exact .inr old
  obtain found | none := go bindings [] member
  · exact found
  · cases none

end Table

/-! ## Distinct names -/

namespace Json

mutual

/-- No object in a value repeats a key. -/
def Distinct : Json → Prop
  | .array items => DistinctItems items
  | .object members => (members.map (·.1)).Nodup ∧ DistinctMembers members
  | _ => True

def DistinctItems : List Json → Prop
  | [] => True
  | item :: rest => item.Distinct ∧ DistinctItems rest

def DistinctMembers : List (Option String × Json) → Prop
  | [] => True
  | (_, value) :: rest => value.Distinct ∧ DistinctMembers rest

end

theorem distinct_member {key : String} (json : Json) : (Json.object [(some key, json)]).Distinct ↔ json.Distinct := by
  simp [Distinct, DistinctMembers]

theorem distinct_text (s : String) : (text s).Distinct :=
  trivial

theorem distinctItems_map {α : Type} {write : α → Json} (distinct : ∀ a, (write a).Distinct) (items : List α) :
    DistinctItems (items.map write) := by
  induction items with
  | nil => exact trivial
  | cons item rest ih => exact ⟨distinct item, ih⟩

end Json

namespace AttributeValue

theorem distinct_ofList {entries : List (String × AttributeValue)} (distinct : DistinctEntries entries) :
    (AttributeValue.map (Table.ofList entries)).Distinct := by
  refine ⟨Table.nodup_ofList entries, distinctEntries_iff.2 fun entry member => ?_⟩
  obtain ⟨given, own, same⟩ := Table.mem_of_mem_ofList member
  rw [← same]
  exact distinctEntries_iff.1 distinct given own

/-! ## Payloads without names -/

theorem text?_eq_some {json : Json} {text : String} : json.text? = some text ↔ Json.text text = json := by
  cases json <;> simp [Json.text?, Json.text, eq_comm]

theorem bool?_eq_some {json : Json} {b : Bool} : json.bool? = some b ↔ Json.bool b = json := by
  cases json <;> simp [Json.bool?, eq_comm]

theorem bytesOfJson?_eq_some {json : Json} {bytes : Bytes} :
    bytesOfJson? json = some bytes ↔ bytesToJson bytes = json := by
  simp only [bytesOfJson?, Option.bind_eq_bind, Option.bind_eq_some_iff, text?_eq_some, Text.Base64.decode?_eq_some]
  constructor
  · rintro ⟨text, rfl, written⟩
    rw [bytesToJson, written, String.ofList_toList]
  · rintro rfl
    exact ⟨_, rfl, String.toList_ofList.symm⟩

/-- Items are read one by one as they are written one by one. -/
theorem items?_mapM_eq_some {α : Type} {read : Json → Option α} {write : α → Json}
    (exact : ∀ {json a}, read json = some a ↔ write a = json) {json : Json} {items : List α} :
    (json.items? >>= List.mapM read) = some items ↔ Json.array (items.map write) = json := by
  have each : ∀ (jsons : List Json) (items : List α), jsons.mapM read = some items ↔ items.map write = jsons := by
    intro jsons
    induction jsons with
    | nil => simp [eq_comm]
    | cons json rest ih =>
      intro items
      simp only [List.mapM_cons, Option.bind_eq_bind, Option.bind_eq_some_iff, exact, ih]
      constructor
      · rintro ⟨item, rfl, others, rfl, same⟩
        obtain rfl := Option.some.inj same
        rfl
      · intro same
        obtain ⟨item, others, rfl, written, behind⟩ := List.map_eq_cons_iff.1 same
        exact ⟨item, written, others, behind, rfl⟩
  cases json <;> simp [Json.items?, each]

theorem textsOfJson?_eq_some {json : Json} {items : List String} :
    textsOfJson? json = some items ↔ Json.array (items.map Json.text) = json :=
  items?_mapM_eq_some text?_eq_some

theorem bytesListOfJson?_eq_some {json : Json} {items : List Bytes} :
    bytesListOfJson? json = some items ↔ Json.array (items.map bytesToJson) = json :=
  items?_mapM_eq_some bytesOfJson?_eq_some

/-! ## What is written is read -/

mutual

theorem ofJson?_toJson : ∀ value : AttributeValue, value.Distinct → ofJson? value.toJson = some value
  | .string text, _ | .number text, _ | .bool b, _ | .null b, _ => rfl
  | .binary bytes, _ => by simp [toJson, Json.ofMembers, ofJson?, bytesOfJson?_eq_some]
  | .stringSet items, _ | .numberSet items, _ => by
    simp [toJson, Json.ofMembers, ofJson?, textsOfJson?_eq_some]
  | .binarySet items, _ => by simp [toJson, Json.ofMembers, ofJson?, bytesListOfJson?_eq_some]
  | .list items, distinct => by
    simp [toJson, Json.ofMembers, ofJson?, itemsOfJson?_itemsToJson items distinct]
  | .map entries, distinct => by
    simp [toJson, Json.ofMembers, ofJson?, entriesOfJson?_entriesToJson entries distinct.2,
      Table.ofList_of_nodup distinct.1]

theorem itemsOfJson?_itemsToJson :
    ∀ items : List AttributeValue, DistinctItems items → itemsOfJson? (itemsToJson items) = some items
  | [], _ => rfl
  | item :: rest, distinct => by
    simp [itemsToJson, itemsOfJson?, ofJson?_toJson item distinct.1, itemsOfJson?_itemsToJson rest distinct.2]

theorem entriesOfJson?_entriesToJson :
    ∀ entries : List (String × AttributeValue), DistinctEntries entries →
      entriesOfJson? (entriesToJson entries) = some entries
  | [], _ => rfl
  | (name, value) :: rest, distinct => by
    simp [entriesToJson, entriesOfJson?, ofJson?_toJson value distinct.1,
      entriesOfJson?_entriesToJson rest distinct.2]

end

/-! ## What is read is written -/

/-- What is promised of a value that is read: it binds names once, and is written as the JSON value that it was read
from unless that repeats a key. -/
def Restores (json : Json) (value : AttributeValue) : Prop :=
  value.Distinct ∧ (json.Distinct → value.toJson = json)

/-- A value of a kind that holds no others is what its payload is read as. -/
theorem Restores.of_payload {α : Type} {read : Json → Option α} {write : α → Json} {key : String} {json : Json}
    {kind : α → AttributeValue} (payload : ∀ {json a}, read json = some a ↔ write a = json)
    {value : AttributeValue} (found : kind <$> read json = some value)
    (leaf : ∀ a, (kind a).Distinct ∧ (kind a).toJson = .object [(some key, write a)]) :
    Restores (.object [(some key, json)]) value := by
  obtain ⟨a, own, rfl⟩ := Option.map_eq_some_iff.1 found
  obtain rfl := payload.1 own
  exact ⟨(leaf a).1, fun _ => (leaf a).2⟩

mutual

theorem restores_of_ofJson? (json : Json) {value : AttributeValue} (read : ofJson? json = some value) :
    Restores json value := by
  unfold ofJson? at read
  split at read
  case h_1 | h_2 => exact .of_payload text?_eq_some read fun _ => ⟨trivial, rfl⟩
  case h_3 => exact .of_payload bytesOfJson?_eq_some read fun _ => ⟨trivial, rfl⟩
  case h_4 | h_5 => exact .of_payload textsOfJson?_eq_some read fun _ => ⟨trivial, rfl⟩
  case h_6 => exact .of_payload bytesListOfJson?_eq_some read fun _ => ⟨trivial, rfl⟩
  case h_7 | h_8 => exact .of_payload bool?_eq_some read fun _ => ⟨trivial, rfl⟩
  case h_9 items =>
    obtain ⟨values, others, rfl⟩ := Option.map_eq_some_iff.1 read
    obtain ⟨distinct, written⟩ := restores_of_itemsOfJson? items others
    refine ⟨distinct, fun once => ?_⟩
    have items : itemsToJson values = items := written ((Json.distinct_member _).1 once)
    rw [toJson, items]
    rfl
  case h_10 members =>
    obtain ⟨entries, others, rfl⟩ := Option.map_eq_some_iff.1 read
    obtain ⟨distinct, keys, written⟩ := restores_of_entriesOfJson? members others
    refine ⟨distinct_ofList distinct, fun once => ?_⟩
    obtain ⟨nodup, inner⟩ : (members.map Prod.fst).Nodup ∧ Json.DistinctMembers members :=
      (Json.distinct_member _).1 once
    have names : (entries.map (·.1)).Nodup := by
      rw [← keys] at nodup
      refine List.Nodup.of_map some ?_
      rw [List.map_map]
      exact nodup
    rw [Table.ofList_of_nodup names, toJson, written inner]
    rfl
  case h_11 => cases read
termination_by sizeOf json

theorem restores_of_itemsOfJson? : ∀ (jsons : List Json) {items : List AttributeValue},
    itemsOfJson? jsons = some items →
      DistinctItems items ∧ (Json.DistinctItems jsons → itemsToJson items = jsons)
  | [], items, read => by
    obtain rfl := Option.some.inj read
    exact ⟨trivial, fun _ => rfl⟩
  | json :: rest, items, read => by
    simp only [itemsOfJson?, Option.bind_eq_bind, Option.bind_eq_some_iff] at read
    obtain ⟨item, first, others, behind, same⟩ := read
    obtain rfl := Option.some.inj same
    obtain ⟨own, written⟩ := restores_of_ofJson? json first
    obtain ⟨distinct, further⟩ := restores_of_itemsOfJson? rest behind
    exact ⟨⟨own, distinct⟩, fun once => by rw [itemsToJson, written once.1, further once.2]⟩
termination_by jsons => sizeOf jsons

theorem restores_of_entriesOfJson? :
    ∀ (members : List (Option String × Json)) {entries : List (String × AttributeValue)},
    entriesOfJson? members = some entries →
      DistinctEntries entries ∧ entries.map (fun entry => some entry.1) = members.map (·.1) ∧
        (Json.DistinctMembers members → entriesToJson entries = members)
  | [], entries, read => by
    obtain rfl := Option.some.inj read
    exact ⟨trivial, rfl, fun _ => rfl⟩
  | (key, json) :: rest, entries, read => by
    simp only [entriesOfJson?, Option.bind_eq_bind, Option.bind_eq_some_iff] at read
    obtain ⟨name, rfl, value, first, others, behind, same⟩ := read
    obtain rfl := Option.some.inj same
    obtain ⟨own, written⟩ := restores_of_ofJson? json first
    obtain ⟨distinct, keys, further⟩ := restores_of_entriesOfJson? rest behind
    refine ⟨⟨own, distinct⟩, by simp [keys], fun once => ?_⟩
    rw [entriesToJson, written once.1, further once.2]
termination_by members => sizeOf members

end

/-! ## The wire form -/

mutual

theorem distinct_toJson : ∀ value : AttributeValue, value.Distinct → value.toJson.Distinct
  | .string _, _ | .number _, _ | .binary _, _ => (Json.distinct_member _).2 (Json.distinct_text _)
  | .bool b, _ | .null b, _ => (Json.distinct_member (.bool b)).2 trivial
  | .stringSet items, _ | .numberSet items, _ =>
    (Json.distinct_member (.array _)).2 (Json.distinctItems_map Json.distinct_text items)
  | .binarySet items, _ =>
    (Json.distinct_member (.array _)).2 (Json.distinctItems_map (fun _ => Json.distinct_text _) items)
  | .list items, distinct => (Json.distinct_member (.array _)).2 (distinctItems_toJson items distinct)
  | .map entries, distinct => by
    obtain ⟨keys, members⟩ := distinctMembers_toJson entries distinct.2
    refine (Json.distinct_member (.object _)).2 ⟨?_, members⟩
    have names : ((entries.map (·.1)).map some).Nodup := distinct.1.map fun _ _ => Option.some.inj
    rw [List.map_map] at names
    rw [keys]
    exact names

theorem distinctItems_toJson :
    ∀ items : List AttributeValue, DistinctItems items → Json.DistinctItems (itemsToJson items)
  | [], _ => trivial
  | item :: rest, distinct => ⟨distinct_toJson item distinct.1, distinctItems_toJson rest distinct.2⟩

theorem distinctMembers_toJson : ∀ entries : List (String × AttributeValue), DistinctEntries entries →
    (entriesToJson entries).map (·.1) = entries.map (fun entry => some entry.1) ∧
      Json.DistinctMembers (entriesToJson entries)
  | [], _ => ⟨rfl, trivial⟩
  | (name, value) :: rest, distinct => by
    obtain ⟨keys, members⟩ := distinctMembers_toJson rest distinct.2
    exact ⟨congrArg (some name :: ·) keys, distinct_toJson value distinct.1, members⟩

end

/-- A value whose maps bind names once, in whatever order, is read back from its wire form, which repeats no key. What
is read binds names once, and is written as the JSON value that it was read from unless that repeats a key. -/
theorem wire_roundTrip :
    (∀ value : AttributeValue, value.Distinct → value.toJson.Distinct ∧ ofJson? value.toJson = some value) ∧
      ∀ json value, ofJson? json = some value → value.Distinct ∧ (json.Distinct → value.toJson = json) :=
  ⟨fun value distinct => ⟨distinct_toJson value distinct, ofJson?_toJson value distinct⟩,
    fun json _ read => restores_of_ofJson? json read⟩

/-- Bytes that do not fill their last group, empty collections, and a map in a list in a map. -/
theorem wire_roundTrip_of_order :
    let order : AttributeValue := .map
      [("id", .number "7"), ("tag", .binary [102, 111]), ("lines", .list [.map [("S", .stringSet [])], .null true])]
    order.Distinct ∧ ofJson? order.toJson = some order ∧
      ∀ json, json.Distinct → ofJson? json = some order → order.toJson = json := by
  intro order
  have distinct : order.Distinct := by simp [order, Distinct, DistinctEntries, DistinctItems]
  exact ⟨distinct, (wire_roundTrip.1 order distinct).2, fun json once read => (wire_roundTrip.2 json order read).2 once⟩

end AttributeValue

end ItemExpr
