import Mathlib.Data.List.Nodup
import Mathlib.Data.List.Perm.Subperm
import ItemExpr.AttributeValue
import ItemExpr.Proofs.Names

/-!
# What attribute values are the same

The entries of a map have no order. Two values agree if they differ in nothing but the order of entries, and this is
what `same` decides of values whose maps bind a name once (`AttributeValue.same_iff`).
-/

namespace ItemExpr

theorem Table.mem_of_value? {α : Type} {table : Table α} {name : String} {value : α}
    (found : table.value? name = some value) : (name, value) ∈ table := by
  obtain ⟨before, after, rfl, -⟩ := List.lookup_eq_some_iff.1 found
  exact List.mem_append_right before List.mem_cons_self

namespace AttributeValue

/-- The words for kinds of values are the descriptors of the values that there are. -/
theorem mem_descriptors_iff {word : String} :
    word ∈ descriptors ↔ ∃ value : AttributeValue, value.descriptor = word := by
  constructor
  · intro member
    simp only [descriptors, List.mem_cons, List.not_mem_nil, or_false] at member
    obtain rfl | rfl | rfl | rfl | rfl | rfl | rfl | rfl | rfl | rfl := member
    · exact ⟨.string "", rfl⟩
    · exact ⟨.stringSet [], rfl⟩
    · exact ⟨.number "", rfl⟩
    · exact ⟨.numberSet [], rfl⟩
    · exact ⟨.binary [], rfl⟩
    · exact ⟨.binarySet [], rfl⟩
    · exact ⟨.bool true, rfl⟩
    · exact ⟨.null true, rfl⟩
    · exact ⟨.list [], rfl⟩
    · exact ⟨.map [], rfl⟩
  · rintro ⟨value, rfl⟩
    exact value.descriptor_mem

/-! ## Distinct names -/

mutual

/-- No map in a value binds a name twice. -/
def Distinct : AttributeValue → Prop
  | .list items => DistinctItems items
  | .map entries => (entries.map (·.1)).Nodup ∧ DistinctEntries entries
  | _ => True

def DistinctItems : List AttributeValue → Prop
  | [] => True
  | item :: rest => item.Distinct ∧ DistinctItems rest

def DistinctEntries : List (String × AttributeValue) → Prop
  | [] => True
  | (_, value) :: rest => value.Distinct ∧ DistinctEntries rest

end

theorem distinctEntries_iff {entries : List (String × AttributeValue)} :
    DistinctEntries entries ↔ ∀ entry ∈ entries, entry.2.Distinct := by
  induction entries with
  | nil => simp [DistinctEntries]
  | cons entry rest ih => simp [DistinctEntries, ih]

/-! ## Values that agree -/

mutual

/-- Two values differ in nothing but the order of the entries of their maps. -/
inductive Agrees : AttributeValue → AttributeValue → Prop where
  | refl (value : AttributeValue) : Agrees value value
  | list {items others : List AttributeValue} : AgreeItems items others → Agrees (.list items) (.list others)
  | map {entries ordered others : List (String × AttributeValue)} :
    AgreeEntries entries ordered → ordered.Perm others → Agrees (.map entries) (.map others)

inductive AgreeItems : List AttributeValue → List AttributeValue → Prop where
  | nil : AgreeItems [] []
  | cons {item other : AttributeValue} {rest others : List AttributeValue} :
    Agrees item other → AgreeItems rest others → AgreeItems (item :: rest) (other :: others)

/-- Entries of the same names in the same order. -/
inductive AgreeEntries : List (String × AttributeValue) → List (String × AttributeValue) → Prop where
  | nil : AgreeEntries [] []
  | cons {name : String} {value other : AttributeValue} {rest others : List (String × AttributeValue)} :
    Agrees value other → AgreeEntries rest others → AgreeEntries ((name, value) :: rest) ((name, other) :: others)

end

variable {items others : List AttributeValue} {entries ordered : List (String × AttributeValue)}
  {value other : AttributeValue}

theorem AgreeItems.refl (items : List AttributeValue) : AgreeItems items items := by
  induction items with
  | nil => exact .nil
  | cons item rest ih => exact .cons (.refl item) ih

theorem AgreeEntries.refl (entries : List (String × AttributeValue)) : AgreeEntries entries entries := by
  induction entries with
  | nil => exact .nil
  | cons entry rest ih => exact .cons (.refl entry.2) ih

theorem AgreeEntries.names_eq (agree : AgreeEntries entries ordered) : ordered.map (·.1) = entries.map (·.1) := by
  induction entries generalizing ordered with
  | nil =>
    cases agree
    rfl
  | cons entry rest ih =>
    cases agree with
    | cons _ further => rw [List.map_cons, List.map_cons, ih further]

theorem AgreeEntries.length_eq (agree : AgreeEntries entries ordered) : ordered.length = entries.length := by
  simpa using congrArg List.length agree.names_eq

theorem Agrees.of_list (agrees : Agrees (.list items) other) :
    ∃ others, other = .list others ∧ AgreeItems items others := by
  cases agrees with
  | refl => exact ⟨items, rfl, .refl items⟩
  | list agree => exact ⟨_, rfl, agree⟩

theorem Agrees.of_map (agrees : Agrees (.map entries) other) :
    ∃ ordered others, other = .map others ∧ AgreeEntries entries ordered ∧ ordered.Perm others := by
  cases agrees with
  | refl => exact ⟨entries, entries, rfl, .refl entries, .refl entries⟩
  | map agree reordered => exact ⟨_, _, rfl, agree, reordered⟩

/-! ## What the test decides -/

mutual

theorem agrees_of_same (value other : AttributeValue) (distinct : value.Distinct) (same : value.same other = true) :
    value.Agrees other := by
  unfold AttributeValue.same at same
  split at same
  case h_9 items others => exact .list (agreeItems_of_same items others distinct same)
  case h_10 entries others =>
    obtain ⟨lengths, found⟩ := Bool.and_eq_true_iff.1 same
    obtain ⟨ordered, agree, within⟩ := agreeEntries_of_same entries others distinct.2 found
    -- The entries that were found have different names and are as many as there are, so they are all of them.
    have names : (ordered.map (·.1)).Nodup := agree.names_eq ▸ distinct.1
    have among : ordered.Subperm others := List.subperm_of_subset (List.Nodup.of_map _ names) within
    have enough : others.length ≤ ordered.length := Nat.le_of_eq (agree.length_eq.trans (eq_of_beq lengths)).symm
    exact .map agree (among.perm_of_length_le enough)
  case h_11 => cases same
  all_goals
    obtain rfl := eq_of_beq same
    exact .refl _
termination_by sizeOf value

theorem agreeItems_of_same : ∀ items others : List AttributeValue, DistinctItems items →
    sameItems items others = true → AgreeItems items others
  | [], [], _, _ => .nil
  | item :: rest, other :: others, distinct, same => by
    obtain ⟨first, further⟩ := Bool.and_eq_true_iff.1 same
    exact .cons (agrees_of_same item other distinct.1 first) (agreeItems_of_same rest others distinct.2 further)
  | [], _ :: _, _, same | _ :: _, [], _, same => by simp [sameItems] at same
termination_by items => sizeOf items

theorem agreeEntries_of_same : ∀ (entries : List (String × AttributeValue)) (table : Table AttributeValue),
    DistinctEntries entries → sameEntries entries table = true →
      ∃ ordered, AgreeEntries entries ordered ∧ ordered ⊆ table
  | [], table, _, _ => ⟨[], .nil, List.nil_subset table⟩
  | (name, value) :: rest, table, distinct, same => by
    unfold sameEntries at same
    split at same
    case h_1 other found =>
      obtain ⟨first, further⟩ := Bool.and_eq_true_iff.1 same
      obtain ⟨ordered, agree, within⟩ := agreeEntries_of_same rest table distinct.2 further
      exact ⟨(name, other) :: ordered, .cons (agrees_of_same value other distinct.1 first) agree,
        List.cons_subset.2 ⟨Table.mem_of_value? found, within⟩⟩
    case h_2 => cases same
termination_by entries => sizeOf entries

end

mutual

theorem same_of_agrees : ∀ value other : AttributeValue, value.Distinct → value.Agrees other →
    value.same other = true
  | .list items, other, distinct, agrees => by
    obtain ⟨others, rfl, agree⟩ := agrees.of_list
    exact sameItems_of_agree items others distinct agree
  | .map entries, other, distinct, agrees => by
    obtain ⟨ordered, others, rfl, agree, reordered⟩ := agrees.of_map
    have names : (others.map (·.1)).Nodup := (reordered.map _).nodup_iff.1 (agree.names_eq ▸ distinct.1)
    have found := sameEntries_of_agree entries ordered others distinct.2 agree fun entry member =>
      Table.value?_of_mem names (reordered.subset member)
    have lengths : entries.length = others.length := agree.length_eq.symm.trans reordered.length_eq
    exact Bool.and_eq_true_iff.2 ⟨beq_iff_eq.2 lengths, found⟩
  | .string _, _, _, agrees | .number _, _, _, agrees | .binary _, _, _, agrees | .stringSet _, _, _, agrees
  | .numberSet _, _, _, agrees | .binarySet _, _, _, agrees | .bool _, _, _, agrees | .null _, _, _, agrees => by
    cases agrees
    exact beq_self_eq_true _

theorem sameItems_of_agree : ∀ items others : List AttributeValue, DistinctItems items → AgreeItems items others →
    sameItems items others = true
  | [], _, _, agree => by
    cases agree
    rfl
  | item :: rest, _, distinct, agree => by
    cases agree with
    | cons first further =>
      exact Bool.and_eq_true_iff.2
        ⟨same_of_agrees item _ distinct.1 first, sameItems_of_agree rest _ distinct.2 further⟩

theorem sameEntries_of_agree : ∀ (entries ordered : List (String × AttributeValue)) (table : Table AttributeValue),
    DistinctEntries entries → AgreeEntries entries ordered →
    (∀ entry ∈ ordered, table.value? entry.1 = some entry.2) → sameEntries entries table = true
  | [], _, _, _, _, _ => rfl
  | (name, value) :: rest, _, table, distinct, agree, bound => by
    cases agree with
    | @cons _ _ other _ ordered first further =>
      obtain ⟨here, behind⟩ := List.forall_mem_cons.1 bound
      rw [sameEntries, here]
      exact Bool.and_eq_true_iff.2
        ⟨same_of_agrees value other distinct.1 first, sameEntries_of_agree rest ordered table distinct.2 further behind⟩

end

/-- The test for the same value passes what differs in nothing but the order of the entries of maps. -/
theorem same_iff (distinct : value.Distinct) : value.same other = true ↔ value.Agrees other :=
  ⟨agrees_of_same value other distinct, same_of_agrees value other distinct⟩

/-- A stored value is taken for a given one: it is the given one or passes for the same, and if none of its maps binds a
name twice, the two agree. -/
structure MatchesGiven (stored given : AttributeValue) : Prop where
  same : stored = given ∨ stored.same given = true
  agrees : stored.Distinct → stored.Agrees given

theorem MatchesGiven.of_same {stored given : AttributeValue} (same : stored = given ∨ stored.same given = true) :
    stored.MatchesGiven given where
  same
  agrees distinct := by
    obtain rfl | same := same
    · exact .refl stored
    · exact (same_iff distinct).1 same

end AttributeValue

end ItemExpr
