import ItemExpr.Proofs.Decimal.Grammar
import ItemExpr.Proofs.Decimal.Writing
import ItemExpr.Proofs.Format.StoredNumber
import ItemExpr.Proofs.Session
import ItemExpr.Proofs.Value.Parts

/-!
# Numbers without a specifier

The text of a decimal is rendered if it is one: digits with at most one point in front of a digit, behind one sign or
none. What is stored for a number denotes it, with all its digits behind the point, and is stored for itself. A set of
numbers is rendered member by member, and what stands inside lists and maps is rendered where it stands
(`Value.render_numbers`).
-/

namespace ItemExpr

/-! ## Digits behind the point -/

/-- The digits behind the point of a number's text. An integer has none. -/
def Number.fractionDigits : Number → List Char
  | .decimal text => Decimal.behindPoint text.toList
  | _ => []

theorem Number.fraction_of_toDecimal {n : Number} {x : ℚ} {d : Decimal} (stands : n.Stands x)
    (read : n.toDecimal = .ok d) : d.fraction = n.fractionDigits := by
  cases n with
  | int n | uint n =>
    cases read
    rfl
  | float => exact stands.elim
  | decimal text =>
    obtain ⟨e, spells, -⟩ := stands
    simp only [toDecimal, Decimal.parse?_eq_some.2 spells] at read
    cases read
    exact spells.fraction_eq

namespace Value

open Decimal

/-! ## Lists of results -/

section

variable {ε α β : Type} {f : α → Except ε β} {xs : List α} {ys : List β}

theorem pure_eq_ok {a b : α} : (pure a : Except ε α) = .ok b ↔ b = a := by
  simp [pure, Except.pure, eq_comm]

theorem mapM_eq_ok : xs.mapM f = .ok ys ↔ List.Forall₂ (fun a b => f a = .ok b) xs ys := by
  induction xs generalizing ys with
  | nil => rw [List.mapM_nil, List.forall₂_nil_left_iff, pure_eq_ok]
  | cons item rest ih =>
    rw [List.mapM_cons, Format.bind_eq_ok, List.forall₂_cons_left_iff]
    constructor
    · rintro ⟨first, given, later⟩
      obtain ⟨others, mapped, same⟩ := Format.bind_eq_ok.1 later
      exact ⟨first, others, given, ih.1 mapped, pure_eq_ok.1 same⟩
    · rintro ⟨first, others, given, mapped, rfl⟩
      exact ⟨first, given, Format.bind_eq_ok.2 ⟨others, ih.2 mapped, rfl⟩⟩

theorem exists_mapM (each : ∀ a ∈ xs, ∃ b, f a = .ok b) : ∃ ys, xs.mapM f = .ok ys := by
  induction xs with
  | nil => exact ⟨[], rfl⟩
  | cons item rest ih =>
    obtain ⟨first, given⟩ := each item List.mem_cons_self
    obtain ⟨others, mapped⟩ := ih fun a member => each a (List.mem_cons_of_mem _ member)
    refine ⟨first :: others, ?_⟩
    rw [List.mapM_cons]
    exact Format.bind_eq_ok.2 ⟨first, given, Format.bind_eq_ok.2 ⟨others, mapped, rfl⟩⟩

end

variable {dateFormat text other : String} {value : Value} {stored : AttributeValue} {n : Number} {items : List String}

/-! ## Members -/

theorem renderItems_eq_mapM (dateFormat : String) (items : List Value) :
    renderItems dateFormat items = items.mapM (renderPlain dateFormat) := by
  induction items with
  | nil => rfl
  | cons item rest ih => rw [renderItems, List.mapM_cons, ih]

theorem renderEntries_eq_mapM (dateFormat : String) (entries : List (String × Value)) :
    renderEntries dateFormat entries =
      entries.mapM fun entry => (fun stored => (entry.1, stored)) <$> renderPlain dateFormat entry.2 := by
  induction entries with
  | nil => rfl
  | cons entry rest ih =>
    rw [renderEntries, List.mapM_cons, ih]
    cases renderPlain dateFormat entry.2 <;> rfl

/-- What is stored for a list or a map is stored member by member. -/
theorem members_of_renderPlain (rendered : value.renderPlain dateFormat = .ok stored) :
    List.Forall₂ (fun m n => m.1 = n.1 ∧ m.2.renderPlain dateFormat = .ok n.2) value.members stored.members := by
  cases value with
  | list items =>
    obtain ⟨results, mapped, rfl⟩ := map_eq_ok.1 rendered
    rw [renderItems_eq_mapM, mapM_eq_ok] at mapped
    exact forall₂_mapIdx mapped fun _ _ _ given => ⟨rfl, given⟩
  | map entries =>
    obtain ⟨results, mapped, rfl⟩ := map_eq_ok.1 rendered
    rw [renderEntries_eq_mapM, mapM_eq_ok] at mapped
    rw [members, AttributeValue.members, List.forall₂_map_left_iff, List.forall₂_map_right_iff]
    refine mapped.imp ?_
    intro entry result given
    obtain ⟨_, own, rfl⟩ := map_eq_ok.1 given
    exact ⟨rfl, own⟩
  | numberSet items =>
    obtain ⟨results, _, rfl⟩ := map_eq_ok.1 rendered
    exact .nil
  | number | dateTime | date =>
    obtain ⟨_, _, same⟩ := Format.bind_eq_ok.1 rendered
    cases same
    exact .nil
  | null | bool | string | enumeration | binary | stringSet | binarySet | location =>
    cases rendered
    exact .nil

/-- The kinds of literals that are neither lists nor maps and that may have no stored value. -/
def MayFail : Value → Prop
  | .number _ | .numberSet _ | .dateTime _ | .date _ => True
  | _ => False

/-- A list or a map has a stored value if its members have one. -/
theorem exists_renderPlain_of_members (own : value.MayFail → ∃ stored, value.renderPlain dateFormat = .ok stored)
    (each : ∀ member ∈ value.members, ∃ stored, member.2.renderPlain dateFormat = .ok stored) :
    ∃ stored, value.renderPlain dateFormat = .ok stored := by
  cases value with
  | list items =>
    have all : ∀ item ∈ items, ∃ stored, item.renderPlain dateFormat = .ok stored := by
      intro item member
      obtain ⟨position, within, rfl⟩ := List.mem_iff_getElem.1 member
      exact each (.index position, items[position]) (List.mem_mapIdx.2 ⟨position, within, rfl⟩)
    obtain ⟨results, mapped⟩ := exists_mapM all
    rw [← renderItems_eq_mapM] at mapped
    exact ⟨.list results, map_eq_ok.2 ⟨results, mapped, rfl⟩⟩
  | map entries =>
    have all : ∀ entry ∈ entries, ∃ result : String × AttributeValue,
        (fun stored => (entry.1, stored)) <$> entry.2.renderPlain dateFormat = .ok result := by
      intro entry member
      obtain ⟨stored, given⟩ := each (.field entry.1, entry.2) (List.mem_map.2 ⟨entry, member, rfl⟩)
      exact ⟨(entry.1, stored), map_eq_ok.2 ⟨stored, given, rfl⟩⟩
    obtain ⟨results, mapped⟩ := exists_mapM all
    rw [← renderEntries_eq_mapM] at mapped
    exact ⟨.map results, map_eq_ok.2 ⟨results, mapped, rfl⟩⟩
  | number | numberSet | dateTime | date => exact own trivial
  | null | bool | string | enumeration | binary | stringSet | binarySet | location => exact ⟨_, rfl⟩

/-- A literal has a stored value if whatever stands in it and may fail has one. -/
theorem exists_renderPlain_iff :
    (∃ stored, value.renderPlain dateFormat = .ok stored) ↔
      ∀ path part, At members value path part → part.MayFail → ∃ stored, part.renderPlain dateFormat = .ok stored := by
  constructor
  · rintro ⟨stored, rendered⟩ path part leads -
    obtain ⟨own, -, given⟩ :=
      leads.related (fun own part => own.renderPlain dateFormat = .ok part) members_of_renderPlain rendered
    exact ⟨own, given⟩
  · -- A part of a member is a part of the value, one step further down.
    induction value using induction_members with
    | step value ih =>
      intro parts
      refine exists_renderPlain_of_members (parts [] value .here) ?_
      intro member inside
      exact ih member inside fun path part leads => parts (member.1 :: path) part (.inside inside leads)

/-- What stands in a stored value is what is stored for what stands in the same place in the literal. -/
theorem at_members_iff (rendered : value.renderPlain dateFormat = .ok stored) {path : List PathStep}
    {part : AttributeValue} :
    At AttributeValue.members stored path part ↔
      ∃ own, At members value path own ∧ own.renderPlain dateFormat = .ok part := by
  constructor
  · -- The members of the stored value are those of the literal, read from right to left.
    intro leads
    refine leads.related (fun part (own : Value) => own.renderPlain dateFormat = .ok part) ?_ rendered
    intro stored value rendered
    refine List.Forall₂.flip ((members_of_renderPlain rendered).imp ?_)
    rintro m n ⟨same, given⟩
    exact ⟨same.symm, given⟩
  · rintro ⟨own, leads, given⟩
    obtain ⟨other, again, stands⟩ :=
      leads.related (fun own part => own.renderPlain dateFormat = .ok part) members_of_renderPlain rendered
    rwa [Except.ok.inj (given.symm.trans stands)]

/-! ## Numbers -/

/-- A number is stored as the plain text of its decimal. -/
theorem render_number_eq_ok :
    (Value.number n).render none dateFormat = .ok stored ↔
      ∃ d, n.toDecimal = .ok d ∧ stored = .number (String.ofList d.plain) := by
  change n.toDecimal >>= _ = _ ↔ _
  rw [Format.bind_eq_ok]
  exact exists_congr fun d => and_congr_right fun _ => pure_eq_ok

/-- A member of a set of numbers is stored as the decimal that it is the text of. -/
theorem renderNumberText_eq_ok (dateFormat : String) :
    renderNumberText text = .ok other ↔
      (Value.number (.decimal text)).render none dateFormat = .ok (.number other) := by
  rw [render_number_eq_ok, renderNumberText, Format.bind_eq_ok]
  refine exists_congr fun d => and_congr_right fun _ => ?_
  rw [AttributeValue.number.injEq]
  exact pure_eq_ok

/-- A set of numbers is stored member by member. -/
theorem render_numberSet_eq_ok :
    (Value.numberSet items).render none dateFormat = .ok stored ↔
      ∃ texts, stored = .numberSet texts ∧ List.Forall₂ (fun item text =>
        (Value.number (.decimal item)).render none dateFormat = .ok (.number text)) items texts := by
  change (items.mapM renderNumberText).map AttributeValue.numberSet = _ ↔ _
  simp only [map_eq_ok, mapM_eq_ok, renderNumberText_eq_ok dateFormat]
  exact exists_congr fun texts => and_comm.trans (and_congr_left fun _ => eq_comm)

theorem exists_render_numberSet :
    (∃ stored, (Value.numberSet items).render none dateFormat = .ok stored) ↔
      ∀ item ∈ items, ∃ stored, (Value.number (.decimal item)).render none dateFormat = .ok stored := by
  constructor
  · rintro ⟨stored, rendered⟩ item member
    obtain ⟨texts, -, pairs⟩ := render_numberSet_eq_ok.1 rendered
    obtain ⟨text, -, given⟩ := exists_of_mem_forall₂ pairs member
    exact ⟨.number text, given⟩
  · intro each
    have all : ∀ item ∈ items, ∃ text, renderNumberText item = .ok text := by
      intro item member
      obtain ⟨stored, rendered⟩ := each item member
      obtain ⟨d, -, rfl⟩ := render_number_eq_ok.1 rendered
      exact ⟨_, (renderNumberText_eq_ok dateFormat).2 rendered⟩
    obtain ⟨texts, mapped⟩ := exists_mapM all
    exact ⟨.numberSet texts, map_eq_ok.2 ⟨texts, mapped, rfl⟩⟩

/-- The text that is stored for a number is stored for itself. -/
theorem render_plain_eq_ok (dateFormat : String) (d : Decimal) :
    (Value.number (.decimal (String.ofList d.plain))).render none dateFormat =
      .ok (.number (String.ofList d.plain)) := by
  refine render_number_eq_ok.2 ⟨d, ?_, rfl⟩
  have read : parse? (String.ofList d.plain).toList = some d := by
    rw [String.toList_ofList]
    exact parse?_eq_some.2 (spells_plain d)
  simp only [Number.toDecimal, read]

theorem exists_stands : (∃ x, (Number.decimal text).Stands x) ↔ IsDecimal text.toList := by
  rw [← exists_spells]
  constructor
  · rintro ⟨_, d, spells, -⟩
    exact ⟨d, spells⟩
  · rintro ⟨d, spells⟩
    exact ⟨d.toRat, d, spells, rfl⟩

/-- A decimal is stored if its text stands for a number. -/
theorem exists_render_decimal :
    (∃ stored, (Value.number (.decimal text)).render none dateFormat = .ok stored) ↔ IsDecimal text.toList := by
  rw [← exists_stands]
  constructor
  · rintro ⟨stored, rendered⟩
    obtain ⟨d, read, -⟩ := render_number_eq_ok.1 rendered
    exact ⟨d.toRat, Number.stands_of_toDecimal nofun read⟩
  · rintro ⟨x, stands⟩
    obtain ⟨d, read, -⟩ := Number.toDecimal_of_stands stands
    exact ⟨_, render_number_eq_ok.2 ⟨d, read, rfl⟩⟩

/-- The text that is stored for an exact number is how the number is written with its own digits behind the point. -/
theorem render_of_stands {x : ℚ} (stands : n.Stands x) (dateFormat : String) :
    ∃ whole text, Written x whole n.fractionDigits ∧
      text = String.ofList (minus x ++ whole ++ pointed n.fractionDigits) ∧
      (Value.number n).render none dateFormat = .ok (.number text) ∧
      (Value.number (.decimal text)).render none dateFormat = .ok (.number text) := by
  obtain ⟨d, read, rfl⟩ := Number.toDecimal_of_stands stands
  have behind := Number.fraction_of_toDecimal stands read
  refine ⟨d.whole, String.ofList d.plain, ?_, ?_, render_number_eq_ok.2 ⟨d, read, rfl⟩, render_plain_eq_ok _ d⟩
  · rw [← behind]
    exact written_plain d
  · rw [← behind, ← sign_eq_minus]
    rfl

/-- Without a specifier, the text of a decimal is rendered if it is one. The text that is stored for a decimal or a
machine integer denotes it, has no needless sign or zeros, keeps all digits behind the point, and is stored for
itself. A set of numbers is rendered if each of its members is, member by member. A list or a map is rendered if each
part that may fail is, at any depth, and what is stored for the parts then stands in their places. -/
theorem render_numbers (dateFormat : String) :
    (∀ text, ((∃ stored, (Value.number (.decimal text)).render none dateFormat = .ok stored) ↔ IsDecimal text.toList) ∧
      (IsDecimal text.toList ↔ ∃ x, (Number.decimal text).Stands x)) ∧
    (∀ n x, Number.Stands n x → ∃ whole text, Written x whole n.fractionDigits ∧
      text = String.ofList (minus x ++ whole ++ pointed n.fractionDigits) ∧
      (Value.number n).render none dateFormat = .ok (.number text) ∧
      (Value.number (.decimal text)).render none dateFormat = .ok (.number text)) ∧
    (∀ items,
      ((∃ stored, (Value.numberSet items).render none dateFormat = .ok stored) ↔
        ∀ item ∈ items, ∃ stored, (Value.number (.decimal item)).render none dateFormat = .ok stored) ∧
      ∀ stored, (Value.numberSet items).render none dateFormat = .ok stored ↔
        ∃ texts, stored = .numberSet texts ∧ List.Forall₂ (fun item text =>
          (Value.number (.decimal item)).render none dateFormat = .ok (.number text)) items texts) ∧
    (∀ value, (∃ stored, value.render none dateFormat = .ok stored) ↔
      ∀ path part, At members value path part → part.MayFail → ∃ stored, part.render none dateFormat = .ok stored) ∧
    ∀ value stored, value.render none dateFormat = .ok stored → ∀ path part,
      At AttributeValue.members stored path part ↔
        ∃ own, At members value path own ∧ own.render none dateFormat = .ok part := by
  refine ⟨?texts, ?numbers, ?sets, ?parts, ?places⟩
  case texts =>
    intro text
    exact ⟨exists_render_decimal, exists_stands.symm⟩
  case numbers =>
    intro n x stands
    exact render_of_stands stands dateFormat
  case sets =>
    intro items
    exact ⟨exists_render_numberSet, fun stored => render_numberSet_eq_ok⟩
  case parts =>
    intro value
    exact exists_renderPlain_iff
  case places =>
    intro value stored rendered path part
    exact at_members_iff rendered

/-- Zero loses its sign and keeps its places, in a list inside a map. A point without a digit behind it is refused, and
with it the list that it is in. -/
theorem render_numbers_nested :
    (∃ whole text, Written 0 whole ['0', '0'] ∧ text = String.ofList (minus 0 ++ whole ++ ['.', '0', '0']) ∧
      (Value.map [("prices", .list [.number (.decimal "-0.00"), .numberSet ["+007.10", ".5"]])]).render none "o" =
        .ok (.map [("prices", .list [.number text, .numberSet ["7.10", "0.5"]])])) ∧
      (∃ own, At members (.map [("prices", .list [.number (.decimal "-0.00"), .numberSet ["+007.10", ".5"]])])
          [.field "prices", .index 1] own ∧ own.render none "o" = .ok (.numberSet ["7.10", "0.5"])) ∧
      ¬ ∃ stored, (Value.list [.number (.decimal "1."), .null]).render none "o" = .ok stored := by
  obtain ⟨-, numbers, -, parts, places⟩ := render_numbers "o"
  have rendered : (Value.map [("prices", .list [.number (.decimal "-0.00"), .numberSet ["+007.10", ".5"]])]).render none
      "o" = .ok (.map [("prices", .list [.number "0.00", .numberSet ["7.10", "0.5"]])]) := by rfl
  refine ⟨?_, ?_, ?_⟩
  · have stands : (Number.decimal "-0.00").Stands 0 := by
      refine ⟨⟨0, 2⟩, parse?_eq_some.1 (by rfl), ?_⟩
      norm_num [toRat]
    obtain ⟨whole, text, written, shape, own, -⟩ := numbers _ _ stands
    have zero : (Value.number (.decimal "-0.00")).render none "o" = .ok (.number "0.00") := by rfl
    obtain rfl : "0.00" = text := AttributeValue.number.inj (Except.ok.inj (zero.symm.trans own))
    exact ⟨whole, _, written, shape, rendered⟩
  · refine (places _ _ rendered _ _).1 (.inside (List.mem_singleton.2 rfl) (.inside ?_ .here))
    exact List.mem_mapIdx.2 ⟨1, by decide, rfl⟩
  · intro succeeds
    obtain ⟨stored, given⟩ := (parts _).1 succeeds [.index 0] (.number (.decimal "1."))
      (.inside (List.mem_cons_self ..) .here) trivial
    cases given

end Value

end ItemExpr
