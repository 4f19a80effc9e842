import ItemExpr.Number.Decimal
import ItemExpr.Text.Split

/-!
# Digits in groups

Grouped digits are the digits with a comma in front of every third one from the right, the first digit apart
(`Decimal.inGroups_grouped`). Without its commas such a text is the digits again (`Decimal.InGroups.filter`).
-/

namespace ItemExpr.Decimal

/-- Digits in groups, with a comma in front of each group but the first. The first group has one to three digits, unless
there are no digits at all, and every other group has three. -/
def InGroups (digits shown : List Char) : Prop :=
  ∃ (first : List Char) (rest : List (List Char)), digits = first ++ rest.flatten ∧
    shown = first ++ rest.flatMap (',' :: ·) ∧ (digits ≠ [] → first ≠ []) ∧ first.length ≤ 3 ∧
    ∀ group ∈ rest, group.length = 3

variable {digits shown : List Char}

theorem inGroups_of_length (short : digits.length ≤ 3) : InGroups digits digits := by
  refine ⟨digits, [], ?_, ?_, id, short, List.forall_mem_nil _⟩
  · simp
  · simp

/-- A group of three behind digits that are in groups already. -/
theorem InGroups.concat (groups : InGroups digits shown) (nonempty : digits ≠ []) (group : List Char)
    (three : group.length = 3) : InGroups (digits ++ group) (shown ++ ',' :: group) := by
  obtain ⟨first, rest, rfl, rfl, starts, short, all⟩ := groups
  refine ⟨first, rest ++ [group], ?_, ?_, fun _ => starts nonempty, short, ?_⟩
  · simp
  · simp
  · intro g member
    obtain before | last := List.mem_append.1 member
    · exact all g before
    · rw [List.mem_singleton.1 last]
      exact three

/-- The digits are given from the right, and so is what is shown; both are turned around to be compared. -/
theorem inGroups_groupFromRight (backwards : List Char) :
    InGroups backwards.reverse (groupFromRight backwards).reverse := by
  induction backwards using groupFromRight.induct with
  | case1 a b c d rest ih =>
    have more := ih.concat (by simp) [c, b, a] rfl
    rw [groupFromRight]
    simpa using more
  | case2 chars few =>
    have same : groupFromRight chars = chars := by
      rw [groupFromRight]
      exact few
    have short : chars.length ≤ 3 := by
      -- With a fourth digit the other equation would apply.
      match chars, few with
      | [], _ | [_], _ | [_, _], _ | [_, _, _], _ => simp
      | a :: b :: c :: d :: rest, few => exact (few a b c d rest rfl).elim
    rw [same]
    exact inGroups_of_length (by rwa [List.length_reverse])

theorem inGroups_grouped (digits : List Char) : InGroups digits (grouped digits) := by
  have turned := inGroups_groupFromRight digits.reverse
  rwa [List.reverse_reverse] at turned

theorem InGroups.eq_nil (groups : InGroups digits shown) (none : shown = []) : digits = [] := by
  obtain ⟨first, rest, -, rfl, starts, -⟩ := groups
  by_cases empty : digits = []
  · exact empty
  · exact absurd (List.append_eq_nil_iff.1 none).1 (starts empty)

theorem filter_of_no_comma (absent : ',' ∉ digits) : digits.filter (· != ',') = digits :=
  List.filter_eq_self.2 (Text.passes_of_not_mem absent)

/-- Without the commas, digits in groups are the digits. -/
theorem InGroups.filter (groups : InGroups digits shown) (absent : ',' ∉ digits) :
    shown.filter (· != ',') = digits := by
  obtain ⟨first, rest, rfl, rfl, -⟩ := groups
  simp only [List.mem_append, not_or] at absent
  rw [List.filter_append, filter_of_no_comma absent.1]
  congr 1
  -- Each group loses the comma in front of it.
  replace absent := absent.2
  induction rest with
  | nil => rfl
  | cons group rest ih =>
    simp only [List.flatten_cons, List.mem_append, not_or] at absent
    rw [List.flatMap_cons, List.filter_append, ih absent.2, List.flatten_cons, List.filter_cons_of_neg (by simp),
      filter_of_no_comma absent.1]

end ItemExpr.Decimal
