/-!
# Splitting at a character

A reader that looks for the end of a part splits the rest of its text in front of the first character that a test
refuses. What is left is shorter, which is why such readers end. If the test refuses a single character, the text is
split at its first occurrence.
-/

namespace ItemExpr.Text

variable {test : Char → Bool}

/-- What is left behind the accepted characters is no longer than the text. -/
theorem length_dropWhile_le (cs : List Char) : (cs.dropWhile test).length ≤ cs.length :=
  (List.dropWhile_suffix test).length_le

/-- What is left behind the first refused character is shorter than the text. -/
theorem length_lt_of_dropWhile_eq {cs after : List Char} {refused : Char}
    (found : cs.dropWhile test = refused :: after) : after.length < cs.length := by
  have shorter := @length_dropWhile_le test cs
  rw [found, List.length_cons] at shorter
  exact shorter

/-! ## Splitting at one character -/

section

variable {c d : Char} {before chars after : List Char}

theorem passes_of_not_mem (absent : c ∉ chars) : ∀ d ∈ chars, (d != c) = true := by
  intro d member
  exact bne_iff_ne.2 fun same => absent (same ▸ member)

/-- A text without the character is not split. -/
theorem split_of_not_mem (absent : c ∉ chars) :
    chars.takeWhile (· != c) = chars ∧ chars.dropWhile (· != c) = [] := by
  have taken : (chars ++ []).takeWhile (· != c) = chars :=
    (List.takeWhile_append_of_pos (passes_of_not_mem absent)).trans (List.append_nil _)
  have dropped : (chars ++ []).dropWhile (· != c) = [] := List.dropWhile_append_of_pos (passes_of_not_mem absent)
  rw [List.append_nil] at taken dropped
  exact ⟨taken, dropped⟩

theorem split_at_first (absent : c ∉ before) (after : List Char) :
    (before ++ c :: after).takeWhile (· != c) = before ∧
      (before ++ c :: after).dropWhile (· != c) = c :: after := by
  rw [List.takeWhile_append_of_pos (passes_of_not_mem absent), List.dropWhile_append_of_pos (passes_of_not_mem absent)]
  simp

/-- What a text is split into if anything is left of it. -/
theorem eq_of_split (found : chars.dropWhile (· != c) = d :: after) :
    c ∉ chars.takeWhile (· != c) ∧ chars = chars.takeWhile (· != c) ++ c :: after := by
  obtain rfl : d = c := by
    have stopped := List.head?_dropWhile_not (· != c) chars
    rw [found] at stopped
    simpa using stopped
  refine ⟨fun member => ?_, by rw [← found, List.takeWhile_append_dropWhile]⟩
  exact absurd (List.all_eq_true.1 List.all_takeWhile _ member) (by simp)

end

end ItemExpr.Text
