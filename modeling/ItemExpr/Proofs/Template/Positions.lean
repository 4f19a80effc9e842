import Mathlib.Data.List.Induction
import Mathlib.Data.List.TakeWhile
import Mathlib.Tactic.IntervalCases
import ItemExpr.Text.Blank
import ItemExpr.Text.Digits

/-!
# Spellings of a number

A number that is read from between blanks may have a plus sign and zeros in front of its digits. These are all the
spellings that are read, and each of them is read as that number if a machine word can hold it.
-/

namespace ItemExpr.Text

/-- The ways to spell a number: its digits behind zeros and perhaps a plus sign, between blanks. -/
def SpellsNumber (n : Nat) (chars : List Char) : Prop :=
  ∃ before sign zeros after, (∀ c ∈ before, isBlank c = true) ∧ (∀ c ∈ after, isBlank c = true) ∧
    (sign = [] ∨ sign = ['+']) ∧ chars = before ++ (sign ++ (List.replicate zeros '0' ++ digits n)) ++ after

theorem spellsNumber_digits (n : Nat) : SpellsNumber n (digits n) :=
  ⟨[], [], 0, [], List.forall_mem_nil _, List.forall_mem_nil _, .inl rfl, by simp⟩

/-! ## Digits -/

theorem isDigit_of_mem_digits {n : Nat} {c : Char} (member : c ∈ digits n) : c.isDigit = true :=
  Nat.isDigit_of_mem_toDigits (by decide) (by decide) member

theorem toNat_of_isDigit {c : Char} (digit : c.isDigit = true) : 48 ≤ c.toNat ∧ c.toNat ≤ 57 := by
  simpa [Char.isDigit, UInt32.le_iff_toNat_le] using digit

theorem isBlank_of_isDigit {c : Char} (digit : c.isDigit = true) : isBlank c = false := by
  obtain ⟨least, most⟩ := toNat_of_isDigit digit
  simp [isBlank]
  omega

theorem digits_of_isDigit {c : Char} (digit : c.isDigit = true) : digits (c.toNat - 48) = [c] := by
  obtain ⟨least, most⟩ := toNat_of_isDigit digit
  rw [← Char.ofNat_toNat c]
  generalize c.toNat = code at least most
  interval_cases code <;> rfl

theorem digitsValue_concat (chars : List Char) (c : Char) :
    digitsValue (chars ++ [c]) = 10 * digitsValue chars + (c.toNat - 48) := by
  simp [digitsValue, Nat.ofDigitChars_append, Nat.ofDigitChars_cons]

theorem digitsValue_zeros (zeros : Nat) (chars : List Char) :
    digitsValue (List.replicate zeros '0' ++ chars) = digitsValue chars := by
  induction zeros with
  | zero => rfl
  | succ zeros ih => exact ih

/-- A run of digits is the digits of its number, behind zeros. -/
theorem exists_zeros {chars : List Char} (nonempty : chars ≠ []) (all : ∀ c ∈ chars, c.isDigit = true) :
    ∃ zeros, chars = List.replicate zeros '0' ++ digits (digitsValue chars) := by
  induction chars using List.reverseRecOn with
  | nil => exact absurd rfl nonempty
  | append_singleton chars c ih =>
    have digit := all c (by simp)
    have last := digits_of_isDigit digit
    rw [digitsValue_concat]
    by_cases first : chars = []
    · subst first
      exact ⟨0, by simpa [digitsValue] using last.symm⟩
    · obtain ⟨zeros, same⟩ := ih first fun c member => all c (List.mem_append_left _ member)
      obtain zero | positive := Nat.eq_zero_or_pos (digitsValue chars)
      · -- Zeros only so far, and the last of them is the digit of their number.
        rw [zero] at same ⊢
        refine ⟨zeros + 1, ?_⟩
        rw [Nat.mul_zero, Nat.zero_add, last, List.replicate_succ']
        exact congrArg (· ++ [c]) same
      · refine ⟨zeros, ?_⟩
        have small : c.toNat - 48 < 10 := by
          have := toNat_of_isDigit digit
          omega
        have joined := Nat.toDigits_append_toDigits (by decide : 1 < 10) positive small
        change digits _ ++ digits _ = digits _ at joined
        rw [← joined, last, ← List.append_assoc, ← same]

theorem readDigits?_accepts {chars : List Char} {n : Nat} :
    readDigits? chars = some n ↔ (chars ≠ [] ∧ ∀ c ∈ chars, c.isDigit = true) ∧ digitsValue chars = n := by
  simp [readDigits?]

theorem readDigits?_eq_some {chars : List Char} {n : Nat} :
    readDigits? chars = some n ↔ ∃ zeros, chars = List.replicate zeros '0' ++ digits n := by
  rw [readDigits?_accepts]
  constructor
  · rintro ⟨⟨nonempty, all⟩, rfl⟩
    exact exists_zeros nonempty all
  · rintro ⟨zeros, rfl⟩
    refine ⟨⟨?_, ?_⟩, ?_⟩
    · exact List.append_ne_nil_of_right_ne_nil _ Nat.toDigits_ne_nil
    · intro c member
      obtain zero | own := List.mem_append.1 member
      · rw [List.eq_of_mem_replicate zero]
        rfl
      · exact isDigit_of_mem_digits own
    · rw [digitsValue_zeros, digitsValue_digits]

/-! ## Machine words -/

theorem readWord?_eq_some {chars : List Char} {n : Nat} :
    readWord? chars = some n ↔ n < wordLimit ∧
      ∃ sign zeros, (sign = [] ∨ sign = ['+']) ∧ chars = sign ++ (List.replicate zeros '0' ++ digits n) := by
  unfold readWord?
  rw [Option.filter_eq_some_iff, readDigits?_eq_some, decide_eq_true_eq]
  constructor
  · rintro ⟨⟨zeros, same⟩, small⟩
    split at same
    · exact ⟨small, ['+'], zeros, .inr rfl, congrArg ('+' :: ·) same⟩
    · exact ⟨small, [], zeros, .inl rfl, same⟩
  · rintro ⟨small, sign, zeros, rfl | rfl, rfl⟩
    · refine ⟨⟨zeros, ?_⟩, small⟩
      split
      · -- Digits do not start with a plus sign.
        rename_i rest same
        have digit : ('+' : Char).isDigit = true := by
          have member : '+' ∈ List.replicate zeros '0' ++ digits n := by
            rw [List.nil_append] at same
            simp [same]
          obtain zero | own := List.mem_append.1 member
          · exact absurd (List.eq_of_mem_replicate zero) (by decide)
          · exact isDigit_of_mem_digits own
        exact absurd digit (by decide)
      · rfl
    · exact ⟨⟨zeros, rfl⟩, small⟩

/-! ## Blanks -/

theorem trimBlank_of_blanks {before core after : List Char} (start : ∀ c ∈ before, isBlank c = true)
    (finish : ∀ c ∈ after, isBlank c = true) (plain : ∀ c ∈ core, isBlank c = false) :
    trimBlank (before ++ core ++ after) = core := by
  have stops : ∀ {chars : List Char}, (∀ c ∈ chars, isBlank c = false) → chars.dropWhile isBlank = chars := by
    intro chars refused
    cases chars with
    | nil => rfl
    | cons c rest => rw [List.dropWhile_cons_of_neg (by simp [refused c])]
  unfold trimBlank
  rw [List.append_assoc, List.dropWhile_append_of_pos start]
  cases core with
  | nil => rw [List.nil_append, List.dropWhile_eq_nil_iff.2 finish]; rfl
  | cons c rest =>
    rw [List.cons_append, List.dropWhile_cons_of_neg (by simp [plain c]), ← List.cons_append, List.reverse_append,
      List.dropWhile_append_of_pos fun c member => finish c (List.mem_reverse.1 member),
      stops fun c member => plain c (List.mem_reverse.1 member), List.reverse_reverse]

theorem exists_blanks (chars : List Char) :
    ∃ before after, (∀ c ∈ before, isBlank c = true) ∧ (∀ c ∈ after, isBlank c = true) ∧
      chars = before ++ trimBlank chars ++ after := by
  have blank : ∀ (chars : List Char), ∀ c ∈ chars.takeWhile isBlank, isBlank c = true :=
    fun chars c member => List.all_eq_true.1 List.all_takeWhile c member
  refine ⟨chars.takeWhile isBlank, ((chars.dropWhile isBlank).reverse.takeWhile isBlank).reverse, blank chars,
    fun c member => blank _ c (List.mem_reverse.1 member), ?_⟩
  rw [trimBlank, List.append_assoc, ← List.reverse_append, List.takeWhile_append_dropWhile, List.reverse_reverse,
    List.takeWhile_append_dropWhile]

theorem SpellsNumber.mem {n : Nat} {chars : List Char} {c : Char} (spells : SpellsNumber n chars) (member : c ∈ chars) :
    isBlank c = true ∨ c = '+' ∨ c.isDigit = true := by
  obtain ⟨before, sign, zeros, after, start, finish, signs, rfl⟩ := spells
  simp only [List.mem_append, List.mem_replicate] at member
  obtain (blank | plus | ⟨_, rfl⟩ | digit) | blank := member
  · exact .inl (start c blank)
  · obtain rfl | rfl := signs
    · cases plus
    · exact .inr (.inl (List.mem_singleton.1 plus))
  · exact .inr (.inr rfl)
  · exact .inr (.inr (isDigit_of_mem_digits digit))
  · exact .inl (finish c blank)

/-- What is read between blanks: the spellings of the numbers that a machine word can hold. -/
theorem readWord?_trimBlank {chars : List Char} {n : Nat} :
    readWord? (trimBlank chars) = some n ↔ n < wordLimit ∧ SpellsNumber n chars := by
  rw [readWord?_eq_some]
  refine and_congr_right fun _ => ⟨?_, ?_⟩
  · rintro ⟨sign, zeros, signs, same⟩
    obtain ⟨before, after, start, finish, parts⟩ := exists_blanks chars
    exact ⟨before, sign, zeros, after, start, finish, signs, same ▸ parts⟩
  · rintro ⟨before, sign, zeros, after, start, finish, signs, rfl⟩
    refine ⟨sign, zeros, signs, trimBlank_of_blanks start finish fun c member => ?_⟩
    simp only [List.mem_append, List.mem_replicate] at member
    obtain plus | ⟨_, rfl⟩ | digit := member
    · obtain rfl | rfl := signs
      · cases plus
      · rw [List.mem_singleton.1 plus]
        rfl
    · rfl
    · exact isBlank_of_isDigit (isDigit_of_mem_digits digit)

end ItemExpr.Text
