import Mathlib.Tactic.IntervalCases
import ItemExpr.Format.Number
import ItemExpr.Proofs.Decimal.Spelling

/-!
# Hexadecimal digits that look like a decimal

Hexadecimal digits without a letter among them are also decimal digits, and read as a decimal. The decimal that is read
is then the number only for a number of one digit, and is less than a greater one.
-/

namespace ItemExpr.Format

open Text Decimal

variable {bits width : Nat} {upper : Bool} {d : Decimal} {c : Char}

theorem exists_digitChar (member : c ∈ Nat.toDigits 16 bits) : ∃ k < 16, c = k.digitChar := by
  induction bits using Nat.strong_induction_on with
  | _ bits ih =>
    by_cases small : bits < 16
    · rw [Nat.toDigits_of_lt_base small] at member
      exact ⟨bits, small, List.mem_singleton.1 member⟩
    · rw [Nat.toDigits_of_base_le (by decide) (not_lt.1 small)] at member
      obtain front | last := List.mem_append.1 member
      · exact ih (bits / 16) (by omega) front
      · exact ⟨bits % 16, Nat.mod_lt _ (by decide), List.mem_singleton.1 last⟩

/-- In either case, the characters of decimals among hexadecimal digits are the decimal digits. -/
theorem isDigit_of_hexDigit {k : Nat} (small : k < 16)
    (decimal : c.isDigit = true ∨ c = '.' ∨ c = '+' ∨ c = '-') (shown : c = k.digitChar ∨ c = k.digitChar.toUpper) :
    k.digitChar.isDigit = true ∧ c = k.digitChar := by
  obtain rfl | rfl := shown
  · interval_cases k <;> revert decimal <;> decide
  · interval_cases k <;> revert decimal <;> decide

/-- Hexadecimal digits that are read as a decimal have no letter among them. -/
theorem isDigit_of_spells (spells : Spells (hexadecimal bits width upper) d) :
    (∀ c ∈ Nat.toDigits 16 bits, c.isDigit = true) ∧
      hexadecimal bits width upper = (Nat.toDigits 16 bits).leftpad width '0' := by
  have plain : ∀ c ∈ Nat.toDigits 16 bits, c.isDigit = true ∧ (upper = true → c.toUpper = c) := by
    intro c member
    obtain ⟨k, small, rfl⟩ := exists_digitChar member
    have padded : k.digitChar ∈ (Nat.toDigits 16 bits).leftpad width '0' := List.mem_append_right _ member
    cases upper with
    | false =>
      have decimal := spells.mem (c := k.digitChar) padded
      exact ⟨(isDigit_of_hexDigit small decimal (.inl rfl)).1, nofun⟩
    | true =>
      have decimal := spells.mem (c := k.digitChar.toUpper) (List.mem_map_of_mem padded)
      obtain ⟨digit, same⟩ := isDigit_of_hexDigit small decimal (.inr rfl)
      exact ⟨digit, fun _ => same⟩
  refine ⟨fun c member => (plain c member).1, ?_⟩
  unfold hexadecimal
  dsimp only
  split
  case isTrue raised =>
    refine (List.map_congr_left ?_).trans (List.map_id _)
    intro c member
    obtain zero | own := List.mem_append.1 member
    · rw [List.eq_of_mem_replicate zero]
      rfl
    · exact (plain c own).2 raised
  case isFalse => rfl

theorem digitsValue_digitChar {k : Nat} (small : k < 10) : digitsValue [k.digitChar] = k := by
  interval_cases k <;> rfl

/-- What hexadecimal digits without a letter are worth as decimal digits. -/
theorem digitsValue_toDigits (all : ∀ c ∈ Nat.toDigits 16 bits, c.isDigit = true) :
    digitsValue (Nat.toDigits 16 bits) ≤ bits ∧ (digitsValue (Nat.toDigits 16 bits) = bits ↔ bits < 10) := by
  induction bits using Nat.strong_induction_on with
  | _ bits ih =>
    have digit_lt : ∀ {k : Nat}, k.digitChar.isDigit = true → k < 10 := by
      intro k digit
      rwa [Nat.isDigit_digitChar, decide_eq_true_eq] at digit
    by_cases small : bits < 16
    · rw [Nat.toDigits_of_lt_base small] at all ⊢
      have single := digit_lt (all _ (List.mem_singleton_self _))
      rw [digitsValue_digitChar single]
      exact ⟨le_rfl, iff_of_true rfl single⟩
    · rw [Nat.toDigits_of_base_le (by decide) (not_lt.1 small)] at all ⊢
      have last := digit_lt (all _ (List.mem_append_right _ (List.mem_singleton_self _)))
      obtain ⟨front, -⟩ := ih (bits / 16) (by omega) fun c member => all c (List.mem_append_left _ member)
      -- A digit in front of the last one counts tenfold instead of sixteenfold.
      rw [digitsValue_append, digitsValue_digitChar last, List.length_singleton, pow_one]
      omega

/-- Hexadecimal digits that are read as a decimal are read as the number only if it has one digit. -/
theorem hexadecimal_spells (spells : Spells (hexadecimal bits width upper) d) :
    ∃ m : Nat, d = .ofInt m ∧ (m = bits ↔ bits < 10) := by
  obtain ⟨all, shown⟩ := isDigit_of_spells spells
  obtain ⟨-, same⟩ := digitsValue_toDigits all
  have padded : SpellsMagnitude ((Nat.toDigits 16 bits).leftpad width '0')
      (.ofInt (digitsValue (Nat.toDigits 16 bits))) := by
    refine ⟨_, [], ?_, ?_, (List.append_nil _).symm, ?_⟩
    · intro c member
      rw [List.append_nil] at member
      exact isDigit_of_mem_leftpad all member
    · exact List.append_ne_nil_of_left_ne_nil (List.append_ne_nil_of_right_ne_nil _ Nat.toDigits_ne_nil) _
    · rw [List.append_nil, digitsValue_leftpad]
      rfl
  rw [shown] at spells
  exact ⟨_, spells.unique (.unsigned padded), same⟩

end ItemExpr.Format
