import ItemExpr.Proofs.Template.Positions

/-!
# Digits in fields

The number that a run of digits stands for, put together from the parts of the run, and the digits of a number in a
field of fixed width. A run of digits is the field of its own width that holds its number
(`Text.zeroPadded_digitsValue`), and a number has no zero in front of its other digits (`Text.eq_zero_of_head?_digits`).
-/

namespace ItemExpr.Text

variable {width n : Nat} {c : Char}

theorem digitsValue_append (left right : List Char) :
    digitsValue (left ++ right) = digitsValue left * 10 ^ right.length + digitsValue right := by
  unfold digitsValue
  rw [Nat.ofDigitChars_append, Nat.ofDigitChars_eq_ofDigitChars_zero, Nat.mul_comm]

theorem digitsValue_replicate_zero (count : Nat) : digitsValue (List.replicate count '0') = 0 := by
  have alone := digitsValue_zeros count []
  rwa [List.append_nil] at alone

theorem digitsValue_leftpad (width : Nat) (chars : List Char) :
    digitsValue (chars.leftpad width '0') = digitsValue chars :=
  digitsValue_zeros _ chars

theorem isDigit_of_mem_leftpad {chars : List Char} (all : ∀ c ∈ chars, c.isDigit = true)
    (member : c ∈ chars.leftpad width '0') : c.isDigit = true := by
  obtain zero | own := List.mem_append.1 member
  · rw [List.eq_of_mem_replicate zero]
    rfl
  · exact all c own

theorem digitsValue_zeroPadded (width n : Nat) : digitsValue (zeroPadded width n) = n := by
  rw [zeroPadded, digitsValue_leftpad, digitsValue_digits]

theorem isDigit_of_mem_zeroPadded (member : c ∈ zeroPadded width n) : c.isDigit = true :=
  isDigit_of_mem_leftpad (fun _ => isDigit_of_mem_digits) member

theorem length_zeroPadded (positive : 0 < width) (fits : n < 10 ^ width) : (zeroPadded width n).length = width := by
  have short := (Nat.length_toDigits_le_iff (by omega) positive).2 fits
  rw [zeroPadded, List.length_leftpad, digits]
  exact Nat.max_eq_left short

theorem zeroPadded_digitsValue {chars : List Char} (nonempty : chars ≠ []) (all : ∀ c ∈ chars, c.isDigit = true) :
    zeroPadded chars.length (digitsValue chars) = chars := by
  obtain ⟨zeros, same⟩ := exists_zeros nonempty all
  have length := congrArg List.length same
  rw [List.length_append, List.length_replicate] at length
  -- The digits of the number are padded with the zeros that stand in front of them.
  rw [zeroPadded, List.leftpad, length, Nat.add_sub_cancel]
  exact same.symm

theorem eq_zero_of_head?_digits (zero : (digits n).head? = some '0') : n = 0 := by
  induction n using Nat.strong_induction_on with
  | _ n ih =>
    by_cases small : n < 10
    · have single : digits n = [n.digitChar] := Nat.toDigits_of_lt_base small
      rw [single, List.head?_cons] at zero
      apply digits_injective
      rw [single, Option.some.inj zero]
      rfl
    · have split : digits n = digits (n / 10) ++ [(n % 10).digitChar] :=
        Nat.toDigits_of_base_le (by decide) (not_lt.1 small)
      obtain ⟨c, front, cons⟩ := List.exists_cons_of_ne_nil (show digits (n / 10) ≠ [] from Nat.toDigits_ne_nil)
      rw [split, cons, List.cons_append, List.head?_cons] at zero
      have none := ih (n / 10) (by omega) (by rw [cons, List.head?_cons, zero])
      omega

end ItemExpr.Text
