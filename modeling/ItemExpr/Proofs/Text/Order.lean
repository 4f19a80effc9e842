import Mathlib.Data.List.Lex
import ItemExpr.Proofs.Text.Padding
import ItemExpr.Text.Base64

/-!
# The order of fixed texts

Byte strings are ordered by their first difference. Texts that are digits in fields of fixed width, with the same
characters behind the fields, are ordered as the numbers in their fields are: by the first field that differs
(`Layout.bytes_lt_iff`).
-/

namespace ItemExpr

/-! ## Bytes -/

theorem byteArray_toList_loop (bytes : ByteArray) (i : Nat) (done : List UInt8) :
    ByteArray.toList.loop bytes i done = done.reverse ++ bytes.data.toList.drop i := by
  fun_induction ByteArray.toList.loop bytes i done with
  | case1 i done within ih =>
    have inside : i < bytes.data.toList.length := by simpa using within
    rw [ih, List.drop_eq_getElem_cons inside]
    simp [ByteArray.get!, within]
  | case2 i done outside =>
    rw [List.drop_eq_nil_of_le (by simpa using outside), List.append_nil]

/-- The bytes of characters, each of which has one byte or more. -/
def Text.bytes (chars : List Char) : Bytes :=
  chars.flatMap String.utf8EncodeChar

theorem Bytes.ofText_ofList (chars : List Char) : Bytes.ofText (String.ofList chars) = Text.bytes chars := by
  rw [ofText, String.toUTF8, String.toByteArray_ofList, ByteArray.toList, byteArray_toList_loop]
  simp [List.utf8Encode, Text.bytes]

namespace Text

@[simp] theorem bytes_append (left right : List Char) : bytes (left ++ right) = bytes left ++ bytes right :=
  List.flatMap_append

variable {α : Type} [LT α] {xs ys us vs : List α}

/-- Behind beginnings of the same length, the rest only counts if the beginnings are the same. -/
theorem append_lt_append_iff (length : xs.length = ys.length) :
    xs ++ us < ys ++ vs ↔ xs < ys ∨ xs = ys ∧ us < vs := by
  induction xs generalizing ys with
  | nil =>
    obtain rfl := List.length_eq_zero_iff.1 length.symm
    simp
  | cons x xs ih =>
    obtain ⟨y, ys, rfl⟩ := List.exists_cons_of_length_eq_add_one length.symm
    rw [List.cons_append, List.cons_append, List.cons_lt_cons_iff, List.cons_lt_cons_iff,
      ih (Nat.succ.inj length), List.cons.injEq]
    tauto

/-! ## Digits -/

theorem digitsValue_cons (c : Char) (chars : List Char) :
    digitsValue (c :: chars) = (c.toNat - 48) * 10 ^ chars.length + digitsValue chars := by
  have single : digitsValue [c] = c.toNat - 48 := by simp [digitsValue, Nat.ofDigitChars_cons]
  rw [← single]
  exact digitsValue_append [c] chars

theorem digitsValue_lt {chars : List Char} (all : ∀ c ∈ chars, c.isDigit = true) :
    digitsValue chars < 10 ^ chars.length := by
  induction chars with
  | nil => exact Nat.one_pos
  | cons c chars ih =>
    have rest := ih fun c member => all c (List.mem_cons_of_mem _ member)
    obtain ⟨-, most⟩ := toNat_of_isDigit (all c (List.mem_cons_self ..))
    have first : (c.toNat - 48) * 10 ^ chars.length ≤ 9 * 10 ^ chars.length := Nat.mul_le_mul_right _ (by omega)
    rw [digitsValue_cons, List.length_cons, Nat.pow_succ]
    omega

theorem bytes_digit {c : Char} (digit : c.isDigit = true) (chars : List Char) :
    bytes (c :: chars) = c.val.toUInt8 :: bytes chars := by
  obtain ⟨-, most⟩ := toNat_of_isDigit digit
  have small : c.val ≤ 0x7F := by
    rw [UInt32.le_iff_toNat_le]
    exact Nat.le_trans most (by decide)
  have single : c.utf8Size = 1 := if_pos small
  rw [bytes, List.flatMap_cons, String.utf8EncodeChar_eq_singleton single]
  rfl

theorem toNat_digit_byte {c : Char} (digit : c.isDigit = true) : c.val.toUInt8.toNat = c.toNat := by
  obtain ⟨-, most⟩ := toNat_of_isDigit digit
  rw [UInt32.toNat_toUInt8, Char.toNat_val]
  exact Nat.mod_eq_of_lt (by omega)

theorem length_bytes_digits {chars : List Char} (all : ∀ c ∈ chars, c.isDigit = true) :
    (bytes chars).length = chars.length := by
  induction chars with
  | nil => rfl
  | cons c chars ih =>
    rw [bytes_digit (all c (List.mem_cons_self ..)), List.length_cons, List.length_cons,
      ih fun c member => all c (List.mem_cons_of_mem _ member)]

/-- Numbers are ordered by their higher parts, and by their lower ones where those are the same. -/
theorem mul_add_lt_iff {i j u v unit : Nat} (uBelow : u < unit) (vBelow : v < unit) :
    i * unit + u < j * unit + v ↔ i < j ∨ i = j ∧ u < v := by
  obtain less | rfl | greater := Nat.lt_trichotomy i j
  · have step : (i + 1) * unit ≤ j * unit := Nat.mul_le_mul_right _ less
    rw [Nat.succ_mul] at step
    exact iff_of_true (by omega) (.inl less)
  · omega
  · have step : (j + 1) * unit ≤ i * unit := Nat.mul_le_mul_right _ greater
    rw [Nat.succ_mul] at step
    exact iff_of_false (by omega) (by omega)

/-- As many digits are ordered as the numbers that they stand for. -/
theorem bytes_digits_lt {left right : List Char} (length : left.length = right.length)
    (leftDigits : ∀ c ∈ left, c.isDigit = true) (rightDigits : ∀ c ∈ right, c.isDigit = true) :
    bytes left < bytes right ↔ digitsValue left < digitsValue right := by
  induction left generalizing right with
  | nil =>
    obtain rfl := List.length_eq_zero_iff.1 length.symm
    simp
  | cons c left ih =>
    obtain ⟨d, right, rfl⟩ := List.exists_cons_of_length_eq_add_one length.symm
    have leftRest : ∀ c ∈ left, c.isDigit = true := fun c member => leftDigits c (List.mem_cons_of_mem _ member)
    have rightRest : ∀ c ∈ right, c.isDigit = true := fun c member => rightDigits c (List.mem_cons_of_mem _ member)
    have same : left.length = right.length := Nat.succ.inj length
    have first := leftDigits c (List.mem_cons_self ..)
    have second := rightDigits d (List.mem_cons_self ..)
    obtain ⟨cLeast, -⟩ := toNat_of_isDigit first
    obtain ⟨dLeast, -⟩ := toNat_of_isDigit second
    have below : c.val.toUInt8 < d.val.toUInt8 ↔ c.toNat - 48 < d.toNat - 48 := by
      rw [UInt8.lt_iff_toNat_lt, toNat_digit_byte first, toNat_digit_byte second]
      omega
    have equal : c.val.toUInt8 = d.val.toUInt8 ↔ c.toNat - 48 = d.toNat - 48 := by
      rw [← UInt8.toNat_inj, toNat_digit_byte first, toNat_digit_byte second]
      omega
    have leftBelow := digitsValue_lt leftRest
    rw [same] at leftBelow
    rw [bytes_digit first, bytes_digit second, List.cons_lt_cons_iff, ih same leftRest rightRest, digitsValue_cons,
      digitsValue_cons, same, below, equal, mul_add_lt_iff leftBelow (digitsValue_lt rightRest)]

/-- Numbers that fit into a field are ordered as their texts in the field are. -/
theorem bytes_zeroPadded_lt {width m n : Nat} (positive : 0 < width) (mFits : m < 10 ^ width) (nFits : n < 10 ^ width) :
    bytes (zeroPadded width m) < bytes (zeroPadded width n) ↔ m < n := by
  have length : (zeroPadded width m).length = (zeroPadded width n).length :=
    (length_zeroPadded positive mFits).trans (length_zeroPadded positive nFits).symm
  rw [bytes_digits_lt length (fun _ => isDigit_of_mem_zeroPadded) fun _ => isDigit_of_mem_zeroPadded,
    digitsValue_zeroPadded, digitsValue_zeroPadded]

theorem bytes_zeroPadded_inj {width m n : Nat} (positive : 0 < width) (mFits : m < 10 ^ width)
    (nFits : n < 10 ^ width) : bytes (zeroPadded width m) = bytes (zeroPadded width n) ↔ m = n := by
  refine ⟨fun same => ?_, fun same => by rw [same]⟩
  obtain less | equal | greater := Nat.lt_trichotomy m n
  · have below := (bytes_zeroPadded_lt positive mFits nFits).2 less
    rw [same] at below
    exact absurd below (List.lt_irrefl _)
  · exact equal
  · have below := (bytes_zeroPadded_lt positive nFits mFits).2 greater
    rw [same] at below
    exact absurd below (List.lt_irrefl _)

/-! ## Layouts -/

/-- Fields of fixed widths, each with the characters that stand behind it. -/
abbrev Layout := List (Nat × List Char)

namespace Layout

/-- There is a number for each field, and it fits into the places that the field has. -/
def Fits (layout : Layout) (fields : List Nat) : Prop :=
  List.Forall₂ (fun field n => 0 < field.1 ∧ n < 10 ^ field.1) layout fields

/-- The text of numbers in their fields. -/
def text : Layout → List Nat → List Char
  | (width, behind) :: rest, n :: fields => zeroPadded width n ++ (behind ++ text rest fields)
  | _, _ => []

variable {layout : Layout} {left right : List Nat}

theorem text_append (fits : Fits layout left) (behind : Layout) (fields : List Nat) :
    text (layout ++ behind) (left ++ fields) = text layout left ++ text behind fields := by
  induction fits with
  | nil => rfl
  | cons _ _ ih => simp [text, ih]

/-- Texts of one layout are ordered by the first field that differs. -/
theorem bytes_lt_iff (leftFits : Fits layout left) (rightFits : Fits layout right) :
    bytes (text layout left) < bytes (text layout right) ↔ left < right := by
  induction leftFits generalizing right with
  | nil =>
    cases rightFits
    exact iff_of_false (List.lt_irrefl _) (List.lt_irrefl _)
  | @cons field m layout left mFits leftFits ih =>
    obtain ⟨width, behind⟩ := field
    obtain - | ⟨nFits, rightFits⟩ := rightFits
    obtain ⟨positive, mFits⟩ := mFits
    have length : ∀ {k : Nat}, k < 10 ^ width → (bytes (zeroPadded width k)).length = width := by
      intro k fits
      rw [length_bytes_digits fun _ => isDigit_of_mem_zeroPadded, length_zeroPadded positive fits]
    simp only [text, bytes_append]
    rw [append_lt_append_iff ((length mFits).trans (length nFits.2).symm),
      bytes_zeroPadded_lt positive mFits nFits.2, bytes_zeroPadded_inj positive mFits nFits.2, append_lt_append_iff rfl,
      ih rightFits, List.cons_lt_cons_iff]
    simp [List.lt_irrefl]

/-- The fields of a text are known from the text. -/
theorem eq_of_text_eq (leftFits : Fits layout left) (rightFits : Fits layout right)
    (same : text layout left = text layout right) : left = right := by
  obtain less | equal | greater := lt_trichotomy left right
  · have below := (bytes_lt_iff leftFits rightFits).2 less
    rw [same] at below
    exact absurd below (List.lt_irrefl _)
  · exact equal
  · have below := (bytes_lt_iff rightFits leftFits).2 greater
    rw [same] at below
    exact absurd below (List.lt_irrefl _)

end Layout

end Text

end ItemExpr
