import ItemExpr.Proofs.Format.DigitPlaces
import ItemExpr.Proofs.Format.Hexadecimal
import ItemExpr.Value.Render

/-!
# Numbers that are stored after formatting

What a formatted number shows is stored as a number if it reads as a decimal. Such a decimal is the given number,
rounded to the places that it is written with, under every specifier but one: hexadecimal digits are read as decimal
ones (`Value.storedNumber_iff`).
-/

namespace ItemExpr

open Decimal

namespace Format

variable {n : Number} {d : Decimal} {spec : String} {letter : Char} {precision : Option ℕ} {chars : List Char}

/-! ## Specifiers -/

/-- The characters of a specifier for hexadecimal digits: the letter in either case, and perhaps a number of digits. -/
def AsksForHexadecimal (chars : List Char) : Prop :=
  ∃ letter width, chars = letter :: width ∧ (letter = 'X' ∨ letter = 'x') ∧ ∀ c ∈ width, c.isDigit = true

theorem toUpper_eq_X (letter : Char) : letter.toUpper = 'X' ↔ letter = 'X' ∨ letter = 'x' := by
  constructor
  · intro raised
    unfold Char.toUpper at raised
    split at raised
    case isTrue lower =>
      have code := congrArg (fun c : Char => c.val.toNat) raised
      simp only [UInt32.toNat_add] at code
      have least : 97 ≤ letter.val.toNat := lower.1
      have most : letter.val.toNat ≤ 122 := lower.2
      refine .inr (Char.ext (UInt32.toNat_inj.1 ?_))
      change (letter.val.toNat + 4294967264) % 4294967296 = 88 at code
      change letter.val.toNat = 120
      omega
    case isFalse => exact .inl raised
  · rintro (rfl | rfl)
    · rfl
    · rfl

/-- The characters of a specifier that is a letter, and perhaps a precision. -/
def IsLettered (chars : List Char) : Prop :=
  ∃ letter rest, chars = letter :: rest ∧ letter.isAlpha = true ∧ ∀ c ∈ rest, c.isDigit = true

theorem AsksForHexadecimal.isLettered (hexadecimal : AsksForHexadecimal chars) : IsLettered chars := by
  obtain ⟨letter, width, rfl, rfl | rfl, digits⟩ := hexadecimal
  · exact ⟨'X', width, rfl, rfl, digits⟩
  · exact ⟨'x', width, rfl, rfl, digits⟩

theorem number_of_letter {rest : List Char} (shape : spec.toList = letter :: rest) (alpha : letter.isAlpha = true)
    (digits : ∀ c ∈ rest, c.isDigit = true) :
    Format.number n spec = n.toDecimal >>= fun d => byLetter n d spec letter (precision? rest) := by
  have standard : (letter.isAlpha && rest.all Char.isDigit) = true :=
    Bool.and_eq_true_iff.2 ⟨alpha, List.all_eq_true.2 digits⟩
  unfold Format.number
  rw [shape]
  exact if_pos standard

theorem number_of_pattern (custom : ¬ IsLettered spec.toList) :
    Format.number n spec = (do
      match DigitPattern.parse? spec.toList with
      | some pattern => return pattern.apply (← n.toDecimal)
      | none => throw (.unknownNumberFormat spec)) := by
  unfold Format.number
  dsimp only
  split
  next letter rest shape =>
    refine if_neg ?_
    intro standard
    obtain ⟨alpha, digits⟩ := Bool.and_eq_true_iff.1 standard
    exact custom ⟨letter, rest, shape, alpha, List.all_eq_true.1 digits⟩
  next => rfl

theorem bind_eq_ok {ε α β : Type} {x : Except ε α} {f : α → Except ε β} {b : β} :
    x >>= f = .ok b ↔ ∃ a, x = .ok a ∧ f a = .ok b := by
  cases x with
  | error fault =>
    constructor
    · intro given
      cases given
    · rintro ⟨_, read, -⟩
      cases read
  | ok a =>
    constructor
    · intro given
      exact ⟨a, rfl, given⟩
    · rintro ⟨_, read, given⟩
      cases read
      exact given

/-- What a number is formatted by: a letter, or else a pattern. -/
theorem number_eq_ok (formatted : Format.number n spec = .ok chars) :
    ∃ d, n.toDecimal = .ok d ∧
      ((∃ letter rest, spec.toList = letter :: rest ∧ (∀ c ∈ rest, c.isDigit = true) ∧
          byLetter n d spec letter (precision? rest) = .ok chars) ∨
        ¬ IsLettered spec.toList ∧ ∃ pattern : DigitPattern, pattern.apply d = chars) := by
  by_cases lettered : IsLettered spec.toList
  · obtain ⟨letter, rest, shape, alpha, digits⟩ := lettered
    rw [number_of_letter shape alpha digits] at formatted
    obtain ⟨d, read, shown⟩ := bind_eq_ok.1 formatted
    exact ⟨d, read, .inl ⟨letter, rest, shape, digits, shown⟩⟩
  · rw [number_of_pattern lettered] at formatted
    cases known : DigitPattern.parse? spec.toList with
    | none =>
      rw [known] at formatted
      cases formatted
    | some pattern =>
      rw [known] at formatted
      obtain ⟨d, read, shown⟩ := bind_eq_ok.1 formatted
      exact ⟨d, read, .inr ⟨lettered, pattern, Except.ok.inj shown⟩⟩

end Format

/-! ## Stored numbers -/

/-- The number that an integer, or the text of a decimal, stands for. A floating point number is left out. -/
def Number.Stands : Number → ℚ → Prop
  | .int n, x => x = n.toInt
  | .uint n, x => x = n.toNat
  | .float _, _ => False
  | .decimal text, x => ∃ d, Spells text.toList d ∧ x = d.toRat

/-- A specifier asks for hexadecimal digits, when the blanks around it are left out. -/
def Value.AsksForHexadecimal (spec : Option String) : Prop :=
  ∃ s, spec = some s ∧ Format.AsksForHexadecimal (Text.trimBlank s.toList)

section

variable {n : Number} {d e : Decimal} {bits : ℕ}

theorem Number.stands_of_toDecimal (exact : ∀ x, n ≠ .float x) (read : n.toDecimal = .ok d) : n.Stands d.toRat := by
  cases n with
  | int n =>
    cases read
    exact toRat_ofInt _
  | uint n =>
    cases read
    exact (toRat_ofInt _).trans (Int.cast_natCast _)
  | float x => exact absurd rfl (exact x)
  | decimal text =>
    cases found : parse? text.toList with
    | none =>
      simp only [toDecimal, found] at read
      cases read
    | some e =>
      simp only [toDecimal, found] at read
      cases read
      exact ⟨d, parse?_eq_some.1 found, rfl⟩

/-- A number that stands for a rational number is read as a decimal of it. -/
theorem Number.toDecimal_of_stands {x : ℚ} (stands : n.Stands x) : ∃ d, n.toDecimal = .ok d ∧ d.toRat = x := by
  cases n with
  | int n =>
    refine ⟨_, rfl, ?_⟩
    rw [toRat_ofInt]
    exact stands.symm
  | uint n =>
    refine ⟨_, rfl, ?_⟩
    rw [toRat_ofInt, Int.cast_natCast]
    exact stands.symm
  | float x => exact stands.elim
  | decimal text =>
    obtain ⟨d, spells, rfl⟩ := stands
    refine ⟨d, ?_, rfl⟩
    simp only [toDecimal, parse?_eq_some.2 spells]

/-- The bits of a machine integer are the integer itself, if it is not negative. -/
theorem Number.toDecimal_of_integerBits? (known : Format.integerBits? n = some bits) :
    ∃ z : ℤ, n.toDecimal = .ok (.ofInt z) ∧ (0 ≤ z → bits = z) := by
  cases n with
  | int n =>
    cases known
    refine ⟨n.toInt, rfl, ?_⟩
    intro nonnegative
    change 0 ≤ n.toBitVec.toInt at nonnegative
    change (n.toBitVec.toNat : ℤ) = n.toBitVec.toInt
    rw [BitVec.toInt_eq_toNat_cond] at nonnegative ⊢
    split
    · rfl
    · omega
  | uint n =>
    cases known
    exact ⟨n.toNat, rfl, fun _ => rfl⟩
  | float x => cases known
  | decimal text => cases known

/-- Hexadecimal digits that read as a decimal read as the number only from zero to nine. -/
theorem roundsTo_hexadecimal {width : ℕ} {upper : Bool} (known : Format.integerBits? n = some bits)
    (read : n.toDecimal = .ok d) (spells : Spells (Format.hexadecimal bits width upper) e) :
    RoundsTo d.toRat e.places e.toRat ↔ 0 ≤ d.toRat ∧ d.toRat < 10 := by
  obtain ⟨m, rfl, same⟩ := Format.hexadecimal_spells spells
  obtain ⟨z, own, nonnegative⟩ := Number.toDecimal_of_integerBits? known
  obtain rfl : d = .ofInt z := Except.ok.inj (read.symm.trans own)
  have rounds : RoundsTo ((z : ℤ) : ℚ) 0 ((m : ℤ) : ℚ) ↔ (m : ℤ) = z := by
    constructor
    · intro rounds
      exact_mod_cast rounds.eq_of_multiple ⟨z, by simp⟩
    · intro same
      rw [same]
      exact .self ⟨z, by simp⟩
  rw [toRat_ofInt, toRat_ofInt]
  refine rounds.trans ?_
  norm_cast
  omega

/-- What is formatted from a number and reads as a decimal is the number, rounded to the places that are written, unless
hexadecimal digits were asked for and the number is none from zero to nine. -/
theorem roundsTo_number {spec : String} {chars : List Char} (formatted : Format.number n spec = .ok chars)
    (read : n.toDecimal = .ok d) (spells : Spells chars e) :
    RoundsTo d.toRat e.places e.toRat ↔
      (Format.AsksForHexadecimal spec.toList → 0 ≤ d.toRat ∧ d.toRat < 10) := by
  obtain ⟨own, given, shown⟩ := Format.number_eq_ok formatted
  obtain rfl := Except.ok.inj (given.symm.trans read)
  obtain ⟨letter, rest, shape, digits, shown⟩ | ⟨custom, pattern, rfl⟩ := shown
  · by_cases raised : letter.toUpper = 'X'
    · obtain ⟨bits, width, upper, known, rfl⟩ := Format.hexadecimal_of_byLetter raised shown
      rw [roundsTo_hexadecimal known read spells]
      have hexadecimal : Format.AsksForHexadecimal spec.toList :=
        ⟨letter, rest, shape, (Format.toUpper_eq_X letter).1 raised, digits⟩
      constructor
      · intro small _
        exact small
      · intro small
        exact small hexadecimal
    · refine iff_of_true (Format.shows_of_byLetter ?_ raised shown e spells) ?_
      · intro integral
        obtain ⟨bits, known⟩ := Option.isSome_iff_exists.1 integral
        obtain ⟨z, whole, -⟩ := Number.toDecimal_of_integerBits? known
        rw [Except.ok.inj (read.symm.trans whole)]
        rfl
      · rintro ⟨first, width, again, letters, -⟩
        obtain ⟨rfl, rfl⟩ := List.cons.inj (shape.symm.trans again)
        exact absurd ((Format.toUpper_eq_X _).2 letters) raised
  · refine iff_of_true (Format.shows_apply pattern own e spells) ?_
    intro hexadecimal
    exact absurd hexadecimal.isLettered custom

end

namespace Value

theorem asksForHexadecimal_iff {spec : Option String} :
    AsksForHexadecimal spec ↔ ∃ s, effectiveSpec? spec = some s ∧ Format.AsksForHexadecimal s.toList := by
  cases spec with
  | none => exact iff_of_false nofun nofun
  | some s =>
    have given : AsksForHexadecimal (some s) ↔ Format.AsksForHexadecimal (Text.trimBlank s.toList) := by
      constructor
      · rintro ⟨own, same, hexadecimal⟩
        rwa [Option.some.inj same]
      · intro hexadecimal
        exact ⟨s, rfl, hexadecimal⟩
    rw [given, effectiveSpec?]
    cases shape : Text.trimBlank s.toList with
    | nil =>
      refine iff_of_false nofun ?_
      rintro ⟨_, found, -⟩
      simp [shape] at found
    | cons c rest => simp [shape]

variable {n : Number} {spec : Option String} {dateFormat text : String}

/-- Without a specifier the decimal of a number is stored as it is. -/
theorem exists_number_of_renderPlain (stored : (Value.number n).renderPlain dateFormat = .ok (.number text)) :
    ∃ d, n.toDecimal = .ok d ∧ text = String.ofList d.plain := by
  obtain ⟨d, read, same⟩ := Format.bind_eq_ok.1 stored
  exact ⟨d, read, (AttributeValue.number.inj (Except.ok.inj same)).symm⟩

/-- What a number is stored as under a specifier, if it is stored as a number. -/
theorem exists_number_of_renderAs {s : String} (stored : (Value.number n).renderAs s = .ok (.number text)) :
    ∃ chars d, Format.number n s = .ok chars ∧ text = String.ofList chars ∧ Spells chars d := by
  change storeNumberText <$> Format.number n s = _ at stored
  cases shown : Format.number n s with
  | error fault =>
    rw [shown] at stored
    cases stored
  | ok chars =>
    rw [shown] at stored
    have kept : storeNumberText chars = .number text := Except.ok.inj stored
    unfold storeNumberText at kept
    split at kept
    case isTrue reads =>
      obtain ⟨d, read⟩ := Option.isSome_iff_exists.1 reads
      cases kept
      exact ⟨chars, d, rfl, rfl, parse?_eq_some.1 read⟩
    case isFalse => cases kept

/-- A number other than a floating point number that is stored as a number is stored as a decimal. That decimal is the
number, rounded half away from zero to the places that the decimal is written with, unless hexadecimal digits were asked
for and the number is none from zero to nine. -/
theorem storedNumber_iff (exact : ∀ x, n ≠ .float x)
    (stored : (Value.number n).render spec dateFormat = .ok (.number text)) :
    ∃ x d, n.Stands x ∧ Spells text.toList d ∧
      (RoundsTo x d.places d.toRat ↔ (AsksForHexadecimal spec → 0 ≤ x ∧ x < 10)) := by
  rw [asksForHexadecimal_iff]
  unfold render at stored
  split at stored
  next blank =>
    obtain ⟨d, read, rfl⟩ := exists_number_of_renderPlain stored
    refine ⟨d.toRat, d, Number.stands_of_toDecimal exact read, ?_, ?_⟩
    · rw [String.toList_ofList]
      exact spells_plain d
    · refine iff_of_true (.self ⟨d.unscaled, rfl⟩) ?_
      rintro ⟨s, given, -⟩
      rw [blank] at given
      cases given
  next s effective =>
    obtain ⟨chars, e, formatted, rfl, spells⟩ := exists_number_of_renderAs stored
    obtain ⟨d, read, -⟩ := Format.number_eq_ok formatted
    refine ⟨d.toRat, e, Number.stands_of_toDecimal exact read, by rwa [String.toList_ofList], ?_⟩
    rw [roundsTo_number formatted read spells, effective]
    simp only [Option.some.injEq, exists_eq_left']

/-- A half is rounded away from zero. -/
theorem storedNumber_rounds_of_half :
    (Value.number (.decimal "-2.345")).render (some "F2") "o" = .ok (.number "-2.35") ∧
      ∃ x d, (Number.decimal "-2.345").Stands x ∧ Spells "-2.35".toList d ∧
        (RoundsTo x d.places d.toRat ↔ (AsksForHexadecimal (some "F2") → 0 ≤ x ∧ x < 10)) := by
  have stored : (Value.number (.decimal "-2.345")).render (some "F2") "o" = .ok (.number "-2.35") := by rfl
  exact ⟨stored, storedNumber_iff nofun stored⟩

/-- The hexadecimal digits of sixteen have no letter among them, and are stored as the number ten. -/
theorem storedNumber_differs_of_hexadecimal :
    (Value.number (.uint 16)).render (some "X") "o" = .ok (.number "10") ∧
      ¬ ∃ x d, (Number.uint 16).Stands x ∧ Spells "10".toList d ∧ RoundsTo x d.places d.toRat := by
  refine ⟨by rfl, ?_⟩
  rintro ⟨x, d, rfl, spells, rounds⟩
  have ten : Spells "10".toList (.ofInt 10) := parse?_eq_some.1 (by rfl)
  obtain rfl := spells.unique ten
  change RoundsTo ((16 : ℕ) : ℚ) 0 _ at rounds
  have same := rounds.eq_of_multiple ⟨16, by norm_num⟩
  rw [toRat_ofInt] at same
  norm_num at same

end Value

end ItemExpr
