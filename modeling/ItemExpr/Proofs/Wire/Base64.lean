import ItemExpr.Text.Base64

/-!
# Base64 is read as it is written

Each byte string has exactly one text, and reading accepts these texts only (`Text.Base64.decode?_eq_some`). The
characters of the alphabet stand for the numbers below 64, one for one; a group of characters is then a number in base
64 that is cut into bytes, and the bits that are left over in a padded group must be zero.
-/

namespace ItemExpr.Text.Base64

/-! ## The alphabet -/

theorem toNat_lt_of_decodeSextet? {c : Char} {n : Nat} (read : decodeSextet? c = some n) : c.toNat < 128 := by
  by_cases small : c.toNat < 128
  · exact small
  · have beyond : ∀ last : Char, last.toNat < 128 → ¬c ≤ last := by
      intro last ascii below
      have order : c.toNat ≤ last.toNat := below
      omega
    have other : ∀ last : Char, last.toNat < 128 → c ≠ last := by
      rintro last ascii rfl
      exact small ascii
    simp [decodeSextet?, beyond 'Z', beyond 'z', beyond '9', other '+', other '/'] at read

theorem decodeSextet?_eq_some {c : Char} {n : Nat} : decodeSextet? c = some n ↔ n < 64 ∧ encodeSextet n = c := by
  constructor
  · intro read
    have table : ∀ code < 128, ∀ m ∈ decodeSextet? (Char.ofNat code), m < 64 ∧ encodeSextet m = Char.ofNat code := by
      decide
    have entry := table c.toNat (toNat_lt_of_decodeSextet? read) n
    rw [Char.ofNat_toNat] at entry
    exact entry read
  · rintro ⟨small, rfl⟩
    revert n
    decide

theorem encodeSextet_ne_pad {n : Nat} (small : n < 64) : encodeSextet n ≠ '=' := by
  revert n
  decide

theorem decodeSextet?_encodeSextet {n : Nat} (small : n < 64) : decodeSextet? (encodeSextet n) = some n :=
  decodeSextet?_eq_some.2 ⟨small, rfl⟩

/-! ## Groups -/

theorem toNat_ofNat {n : Nat} (small : n < 256) : (UInt8.ofNat n).toNat = n := by
  rw [UInt8.toNat_ofNat', Nat.mod_eq_of_lt small]

theorem eq_ofNat {byte : UInt8} {n : Nat} (same : n = byte.toNat) : UInt8.ofNat n = byte := by
  rw [same, UInt8.ofNat_toNat]

theorem decodeOne?_eq_some {p q : Char} {group : Bytes} :
    decodeOne? p q = some group ↔ ∃ a, group = [a] ∧ encode [a] = [p, q, '=', '='] := by
  constructor
  · intro read
    simp only [decodeOne?, Option.bind_eq_bind, Option.bind_eq_some_iff, decodeSextet?_eq_some] at read
    obtain ⟨w, ⟨wSmall, rfl⟩, x, ⟨xSmall, rfl⟩, same⟩ := read
    split at same
    · obtain rfl := Option.some.inj same
      refine ⟨_, rfl, ?_⟩
      simp only [encode, List.cons.injEq, and_true]
      rw [toNat_ofNat (by omega)]
      constructor <;> congr 1 <;> omega
    · cases same
  · rintro ⟨a, rfl, written⟩
    have small := a.toNat_lt
    simp only [encode, List.cons.injEq, and_true] at written
    obtain ⟨rfl, rfl⟩ := written
    simp only [decodeOne?, Option.bind_eq_bind]
    rw [decodeSextet?_encodeSextet (by omega), decodeSextet?_encodeSextet (by omega)]
    simp only [Option.bind_some]
    rw [if_pos (by omega), @eq_ofNat a _ (by omega)]

theorem decodeTwo?_eq_some {p q r : Char} {group : Bytes} :
    decodeTwo? p q r = some group ↔ ∃ a b, group = [a, b] ∧ encode [a, b] = [p, q, r, '='] := by
  constructor
  · intro read
    simp only [decodeTwo?, Option.bind_eq_bind, Option.bind_eq_some_iff, decodeSextet?_eq_some] at read
    obtain ⟨w, ⟨wSmall, rfl⟩, x, ⟨xSmall, rfl⟩, y, ⟨ySmall, rfl⟩, same⟩ := read
    split at same
    · obtain rfl := Option.some.inj same
      refine ⟨_, _, rfl, ?_⟩
      simp only [encode, List.cons.injEq, and_true]
      rw [toNat_ofNat (by omega), toNat_ofNat (by omega)]
      refine ⟨?_, ?_, ?_⟩ <;> congr 1 <;> omega
    · cases same
  · rintro ⟨a, b, rfl, written⟩
    have aSmall := a.toNat_lt
    have bSmall := b.toNat_lt
    simp only [encode, List.cons.injEq, and_true] at written
    obtain ⟨rfl, rfl, rfl⟩ := written
    simp only [decodeTwo?, Option.bind_eq_bind]
    rw [decodeSextet?_encodeSextet (by omega), decodeSextet?_encodeSextet (by omega),
      decodeSextet?_encodeSextet (by omega)]
    simp only [Option.bind_some]
    rw [if_pos (by omega), @eq_ofNat a _ (by omega), @eq_ofNat b _ (by omega)]

theorem decodeThree?_eq_some {p q r s : Char} {group : Bytes} :
    decodeThree? p q r s = some group ↔ ∃ a b c, group = [a, b, c] ∧ encode [a, b, c] = [p, q, r, s] := by
  constructor
  · intro read
    simp only [decodeThree?, Option.bind_eq_bind, Option.bind_eq_some_iff, decodeSextet?_eq_some] at read
    obtain ⟨w, ⟨wSmall, rfl⟩, x, ⟨xSmall, rfl⟩, y, ⟨ySmall, rfl⟩, z, ⟨zSmall, rfl⟩, same⟩ := read
    obtain rfl := Option.some.inj same
    refine ⟨_, _, _, rfl, ?_⟩
    simp only [encode, List.cons.injEq, and_true]
    rw [toNat_ofNat (by omega), toNat_ofNat (by omega), toNat_ofNat (by omega)]
    refine ⟨?_, ?_, ?_, ?_⟩ <;> congr 1 <;> omega
  · rintro ⟨a, b, c, rfl, written⟩
    have aSmall := a.toNat_lt
    have bSmall := b.toNat_lt
    have cSmall := c.toNat_lt
    simp only [encode, List.cons.injEq, and_true] at written
    obtain ⟨rfl, rfl, rfl, rfl⟩ := written
    simp only [decodeThree?, Option.bind_eq_bind]
    rw [decodeSextet?_encodeSextet (by omega), decodeSextet?_encodeSextet (by omega),
      decodeSextet?_encodeSextet (by omega), decodeSextet?_encodeSextet (by omega)]
    simp only [Option.bind_some]
    rw [@eq_ofNat a _ (by omega), @eq_ofNat b _ (by omega), @eq_ofNat c _ (by omega)]

/-! ## The whole text -/

theorem encode_group (a b c : UInt8) (rest : Bytes) : encode (a :: b :: c :: rest) = encode [a, b, c] ++ encode rest :=
  rfl

theorem decode?_encode (bytes : Bytes) : decode? (encode bytes) = some bytes := by
  induction bytes using encode.induct with
  | case1 => rfl
  | case2 a =>
    have group : decodeOne? _ _ = some [a] := decodeOne?_eq_some.2 ⟨a, rfl, rfl⟩
    exact group
  | case3 a b =>
    have group : decodeTwo? _ _ _ = some [a, b] := decodeTwo?_eq_some.2 ⟨a, b, rfl, rfl⟩
    simp only [encode]
    rw [decode?.eq_3]
    · exact group
    · exact encodeSextet_ne_pad (by omega)
  | case4 a b c rest ih =>
    have group : decodeThree? _ _ _ _ = some [a, b, c] := decodeThree?_eq_some.2 ⟨a, b, c, rfl, rfl⟩
    have unpadded : ∀ n, encodeSextet (n % 64) ≠ '=' := fun n => encodeSextet_ne_pad (by omega)
    simp only [encode]
    rw [decode?.eq_4]
    · rw [group, ih]
      rfl
    · exact fun _ same _ => unpadded _ same
    · exact fun same _ => unpadded _ same

theorem encode_of_decode? {chars : List Char} {bytes : Bytes} (read : decode? chars = some bytes) :
    encode bytes = chars := by
  induction chars using decode?.induct generalizing bytes with
  | case1 =>
    obtain rfl := Option.some.inj read
    rfl
  | case2 p q =>
    obtain ⟨a, rfl, written⟩ := decodeOne?_eq_some.1 read
    exact written
  | case3 p q r unpadded =>
    rw [decode?.eq_3 p q r unpadded] at read
    obtain ⟨a, b, rfl, written⟩ := decodeTwo?_eq_some.1 read
    exact written
  | case4 p q r s rest notOne notTwo ih =>
    rw [decode?.eq_4 p q r s rest notOne notTwo] at read
    simp only [Option.bind_eq_bind, Option.bind_eq_some_iff] at read
    obtain ⟨group, three, later, further, same⟩ := read
    obtain rfl := Option.some.inj same
    obtain ⟨a, b, c, rfl, written⟩ := decodeThree?_eq_some.1 three
    show encode (a :: b :: c :: later) = p :: q :: r :: s :: rest
    rw [encode_group, written, ih further]
    rfl
  | case5 chars notEmpty notOne notTwo notThree =>
    rw [decode?.eq_5 chars notEmpty notOne notTwo notThree] at read
    cases read

/-- The texts that are read are those that are written. -/
theorem decode?_eq_some {chars : List Char} {bytes : Bytes} : decode? chars = some bytes ↔ encode bytes = chars := by
  constructor
  · exact encode_of_decode?
  · rintro rfl
    exact decode?_encode bytes

end ItemExpr.Text.Base64
