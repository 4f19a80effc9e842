import ItemExpr.Json.Printer
import ItemExpr.Json.Reader
import ItemExpr.Proofs.Text.Padding
import ItemExpr.Proofs.Wire.Record

/-!
# JSON texts are read as they are written

The compact text of a JSON value is read as that value (`Json.parse?_print`), provided that what the value has for
numbers are spelled as such: the printer writes them as they are.
-/

namespace ItemExpr.Json

/-! ## String literals -/

theorem hexDigit?_hexDigit : ∀ n < 16, hexDigit? (hexDigit n) = some n := by
  decide

theorem hexUnit?_hexDigit {n : Nat} (small : n < 0x20) :
    hexUnit? '0' '0' (hexDigit (n / 16)) (hexDigit (n % 16)) = some n := by
  have zero : hexDigit? '0' = some 0 := rfl
  rw [hexUnit?, zero, hexDigit?_hexDigit (n / 16) (by omega), hexDigit?_hexDigit (n % 16) (by omega)]
  show some (((0 * 16 + 0) * 16 + n / 16) * 16 + n % 16) = some n
  exact congrArg some (by omega)

theorem readPieces_escapeChar (c : Char) {cs rest : List Char} {pieces : List Piece}
    (behind : readPieces cs = some (pieces, rest)) :
    readPieces (escapeChar c ++ cs) = some (.char c :: pieces, rest) := by
  unfold escapeChar
  split
  -- A character that has no letter to be escaped by is spelled by its number if it is a control, and as it is if not.
  case h_8 quote backslash _ _ _ _ _ =>
    split
    case isTrue small =>
      have unit : Piece.ofUnit c.toNat = .char c := by
        rw [Piece.ofUnit, if_neg (by omega), Char.ofNat_toNat]
      simp [readPieces, hexUnit?_hexDigit small, unit, behind]
    case isFalse large =>
      show readPieces (c :: cs) = _
      rw [readPieces.eq_5 _ _ quote (fun _ _ _ _ _ same _ => backslash same) (fun _ _ same _ => backslash same)]
      simp [large, behind]
  all_goals simp [readPieces, escape?, behind]

theorem readPieces_escaped (cs rest : List Char) :
    readPieces (cs.flatMap escapeChar ++ '"' :: rest) = some (cs.map .char, rest) := by
  induction cs with
  | nil => simp [readPieces]
  | cons c cs ih =>
    rw [List.flatMap_cons, List.append_assoc]
    exact readPieces_escapeChar c ih

theorem joinPieces_chars (cs : List Char) : joinPieces (cs.map .char) = some cs := by
  induction cs with
  | nil => rfl
  | cons c cs ih => simp [joinPieces, ih]

/-- A literal is read behind its opening quote, whether it stands for a text or not. -/
theorem exists_printString (s : Option String) :
    ∃ chars, printString s = '"' :: chars ∧ ∀ rest, readString (chars ++ rest) = some (s, rest) := by
  cases s with
  | none => exact ⟨_, rfl, fun _ => rfl⟩
  | some s =>
    refine ⟨s.toList.flatMap escapeChar ++ ['"'], rfl, fun rest => ?_⟩
    rw [readString, List.append_assoc, List.singleton_append, readPieces_escaped]
    simp [joinPieces_chars]

/-! ## Numbers -/

/-- No number goes on with the first of some characters. -/
def EndsNumber (chars : List Char) : Prop :=
  ∀ c, chars.head? = some c → c.isDigit = false ∧ c ≠ '.' ∧ c ≠ 'e' ∧ c ≠ 'E'

/-- What a reader of a part of a number reads does not depend on what stands behind the number. -/
def Local (reader : List Char → Option (List Char × List Char)) : Prop :=
  ∀ {cs run rest behind : List Char}, EndsNumber behind → reader cs = some (run, rest) →
    reader (cs ++ behind) = some (run, rest ++ behind)

theorem EndsNumber.takeWhile_isDigit {behind : List Char} (ends : EndsNumber behind) :
    behind.takeWhile Char.isDigit = [] := by
  cases behind with
  | nil => rfl
  | cons c rest => exact List.takeWhile_cons_of_neg (by simp [(ends c rfl).1])

theorem EndsNumber.dropWhile_isDigit {behind : List Char} (ends : EndsNumber behind) :
    behind.dropWhile Char.isDigit = behind := by
  cases behind with
  | nil => rfl
  | cons c rest => exact List.dropWhile_cons_of_neg (by simp [(ends c rfl).1])

theorem local_readDigits : Local readDigits := by
  intro cs run rest behind ends read
  have run : (cs ++ behind).takeWhile Char.isDigit = cs.takeWhile Char.isDigit := by
    rw [List.takeWhile_append, ends.takeWhile_isDigit, List.append_nil]
    split
    case isTrue all => exact (List.Sublist.eq_of_length (List.takeWhile_sublist _) all).symm
    case isFalse => rfl
  have rest : (cs ++ behind).dropWhile Char.isDigit = cs.dropWhile Char.isDigit ++ behind := by
    rw [List.dropWhile_append, ends.dropWhile_isDigit]
    split
    case isTrue none => rw [List.isEmpty_iff.1 none, List.nil_append]
    case isFalse => rfl
  simp only [readDigits, run, rest] at read ⊢
  split at read
  case isTrue => cases read
  case isFalse some =>
    cases read
    rw [if_neg some]

/-- Characters that do not start with a certain one do not do so with others behind them. -/
theorem not_starts_append {first : Char} {cs : List Char} (nonempty : cs ≠ [])
    (other : ∀ rest, cs = first :: rest → False) (behind : List Char) :
    ∀ rest, cs ++ behind = first :: rest → False := by
  intro rest same
  cases cs with
  | nil => exact nonempty rfl
  | cons c cs =>
    cases same
    exact other cs rfl

theorem local_readWhole : Local readWhole := by
  intro cs run rest behind ends read
  unfold readWhole at read
  split at read
  case h_1 rest =>
    cases read
    rfl
  case h_2 nonzero =>
    have nonempty : cs ≠ [] := by
      rintro rfl
      cases read
    rw [readWhole.eq_2 _ (not_starts_append nonempty nonzero behind)]
    exact local_readDigits ends read

theorem local_readFraction : Local readFraction := by
  intro cs run rest behind ends read
  unfold readFraction at read
  split at read
  case h_1 fraction =>
    obtain ⟨⟨digits, left⟩, found, same⟩ := Option.bind_eq_some_iff.1 read
    cases same
    simp [readFraction, local_readDigits ends found]
  case h_2 pointless =>
    cases read
    refine readFraction.eq_2 _ fun rest same => ?_
    cases cs with
    | nil => exact (ends '.' (congrArg List.head? same)).2.1 rfl
    | cons c cs => exact not_starts_append (List.cons_ne_nil c cs) pointless behind rest same

theorem local_readExponentDigits (mark : List Char) : Local (readExponentDigits mark) := by
  intro cs run rest behind ends read
  obtain ⟨⟨digits, left⟩, found, same⟩ := Option.bind_eq_some_iff.1 read
  cases same
  simp [readExponentDigits, local_readDigits ends found]

theorem local_readExponent : Local readExponent := by
  intro cs run rest behind ends read
  unfold readExponent at read
  split at read
  case h_1 e tail =>
    split at read
    case isTrue letter =>
      split at read
      case h_1 digits => simpa [readExponent, letter] using local_readExponentDigits _ ends read
      case h_2 digits => simpa [readExponent, letter] using local_readExponentDigits _ ends read
      case h_3 plus minus =>
        have nonempty : tail ≠ [] := by
          rintro rfl
          cases read
        rw [List.cons_append, readExponent.eq_3 _ _ (not_starts_append nonempty plus behind)
          (not_starts_append nonempty minus behind), if_pos letter]
        exact local_readExponentDigits _ ends read
    case isFalse other =>
      cases read
      simp [readExponent, other]
  case h_2 =>
    cases read
    cases behind with
    | nil => rfl
    | cons c rest =>
      obtain ⟨-, -, lower, upper⟩ := ends c rfl
      simp [readExponent, lower, upper]

theorem local_readMagnitude : Local readMagnitude := by
  intro cs run rest behind ends read
  simp only [readMagnitude, Option.bind_eq_bind, Option.bind_eq_some_iff] at read
  obtain ⟨⟨whole, afterWhole⟩, isWhole, ⟨fraction, afterFraction⟩, isFraction, ⟨exponent, left⟩, isExponent, same⟩ :=
    read
  cases same
  simp [readMagnitude, local_readWhole ends isWhole, local_readFraction ends isFraction,
    local_readExponent ends isExponent]

theorem local_readNumber : Local readNumber := by
  intro cs run rest behind ends read
  unfold readNumber at read
  split at read
  case h_1 magnitude =>
    obtain ⟨⟨digits, left⟩, found, same⟩ := Option.bind_eq_some_iff.1 read
    cases same
    simp [readNumber, local_readMagnitude ends found]
  case h_2 unsigned =>
    have nonempty : cs ≠ [] := by
      rintro rfl
      cases read
    rw [readNumber.eq_2 _ (not_starts_append nonempty unsigned behind)]
    exact local_readMagnitude ends read

def startsNumber (c : Char) : Bool :=
  c == '-' || c.isDigit

theorem exists_readNumber {cs run rest : List Char} (read : readNumber cs = some (run, rest)) :
    ∃ c tail, cs = c :: tail ∧ startsNumber c = true := by
  unfold readNumber at read
  split at read
  case h_1 magnitude => exact ⟨'-', magnitude, rfl, rfl⟩
  case h_2 =>
    obtain ⟨⟨whole, behind⟩, found, -⟩ := Option.bind_eq_some_iff.1 read
    unfold readWhole at found
    split at found
    case h_1 tail _ => exact ⟨'0', tail, rfl, rfl⟩
    case h_2 =>
      cases cs with
      | nil => cases found
      | cons c tail =>
        refine ⟨c, tail, rfl, ?_⟩
        by_cases digit : c.isDigit = true
        · simp [startsNumber, digit]
        · simp [readDigits, List.takeWhile_cons_of_neg digit] at found

theorem ne_of_startsNumber {c d : Char} (starts : startsNumber c = true) (other : startsNumber d = false) : c ≠ d := by
  rintro rfl
  rw [starts] at other
  cases other

theorem not_isSpace_of_startsNumber {c : Char} (starts : startsNumber c = true) : isSpace c = false := by
  have blank : c ≠ ' ' := ne_of_startsNumber starts rfl
  have feed : c ≠ '\n' := ne_of_startsNumber starts rfl
  have tab : c ≠ '\t' := ne_of_startsNumber starts rfl
  have back : c ≠ '\r' := ne_of_startsNumber starts rfl
  simp [isSpace, blank, feed, tab, back]

theorem readNumber_digits (n : Nat) : readNumber (Text.digits n) = some (Text.digits n, []) := by
  have all : ∀ c ∈ Text.digits n, c.isDigit = true := fun _ => Text.isDigit_of_mem_digits
  have whole : readWhole (Text.digits n) = some (Text.digits n, []) := by
    by_cases zero : n = 0
    · subst zero
      rfl
    · have lead : ∀ rest, Text.digits n = '0' :: rest → False := fun rest same =>
        zero (Text.eq_zero_of_head?_digits (congrArg List.head? same))
      have nonempty : Text.digits n ≠ [] := Nat.toDigits_ne_nil
      rw [readWhole.eq_2 _ lead, readDigits, List.takeWhile_eq_self_iff.2 all, List.dropWhile_eq_nil_iff.2 all]
      simp [nonempty]
  have unsigned : ∀ rest, Text.digits n = '-' :: rest → False := fun rest same =>
    absurd (all '-' (same ▸ List.mem_cons_self)) (by decide)
  rw [readNumber.eq_2 _ unsigned, readMagnitude, whole]
  simp [readFraction, readExponent]

/-! ## Values -/

mutual

/-- What a value has for numbers are spelled as such. -/
def Spelled : Json → Prop
  | .number lexeme => readNumber lexeme.toList = some (lexeme.toList, [])
  | .array items => SpelledItems items
  | .object members => SpelledMembers members
  | _ => True

def SpelledItems : List Json → Prop
  | [] => True
  | item :: rest => item.Spelled ∧ SpelledItems rest

def SpelledMembers : List (Option String × Json) → Prop
  | [] => True
  | (_, value) :: rest => value.Spelled ∧ SpelledMembers rest

end

theorem skipSpace_cons {c : Char} (visible : isSpace c = false) (rest : List Char) :
    skipSpace (c :: rest) = c :: rest :=
  List.dropWhile_cons_of_neg (by simp [visible])

/-- Behind a value there is nothing more of a number. -/
theorem endsNumber_cons {c : Char} (closes : c = ',' ∨ c = ']' ∨ c = '\x7d') (rest : List Char) :
    EndsNumber (c :: rest) := by
  rintro c ⟨⟩
  obtain rfl | rfl | rfl := closes <;> decide

theorem readValue_string (fuel : Nat) (s : Option String) (rest : List Char) :
    readValue (fuel + 1) (printString s ++ rest) = some (.string s, rest) := by
  obtain ⟨chars, written, read⟩ := exists_printString s
  rw [written, List.cons_append, readValue, skipSpace_cons rfl]
  simp [read]

theorem readValue_number {lexeme : String} (spelled : readNumber lexeme.toList = some (lexeme.toList, []))
    (fuel : Nat) {rest : List Char} (ends : EndsNumber rest) :
    readValue (fuel + 1) (lexeme.toList ++ rest) = some (.number lexeme, rest) := by
  have found := local_readNumber ends spelled
  obtain ⟨c, tail, same, starts⟩ := exists_readNumber spelled
  rw [same, List.cons_append] at found ⊢
  rw [readValue, skipSpace_cons (not_isSpace_of_startsNumber starts)]
  split
  case h_7 => simp [found, ← same]
  all_goals
    rename_i same
    exact absurd (List.cons.inj same).1 (ne_of_startsNumber starts rfl)

/-- The text of a value starts with a character that is no blank and does not close an array. -/
theorem exists_printChars {json : Json} (spelled : json.Spelled) :
    ∃ c tail, json.printChars = c :: tail ∧ isSpace c = false ∧ c ≠ ']' := by
  match json, spelled with
  | .null, _ | .bool true, _ | .bool false, _ | .array [], _ | .array (_ :: _), _ | .object [], _
  | .object (_ :: _), _ => exact ⟨_, _, rfl, rfl, by decide⟩
  | .string s, _ =>
    obtain ⟨chars, written, -⟩ := exists_printString s
    exact ⟨'"', chars, written, rfl, by decide⟩
  | .number lexeme, spelled =>
    obtain ⟨c, tail, same, starts⟩ := exists_readNumber spelled
    exact ⟨c, tail, same, not_isSpace_of_startsNumber starts, ne_of_startsNumber starts rfl⟩

section

variable {fuel : Nat} {cs behind rest : List Char} {key : Option String} {value : Json} {items : List Json}
  {members : List (Option String × Json)}

theorem readItems_last (found : readValue fuel cs = some (value, ']' :: rest)) :
    readItems (fuel + 1) cs = some ([value], rest) := by
  rw [readItems, found]
  simp [skipSpace_cons, isSpace]

theorem readItems_cons (found : readValue fuel cs = some (value, ',' :: behind))
    (others : readItems fuel behind = some (items, rest)) :
    readItems (fuel + 1) cs = some (value :: items, rest) := by
  rw [readItems, found]
  simp [skipSpace_cons, isSpace, others]

theorem readMembers_last (found : readValue fuel cs = some (value, '\x7d' :: rest)) :
    readMembers (fuel + 1) (printString key ++ ':' :: cs) = some ([(key, value)], rest) := by
  obtain ⟨chars, written, read⟩ := exists_printString key
  rw [written, List.cons_append, readMembers, skipSpace_cons rfl]
  simp [skipSpace_cons, isSpace, read, found]

theorem readMembers_cons (found : readValue fuel cs = some (value, ',' :: behind))
    (others : readMembers fuel behind = some (members, rest)) :
    readMembers (fuel + 1) (printString key ++ ':' :: cs) = some ((key, value) :: members, rest) := by
  obtain ⟨chars, written, read⟩ := exists_printString key
  rw [written, List.cons_append, readMembers, skipSpace_cons rfl]
  simp [skipSpace_cons, isSpace, read, found, others]

theorem readValue_array {c : Char} (visible : isSpace c = false) (opened : c ≠ ']')
    (found : readItems fuel (c :: cs) = some (items, rest)) :
    readValue (fuel + 1) ('[' :: c :: cs) = some (.array items, rest) := by
  rw [readValue, skipSpace_cons rfl]
  simp [skipSpace_cons visible, opened, found]

theorem readValue_object (found : readMembers fuel (printString key ++ cs) = some (members, rest)) :
    readValue (fuel + 1) ('\x7b' :: (printString key ++ cs)) = some (.object members, rest) := by
  obtain ⟨chars, written, -⟩ := exists_printString key
  rw [written, List.cons_append] at found ⊢
  rw [readValue, skipSpace_cons rfl]
  simp [skipSpace_cons, isSpace, found]

end

/-! The text of the items of an array behind its bracket is that behind a comma, and so it is with members. -/

theorem printChars_array (item : Json) (items : List Json) :
    (array (item :: items)).printChars = '[' :: (printItems (item :: items)).tail :=
  rfl

theorem printChars_object (member : Option String × Json) (members : List (Option String × Json)) :
    (object (member :: members)).printChars = '\x7b' :: (printMembers (member :: members)).tail :=
  rfl

theorem tail_printItems (item : Json) (items : List Json) :
    (printItems (item :: items)).tail = item.printChars ++ printItems items :=
  rfl

theorem tail_printMembers (key : Option String) (value : Json) (members : List (Option String × Json)) :
    (printMembers ((key, value) :: members)).tail =
      printString key ++ ':' :: (value.printChars ++ printMembers members) :=
  List.append_assoc _ _ _

mutual

/-- A value is read with twice as much fuel as its text has characters, whatever stands behind the text. -/
theorem readValue_printChars : ∀ (json : Json) (fuel : Nat) (rest : List Char), json.Spelled → EndsNumber rest →
    2 * json.printChars.length ≤ fuel → readValue fuel (json.printChars ++ rest) = some (json, rest)
  | json, 0, rest, spelled, _, enough => by
    obtain ⟨c, tail, written, -⟩ := exists_printChars spelled
    rw [written] at enough
    cases enough
  | .null, fuel + 1, rest, _, _, _ => by simp [printChars, readValue, skipSpace_cons, isSpace]
  | .bool true, fuel + 1, rest, _, _, _ => by simp [printChars, readValue, skipSpace_cons, isSpace]
  | .bool false, fuel + 1, rest, _, _, _ => by simp [printChars, readValue, skipSpace_cons, isSpace]
  | .number lexeme, fuel + 1, rest, spelled, ends, _ => readValue_number spelled fuel ends
  | .string s, fuel + 1, rest, _, _, _ => readValue_string fuel s rest
  | .array [], fuel + 1, rest, _, _, _ => by simp [printChars, readValue, skipSpace_cons, isSpace]
  | .object [], fuel + 1, rest, _, _, _ => by simp [printChars, readValue, skipSpace_cons, isSpace]
  -- Between an array and its first item stand two calls, for which the bracket pays; a comma pays for the next item.
  | .array (item :: items), fuel + 1, rest, spelled, _, enough => by
    rw [printChars_array, List.length_cons] at enough
    have found := readItems_printItems (item :: items) fuel rest spelled (List.cons_ne_nil _ _) (by omega)
    obtain ⟨c, tail, written, visible, opened⟩ := exists_printChars spelled.1
    rw [tail_printItems, written] at found
    rw [printChars_array, tail_printItems, written]
    exact readValue_array visible opened found
  | .object ((key, value) :: members), fuel + 1, rest, spelled, _, enough => by
    rw [printChars_object, List.length_cons] at enough
    have found := readMembers_printMembers ((key, value) :: members) fuel rest spelled (List.cons_ne_nil _ _) (by omega)
    rw [tail_printMembers, List.append_assoc] at found
    rw [printChars_object, tail_printMembers, List.cons_append, List.append_assoc]
    exact readValue_object found

theorem readItems_printItems : ∀ (items : List Json) (fuel : Nat) (rest : List Char), SpelledItems items → items ≠ [] →
    2 * (printItems items).tail.length < fuel → readItems fuel ((printItems items).tail ++ rest) = some (items, rest)
  | [], _, _, _, nonempty, _ => absurd rfl nonempty
  | [item], fuel + 1, rest, ⟨spelled, _⟩, _, enough => by
    rw [tail_printItems, List.length_append] at enough
    have found := readValue_printChars item fuel (']' :: rest) spelled (endsNumber_cons (by decide) rest) (by omega)
    rw [tail_printItems, List.append_assoc]
    exact readItems_last found
  | item :: next :: items, fuel + 1, rest, ⟨spelled, others⟩, _, enough => by
    rw [tail_printItems, List.length_append] at enough
    have found := readValue_printChars item fuel (printItems (next :: items) ++ rest) spelled
      (endsNumber_cons (by decide) _) (by omega)
    have shorter : (printItems (next :: items)).length = (printItems (next :: items)).tail.length + 1 := rfl
    have behind := readItems_printItems (next :: items) fuel rest others (List.cons_ne_nil _ _) (by omega)
    rw [tail_printItems, List.append_assoc]
    exact readItems_cons found behind

theorem readMembers_printMembers : ∀ (members : List (Option String × Json)) (fuel : Nat) (rest : List Char),
    SpelledMembers members → members ≠ [] → 2 * (printMembers members).tail.length < fuel →
    readMembers fuel ((printMembers members).tail ++ rest) = some (members, rest)
  | [], _, _, _, nonempty, _ => absurd rfl nonempty
  | [(key, value)], fuel + 1, rest, ⟨spelled, _⟩, _, enough => by
    rw [tail_printMembers, List.length_append, List.length_cons, List.length_append] at enough
    have found := readValue_printChars value fuel ('\x7d' :: rest) spelled (endsNumber_cons (by decide) rest) (by omega)
    rw [tail_printMembers, List.append_assoc, List.cons_append, List.append_assoc]
    exact readMembers_last found
  | (key, value) :: next :: members, fuel + 1, rest, ⟨spelled, others⟩, _, enough => by
    rw [tail_printMembers, List.length_append, List.length_cons, List.length_append] at enough
    have found := readValue_printChars value fuel (printMembers (next :: members) ++ rest) spelled
      (endsNumber_cons (by decide) _) (by omega)
    have shorter : (printMembers (next :: members)).length = (printMembers (next :: members)).tail.length + 1 := rfl
    have behind := readMembers_printMembers (next :: members) fuel rest others (List.cons_ne_nil _ _) (by omega)
    rw [tail_printMembers, List.append_assoc, List.cons_append, List.append_assoc]
    exact readMembers_cons found behind

end

/-- What is written is read, and nothing else of its text is left. -/
theorem parse?_print {json : Json} (spelled : json.Spelled) : parse? json.print = some json := by
  have nothing : EndsNumber [] := nofun
  have found := readValue_printChars json (2 * json.printChars.length + 2) [] spelled nothing (Nat.le_add_right _ _)
  rw [List.append_nil] at found
  rw [parse?, print, String.toList_ofList, found]
  rfl

/-! ## Records -/

@[simp] theorem spelled_text (s : String) : (text s).Spelled :=
  trivial

@[simp] theorem spelled_bool (b : Bool) : (Json.bool b).Spelled :=
  trivial

@[simp] theorem spelled_natCast (n : Nat) : (ofInt n).Spelled := by
  rw [ofInt, Spelled, Text.toList_toString]
  exact readNumber_digits n

theorem spelled_arrayOf {α : Type} {write : α → Json} (each : ∀ a, (write a).Spelled) (items : List α) :
    (array (items.map write)).Spelled := by
  show SpelledItems (items.map write)
  induction items with
  | nil => exact trivial
  | cons item rest ih => exact ⟨each item, ih⟩

@[simp] theorem spelled_ofMembers {members : List (String × Json)} :
    (ofMembers members).Spelled ↔ Each Spelled members := by
  show SpelledMembers (members.map fun member => (some member.1, member.2)) ↔ _
  induction members with
  | nil => exact ⟨fun _ => each_nil, fun _ => trivial⟩
  | cons member rest ih =>
    rw [each_cons, ← ih]
    exact Iff.rfl

end ItemExpr.Json
