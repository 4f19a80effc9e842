import ItemExpr.Proofs.Template.Spelling

/-!
# Reading a template

Reading takes a spelling of segments off the front of a text and goes on behind it, so every spelling of some segments
is read as these segments. Conversely each text is read as segments that it is a spelling of, or refused for what is
wrong with it (`Template.read_iff`).
-/

namespace ItemExpr.Template

open Segment (escapeChar specChars attach)

/-! ## Characters and markers -/

theorem readFrom_escapeChar (offset : Nat) (c : Char) (rest : List Char) :
    readFrom offset (escapeChar c ++ rest) =
      (readFrom (offset + byteLength (escapeChar c)) rest).map (attach (.text [c])) := by
  have joined : attach (.text [c]) = prependChar c := funext (attach_singleton c)
  rw [joined]
  by_cases opening : c = '\x7b'
  · subst opening
    exact readFrom.eq_2 offset rest
  by_cases closing : c = '\x7d'
  · subst closing
    exact readFrom.eq_3 offset rest
  · have plain : escapeChar c = [c] := if_neg (not_or.2 ⟨opening, closing⟩)
    rw [plain, List.singleton_append, readFrom]
    · rfl
    all_goals simp_all

theorem readFrom_text (offset : Nat) (chars rest : List Char) :
    readFrom offset (chars.flatMap escapeChar ++ rest) =
      (readFrom (offset + byteLength (chars.flatMap escapeChar)) rest).map (attach (.text chars)) := by
  induction chars generalizing offset with
  | nil =>
    cases run : readFrom offset rest <;> simp [byteLength, run, Except.map, attach]
  | cons c chars ih =>
    rw [List.flatMap_cons, List.append_assoc, readFrom_escapeChar, ih, byteLength_append, Nat.add_assoc]
    cases readFrom (offset + (byteLength (escapeChar c) + byteLength (chars.flatMap escapeChar))) rest with
    | error fault => rfl
    | ok segments => exact congrArg Except.ok (attach_append [c] chars segments).symm

theorem byteLength_marker (marker : List Char) :
    byteLength ('\x7b' :: (marker ++ ['\x7d'])) = byteLength marker + 2 := by
  rw [byteLength, byteLength_append]
  exact Nat.add_comm _ _

theorem not_doubled {brace : Char} {chars : List Char} (alone : chars.head? ≠ some brace) :
    ∀ rest, chars = brace :: rest → False := by
  rintro rest rfl
  exact alone rfl

/-- An opening brace that is not doubled starts a marker, which ends at the first closing brace. -/
theorem readFrom_marker {marker : List Char} (alone : marker.head? ≠ some '\x7b') (unclosed : '\x7d' ∉ marker)
    (offset : Nat) (after : List Char) :
    readFrom offset ('\x7b' :: (marker ++ '\x7d' :: after)) =
      match readMarker? marker with
      | none => .error (.malformedMarker (String.ofList marker))
      | some (index, spec) =>
        (readFrom (offset + byteLength marker + 2) after).map (.argument index spec :: ·) := by
  obtain ⟨taken, dropped⟩ := Text.split_at_first unclosed after
  have single : (marker ++ '\x7d' :: after).head? ≠ some '\x7b' := by
    cases marker with
    | nil => simp
    | cons c rest => exact alone
  rw [readFrom]
  · split
    · rename_i ended
      rw [dropped] at ended
      cases ended
    · rename_i closed
      rw [dropped] at closed
      obtain ⟨-, rfl⟩ := List.cons.inj closed
      rewrite [taken]
      rfl
  · exact not_doubled single

theorem readFrom_unterminated {rest : List Char} (alone : rest.head? ≠ some '\x7b') (unclosed : '\x7d' ∉ rest)
    (offset : Nat) : readFrom offset ('\x7b' :: rest) = .error (.unterminatedMarker offset) := by
  have ended := (Text.split_of_not_mem unclosed).2
  rw [readFrom]
  · split
    · rfl
    · rename_i closed
      rw [ended] at closed
      cases closed
  · exact not_doubled alone

theorem readFrom_unmatched {rest : List Char} (alone : rest.head? ≠ some '\x7d') (offset : Nat) :
    readFrom offset ('\x7d' :: rest) = .error (.unmatchedBrace offset) := by
  rw [readFrom]
  exact not_doubled alone

theorem readMarker?_eq_some {marker : List Char} {index : Nat} {spec : Option String} :
    readMarker? marker = some (index, spec) ↔ index < Text.wordLimit ∧
      ∃ position, Text.SpellsNumber index position ∧ marker = position ++ specChars spec := by
  unfold readMarker?
  constructor
  · intro read
    obtain ⟨found, position, same⟩ := Option.map_eq_some_iff.1 read
    obtain ⟨rfl, rfl⟩ := Prod.mk.inj same
    obtain ⟨small, spells⟩ := Text.readWord?_trimBlank.1 position
    refine ⟨small, _, spells, ?_⟩
    split
    · rename_i ended
      rw [specChars, ← ended, List.takeWhile_append_dropWhile]
    · rename_i c chars rest
      rw [specChars, String.toList_ofList]
      exact (Text.eq_of_split rest).2
  · rintro ⟨small, position, spells, rfl⟩
    have noColon : ':' ∉ position := fun member => absurd (spells.mem member) (by decide)
    have read := Text.readWord?_trimBlank.2 ⟨small, spells⟩
    cases spec with
    | none =>
      obtain ⟨taken, dropped⟩ := Text.split_of_not_mem noColon
      simp [specChars, taken, dropped, read]
    | some text =>
      obtain ⟨taken, dropped⟩ := Text.split_at_first noColon text.toList
      simp [specChars, taken, dropped, read]

/-- A marker is read as an argument if it spells that argument between its braces. -/
theorem readMarker?_iff_spelled {marker : List Char} (unclosed : '\x7d' ∉ marker) {index : Nat} {spec : Option String} :
    readMarker? marker = some (index, spec) ↔
      (Segment.argument index spec).Spelled ('\x7b' :: (marker ++ ['\x7d'])) := by
  rw [readMarker?_eq_some]
  constructor
  · rintro ⟨small, position, spells, rfl⟩
    refine .argument ⟨small, ?_⟩ spells
    rintro text rfl member
    exact unclosed (List.mem_append_right _ (List.mem_cons_of_mem _ member))
  · intro spelled
    generalize shape : '\x7b' :: (marker ++ ['\x7d']) = chars at spelled
    cases spelled with
    | argument writable spells =>
      have same := List.append_cancel_right (List.cons.inj shape).2
      exact ⟨writable.1, _, spells, same⟩

/-! ## Spellings are read -/

theorem readFrom_spelled {segment : Segment} {chars : List Char} (spelled : segment.Spelled chars) (offset : Nat)
    (rest : List Char) :
    readFrom offset (chars ++ rest) = (readFrom (offset + byteLength chars) rest).map (attach segment) := by
  cases spelled with
  | text => exact readFrom_text offset _ rest
  | @argument index spec position writable spells =>
    obtain ⟨small, unclosed⟩ := writable
    have positionChars : ∀ c ∈ position, c ≠ '\x7b' ∧ c ≠ '\x7d' := by
      intro c member
      constructor <;> (rintro rfl; exact absurd (spells.mem member) (by decide))
    have alone : (position ++ specChars spec).head? ≠ some '\x7b' := by
      cases position with
      | nil => cases spec <;> simp [specChars]
      | cons c rest => exact fun same => (positionChars c List.mem_cons_self).1 (Option.some.inj same)
    have plain : '\x7d' ∉ position ++ specChars spec := by
      rw [List.mem_append, not_or]
      refine ⟨fun member => (positionChars _ member).2 rfl, ?_⟩
      cases spec with
      | none => exact List.not_mem_nil
      | some text => simpa [specChars] using unclosed text rfl
    have read : readMarker? (position ++ specChars spec) = some (index, spec) :=
      readMarker?_eq_some.2 ⟨small, position, spells, rfl⟩
    have shape : '\x7b' :: (position ++ specChars spec ++ ['\x7d']) ++ rest =
        '\x7b' :: ((position ++ specChars spec) ++ '\x7d' :: rest) := by simp
    rw [shape, readFrom_marker alone plain, read, byteLength_marker, ← Nat.add_assoc]
    rfl

/-- A reader takes a spelling of segments off the front, and puts them in front of what it reads behind it. -/
theorem readFrom_spells {segments : List Segment} {chars : List Char} (spells : Spells segments chars) (offset : Nat)
    (rest : List Char) :
    readFrom offset (chars ++ rest) =
      (readFrom (offset + byteLength chars) rest).map fun behind => segments.foldr attach behind := by
  induction spells generalizing offset with
  | nil => cases run : readFrom offset rest <;> simp [byteLength, run, Except.map]
  | cons spelled _ ih =>
    rw [List.append_assoc, readFrom_spelled spelled, ih, byteLength_append, Nat.add_assoc]
    cases readFrom _ rest <;> rfl

theorem readFrom_faulty {offset : Nat} {chars : List Char} {fault : TemplateFault}
    (faulty : Faulty offset chars fault) : readFrom offset chars = .error fault := by
  cases faulty with
  | unmatched spells alone =>
    rw [readFrom_spells spells, readFrom_unmatched alone]
    rfl
  | unterminated spells alone unclosed =>
    rw [readFrom_spells spells, readFrom_unterminated alone unclosed]
    rfl
  | @malformed _ before marker after spells alone unclosed none =>
    have refused : readMarker? marker = Option.none := Option.eq_none_iff_forall_ne_some.2
      fun (index, spec) read => none index spec ((readMarker?_iff_spelled unclosed).1 read)
    rw [readFrom_spells spells, readFrom_marker alone unclosed, refused]
    rfl

/-! ## Everything else is refused -/

/-- What reading a text answers: segments that the text spells, or what is wrong with the text. -/
def Answers (offset : Nat) (chars : List Char) : Except TemplateFault (List Segment) → Prop
  | .ok segments => Spells segments chars ∧ merged segments = segments
  | .error fault => Faulty offset chars fault

theorem Answers.attach {segment : Segment} {offset : Nat} {chars rest : List Char}
    {answer : Except TemplateFault (List Segment)} (spelled : segment.Spelled chars)
    (answers : Answers (offset + byteLength chars) rest answer) :
    Answers offset (chars ++ rest) (answer.map (attach segment)) := by
  cases answer with
  | error fault => exact Faulty.behind spelled answers
  | ok segments =>
    obtain ⟨spells, whole⟩ := answers
    exact ⟨spells.attach spelled, by rw [merged_attach, whole]⟩

theorem answers_escapeChar {offset : Nat} {c : Char} {rest : List Char}
    (ih : Answers (offset + byteLength (escapeChar c)) rest (readFrom (offset + byteLength (escapeChar c)) rest)) :
    Answers offset (escapeChar c ++ rest) (readFrom offset (escapeChar c ++ rest)) := by
  have spelled : (Segment.text [c]).Spelled (escapeChar c) := by
    simpa using @Segment.Spelled.text [c]
  rw [readFrom_escapeChar]
  exact ih.attach spelled

theorem answers_marker (offset : Nat) {marker : List Char} (after : List Char) (alone : marker.head? ≠ some '\x7b')
    (unclosed : '\x7d' ∉ marker)
    (ih : ∀ index spec, readMarker? marker = some (index, spec) →
      Answers (offset + byteLength marker + 2) after (readFrom (offset + byteLength marker + 2) after)) :
    Answers offset ('\x7b' :: (marker ++ '\x7d' :: after))
      (readFrom offset ('\x7b' :: (marker ++ '\x7d' :: after))) := by
  rw [readFrom_marker alone unclosed]
  cases found : readMarker? marker with
  | none =>
    refine .malformed .nil alone unclosed fun index spec spelled => ?_
    rw [← readMarker?_iff_spelled unclosed, found] at spelled
    cases spelled
  | some read =>
    obtain ⟨index, spec⟩ := read
    have spelled := (readMarker?_iff_spelled unclosed).1 found
    have answers := ih index spec found
    rw [Nat.add_assoc, ← byteLength_marker] at answers ⊢
    have whole := answers.attach spelled
    rwa [List.cons_append, List.append_assoc] at whole

/-- Where a marker ends: behind an opening brace that is not doubled, the first closing brace. -/
theorem exists_marker {chars after : List Char} {c : Char} (alone : ∀ rest, chars = '\x7b' :: rest → False)
    (closed : chars.dropWhile (· != '\x7d') = c :: after) :
    (chars.takeWhile (· != '\x7d')).head? ≠ some '\x7b' ∧ '\x7d' ∉ chars.takeWhile (· != '\x7d') ∧
      chars = chars.takeWhile (· != '\x7d') ++ '\x7d' :: after := by
  obtain ⟨unclosed, parts⟩ := Text.eq_of_split closed
  refine ⟨fun same => ?_, unclosed, parts⟩
  obtain ⟨rest, marker⟩ := List.head?_eq_some_iff.1 same
  rw [marker] at parts
  exact alone _ parts

theorem answers_readFrom (offset : Nat) (chars : List Char) : Answers offset chars (readFrom offset chars) := by
  induction offset, chars using readFrom.induct with
  | case1 offset =>
    rw [readFrom]
    exact ⟨.nil, rfl⟩
  | case2 offset rest ih => exact answers_escapeChar (c := '\x7b') ih
  | case3 offset rest ih => exact answers_escapeChar (c := '\x7d') ih
  | case4 offset rest alone =>
    have single : rest.head? ≠ some '\x7d' := fun same => (List.head?_eq_some_iff.1 same).elim alone
    rw [readFrom_unmatched single]
    exact .unmatched .nil single
  | case5 offset rest alone ended =>
    have single : rest.head? ≠ some '\x7b' := fun same => (List.head?_eq_some_iff.1 same).elim alone
    have unclosed : '\x7d' ∉ rest := fun member => absurd (List.dropWhile_eq_nil_iff.1 ended _ member) (by simp)
    rw [readFrom_unterminated single unclosed]
    exact .unterminated .nil single unclosed
  | case6 offset rest alone marker c after closed _ refused =>
    obtain ⟨single, unclosed, parts⟩ := exists_marker alone closed
    have answers := answers_marker offset after single unclosed
      fun index spec found => absurd (refused.symm.trans found) nofun
    rwa [← parts] at answers
  | case7 offset rest alone marker c after closed _ index spec found ih =>
    obtain ⟨single, unclosed, parts⟩ := exists_marker alone closed
    have answers := answers_marker offset after single unclosed fun _ _ _ => ih
    rwa [← parts] at answers
  | case8 offset c rest _ _ notClosing notOpening ih =>
    have plain : escapeChar c = [c] := if_neg (not_or.2 ⟨notOpening, notClosing⟩)
    have one : byteLength (escapeChar c) = c.utf8Size := by
      rw [plain]
      rfl
    rw [← one] at ih
    have answers := answers_escapeChar ih
    rwa [plain] at answers

/-! ## The whole template -/

/-- Reading inverts writing, and reads nothing else. What is written for some segments is read as them, with their texts
joined. A template is read as some segments if and only if it spells them and no texts are left to join among them, and
then it differs from what is written for them in the spelling of positions only. It is refused for a fault if and only
if it has that fault. -/
theorem read_iff :
    (∀ segments, (∀ segment ∈ segments, segment.Writable) → read (write segments) = .ok (merged segments)) ∧
      (∀ template segments, read template = .ok segments ↔
        Spells segments template.toList ∧ merged segments = segments) ∧
      (∀ template segments, read template = .ok segments → Spells segments (write segments).toList) ∧
      ∀ template fault, read template = .error fault ↔ Faulty 0 template.toList fault := by
  have reads : ∀ template segments, Spells segments template.toList → read template = .ok (merged segments) := by
    intro template segments spells
    have run := readFrom_spells spells 0 []
    rwa [List.append_nil, readFrom] at run
  have answers : ∀ template, Answers 0 template.toList (read template) :=
    fun template => answers_readFrom 0 template.toList
  refine ⟨fun segments writable => reads _ _ (spells_write writable), fun template segments => ⟨?_, ?_⟩, ?_,
    fun template fault => ⟨?_, readFrom_faulty⟩⟩
  · intro read
    have answer := answers template
    rwa [read] at answer
  · rintro ⟨spells, whole⟩
    rw [reads template segments spells, whole]
  · intro template segments read
    have answer := answers template
    rw [read] at answer
    exact spells_write answer.1.writable
  · intro refused
    have answer := answers template
    rwa [refused] at answer

/-- Braces on both sides of a marker, whose position stands behind blanks, a plus sign and zeros. -/
example : read "\x7b\x7b\x7b +07:\x7b\x7d\x7d\x7d" =
    .ok [.text ['\x7b'], .argument 7 (some "\x7b"), .text ['\x7d']] := by
  cbv

end ItemExpr.Template
