import Mathlib.Data.List.TakeWhile
import ItemExpr.Format.DatePattern

/-!
# The parts of a date pattern

A scan of a date pattern takes one part after the other off its front: a quoted text, an escaped character, or all of a
run of one character. It comes to an end at the end of the pattern or at a part that is at fault, and a pattern is
refused only for such a part. Where two patterns are put together and no run goes on from the one into the other, their
texts are put together (`Format.datePattern_scans`).
-/

namespace ItemExpr.Format

/-! ## Parts -/

/-- What a scan takes off the front of a pattern at once. -/
inductive PatternPart where
  | quoted (quote : Char) (text : List Char)
  | escaped (c : Char)
  | run (c : Char) (length : Nat)

namespace PatternPart

def spelling : PatternPart → List Char
  | .quoted quote text => quote :: (text ++ [quote])
  | .escaped c => ['\\', c]
  | .run c length => List.replicate length c

def token : PatternPart → PatternToken
  | .quoted _ text => .literal text
  | .escaped c => .literal [c]
  | .run c length => .run c length

/-- A part can be taken where some rest is behind it: a quoted text goes up to the next quote of its kind, and a run is
not cut short. A run of fractions is not too long. -/
inductive Stands (rest : List Char) : PatternPart → Prop where
  | quoted {quote : Char} {text : List Char} : isQuote quote = true → quote ∉ text → Stands rest (.quoted quote text)
  | escaped {c : Char} : Stands rest (.escaped c)
  | run {c : Char} {length : Nat} :
    isQuote c = false → c ≠ '\\' → 0 < length → rest.head? ≠ some c → (c = 'f' → length ≤ 7) →
      Stands rest (.run c length)

end PatternPart

/-- A scan of a pattern comes through some parts, one after the other, and what is left of the pattern is in front of
it then. -/
inductive Passes : List Char → List PatternPart → List Char → Prop where
  | nil {left : List Char} : Passes left [] left
  | cons {part : PatternPart} {parts : List PatternPart} {rest left : List Char} :
    part.Stands rest → Passes rest parts left → Passes (part.spelling ++ rest) (part :: parts) left

/-- There is a quote in front that is never closed. -/
def OpensQuote (left : List Char) : Prop :=
  ∃ quote rest, left = quote :: rest ∧ isQuote quote = true ∧ quote ∉ rest

/-- More than seven `f` are in front. -/
def StartsLongFraction (left : List Char) : Prop :=
  List.replicate 8 'f' <+: left

/-- A scan from left to right meets a quote that is never closed. -/
def MeetsOpenQuote (pattern : List Char) : Prop :=
  ∃ parts left, Passes pattern parts left ∧ OpensQuote left

/-- A scan from left to right meets a run of more than seven `f`, neither quoted nor escaped. -/
def MeetsLongFraction (pattern : List Char) : Prop :=
  ∃ parts left, Passes pattern parts left ∧ StartsLongFraction left

/-- The last character of a pattern is a backslash that is neither quoted nor escaped. -/
def EndsInBackslash (pattern : List Char) : Prop :=
  ∃ parts, Passes pattern parts ['\\']

/-- What comes of a pattern when a scan has come through some parts of it. A backslash at the end stands for nothing. -/
inductive Finishes (t : DateTime) (pattern : String) (parts : List PatternPart) :
    List Char → Except FormatError (List Char) → Prop where
  | whole : Finishes t pattern parts [] (.ok (parts.flatMap fun part => part.token.text t))
  | backslash : Finishes t pattern parts ['\\'] (.ok (parts.flatMap fun part => part.token.text t))
  | openQuote {left : List Char} : OpensQuote left → Finishes t pattern parts left (.error (.unterminatedQuote pattern))
  | longFraction {left : List Char} :
    StartsLongFraction left → Finishes t pattern parts left (.error (.tooManyFractionDigits pattern))

variable {part : PatternPart} {parts more : List PatternPart} {pattern rest left behind : List Char} {c quote : Char}

theorem PatternPart.Stands.spelling_ne_nil (stands : part.Stands rest) : part.spelling ≠ [] := by
  cases stands with
  | quoted | escaped => exact List.cons_ne_nil _ _
  | run _ _ positive => simpa [spelling] using Nat.ne_of_gt positive

/-- The parts that a scan comes through make up the pattern, together with what is left of it. -/
theorem Passes.pattern_eq (passes : Passes pattern parts left) :
    pattern = parts.flatMap PatternPart.spelling ++ left := by
  induction passes with
  | nil => rfl
  | cons _ _ ih => rw [List.flatMap_cons, List.append_assoc, ← ih]

/-- Each part takes a character at least, so there are no more parts than characters. -/
theorem Passes.length_le (passes : Passes pattern parts left) : parts.length ≤ pattern.length := by
  induction passes with
  | nil => exact Nat.zero_le _
  | cons stands _ ih =>
    have positive := List.length_pos_iff.2 stands.spelling_ne_nil
    rw [List.length_cons, List.length_append]
    omega

/-! ## Scanning parts -/

theorem run_split (other : rest.head? ≠ some c) (count : Nat) :
    (List.replicate count c ++ rest).takeWhile (· == c) = List.replicate count c ∧
      (List.replicate count c ++ rest).dropWhile (· == c) = rest := by
  have all : ∀ d ∈ List.replicate count c, (d == c) = true := by
    intro d member
    exact beq_iff_eq.2 (List.eq_of_mem_replicate member)
  rw [List.takeWhile_append_of_pos all, List.dropWhile_append_of_pos all]
  cases rest with
  | nil => simp
  | cons d rest =>
    have differs : (d == c) = false := beq_false_of_ne fun same => other (congrArg some same)
    simp [differs]

/-- A quote is closed by the next quote of its kind. -/
theorem scanPattern_quote (isQuote : isQuote quote = true) (rest : List Char) :
    scanPattern (quote :: rest) =
      match rest.dropWhile (· != quote) with
      | [] => .error .unterminatedQuote
      | _ :: after => (scanPattern after).map (.literal (rest.takeWhile (· != quote)) :: ·) := by
  rw [scanPattern.eq_def]
  simp only [if_pos isQuote]
  split
  · rename_i ended
    rw [ended]
  · rename_i found
    rw [found]

theorem scanPattern_escaped (c : Char) (rest : List Char) :
    scanPattern ('\\' :: c :: rest) = (scanPattern rest).map (.literal [c] :: ·) := by
  rw [scanPattern.eq_def]
  simp only [if_neg (show ¬ isQuote '\\' = true by decide), if_true]

/-- A character that is neither a quote nor a backslash starts a run. -/
theorem scanPattern_run (noQuote : isQuote c = false) (noBackslash : c ≠ '\\') (rest : List Char) :
    scanPattern (c :: rest) =
      if c = 'f' ∧ 7 < (rest.takeWhile (· == c)).length + 1 then .error .tooManyFractionDigits
      else (scanPattern (rest.dropWhile (· == c))).map (.run c ((rest.takeWhile (· == c)).length + 1) :: ·) := by
  rw [scanPattern.eq_def]
  simp only [noQuote, Bool.false_eq_true, if_false, if_neg noBackslash]

@[simp] theorem scanPattern_nil : scanPattern [] = .ok [] := by
  rw [scanPattern.eq_def]

/-- A backslash at the end stands for nothing. -/
theorem scanPattern_backslash : scanPattern ['\\'] = .ok [] := by
  rw [scanPattern.eq_def]
  simp only [if_neg (show ¬ isQuote '\\' = true by decide), if_true]

/-- A part that stands in front is scanned as its token. -/
theorem scanPattern_part (stands : part.Stands rest) :
    scanPattern (part.spelling ++ rest) = (scanPattern rest).map (part.token :: ·) := by
  cases stands with
  | @quoted quote text opens closed =>
    obtain ⟨taken, dropped⟩ := Text.split_at_first closed rest
    rw [PatternPart.spelling, List.cons_append, List.append_assoc, List.singleton_append, scanPattern_quote opens,
      taken, dropped]
    rfl
  | @escaped c => exact scanPattern_escaped c rest
  | @run c length noQuote noBackslash positive other short =>
    obtain ⟨count, rfl⟩ := Nat.exists_eq_add_of_le' positive
    obtain ⟨taken, dropped⟩ := run_split other count
    rw [PatternPart.spelling, List.replicate_succ, List.cons_append, scanPattern_run noQuote noBackslash, taken,
      dropped, List.length_replicate, if_neg fun long => Nat.not_lt.2 (short long.1) long.2]
    rfl

theorem scanPattern_passes (passes : Passes pattern parts left) :
    scanPattern pattern = (scanPattern left).map (parts.map PatternPart.token ++ ·) := by
  induction passes with
  | @nil left => cases run : scanPattern left <;> simp [Except.map]
  | @cons part parts rest left stands _ ih =>
    rw [scanPattern_part stands, ih]
    cases scanPattern left <;> rfl

theorem scanPattern_of_opensQuote (opens : OpensQuote left) : scanPattern left = .error .unterminatedQuote := by
  obtain ⟨quote, rest, rfl, isQuote, never⟩ := opens
  rw [scanPattern_quote isQuote, (Text.split_of_not_mem never).2]

theorem scanPattern_of_startsLongFraction (long : StartsLongFraction left) :
    scanPattern left = .error .tooManyFractionDigits := by
  obtain ⟨rest, rfl⟩ := long
  have all : ∀ d ∈ List.replicate 7 'f', (d == 'f') = true := by
    intro d member
    rw [List.eq_of_mem_replicate member]
    rfl
  rw [List.replicate_succ, List.cons_append, scanPattern_run rfl (by decide), List.takeWhile_append_of_pos all,
    List.length_append, List.length_replicate, if_pos ⟨rfl, by omega⟩]

/-! ## How a scan ends -/

/-- Nothing can be taken off the front any more, apart from a backslash that stands for nothing. -/
def AtEnd (left : List Char) : Prop :=
  left = [] ∨ left = ['\\'] ∨ OpensQuote left ∨ StartsLongFraction left

theorem exists_passes_cons (stands : part.Stands rest)
    (further : ∃ parts left, Passes rest parts left ∧ AtEnd left) :
    ∃ parts left, Passes (part.spelling ++ rest) parts left ∧ AtEnd left := by
  obtain ⟨parts, left, passes, ends⟩ := further
  exact ⟨part :: parts, left, .cons stands passes, ends⟩

theorem run_eq (c : Char) (rest : List Char) :
    c :: rest = List.replicate ((rest.takeWhile (· == c)).length + 1) c ++ rest.dropWhile (· == c) := by
  have all : rest.takeWhile (· == c) = List.replicate (rest.takeWhile (· == c)).length c := by
    refine List.eq_replicate_of_mem fun d member => ?_
    exact beq_iff_eq.1 (List.all_eq_true.1 List.all_takeWhile d member)
  rw [List.replicate_succ, List.cons_append, ← all, List.takeWhile_append_dropWhile]

/-- A scan comes to the end of a pattern, to a backslash there, or to one of the two faults. -/
theorem exists_passes (pattern : List Char) :
    ∃ parts left, Passes pattern parts left ∧ AtEnd left := by
  -- The cases are those of `scanPattern`: its recursive calls are on what is behind a part that stands in front.
  induction pattern using scanPattern.induct with
  | case1 => exact ⟨[], [], .nil, .inl rfl⟩
  | case2 quote rest isQuote ended =>
    have never : quote ∉ rest := by
      intro member
      have all := List.dropWhile_eq_nil_iff.1 ended
      simpa using all quote member
    exact ⟨[], _, .nil, .inr (.inr (.inl ⟨quote, rest, rfl, isQuote, never⟩))⟩
  | case3 quote rest isQuote d after found _ ih =>
    obtain ⟨closed, parts⟩ := Text.eq_of_split found
    have further := exists_passes_cons (.quoted isQuote closed) ih
    rwa [PatternPart.spelling, List.cons_append, List.append_assoc, List.singleton_append, ← parts] at further
  | case4 => exact ⟨[], _, .nil, .inr (.inl rfl)⟩
  | case5 c after _ ih => exact exists_passes_cons .escaped ih
  | case6 c rest _ _ length long =>
    obtain ⟨rfl, many⟩ := long
    refine ⟨[], _, .nil, .inr (.inr (.inr ?_))⟩
    rw [StartsLongFraction, run_eq]
    have eight : List.replicate 8 'f' <+: List.replicate length 'f' := List.prefix_replicate_iff.2 ⟨many, rfl⟩
    exact eight.trans (List.prefix_append _ _)
  | case7 c rest noQuote noBackslash length short _ ih =>
    have other : (rest.dropWhile (· == c)).head? ≠ some c := by
      intro same
      have stopped := List.head?_dropWhile_not (· == c) rest
      rw [same] at stopped
      simp at stopped
    have most : c = 'f' → length ≤ 7 := fun same => Nat.not_lt.1 fun long => short ⟨same, long⟩
    have stands : PatternPart.Stands (rest.dropWhile (· == c)) (.run c length) :=
      .run (by simpa using noQuote) noBackslash (Nat.succ_pos _) other most
    have further := exists_passes_cons stands ih
    rwa [PatternPart.spelling, ← run_eq] at further

/-! ## Patterns put together -/

theorem PatternPart.Stands.append (stands : part.Stands rest)
    (apart : ∀ c, (part.spelling ++ rest).getLast? = some c → behind.head? ≠ some c) :
    part.Stands (rest ++ behind) := by
  cases stands with
  | quoted opens closed => exact .quoted opens closed
  | escaped => exact .escaped
  | @run c length noQuote noBackslash positive other short =>
    refine .run noQuote noBackslash positive ?_ short
    cases rest with
    | nil =>
      -- The run is the end of the first pattern, so its character is the last one there.
      obtain ⟨count, rfl⟩ := Nat.exists_eq_add_of_le' positive
      exact apart c (by simp [spelling, List.replicate_succ'])
    | cons d rest => exact other

/-- What a scan comes through is the same with a pattern behind it that no run goes on into. -/
theorem Passes.append (passes : Passes pattern parts left)
    (apart : ∀ c, pattern.getLast? = some c → behind.head? ≠ some c) :
    Passes (pattern ++ behind) parts (left ++ behind) := by
  induction passes with
  | nil => exact .nil
  | cons stands _ ih =>
    rw [List.append_assoc]
    refine .cons (stands.append apart) (ih fun c last => apart c ?_)
    rw [List.getLast?_append, last]
    rfl

theorem Passes.trans (passes : Passes pattern parts rest) (further : Passes rest more left) :
    Passes pattern (parts ++ more) left := by
  induction passes with
  | nil => exact further
  | cons stands _ ih => exact .cons stands (ih further)

/-! ## Date patterns -/

variable {t : DateTime}

theorem datePattern_of_passes {pattern : String} (passes : Passes pattern.toList parts left)
    (ended : left = [] ∨ left = ['\\']) :
    datePattern t pattern = .ok (parts.flatMap fun part => part.token.text t) := by
  have nothing : scanPattern left = .ok [] := by
    obtain rfl | rfl := ended
    · exact scanPattern_nil
    · exact scanPattern_backslash
  rw [datePattern, scanPattern_passes passes, nothing]
  simp [Except.map, List.flatMap_map]

theorem datePattern_of_fault {pattern : String} {fault : PatternFault} (passes : Passes pattern.toList parts left)
    (refused : scanPattern left = .error fault) : datePattern t pattern = .error (fault.toError pattern) := by
  rw [datePattern, scanPattern_passes passes, refused]
  rfl

theorem Passes.finishes {pattern : String} (passes : Passes pattern.toList parts left) (ends : AtEnd left) :
    Finishes t pattern parts left (datePattern t pattern) := by
  obtain rfl | rfl | opens | long := ends
  · rw [datePattern_of_passes passes (.inl rfl)]
    exact .whole
  · rw [datePattern_of_passes passes (.inr rfl)]
    exact .backslash
  · rw [datePattern_of_fault passes (scanPattern_of_opensQuote opens)]
    exact .openQuote opens
  · rw [datePattern_of_fault passes (scanPattern_of_startsLongFraction long)]
    exact .longFraction long

/-- A scan ends in a fault if and only if it meets one. -/
theorem scanPattern_refused_iff {pattern : List Char} :
    (∃ fault, scanPattern pattern = .error fault) ↔ MeetsOpenQuote pattern ∨ MeetsLongFraction pattern := by
  constructor
  · rintro ⟨fault, refused⟩
    obtain ⟨parts, left, passes, ends⟩ := exists_passes pattern
    rw [scanPattern_passes passes] at refused
    obtain rfl | rfl | opens | long := ends
    · cases refused.symm.trans (congrArg _ scanPattern_nil)
    · cases refused.symm.trans (congrArg _ scanPattern_backslash)
    · exact .inl ⟨parts, left, passes, opens⟩
    · exact .inr ⟨parts, left, passes, long⟩
  · rintro (⟨parts, left, passes, opens⟩ | ⟨parts, left, passes, long⟩)
    · exact ⟨_, by rw [scanPattern_passes passes, scanPattern_of_opensQuote opens]; rfl⟩
    · exact ⟨_, by rw [scanPattern_passes passes, scanPattern_of_startsLongFraction long]; rfl⟩

theorem datePattern_refused_iff {pattern : String} :
    (∃ error, datePattern t pattern = .error error) ↔
      MeetsOpenQuote pattern.toList ∨ MeetsLongFraction pattern.toList := by
  rw [← scanPattern_refused_iff, datePattern]
  cases scanPattern pattern.toList <;> simp

/-- What a pattern is accepted by: parts that it is made up of, and perhaps a backslash at its end. -/
theorem exists_passes_of_ok {pattern : String} {text : List Char} (shown : datePattern t pattern = .ok text) :
    ∃ parts left, Passes pattern.toList parts left ∧ (left = [] ∨ left = ['\\']) ∧
      text = parts.flatMap fun part => part.token.text t := by
  obtain ⟨parts, left, passes, ends⟩ := exists_passes pattern.toList
  have finishes := passes.finishes (t := t) ends
  rw [shown] at finishes
  cases finishes with
  | whole => exact ⟨parts, [], passes, .inl rfl, rfl⟩
  | backslash => exact ⟨parts, _, passes, .inr rfl, rfl⟩

/-- A scan of a pattern takes it apart from left to right, in no more steps than it has characters and never beyond its
end, and then either shows it or refuses it. It is refused if and only if a quote that is never closed is met, or a run
of more than seven `f`. Two patterns that are shown are also shown one behind the other, unless the first ends in a
backslash that escapes nothing or with the character that the second starts with. -/
theorem datePattern_scans (t : DateTime) :
    (∀ pattern, ∃ parts left, Passes pattern.toList parts left ∧
      pattern.toList = parts.flatMap PatternPart.spelling ++ left ∧ parts.length ≤ pattern.toList.length ∧
      Finishes t pattern parts left (datePattern t pattern)) ∧
    (∀ pattern, (∃ error, datePattern t pattern = .error error) ↔
      MeetsOpenQuote pattern.toList ∨ MeetsLongFraction pattern.toList) ∧
    ∀ first second x y, datePattern t first = .ok x → datePattern t second = .ok y →
      ¬ EndsInBackslash first.toList →
      (∀ c, first.toList.getLast? = some c → second.toList.head? ≠ some c) →
        datePattern t (first ++ second) = .ok (x ++ y) := by
  refine ⟨?total, ?refused, ?together⟩
  case total =>
    intro pattern
    obtain ⟨parts, left, passes, ends⟩ := exists_passes pattern.toList
    exact ⟨parts, left, passes, passes.pattern_eq, passes.length_le, passes.finishes ends⟩
  case refused => exact fun pattern => datePattern_refused_iff
  case together =>
    intro first second x y shownFirst shownSecond noBackslash apart
    obtain ⟨parts, left, passes, endedFirst, rfl⟩ := exists_passes_of_ok shownFirst
    obtain ⟨more, rest, further, endedSecond, rfl⟩ := exists_passes_of_ok shownSecond
    -- Nothing is left of the first pattern, so a scan goes on at the start of the second.
    obtain rfl : left = [] := endedFirst.resolve_right fun same => noBackslash ⟨parts, same ▸ passes⟩
    have whole : Passes (first ++ second).toList (parts ++ more) rest := by
      rw [String.toList_append]
      exact (passes.append apart).trans further
    rw [datePattern_of_passes whole endedSecond, List.flatMap_append]

/-- A quoted text at the end of one pattern, and one in other quotes at the start of the next, which has as many
fraction digits as there may be. -/
theorem datePattern_scans_of_quotes :
    let t := DateTime.ofUtc ⟨2024, 3, 5, by decide, by decide, by decide, by decide⟩
      ⟨29289, 123456789, by decide, by decide⟩
    datePattern t "HH'h'" = .ok "08h".toList ∧ datePattern t "\"'\"fffffff\\f" = .ok "'1234567f".toList ∧
      ¬ EndsInBackslash "HH'h'".toList ∧
      (∀ c, "HH'h'".toList.getLast? = some c → "\"'\"fffffff\\f".toList.head? ≠ some c) ∧
      datePattern t "HH'h'\"'\"fffffff\\f" = .ok "08h'1234567f".toList := by
  intro t
  have shown : datePattern t "HH'h'" = .ok "08h".toList := by cbv
  have shownBehind : datePattern t "\"'\"fffffff\\f" = .ok "'1234567f".toList := by cbv
  have noBackslash : ¬ EndsInBackslash "HH'h'".toList := by
    rintro ⟨parts, passes⟩
    have last := congrArg List.getLast? passes.pattern_eq
    simp at last
  have apart : ∀ c, "HH'h'".toList.getLast? = some c → "\"'\"fffffff\\f".toList.head? ≠ some c := by simp
  exact ⟨shown, shownBehind, noBackslash, apart,
    (datePattern_scans t).2.2 _ _ _ _ shown shownBehind noBackslash apart⟩

end ItemExpr.Format
