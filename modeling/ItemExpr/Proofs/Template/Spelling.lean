import ItemExpr.Proofs.Template.Positions
import ItemExpr.Template

/-!
# Spellings of a template

How segments are written, which other texts are spellings of the same segments, and what is wrong with a text that is
no spelling of any. A spelling differs from what is written in the positions of its markers only.
-/

namespace ItemExpr

/-! ## Writing -/

namespace Segment

/-- A character of a text: a brace is written twice. -/
def escapeChar (c : Char) : List Char :=
  if c = '\x7b' ∨ c = '\x7d' then [c, c] else [c]

/-- The specifier of a marker behind its position. -/
def specChars : Option String → List Char
  | none => []
  | some spec => ':' :: spec.toList

def written : Segment → List Char
  | .text chars => chars.flatMap escapeChar
  | .argument index spec => '\x7b' :: (Text.digits index ++ specChars spec ++ ['\x7d'])

/-- A marker can be written if its position is a machine word and no brace in its specifier ends it. -/
def Writable : Segment → Prop
  | .text _ => True
  | .argument index spec => index < Text.wordLimit ∧ ∀ text, spec = some text → '\x7d' ∉ text.toList

/-- A segment in front of others. An empty text is dropped, and a text joins the text that the others start with. -/
def attach : Segment → List Segment → List Segment
  | .text [], segments => segments
  | .text chars, .text more :: rest => .text (chars ++ more) :: rest
  | segment, segments => segment :: segments

end Segment

namespace Template

open Segment (escapeChar specChars attach)

/-- The template that is written for some segments. -/
def write (segments : List Segment) : String :=
  String.ofList (segments.flatMap Segment.written)

/-- The segments, with texts that stand side by side joined and without empty ones. -/
def merged (segments : List Segment) : List Segment :=
  segments.foldr attach []

/-! ## Spellings -/

end Template

/-- The texts that stand for a segment. -/
inductive Segment.Spelled : Segment → List Char → Prop where
  | text {chars : List Char} : Spelled (.text chars) (chars.flatMap escapeChar)
  | argument {index : Nat} {spec : Option String} {position : List Char} :
    (Segment.argument index spec).Writable → Text.SpellsNumber index position →
      Spelled (.argument index spec) ('\x7b' :: (position ++ specChars spec ++ ['\x7d']))

namespace Template

open Segment (escapeChar specChars attach)

/-- The texts that stand for some segments, one behind the other. -/
inductive Spells : List Segment → List Char → Prop where
  | nil : Spells [] []
  | cons {segment : Segment} {segments : List Segment} {chars rest : List Char} :
    segment.Spelled chars → Spells segments rest → Spells (segment :: segments) (chars ++ rest)

/-- A text that starts with a spelling of some segments and goes on with a brace that can belong to no segment. Offsets
count the bytes in front of the brace, from the given one on. -/
inductive Faulty (offset : Nat) : List Char → TemplateFault → Prop where
  /-- A closing brace that stands alone. -/
  | unmatched {segments : List Segment} {before after : List Char} :
    Spells segments before → after.head? ≠ some '\x7d' →
      Faulty offset (before ++ '\x7d' :: after) (.unmatchedBrace (offset + byteLength before))
  /-- An opening brace that stands alone and is never closed. -/
  | unterminated {segments : List Segment} {before after : List Char} :
    Spells segments before → after.head? ≠ some '\x7b' → '\x7d' ∉ after →
      Faulty offset (before ++ '\x7b' :: after) (.unterminatedMarker (offset + byteLength before))
  /-- A marker that stands for no argument. -/
  | malformed {segments : List Segment} {before marker after : List Char} :
    Spells segments before → marker.head? ≠ some '\x7b' → '\x7d' ∉ marker →
      (∀ index spec, ¬(Segment.argument index spec).Spelled ('\x7b' :: (marker ++ ['\x7d']))) →
      Faulty offset (before ++ '\x7b' :: (marker ++ '\x7d' :: after)) (.malformedMarker (String.ofList marker))

theorem byteLength_append (first second : List Char) :
    byteLength (first ++ second) = byteLength first + byteLength second := by
  induction first with
  | nil => exact (Nat.zero_add _).symm
  | cons c rest ih => rw [List.cons_append, byteLength, byteLength, ih, Nat.add_assoc]

theorem spells_write {segments : List Segment} (writable : ∀ segment ∈ segments, segment.Writable) :
    Spells segments (write segments).toList := by
  rw [write, String.toList_ofList]
  induction segments with
  | nil => exact .nil
  | cons segment rest ih =>
    obtain ⟨own, others⟩ := List.forall_mem_cons.1 writable
    rw [List.flatMap_cons]
    refine .cons ?_ (ih others)
    cases segment with
    | text chars => exact .text
    | argument index spec => exact .argument own (Text.spellsNumber_digits index)

theorem Spells.writable {segments : List Segment} {chars : List Char} (spells : Spells segments chars) :
    ∀ segment ∈ segments, segment.Writable := by
  induction spells with
  | nil => exact List.forall_mem_nil _
  | cons spelled _ ih =>
    refine List.forall_mem_cons.2 ⟨?_, ih⟩
    cases spelled with
    | text => exact trivial
    | argument writable _ => exact writable

/-! ## Joining texts -/

theorem attach_append (first second : List Char) (segments : List Segment) :
    attach (.text (first ++ second)) segments = attach (.text first) (attach (.text second) segments) := by
  match first, second, segments with
  | [], _, _ => rfl
  | _ :: _, [], _ => rw [List.append_nil]; rfl
  | _ :: _, _ :: _, [] | _ :: _, _ :: _, .argument _ _ :: _ => rfl
  | _ :: _, _ :: _, .text _ :: _ => simp [attach]

theorem attach_singleton (c : Char) (segments : List Segment) :
    attach (.text [c]) segments = prependChar c segments := by
  match segments with
  | [] | .text _ :: _ | .argument _ _ :: _ => rfl

theorem merged_attach (segment : Segment) (segments : List Segment) :
    merged (attach segment segments) = attach segment (merged segments) := by
  match segment, segments with
  | .text [], _ | .argument _ _, _ | .text (_ :: _), [] | .text (_ :: _), .argument _ _ :: _ => rfl
  | .text (c :: chars), .text more :: rest => exact attach_append (c :: chars) more (merged rest)

theorem Spells.attach {segment : Segment} {segments : List Segment} {chars rest : List Char}
    (spelled : segment.Spelled chars) (spells : Spells segments rest) :
    Spells (segment.attach segments) (chars ++ rest) := by
  match segment, segments, spelled, spells with
  | .text [], _, .text, spells => exact spells
  | .text (_ :: _), .text _ :: _, .text, .cons .text behind =>
    rw [← List.append_assoc, ← List.flatMap_append]
    exact .cons .text behind
  | .text (_ :: _), [], spelled, spells | .text (_ :: _), .argument _ _ :: _, spelled, spells
  | .argument _ _, _, spelled, spells => exact .cons spelled spells

theorem Faulty.behind {segment : Segment} {offset : Nat} {chars rest : List Char} {fault : TemplateFault}
    (spelled : segment.Spelled chars) (faulty : Faulty (offset + byteLength chars) rest fault) :
    Faulty offset (chars ++ rest) fault := by
  cases faulty with
  | unmatched spells alone =>
    rw [← List.append_assoc, Nat.add_assoc, ← byteLength_append]
    exact .unmatched (.cons spelled spells) alone
  | unterminated spells alone unclosed =>
    rw [← List.append_assoc, Nat.add_assoc, ← byteLength_append]
    exact .unterminated (.cons spelled spells) alone unclosed
  | malformed spells alone unclosed none =>
    rw [← List.append_assoc]
    exact .malformed (.cons spelled spells) alone unclosed none

end Template

end ItemExpr
