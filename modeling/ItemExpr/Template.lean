import ItemExpr.Session
import ItemExpr.Text.Blank
import ItemExpr.Text.Split

/-!
# Templates

A template is a text with markers such as `{0}` or `{1:F2}`. A marker names an argument by its position and may give a
specifier for it; when the template is compiled it becomes a new value token for that argument. A brace that is text is
written twice.

A template is read as a whole, and the positions of its markers are checked, before anything is bound.
-/

namespace ItemExpr

inductive Segment where
  | text (chars : List Char)
  | argument (index : Nat) (spec : Option String)
deriving DecidableEq, Repr

namespace Template

/-- A character in front of segments. It joins the text that they start with. -/
def prependChar (c : Char) : List Segment → List Segment
  | .text chars :: rest => .text (c :: chars) :: rest
  | segments => .text [c] :: segments

/-- The position and the specifier in a marker. Blanks around the position are ignored. -/
def readMarker? (marker : List Char) : Option (Nat × Option String) :=
  let position := Text.readWord? (Text.trimBlank (marker.takeWhile (· != ':')))
  let spec := match marker.dropWhile (· != ':') with
    | [] => none
    | _ :: chars => some (String.ofList chars)
  position.map (·, spec)

def byteLength : List Char → Nat
  | [] => 0
  | c :: rest => c.utf8Size + byteLength rest

/-- Reads the segments of a template whose first character lies `offset` bytes behind its start. -/
def readFrom (offset : Nat) (chars : List Char) : Except TemplateFault (List Segment) :=
  match chars with
  | [] => .ok []
  | '\x7b' :: '\x7b' :: rest => (readFrom (offset + 2) rest).map (prependChar '\x7b')
  | '\x7d' :: '\x7d' :: rest => (readFrom (offset + 2) rest).map (prependChar '\x7d')
  | '\x7d' :: _ => .error (.unmatchedBrace offset)
  | '\x7b' :: rest =>
    let marker := rest.takeWhile (· != '\x7d')
    match closed : rest.dropWhile (· != '\x7d') with
    | [] => .error (.unterminatedMarker offset)
    | _ :: after =>
      have := Text.length_lt_of_dropWhile_eq closed
      match readMarker? marker with
      | none => .error (.malformedMarker (String.ofList marker))
      | some (index, spec) =>
        (readFrom (offset + byteLength marker + 2) after).map (.argument index spec :: ·)
  | c :: rest => (readFrom (offset + c.utf8Size) rest).map (prependChar c)
termination_by chars.length

/-- Reads the segments of a template. No segment is an empty text, and no two texts stand side by side. -/
def read (template : String) : Except TemplateFault (List Segment) :=
  readFrom 0 template.toList

/-- The position of a segment that is a marker and has no argument among so many. -/
def missingIndex? (count : Nat) : Segment → Option Nat
  | .text _ => none
  | .argument index _ => if count ≤ index then some index else none

/-- Reads a template and checks its positions against the number of arguments. -/
def check (template : String) (count : Nat) : Except TemplateFault (List Segment) := do
  let segments ← read template
  match segments.findSome? (missingIndex? count) with
  | some index => throw (.missingArgument index count)
  | none => return segments

/-- The text of a segment, for which a marker's argument is bound. -/
def compileSegment (args : List Value) : Segment → SessionM String
  | .text chars => return String.ofList chars
  | .argument index spec => SessionM.bindLiteral (args.getD index .null) none spec

/-- Compiles a template: its texts as they are, and a new value token for each marker. -/
def compile (template : String) (args : List Value) : SessionM String := do
  let segments ← SessionM.query fun _ => (check template args.length).mapError (.unsupported ∘ .template)
  let parts ← segments.mapM (compileSegment args)
  return String.join parts

end Template

end ItemExpr
