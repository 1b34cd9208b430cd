import MdxPress.Text.Line

/-!
# Code spans

Inline code runs from one backtick to the next.  A backtick without a partner is prose.

* `codeSpans` cuts a line into prose and code;
* `mapOutsideCode` rewrites the prose and copies the code;
* `codeMask` says of every character whether it is code.
-/

namespace MdxPress

/-- A part of a line that is inline code, its backticks included, or prose. -/
structure Span where
  text : Text
  isCode : Bool
  deriving DecidableEq, Repr

namespace Span

/-- Puts a character in front of the part that begins a list. -/
def extend (c : Char) (isCode : Bool) : List Span → List Span
  | [] => [⟨[c], isCode⟩]
  | s :: ss => if s.isCode = isCode then ⟨c :: s.text, isCode⟩ :: ss else ⟨[c], isCode⟩ :: s :: ss

end Span

namespace Text

/-- The parts of the rest of a line, inside a code span that a later backtick ends, or outside. -/
def codeSpansFrom : Bool → Text → List Span
  | _, [] => []
  | true, c :: r =>
    if c = '\x60' then ⟨[c], true⟩ :: codeSpansFrom false r
    else Span.extend c true (codeSpansFrom true r)
  | false, c :: r =>
    if c = '\x60' && r.contains '\x60' then Span.extend c true (codeSpansFrom true r)
    else Span.extend c false (codeSpansFrom false r)

/-- The parts of a line. -/
def codeSpans (t : Text) : List Span :=
  codeSpansFrom false t

/-- Rewrites the prose of a line and copies its code. -/
def mapOutsideCode (f : Text → Text) (t : Text) : Text :=
  t.codeSpans.flatMap fun s => if s.isCode then s.text else f s.text

/-- The characters of a line, each with whether it is code. -/
def codeMask (t : Text) : List (Char × Bool) :=
  t.codeSpans.flatMap fun s => s.text.map fun c => (c, s.isCode)

/-- Rewrites the prose parts of every line of a text. -/
def mapLineProse (f : Text → Text) (t : Text) : Text :=
  t.lines.flatMap fun l => l.text.mapOutsideCode f

end Text
end MdxPress
