import MdxPress.CodeSpan
import MdxPress.Fence.Segment
import MdxPress.Marker.Attribute
import MdxPress.Position
import MdxPress.Text.Scan

/-!
# Markers

A marker `{% name key="value" %}` opens or closes a directive.  It lies on one line, outside fenced
code and outside inline code.

* `Marker.ofInside?` reads what stands between `{%` and `%}`;
* `Text.markers` lists the markers of a page with the characters they cover;
* `Text.lineAround` widens a marker that is alone on its line to the whole line.
-/

namespace MdxPress

/-- A marker: its name in lowercase, its attributes, and the characters it covers. -/
structure Marker where
  name : Text
  attributes : List Attribute
  start : Nat
  stop : Nat
  deriving DecidableEq, Repr

namespace Marker

/-- The value of the first attribute with a key, whatever the case of its letters. -/
def attribute? (m : Marker) (key : Text) : Option Text :=
  (m.attributes.find? fun a => a.key.asciiLower == key.asciiLower).map (·.value)

/-- Whether a marker closes the directive `name`. -/
def closes (m : Marker) (name : Text) : Bool :=
  Text.dropStart? "end".toList m.name == some name

/-- Reads the inside of a marker: a name, then attributes. -/
def ofInside? (inside : Text) : Option (Text × List Attribute) :=
  let t := inside.trim
  let name := t.takeWhile isKeyChar
  if name.isEmpty then none
  else some (Text.asciiLower name, Text.attributes (t.dropWhile isKeyChar))

/-- The rule for `{%` with a `%}` behind it.  What has no name between them is no marker, yet is
passed over. -/
def rule : Text → Option (Option (Text × List Attribute) × Nat)
  | '{' :: '%' :: r =>
    (Text.breakOn ['%', '}'] r).map fun p => (ofInside? p.1, p.1.length + 4)
  | _ => none

/-- The markers of a prose part of a line that begins at `pos`. -/
def inProse (pos : Nat) (part : Text) : List Marker :=
  (Text.hits rule part).filterMap fun h =>
    h.value.map fun p => ⟨p.1, p.2, pos + h.start, pos + h.stop⟩

/-- The markers of the parts of a line, the first of which begins at `pos`. -/
def inSpans (pos : Nat) : List Span → List Marker
  | [] => []
  | s :: ss =>
    (if s.isCode then [] else inProse pos s.text) ++ inSpans (pos + s.text.length) ss

/-- The markers of lines, the first of which begins at `pos`. -/
def inLines (pos : Nat) : List FencedLine → List Marker
  | [] => []
  | l :: ls =>
    (if l.isCode then [] else inSpans pos l.line.content.codeSpans) ++
      inLines (pos + l.line.text.length) ls

end Marker

namespace Text

/-- The markers of a page, in order. -/
def markers (t : Text) : List Marker :=
  Marker.inLines 0 t.fenced

/-- The characters from `start` to `stop`, or the whole line with its ending when nothing but
blanks stands beside them. -/
def lineAround (t : Text) (start stop : Nat) : Nat × Nat :=
  let before := lastLine (t.take start)
  let behind := t.drop stop
  let after := behind.takeWhile (· ≠ '\n') ++ (behind.dropWhile (· ≠ '\n')).take 1
  if before.allBlank && allBlank after then (start - before.length, stop + after.length)
  else (start, stop)

end Text
end MdxPress
