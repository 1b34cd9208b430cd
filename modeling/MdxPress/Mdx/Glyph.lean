import MdxPress.CodeSpan
import MdxPress.Fence.Segment

/-!
# Glyphs in prose

Signs that MDX would misread or that Markdown does not know: an escaped ampersand, a bullet that
stands for a list item, and arrows that look like tags.  Code is left alone.
-/

namespace MdxPress.Glyph

/-- The signs that begin a list item. -/
def bullets : List Char :=
  ['•', '·', '‣', '⁃']

/-- A line whose bullet, if a blank follows it, is a dash and a space. -/
def dashBullet (line : Text) : Text :=
  match Text.trimStart line with
  | c :: d :: r =>
    if bullets.contains c && isBlank d then line.indentation ++ '-' :: ' ' :: r else line
  | _ => line

/-- The arrows, longer ones first. -/
def arrows : List Text :=
  ["<-->", "<->", "<<", "<-"].map String.toList

/-- The rule for an arrow, which it wraps as inline code. -/
def arrowRule (t : Text) : Option (Text × Nat) :=
  (arrows.find? fun a => t.startsWith a).map fun a => ('\x60' :: a ++ ['\x60'], a.length)

/-- The prose part of a line. -/
def normalizePart (part : Text) : Text :=
  (Text.replace "&amp;".toList ['&'] part).rewrite arrowRule

/-- One line. -/
def normalizeLine (l : Line) : Text :=
  (dashBullet l.text).mapOutsideCode normalizePart

/-- Makes the signs in the prose of a body fit for MDX. -/
def normalize (body : Text) : Text :=
  body.mapProse fun t => t.lines.flatMap normalizeLine

end MdxPress.Glyph
