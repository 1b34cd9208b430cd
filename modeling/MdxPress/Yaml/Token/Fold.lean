import MdxPress.Yaml.Token

/-!
# Folding

What stands between two stretches of a scalar that runs over several lines.  Spaces on one line are
kept; a single line break becomes a space, and of several the first is dropped.
-/

namespace MdxPress.Yaml

/-- What was passed over since the last character of a scalar's content. -/
structure Fold where
  /-- Spaces and tabs before any line break. -/
  spaces : Text
  /-- The first line break. -/
  first : Text
  /-- The line breaks after it. -/
  later : Text
  /-- Whether a line ended. -/
  broken : Bool
  deriving DecidableEq, Repr

namespace Fold

/-- Nothing passed over. -/
def empty : Fold := ⟨[], [], [], false⟩

/-- Behind a line break that counts for nothing. -/
def escaped : Fold := ⟨[], [], [], true⟩

/-- A space or tab more; the indentation of a line counts for nothing. -/
def space (f : Fold) (c : Char) : Fold :=
  if f.broken then f else { f with spaces := f.spaces ++ [c] }

/-- A line break more. -/
def lineBreak (f : Fold) (b : Text) : Fold :=
  if f.broken then { f with later := f.later ++ b } else ⟨[], b, [], true⟩

/-- The first line break and the later ones, as content. -/
def breaks (first later : Text) : Text :=
  if first = ['\n'] then (if later.isEmpty then [' '] else later) else first ++ later

/-- What was passed over, as content. -/
def text (f : Fold) : Text :=
  if f.broken then breaks f.first f.later else f.spaces

/-- Whether nothing was passed over. -/
def isEmpty (f : Fold) : Bool :=
  !f.broken && f.spaces.isEmpty

end Fold
end MdxPress.Yaml
