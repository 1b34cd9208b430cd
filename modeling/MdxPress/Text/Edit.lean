import MdxPress.Text.Basic

/-!
# Edits

An edit replaces the characters from one position to another.  Passes that look at a whole page
collect their edits first; `splice` then carries them out, in order, and copies all the rest.
-/

namespace MdxPress.Text

/-- One replacement: the characters from `start` to `stop` become `new`. -/
structure Edit where
  start : Nat
  stop : Nat
  new : Text
  deriving DecidableEq, Repr

/-- Carries out edits on the part of a text that begins at `pos`. -/
def spliceFrom (pos : Nat) (t : Text) : List Edit → Text
  | [] => t
  | e :: es => t.take (e.start - pos) ++ e.new ++ spliceFrom e.stop (t.drop (e.stop - pos)) es

/-- Carries out edits that are in order and do not overlap. -/
def splice (t : Text) (es : List Edit) : Text :=
  spliceFrom 0 t es

end MdxPress.Text
