import MdxPress.Text.Blank
import MdxPress.Text.Punctuation

/-!
# Emphasis

Runs of stars, underscores and tildes emphasise what they enclose.  Whether a run may open or close
an emphasis depends on its neighbours; which run closes which is settled from left to right, each
closing run looking back for the nearest run it can close.

* `MarkRun.between` is a run between its neighbours;
* `Piece.plain` is a text without the marks that emphasise something.
-/

namespace MdxPress.Markdown

/-- A run of marks. -/
structure MarkRun where
  mark : Char
  size : Nat
  opens : Bool
  closes : Bool
  deriving DecidableEq, Repr

/-- What a character is to a run beside it.  The end of the text counts as a blank. -/
inductive Neighbour where
  | blank
  | punctuation
  | other
  deriving DecidableEq, Repr

/-- What a character, or the end of the text, is to a run beside it. -/
def Neighbour.of : Option Char → Neighbour
  | none => blank
  | some c => if isBlank c then blank else if Text.isPunctuation c then punctuation else other

namespace MarkRun

/-- Whether a character is one of the marks. -/
def isMark (c : Char) : Bool :=
  c = '*' || c = '_' || c = '~'

/-- The run as written. -/
def text (r : MarkRun) : Text :=
  List.replicate r.size r.mark

/-- A run between its neighbours.  It may open what it clings to behind it, and close what it clings
to before it; an underscore does neither inside a word. -/
def between (mark : Char) (size : Nat) (before after : Option Char) : MarkRun :=
  let b := Neighbour.of before
  let a := Neighbour.of after
  let opens := a = .other || (a = .punctuation && b != .other)
  let closes := b = .other || (b = .punctuation && a != .other)
  if mark = '_' then ⟨mark, size, opens && (b != .other || !closes), closes && (a != .other || !opens)⟩
  else ⟨mark, size, opens, closes⟩

/-- Whether the run `o` opens what the later run `c` closes.  Runs that could do both do not match,
if their sizes add up to a multiple of three and are none themselves; tildes match in runs of one
size, up to two. -/
def opensFor (o c : MarkRun) : Bool :=
  o.opens && o.mark == c.mark &&
    !((o.closes || c.opens) && c.size % 3 != 0 && (o.size + c.size) % 3 == 0) &&
    (c.mark != '~' || (c.size == o.size && c.size ≤ 2))

end MarkRun

/-- A piece of a text: one that is settled, or a run of marks. -/
inductive Piece where
  | text (t : Text)
  | run (r : MarkRun)
  deriving DecidableEq, Repr

namespace Piece

/-- A piece as written. -/
def written : Piece → Text
  | text t => t
  | run r => r.text

/-- Matches a closing run with the nearest of the pieces before it, nearest first, that opens for
it: the pieces and the run without the marks that are used up.  Runs between the two are text. -/
def closeBy (c : MarkRun) : List Piece → Option (List Piece × MarkRun)
  | [] => none
  | text t :: ps => (closeBy c ps).map fun q => (text t :: q.1, q.2)
  | run o :: ps =>
    if o.opensFor c then
      let n := if 1 < o.size && 1 < c.size then 2 else 1
      let before := if o.size = n then ps else run { o with size := o.size - n } :: ps
      some (before, { c with size := c.size - n })
    else (closeBy c ps).map fun q => (text o.text :: q.1, q.2)

/-- Adds a run to the pieces before it, nearest first, after it has closed what it can. -/
def addRun : Nat → List Piece → MarkRun → List Piece
  | 0, ps, _ => ps
  | fuel + 1, ps, c =>
    if c.size = 0 then ps
    else
      match if c.closes then closeBy c ps else none with
      | some (ps', c') => addRun fuel ps' c'
      | none => run c :: ps

/-- Adds a piece to the pieces before it, nearest first. -/
def add (ps : List Piece) : Piece → List Piece
  | text t => text t :: ps
  | run r => addRun (r.size + 1) ps r

/-- The text of pieces without the marks that emphasise something. -/
def plain (ps : List Piece) : Text :=
  (ps.foldl add []).reverse.flatMap written

end Piece
end MdxPress.Markdown
