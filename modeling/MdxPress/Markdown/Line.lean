import MdxPress.Fence

/-!
# Lines of a Markdown page

A line here ends with a line feed, a carriage return, or both.  What its containers leave of it
begins at a column, and a tab goes to the next multiple of four columns.

* `lines` cuts a page;
* `LineRest.drop` takes columns of blanks away, splitting a tab where it has to.
-/

namespace MdxPress.Markdown

/-- Whether a character is a blank of a line: a space or a tab. -/
def isGap (c : Char) : Bool :=
  c = ' ' || c = '\t'

/-- Whether a character ends a line. -/
def isEnd (c : Char) : Bool :=
  c = '\n' || c = '\r'

/-- One line of a page and the characters that end it. -/
structure PageLine where
  content : Text
  ending : Text
  deriving DecidableEq, Repr

/-- The lines of a page. -/
def lines : Text → List PageLine
  | [] => []
  | '\n' :: r => ⟨[], ['\n']⟩ :: lines r
  | '\r' :: '\n' :: r => ⟨[], ['\r', '\n']⟩ :: lines r
  | '\r' :: r => ⟨[], ['\r']⟩ :: lines r
  | c :: r =>
    match lines r with
    | [] => [⟨[c], []⟩]
    | l :: ls => ⟨c :: l.content, l.ending⟩ :: ls

/-- What is left of a line, and the column where that begins. -/
structure LineRest where
  column : Nat
  text : Text
  deriving DecidableEq, Repr

namespace LineRest

/-- What follows the blanks at the start. -/
def body (l : LineRest) : LineRest :=
  let (column, text) := l.text.indentColumns l.column
  ⟨column, text⟩

/-- The columns of the blanks at the start. -/
def indent (l : LineRest) : Nat :=
  l.body.column - l.column

/-- Whether only blanks are left. -/
def isBlank (l : LineRest) : Bool :=
  l.body.text.isEmpty

/-- The rest behind `n` columns of blanks, or behind all of them, if there are fewer.  Of a tab that
reaches farther, spaces are left. -/
def drop : Nat → LineRest → LineRest
  | 0, l => l
  | n + 1, ⟨column, ' ' :: r⟩ => drop n ⟨column + 1, r⟩
  | n + 1, ⟨column, '\t' :: r⟩ =>
    drop n ⟨column + 1, List.replicate (3 - column % 4) ' ' ++ r⟩
  | _ + 1, l => l

end LineRest

/-- Cuts a line ending off the start of a text. -/
def cutEnd? : Text → Option (Text × Text)
  | '\r' :: '\n' :: r => some (['\r', '\n'], r)
  | '\n' :: r => some (['\n'], r)
  | '\r' :: r => some (['\r'], r)
  | _ => none

/-- A text behind its blanks, among which there may be one line ending. -/
def skipGap (t : Text) : Text :=
  let u := t.dropWhile isGap
  match cutEnd? u with
  | some (_, r) => r.dropWhile isGap
  | none => u

end MdxPress.Markdown
