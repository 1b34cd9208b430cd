import MdxPress.Text.Line

/-!
# Positions

Where something stands in a page: a line and a column, both counted from 1, columns in characters.
A page may be named too.

* `Text.lineAt` is the line of a byte offset;
* `Position.ofIndex` is the position of a character;
* `Position.atByte` is the position of a byte offset.
-/

namespace MdxPress

/-- A line and a column, both counted from 1, in a page that may be named. -/
structure Position where
  file : Option Text
  line : Nat
  column : Nat
  deriving DecidableEq, Repr

namespace Text

/-- The part of the last line of a text that the text holds. -/
def lastLine : Text → Text
  | [] => []
  | c :: r => if r.contains '\n' then lastLine r else if c = '\n' then r else c :: r

/-- The number of the line that the end of a text stands on. -/
def lineCount (t : Text) : Nat :=
  t.count '\n' + 1

/-- The number of the line that a byte offset stands on; of the last one, when it lies behind the text. -/
def lineAt (t : Text) (offset : Nat) : Nat :=
  lineCount (t.take (t.charsBefore offset))

end Text

namespace Position

/-- The position right behind a text. -/
def behind (t : Text) : Position :=
  ⟨none, t.lineCount, t.lastLine.length + 1⟩

/-- The position of the character with `n` characters before it; the end, when there are fewer. -/
def ofIndex (t : Text) (n : Nat) : Position :=
  behind (t.take n)

/-- The position of a byte offset; the end, when it lies behind the text. -/
def atByte (t : Text) (offset : Nat) : Position :=
  ofIndex t (t.charsBefore offset)

/-- A position as it is printed: file, line and column with colons between them. -/
def render (p : Position) : Text :=
  let place := Text.ofNat p.line ++ ':' :: Text.ofNat p.column
  match p.file with
  | some f => f ++ ':' :: place
  | none => place

end Position
end MdxPress
