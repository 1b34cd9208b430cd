import MdxPress.Text.Blank

/-!
# Lines

A line is its content and its ending; a text is its lines put together again.

* `lines` cuts behind every line feed, so only the last line can lack an ending, and the carriage
  return before a line feed belongs to the ending;
* `join_lines` says that nothing is lost.
-/

namespace MdxPress

/-- How a line ends. -/
inductive Ending where
  | none
  | lf
  | crlf
  deriving DecidableEq, Repr, Inhabited

/-- The characters of an ending. -/
def Ending.text : Ending → Text
  | .none => []
  | .lf => ['\n']
  | .crlf => ['\r', '\n']

/-- One line of a text. -/
structure Line where
  content : Text
  ending : Ending
  deriving DecidableEq, Repr, Inhabited

namespace Line

/-- The line as it stands in the text. -/
def text (l : Line) : Text :=
  l.content ++ l.ending.text

/-- Whether a line holds blanks only. -/
def isBlank (l : Line) : Bool :=
  l.content.allBlank

/-- Lines put together. -/
def join (ls : List Line) : Text :=
  ls.flatMap text

/-- A line with one more character at its front. -/
def cons (c : Char) (l : Line) : Line :=
  { l with content := c :: l.content }

end Line

namespace Text

/-- The lines of a text. -/
def lines : Text → List Line
  | [] => []
  | '\n' :: r => ⟨[], .lf⟩ :: lines r
  | '\r' :: '\n' :: r => ⟨[], .crlf⟩ :: lines r
  | c :: r =>
    match lines r with
    | [] => [⟨[c], .none⟩]
    | l :: ls => l.cons c :: ls

/-- The lines of a text put together are the text. -/
@[simp]
theorem join_lines (t : Text) : Line.join (lines t) = t := by
  fun_induction lines t with
  | case1 => rfl
  | case2 r ih => simpa [Line.join, Line.text, Ending.text] using ih
  | case3 r ih => simpa [Line.join, Line.text, Ending.text] using ih
  | case4 c r _ _ h ih =>
    rw [h] at ih
    simp [Line.join] at ih
    simp [Line.join, Line.text, Ending.text, ih]
  | case5 c r _ _ l ls h ih =>
    rw [h] at ih
    simp [Line.join, Line.text, Line.cons] at ih ⊢
    exact ih

end Text
end MdxPress
