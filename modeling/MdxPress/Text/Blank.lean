import MdxPress.Text.Basic

/-!
# Blanks

The characters with the property White_Space, and what is defined by them: trimming, the words of
a text, and a text with every run of blanks made one space.
-/

namespace MdxPress

/-- Whether a character has the property White_Space: the line and page breaks, the space, and the
space characters of the typographers. -/
def isBlank (c : Char) : Bool :=
  let n := c.toNat
  (9 ≤ n && n ≤ 13) || n == 0x20 || n == 0x85 || n == 0xA0 || n == 0x1680 ||
    (0x2000 ≤ n && n ≤ 0x200A) || n == 0x2028 || n == 0x2029 || n == 0x202F || n == 0x205F ||
    n == 0x3000

namespace Text

/-- Whether a text holds blanks only. -/
def allBlank (t : Text) : Bool :=
  t.all isBlank

/-- A text without its leading blanks. -/
def trimStart (t : Text) : Text :=
  t.dropWhile isBlank

/-- A text without the characters satisfying `p` at its end. -/
def dropEndWhile (p : Char → Bool) : Text → Text
  | [] => []
  | c :: r =>
    match dropEndWhile p r with
    | [] => if p c then [] else [c]
    | d :: s => c :: d :: s

/-- A text without its trailing blanks. -/
def trimEnd (t : Text) : Text :=
  dropEndWhile isBlank t

/-- A text without blanks at either end. -/
def trim (t : Text) : Text :=
  trimStart (trimEnd t)

/-- The leading blanks of a text. -/
def indentation (t : Text) : Text :=
  t.takeWhile isBlank

/-- The words of a text: its longest stretches without blanks. -/
def words (t : Text) : List Text :=
  (splitOn isBlank t).filter fun w => !w.isEmpty

/-- The words of a text with one space between neighbours. -/
def squash (t : Text) : Text :=
  joinWith [' '] (words t)

/-- A text without line-break characters at its start. -/
def dropBreaks (t : Text) : Text :=
  t.dropWhile fun c => c = '\n' || c = '\r'

/-- The line-break characters a text starts with. -/
def leadingBreaks (t : Text) : Text :=
  t.takeWhile fun c => c = '\n' || c = '\r'

/-- A text without line-break characters at its end. -/
def dropBreaksEnd (t : Text) : Text :=
  dropEndWhile (fun c => c = '\n' || c = '\r') t

end Text
end MdxPress
