import MdxPress.Yaml.Scalar
import MdxPress.Yaml.Token

/-!
# Styles of strings

How a string is written: plain, between single or double quotation marks, or as a block of lines.
A string keeps to the plainest style that reads back as it; a string with line feeds prefers the
block.

* `Shape` says what stands in the way of the styles;
* `Style.ofText` chooses.
-/

namespace MdxPress.Yaml

/-- A character that needs no escape. -/
def isPrintable (c : Char) : Bool :=
  let n := c.toNat
  n == 0x0A || (0x20 ≤ n && n ≤ 0x7E) || (0xA0 ≤ n && n ≤ 0xD7FF) ||
    (0xE000 ≤ n && n ≤ 0xFFFD && n != 0xFEFF) || 0x10000 ≤ n

/-- Whether a text is at its end, or starts with what separates words: a gap. -/
def startsGap (t : Text) : Bool :=
  atGap t || t.head? = some (Char.ofNat 0)

/-- Whether the first character of a string would be taken for an indicator. -/
def leadsIndicator : Text → Bool
  | [] => false
  | c :: r =>
    "#,[]\x7b\x7d&*!|>'\"%@\x60".toList.contains c ||
      ((c = '?' || c = ':' || c = '-') && startsGap r)

/-- Whether a later character of a string would be taken for an indicator; the first argument tells
whether a gap stands before the text. -/
def hasIndicator : Bool → Text → Bool
  | _, [] => false
  | afterGap, c :: r =>
    (c = ':' && startsGap r) || (c = '#' && afterGap) || hasIndicator (startsGap [c]) r

/-- Whether a character of one kind stands right before one of another. -/
def hasNeighbours (p q : Char → Bool) : Text → Bool
  | c :: d :: r => (p c && q d) || hasNeighbours p q (d :: r)
  | _ => false

/-- A space, the only one that counts for the styles. -/
def isPlainSpace (c : Char) : Bool :=
  c = ' '

/-- What stands in the way of styles. -/
structure Shape where
  /-- Characters that need an escape, or spaces right before a line break. -/
  needsEscapes : Bool
  /-- Spaces right behind a line break. -/
  hasIndentation : Bool
  isMultiline : Bool
  endsWithSpace : Bool
  /-- A space or a line break at either end. -/
  hasLooseEnd : Bool
  looksIndicated : Bool
  isEmpty : Bool
  deriving DecidableEq, Repr

/-- The shape of a string. -/
def Shape.ofText (t : Text) : Shape where
  needsEscapes := !t.all isPrintable || hasNeighbours isPlainSpace isBreak t
  hasIndentation := hasNeighbours isBreak isPlainSpace t
  isMultiline := t.any isBreak
  endsWithSpace := t.getLast?.any isPlainSpace
  hasLooseEnd :=
    t.head?.any (fun c => isPlainSpace c || isBreak c) ||
      t.getLast?.any (fun c => isPlainSpace c || isBreak c)
  looksIndicated :=
    t.startsWith "---".toList || t.startsWith "...".toList || leadsIndicator t ||
      hasIndicator (t.head?.any fun c => startsGap [c]) t.tail
  isEmpty := t.isEmpty

namespace Shape

/-- Whether a string may be written without quotes. -/
def allowsPlain (s : Shape) : Bool :=
  !s.hasLooseEnd && !s.hasIndentation && !s.needsEscapes && !s.isMultiline && !s.looksIndicated

/-- Whether a string may be written between single quotes. -/
def allowsSingle (s : Shape) : Bool :=
  !s.hasIndentation && !s.needsEscapes

/-- Whether a string may be written as a block. -/
def allowsBlock (s : Shape) : Bool :=
  !s.isEmpty && !s.endsWithSpace && !s.needsEscapes

end Shape

/-- The styles of strings. -/
inductive Style where
  | plain
  | single
  | double
  | block
  deriving DecidableEq, Repr

/-- The style of a string.  A key on the line of its value has no line breaks in it unless they are
escaped. -/
def Style.ofText (isKey : Bool) (t : Text) : Style :=
  let s := Shape.ofText t
  let quoted := if s.allowsSingle then single else double
  if t.any (· = '\n') then (if s.allowsBlock && !isKey then block else double)
  else if isKey && s.isMultiline then double
  else if Plain.isText t && s.allowsPlain then plain
  else quoted

end MdxPress.Yaml
