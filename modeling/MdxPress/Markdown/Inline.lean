import MdxPress.Entity
import MdxPress.Markdown.Autolink
import MdxPress.Markdown.Emphasis
import MdxPress.Markdown.Label
import MdxPress.Markdown.Line
import MdxPress.Markdown.Tag
import MdxPress.Text.Punctuation

/-!
# The text of a heading

What a reader sees of a text: code and links as what they say, emphasis without its marks, and
nothing of images, footnote marks, HTML and line breaks that are meant.

A bracket is open until its partner turns it into a link, an image or a footnote mark, or shows that
it is none of them; the pieces since then are settled by the partner.

* `characterReference?` reads a character reference, which stands for text that has no other meaning;
* `CodeText.read?` reads code: a run of backticks opens it, and the next run of the same length closes
  it;
* `Inline.step` reads one construct at the start of a text;
* `Inline.plain` reads a whole text.
-/

namespace MdxPress.Markdown

/-! ## Character references -/

/-- Whether a code point may be referred to by its number: no surrogate, no noncharacter, and no
control character but the tab and the breaks. -/
def isReferable (n : Nat) : Bool :=
  n.isValidChar && n != 0x0B && (0x20 ≤ n || (9 ≤ n && n ≤ 0x0D)) && !(0x7F ≤ n && n ≤ 0x9F) &&
    !(0xFDD0 ≤ n && n ≤ 0xFDEF) && n % 0x10000 < 0xFFFE

/-- The character that a number refers to; the replacement character, if it may not be. -/
def referred (n : Nat) : Text :=
  [Char.ofNat (if isReferable n then n else 0xFFFD)]

/-- The text of the number behind `&#`, of at most `width` digits. -/
def numbered? (base width : Nat) (digits : Text) : Option Text :=
  if digits.length ≤ width then (Text.nat? base digits).map referred else none

/-- The text that the inside of a character reference stands for. -/
def reference? : Text → Option Text
  | '#' :: 'x' :: r => numbered? 16 6 r
  | '#' :: 'X' :: r => numbered? 16 6 r
  | '#' :: r => numbered? 10 7 r
  | name => Entity.named? name

/-- Reads a character reference: its text and its length. -/
def characterReference? : Text → Option (Text × Nat)
  | '&' :: r =>
    let inside := r.takeWhile fun c => Text.isAsciiAlnum c || c = '#'
    match r.drop inside.length with
    | ';' :: _ => (reference? inside).map fun t => (t, inside.length + 2)
    | _ => none
  | _ => none

/-! ## Code -/

namespace CodeText

/-- What stands before the next run of exactly `n` backticks, when `run` of them stand before. -/
def upTo? (n : Nat) : Nat → Text → Option Text
  | run, [] => if run = n then some [] else none
  | run, c :: r =>
    if c = '\x60' then upTo? n (run + 1) r
    else if run = n then some []
    else (upTo? n 0 r).map fun t => List.replicate run '\x60' ++ c :: t

/-- Code without the space at either end that keeps it apart from the backticks. -/
def unpadded (t : Text) : Text :=
  if t.head? = some ' ' && t.getLast? = some ' ' && t.any (· != ' ') then (t.drop 1).dropLast else t

/-- The number of backticks that a text begins with. -/
def runLength (t : Text) : Nat :=
  (t.takeWhile (· = '\x60')).length

/-- Reads code, whose opening run has `n` backticks, from its start on: what it says, and its
length. -/
def read? (n : Nat) (t : Text) : Option (Text × Nat) :=
  (upTo? n 0 (t.drop n)).map fun code => (unpadded code, 2 * n + code.length)

end CodeText

/-- What a page defines: the keys of its labels and of its footnotes. -/
structure Defined where
  labels : List Text
  notes : List Text
  deriving DecidableEq, Repr

/-- What an open bracket may become. -/
inductive BracketKind where
  | link
  | image
  | note
  deriving DecidableEq, Repr

namespace BracketKind

/-- The bracket as written. -/
def mark : BracketKind → Text
  | link => ['[']
  | image => ['!', '[']
  | note => ['[', '^']

/-- The first characters of the link that a bracket becomes if nothing better. -/
def lead : BracketKind → Text
  | note => ['^']
  | _ => []

end BracketKind

/-- An open bracket. -/
structure Bracket where
  kind : BracketKind
  /-- Whether a link has ended inside it: a link holds no other. -/
  isSpent : Bool
  /-- The text behind it. -/
  behind : Text
  /-- The pieces before it, nearest first. -/
  before : List Piece
  deriving Repr

/-- A text that is being read: the pieces since the last open bracket, nearest first, and the open
brackets, innermost first. -/
structure Inline where
  pieces : List Piece
  brackets : List Bracket
  deriving Repr

namespace Inline

/-- Nothing read. -/
def empty : Inline := ⟨[], []⟩

/-- Adds settled text. -/
def addText (d : Inline) (t : Text) : Inline :=
  { d with pieces := .text t :: d.pieces }

/-- Adds a run of marks. -/
def addRun (d : Inline) (r : MarkRun) : Inline :=
  { d with pieces := .run r :: d.pieces }

/-- Adds an open bracket, behind which `t` stands. -/
def openBracket (d : Inline) (kind : BracketKind) (t : Text) : Inline :=
  ⟨[], ⟨kind, false, t, d.pieces⟩ :: d.brackets⟩

/-- Settles the bracket `b`, the innermost one before `bs`, as text. -/
def giveUp (d : Inline) (b : Bracket) (bs : List Bracket) : Inline :=
  ⟨d.pieces ++ .text b.kind.mark :: b.before, bs⟩

/-- Settles the bracket `b`, the innermost one before `bs`, with what it says.  No bracket around a
link becomes a link, but it may become an image. -/
def settle (d : Inline) (b : Bracket) (bs : List Bracket) : Inline :=
  let spend := fun o : Bracket => if o.kind = .image then o else { o with isSpent := true }
  match b.kind with
  | .image => ⟨b.before, bs⟩
  | _ =>
    let said := Piece.plain (.text b.kind.lead :: d.pieces.reverse)
    ⟨.text said :: b.before, bs.map spend⟩

/-- Settles the bracket `b`, the innermost one before `bs`, as the mark of a footnote. -/
def settleNote (b : Bracket) (bs : List Bracket) : Inline :=
  ⟨b.before, bs.map fun o => if o.kind = .image then o else { o with isSpent := true }⟩

/-- The length of what names the target of a link behind its closing bracket: a target in
parentheses, a label, or nothing if the link's own text is a label. -/
def targetLength? (labels : List Text) (own : Text) (t : Text) : Option Nat :=
  let short := labels.contains own
  match t with
  | '(' :: r =>
    match Target.after? r with
    | some rest => some (t.length - rest.length)
    | none => if short then some 0 else none
  | '[' :: r =>
    match Label.read? t with
    | some (label, rest) => if labels.contains (Label.key label) then some (t.length - rest.length) else none
    | none => if short && r.head? = some ']' then some 2 else none
  | _ => if short then some 0 else none

/-- Reads the closing bracket before `r`: what is read then, and the length of the construct. -/
def closeBracket (defined : Defined) (d : Inline) (r : Text) : Inline × Nat :=
  match d.brackets with
  | [] => (d.addText [']'], 1)
  | b :: bs =>
    let inside := b.behind.take (b.behind.length - (r.length + 1))
    if b.isSpent then ((d.giveUp b bs).addText [']'], 1)
    else if b.kind = .note && defined.notes.contains (Label.key inside) then (settleNote b bs, 1)
    else
      match targetLength? defined.labels (b.kind.lead ++ Label.key inside) r with
      | some n => (d.settle b bs, n + 1)
      | none => ((d.giveUp b bs).addText [']'], 1)

/-- The blanks at the start of a text, and what follows them. -/
def cutGap (t : Text) : Text × Text :=
  (t.takeWhile isGap, t.dropWhile isGap)

/-- Reads blanks and a line ending behind them.  Two spaces or more, and no tab, mean the break. -/
def readBreak? (d : Inline) (t : Text) : Option (Inline × Nat) :=
  let (gap, rest) := cutGap t
  (cutEnd? rest).map fun (ending, behind) =>
    let isMeant := 2 ≤ gap.length && gap.all (· = ' ')
    let n := t.length - (behind.dropWhile isGap).length
    (if isMeant then d else d.addText ending, n)

/-- Reads blanks. -/
def readGap (d : Inline) (t : Text) : Inline × Nat :=
  match readBreak? d t with
  | some p => p
  | none =>
    let (gap, rest) := cutGap t
    (if rest.isEmpty then d else d.addText gap, gap.length)

/-- Reads the backslash before `r`. -/
def readBackslash (d : Inline) (r : Text) : Inline × Nat :=
  match cutEnd? r with
  | some (_, behind) => (d, 1 + (r.length - (behind.dropWhile isGap).length))
  | none =>
    match r with
    | c :: _ => if Text.isAsciiPunctuation c then (d.addText [c], 2) else (d.addText ['\\'], 1)
    | [] => (d.addText ['\\'], 1)

/-- Reads backticks. -/
def readCode (d : Inline) (t : Text) : Inline × Nat :=
  let n := CodeText.runLength t
  match CodeText.read? n t with
  | some (code, length) => (d.addText code, length)
  | none => (d.addText (t.take n), n)

/-- Reads the angle bracket before `r`. -/
def readAngle (d : Inline) (r : Text) : Inline × Nat :=
  match Autolink.angled? ('<' :: r) with
  | some address => (d.addText address, address.length + 2)
  | none =>
    match Html.after? r with
    | some rest => (d, 1 + (r.length - rest.length))
    | none => (d.addText ['<'], 1)

/-- Reads one construct at the start of a text that is not empty, behind the character `before`: what
is read then, and the length of the construct. -/
def step (defined : Defined) (before : Option Char) (d : Inline) : Text → Inline × Nat
  | [] => (d, 1)
  | '!' :: '[' :: r =>
    if r.head? = some '^' then (d.addText ['!'], 1) else (d.openBracket .image r, 2)
  | '[' :: '^' :: r => (d.openBracket .note r, 2)
  | c :: r =>
    if isGap c || isEnd c then readGap d (c :: r)
    else if c = '[' then (d.openBracket .link r, 1)
    else if c = ']' then closeBracket defined d r
    else if c = '\\' then readBackslash d r
    else if c = '\x60' then readCode d (c :: r)
    else if c = '<' then readAngle d r
    else if c = '&' then
      match characterReference? (c :: r) with
      | some (t, n) => (d.addText t, n)
      | none => (d.addText [c], 1)
    else if MarkRun.isMark c then
      let n := 1 + (r.takeWhile (· = c)).length
      (d.addRun (.between c n before (r.dropWhile (· = c)).head?), n)
    else
      match Autolink.bareLength? before (c :: r) with
      | some n => (d.addText ((c :: r).take n), n)
      | none => (d.addText [c], 1)

/-- Reads a text behind the character `before`, of which the next `skip` characters are read. -/
def readFrom (defined : Defined) : Option Char → Nat → Inline → Text → Inline
  | _, _, d, [] => d
  | _, skip + 1, d, c :: r => readFrom defined (some c) skip d r
  | before, 0, d, c :: r =>
    let (d', n) := step defined before d (c :: r)
    readFrom defined (some c) (n - 1) d' r

/-- The pieces of a text that is read, nearest first, when no bracket has a partner. -/
def unbracketed (pieces : List Piece) : List Bracket → List Piece
  | [] => pieces
  | b :: bs => unbracketed (pieces ++ .text b.kind.mark :: b.before) bs

/-- What a reader sees of a text. -/
def plain (defined : Defined) (t : Text) : Text :=
  let d := readFrom defined none 0 empty (t.dropWhile isGap)
  Piece.plain (unbracketed d.pieces d.brackets).reverse

end Inline
end MdxPress.Markdown
