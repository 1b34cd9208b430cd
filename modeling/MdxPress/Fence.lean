import MdxPress.Text.Line

/-!
# Fenced code

A fence is a run of at least three backticks or tildes, indented by at most three columns.  It
opens a block of code that a run of the same mark, at least as long and with nothing but blanks
behind it, closes again.

* `FenceOpener.ofLine?` reads an opening line;
* `FenceState` is what is open: nothing, or one fence;
* `FenceState.next` is the state after a line, `FenceState.covers` whether the line is code, its
  delimiters included;
* `fencedLines` runs the state over the lines of a page.
-/

namespace MdxPress

/-- The mark a fence is made of. -/
inductive FenceMark where
  | backtick
  | tilde
  deriving DecidableEq, Repr, Inhabited

namespace FenceMark

/-- The character of a mark. -/
def char : FenceMark → Char
  | .backtick => '\x60'
  | .tilde => '~'

/-- The mark a character is. -/
def ofChar? (c : Char) : Option FenceMark :=
  if c = '\x60' then some .backtick else if c = '~' then some .tilde else none

end FenceMark

/-- A fence that opens a block: its mark, its columns of indentation and the length of its run. -/
structure Fence where
  mark : FenceMark
  indent : Nat
  length : Nat
  deriving DecidableEq, Repr, Inhabited

namespace Fence

/-- The run of marks as written. -/
def run (f : Fence) : Text :=
  List.replicate f.length f.mark.char

end Fence

/-- An opening line: its fence and the info behind it, without blanks at its ends. -/
structure FenceOpener where
  fence : Fence
  info : Text
  deriving DecidableEq, Repr

/-- The language of an opening line: the first word of its info. -/
def FenceOpener.language? (o : FenceOpener) : Option Text :=
  o.info.words.head?

namespace Text

/-- The column reached behind the spaces and tabs a text starts with, counting from `col`, and
what follows them.  A tab goes to the next multiple of four. -/
def indentColumns (col : Nat) : Text → Nat × Text
  | ' ' :: r => indentColumns (col + 1) r
  | '\t' :: r => indentColumns (col + (4 - col % 4)) r
  | t => (col, t)

/-- The run of marks that a text starts with, if it has at least three, and what follows it. -/
def fenceRun? : Text → Option (FenceMark × Nat × Text)
  | [] => none
  | c :: r =>
    (FenceMark.ofChar? c).bind fun m =>
      let n := 1 + (r.takeWhile (· == c)).length
      if 3 ≤ n then some (m, n, r.dropWhile (· == c)) else none

end Text

/-- Reads a line as the opening of a fenced block.  A backtick fence has no backtick in its info,
since the line would hold a code span then. -/
def FenceOpener.ofLine? (line : Text) : Option FenceOpener :=
  let (col, rest) := line.indentColumns 0
  if 3 < col then none
  else
    rest.fenceRun?.bind fun (m, n, behind) =>
      let info := behind.trim
      if m = .backtick && info.contains ['\x60'] then none else some ⟨⟨m, col, n⟩, info⟩

/-- What is open between two lines: nothing, or the block of one fence. -/
abbrev FenceState := Option Fence

namespace FenceState

/-- Whether a line closes the block of `f`. -/
def closedBy (f : Fence) (line : Text) : Bool :=
  let (col, rest) := line.indentColumns 0
  col ≤ 3 &&
    match rest.fenceRun? with
    | some (m, n, behind) => m == f.mark && f.length ≤ n && behind.allBlank
    | none => false

/-- The state after a line. -/
def next (s : FenceState) (line : Text) : FenceState :=
  match s with
  | none => (FenceOpener.ofLine? line).map (·.fence)
  | some f => if closedBy f line then none else some f

/-- Whether a line belongs to a block: as its content or as one of its delimiters. -/
def covers (s : FenceState) (line : Text) : Bool :=
  s.isSome || (s.next line).isSome

end FenceState

/-- A line, whether it is code, and what is open before and after it. -/
structure FencedLine where
  line : Line
  before : FenceState
  after : FenceState
  deriving DecidableEq, Repr

/-- Whether the line is code, delimiters included. -/
def FencedLine.isCode (l : FencedLine) : Bool :=
  l.before.isSome || l.after.isSome

/-- The lines of a page with what is open around each of them, from the state `s` on. -/
def fencedLines (s : FenceState) : List Line → List FencedLine
  | [] => []
  | l :: ls => ⟨l, s, s.next l.content⟩ :: fencedLines (s.next l.content) ls

/-- The state after lines. -/
def FenceState.run (s : FenceState) (ls : List Line) : FenceState :=
  ls.foldl (fun s l => s.next l.content) s

/-- The longest start of the lines that are still inside what is open: a block's content, up to
the line that closes it. -/
def FenceState.content (s : FenceState) : List Line → List Line
  | [] => []
  | l :: ls => if (s.next l.content).isSome then l :: content (s.next l.content) ls else []

end MdxPress
