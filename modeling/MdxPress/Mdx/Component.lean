import MdxPress.CodeSpan
import MdxPress.Fence
import MdxPress.Text.Letter

/-!
# Components

Component tags, whose names begin with a capital letter, and the state they leave behind from line
to line: what is fenced, which components are open, and which opening tag has not ended yet.

* `Tag.ofLine` lists the tags of a line, code spans aside;
* `tagEnd?` finds where a tag ends;
* `MdxState.advance` classifies a line and goes on to the next.
-/

namespace MdxPress

/-- How a line is treated when braces are escaped. -/
inductive LineClass where
  /-- Fenced code or its delimiter. -/
  | fence
  /-- Part of a component: a line with a tag, or inside an element. -/
  | component
  /-- A statement or a delimiter whose braces mean something. -/
  | exempt
  /-- Plain prose. -/
  | prose
  deriving DecidableEq, Repr, Inhabited

/-- A component that was opened, and where: line and column of its tag, counted from 1. -/
structure OpenComponent where
  name : Text
  line : Nat
  column : Nat
  deriving DecidableEq, Repr

/-- The start of a tag on a line: the characters before it, and its name. -/
structure Tag where
  offset : Nat
  closing : Bool
  name : Text
  deriving DecidableEq, Repr

namespace Tag

/-- A character of a component's name. -/
def isNameChar (c : Char) : Bool :=
  Text.isAsciiAlnum c || c = '_' || c = '.'

/-- A capital ASCII letter. -/
def isCapital (c : Char) : Bool :=
  'A' ≤ c && c ≤ 'Z'

/-- Reads the name of a component. -/
def name? : Text → Option Text
  | c :: r => if isCapital c then some (c :: r.takeWhile isNameChar) else none
  | [] => none

/-- Reads the tag that a text starts with: whether it closes, and its name. -/
def ofStart? : Text → Option (Bool × Text)
  | '<' :: '/' :: r => (name? r).map fun n => (true, n)
  | '<' :: r => (name? r).map fun n => (false, n)
  | _ => none

/-- The number of characters from the `<` to the end of the name. -/
def width (t : Tag) : Nat :=
  (if t.closing then 2 else 1) + t.name.length

/-- The tags of the rest of a line, the next character of which has `offset` characters before it;
the mask tells which characters are code. -/
def scan (offset : Nat) : List (Char × Bool) → List Tag
  | [] => []
  | (c, isCode) :: r =>
    match if isCode || c != '<' then none else ofStart? (c :: r.map (·.1)) with
    | some (closing, name) => ⟨offset, closing, name⟩ :: scan (offset + 1) r
    | none => scan (offset + 1) r

/-- The tags of a line, code spans aside. -/
def ofLine (line : Text) : List Tag :=
  scan 0 line.codeMask

end Tag

/-- Where the search for the end of a tag stands: the quotation mark it is inside of, the braces
that are open, and the last character that is no blank. -/
structure TagEndState where
  quote : Option Char
  depth : Nat
  last : Option Char
  deriving DecidableEq, Repr

namespace TagEndState

/-- Nothing seen yet. -/
def start : TagEndState := ⟨none, 0, none⟩

/-- Whether a character ends the tag. -/
def isEnd (s : TagEndState) (c : Char) : Bool :=
  c = '>' && s.quote.isNone && s.depth == 0

/-- The state behind a character that does not end the tag. -/
def next (s : TagEndState) (c : Char) : TagEndState :=
  let last := if isBlank c then s.last else some c
  match s.quote with
  | some q => ⟨if c = q then none else some q, s.depth, last⟩
  | none =>
    if (c = '"' || c = '\'') && s.depth == 0 then ⟨some c, s.depth, last⟩
    else if c = '{' then ⟨none, s.depth + 1, last⟩
    else if c = '}' then ⟨none, s.depth - 1, last⟩
    else ⟨none, s.depth, last⟩

/-- The characters up to the end of the tag, with its `>`, and whether a slash stands before it. -/
def find? : TagEndState → Text → Option (Nat × Bool)
  | _, [] => none
  | s, c :: r =>
    if s.isEnd c then some (1, s.last == some '/')
    else (find? (s.next c) r).map fun (n, selfClosing) => (n + 1, selfClosing)

end TagEndState

/-- Finds the `>` that ends a tag, quoted values and expressions in braces aside: the characters up
to it, itself included, and whether the tag closes itself. -/
def tagEnd? (t : Text) : Option (Nat × Bool) :=
  TagEndState.start.find? t

/-- What a line leaves behind for the next. -/
structure MdxState where
  fence : FenceState
  /-- The components that are open, innermost last. -/
  stack : List OpenComponent
  /-- The opening tag whose `>` was not met yet. -/
  pending : Option OpenComponent
  /-- The fenced blocks opened so far. -/
  fences : Nat
  deriving DecidableEq, Repr

namespace MdxState

/-- The state before the first line. -/
def start : MdxState := ⟨none, [], none, 0⟩

/-- The state behind a tag, and the characters of its line that it covers.  A closer takes the
innermost component away if that has its name. -/
def tag (s : MdxState) (line : Text) (lineNo : Nat) (t : Tag) : MdxState × Nat :=
  let behind := t.offset + t.width
  if t.closing then
    if s.stack.getLast?.any fun top => top.name == t.name then
      ({ s with stack := s.stack.dropLast }, behind)
    else (s, behind)
  else
    let opened : OpenComponent := ⟨t.name, lineNo, t.offset + 1⟩
    match tagEnd? (line.drop behind) with
    | some (n, selfClosing) =>
      (if selfClosing then s else { s with stack := s.stack ++ [opened] }, behind + n)
    | none => ({ s with pending := some opened }, line.length)

/-- The state behind the tags of a line, those before `resume` aside, and whether there were any. -/
def tags (s : MdxState) (line : Text) (lineNo resume : Nat) : List Tag → MdxState × Bool
  | [] => (s, false)
  | t :: ts =>
    if t.offset < resume then tags s line lineNo resume ts
    else
      let (s', resume') := s.tag line lineNo t
      if s'.pending.isSome then (s', true) else ((tags s' line lineNo resume' ts).1, true)

/-- Whether a line is a statement, or delimits an admonition or a tab. -/
def isExempt (line : Text) : Bool :=
  let t := line.trimStart
  ["import ", "export ", ":::", "@tab "].any fun s => t.startsWith s.toList

/-- The class of a line that is no code, for the state behind it and whether it held a tag. -/
def classOf (s : MdxState) (touched : Bool) (line : Text) : LineClass :=
  if touched || !s.stack.isEmpty || s.pending.isSome then .component
  else if isExempt line then .exempt
  else .prose

/-- Classifies a line that is no code, and the state behind it. -/
def advanceProse (s : MdxState) (line : Text) (lineNo : Nat) : LineClass × MdxState :=
  match s.pending with
  | none =>
    let (s', touched) := s.tags line lineNo 0 (Tag.ofLine line)
    (s'.classOf touched line, s')
  | some p =>
    match tagEnd? line with
    | none => (.component, s)
    | some (n, selfClosing) =>
      let s := { s with
        pending := none
        stack := if selfClosing then s.stack else s.stack ++ [p] }
      (.component, (s.tags line lineNo n (Tag.ofLine line)).1)

/-- Classifies a line, which has the number `lineNo`, and the state behind it. -/
def advance (s : MdxState) (line : Text) (lineNo : Nat) : LineClass × MdxState :=
  let after := s.fence.next line
  if s.fence.covers line then
    (.fence, { s with fence := after, fences := s.fences + if s.fence.isNone then 1 else 0 })
  else { s with fence := after }.advanceProse line lineNo

/-- The components that were never closed, outermost first. -/
def unclosed (s : MdxState) : List OpenComponent :=
  s.stack ++ s.pending.toList

end MdxState

/-- Lines with their classes, from a state and a line number on, and the state behind them. -/
def classifyLines (s : MdxState) (lineNo : Nat) : List Line → List (Line × LineClass) × MdxState
  | [] => ([], s)
  | l :: ls =>
    let (c, s') := s.advance l.content lineNo
    let (rest, s'') := classifyLines s' (lineNo + 1) ls
    ((l, c) :: rest, s'')

/-- The lines of a body with their classes, and the state at its end. -/
def Text.classified (t : Text) : List (Line × LineClass) × MdxState :=
  classifyLines MdxState.start 1 t.lines

end MdxPress
