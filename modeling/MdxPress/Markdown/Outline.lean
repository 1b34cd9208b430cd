import MdxPress.Markdown.Container
import MdxPress.Markdown.HtmlBlock
import MdxPress.Markdown.Inline
import MdxPress.Markdown.Table

/-!
# Outline of a page

The headings of a page, in order, and what it defines.  Lines are read one after another: the
containers that are open take what is theirs, and what is left continues the block that is open
inside them, or begins another.

A line that leaves containers may still continue the paragraph inside them; it is lazy then.

* `LineForm.of` is what a line is, by what is open;
* `Draft.read` reads a line;
* `Outline.of` reads a page;
* `firstHeading?` is what a reader sees of the first heading of level one.
-/

namespace MdxPress.Markdown

/-- What a page adds to its outline. -/
inductive OutlineEntry where
  /-- A heading: its level, and its text as written. -/
  | heading (level : Nat) (text : Text)
  /-- The definition of a label. -/
  | label (key : Text)
  /-- A footnote. -/
  | note (key : Text)
  deriving DecidableEq, Repr

/-- The block that is open in the innermost container. -/
inductive OpenBlock where
  | none
  /-- A paragraph: its lines, latest first, and the cells of the last one as the first row of a
  table. -/
  | paragraph (lines : List Text) (cells : Option Nat)
  | fence (f : Fence)
  | html (kind : HtmlBlock)
  | table
  deriving DecidableEq, Repr

namespace OpenBlock

/-- Whether a block is a paragraph. -/
def isParagraph : OpenBlock → Bool
  | paragraph .. => true
  | _ => false

/-- Whether a block takes every line that stays inside the containers, up to its ending. -/
def isVerbatim : OpenBlock → Bool
  | fence _ => true
  | html _ => true
  | _ => false

end OpenBlock

/-- What a line is. -/
inductive LineForm where
  | blank
  | code
  /-- The opening of a block of code. -/
  | fence (f : Fence)
  /-- The first line of a block of HTML, which may be the last one too. -/
  | html (kind : HtmlBlock) (ended : Bool)
  | heading (level : Nat) (text : Text)
  /-- The line under a heading. -/
  | underline (level : Nat)
  | rule
  /-- The row of dashes under the first row of a table. -/
  | tableRule
  | tableRow
  | prose
  deriving DecidableEq, Repr

namespace LineForm

/-- The fence that a line opens, whose indentation is given. -/
def fence? (indent : Nat) (t : Text) : Option Fence :=
  t.fenceRun?.bind fun (m, n, info) =>
    if m = .backtick && Text.contains info ['\x60'] then none else some ⟨m, indent, n⟩

/-- Cuts hashes that close a heading off its end; there are at most `fuel` groups of them. -/
def cutClosing : Nat → Text → Text
  | 0, t => t
  | fuel + 1, t =>
    let u := Text.dropEndWhile isGap t
    let v := Text.dropEndWhile (· = '#') u
    if v.length < u.length && v.getLast?.any isGap then cutClosing fuel v else u

/-- The level and the text of a heading that hashes open.  Groups of hashes belong to its text only
between words. -/
def heading? (t : Text) : Option (Nat × Text) :=
  let level := (t.takeWhile (· = '#')).length
  let rest := t.drop level
  if level = 0 || 6 < level || !rest.head?.all isGap then none
  else
    let text := rest.dropWhile fun c => isGap c || c = '#'
    some (level, cutClosing (text.length + 1) text)

/-- The level of the heading that a line stands under. -/
def underline? : Text → Option Nat
  | [] => none
  | c :: r =>
    if (c = '=' || c = '-') && (r.dropWhile (· = c)).all isGap then some (if c = '=' then 1 else 2)
    else none

/-- What a line with little indentation is, where no table begins. -/
def ofText (b : OpenBlock) (isLazy : Bool) (indent : Nat) (t : Text) : LineForm :=
  match fence? indent t with
  | some f => fence f
  | none =>
    match HtmlBlock.start? (b.isParagraph && !isLazy) t with
    | some (k, r) => html k (k.endsIn r)
    | none =>
      match heading? t with
      | some (level, text) => heading level text
      | none =>
        match if b.isParagraph && !isLazy then underline? t else none with
        | some level => underline level
        | none => if isRule t then rule else if b = .table && !isLazy then tableRow else prose

/-- What a line is, where the block `b` is open and takes no more than its own lines. -/
def of (b : OpenBlock) (isLazy : Bool) (l : LineRest) : LineForm :=
  let isTableRule :=
    match b with
    | .paragraph _ (some n) => !isLazy && TableRow.ruleCells? l == some n
    | _ => false
  if l.isBlank then blank
  else if isTableRule then tableRule
  else if 4 ≤ l.indent then if b.isParagraph then prose else code
  else ofText b isLazy l.indent l.body.text

end LineForm

/-- A page that is being read: the open containers, outermost first, the block that is open in the
innermost one, and the entries so far, latest first. -/
structure Draft where
  containers : List Container
  block : OpenBlock
  entries : List OutlineEntry
  deriving Repr

namespace Draft

/-- Nothing read. -/
def empty : Draft := ⟨[], .none, []⟩

/-- Adds an entry. -/
def add (d : Draft) (e : OutlineEntry) : Draft :=
  { d with entries := e :: d.entries }

/-- Adds the definitions of labels. -/
def define (d : Draft) (keys : List Text) : Draft :=
  keys.foldl (fun d k => d.add (.label k)) d

/-- The definitions that the lines of a paragraph, latest first, begin with, and what follows. -/
def definitions (lines : List Text) : List Text × Text :=
  Definition.readAll lines.length lines.reverse.flatten

/-- Ends the open block. -/
def endBlock (d : Draft) : Draft :=
  match d.block with
  | .paragraph lines _ => { d.define (definitions lines).1 with block := .none }
  | _ => { d with block := .none }

/-- Adds a line to the open paragraph, or begins one. -/
def addProse (d : Draft) (l : LineRest) (ending : Text) : Draft :=
  let line := l.text ++ ending
  let cells := TableRow.headCells? l
  match d.block with
  | .paragraph lines _ => { d with block := .paragraph (line :: lines) cells }
  | _ => { d.endBlock with block := .paragraph [line] cells }

/-- Makes the open paragraph a heading.  If it only defines labels, the line is prose. -/
def addUnderline (d : Draft) (level : Nat) (l : LineRest) (ending : Text) : Draft :=
  match d.block with
  | .paragraph lines _ =>
    let (keys, text) := definitions lines
    if text.isEmpty then d.addProse l ending
    else
      { (d.define keys).add (.heading level (Text.dropEndWhile isEnd text)) with block := .none }
  | _ => d.addProse l ending

/-- Turns the last line of the open paragraph into the first row of a table. -/
def startTable (d : Draft) : Draft :=
  match d.block with
  | .paragraph (_ :: lines) _ =>
    { { d with block := .paragraph lines none }.endBlock with block := .table }
  | _ => { d.endBlock with block := .table }

/-- Adds a line of a given form. -/
def addLine (d : Draft) (l : LineRest) (ending : Text) : LineForm → Draft
  | .blank => d.endBlock
  | .code => d.endBlock
  | .fence f => { d.endBlock with block := .fence f }
  | .html k ended => { d.endBlock with block := if ended then .none else .html k }
  | .heading level text => d.endBlock.add (.heading level text)
  | .underline level => d.addUnderline level l ending
  | .rule => d.endBlock
  | .tableRule => d.startTable
  | .tableRow => d
  | .prose => d.addProse l ending

/-- Whether a line ends a block of code. -/
def endsFence (f : Fence) (l : LineRest) : Bool :=
  l.indent ≤ 3 &&
    match l.body.text.fenceRun? with
    | some (m, n, behind) => m == f.mark && f.length ≤ n && behind.all isGap
    | none => false

/-- Adds a line to an open block that takes every line up to its ending. -/
def addVerbatim (d : Draft) (l : LineRest) : Draft :=
  match d.block with
  | .fence f => if endsFence f l then { d with block := .none } else d
  | .html k =>
    if (if l.isBlank then k.endsInBlank else k.endsIn l.text) then { d with block := .none } else d
  | _ => d

/-- Adds a line that leaves containers; `kept` are the others.  Prose continues an open paragraph and
leaves nothing. -/
def addLazy (d : Draft) (kept : List Container) (l : LineRest) (ending : Text) : Draft :=
  let d := if d.block.isVerbatim then d.endBlock else d
  let form := LineForm.of d.block true l
  if form = .prose && d.block.isParagraph then
    { d with containers := kept ++ d.containers.drop kept.length }.addProse l ending
  else { d.endBlock with containers := kept }.addLine l ending form

/-- Opens containers. -/
def openContainers (d : Draft) (cs : List Container) : Draft :=
  cs.foldl (fun d c =>
    let d := { d with containers := d.containers ++ [c] }
    match c with
    | .note key => d.add (.note key)
    | _ => d) d

/-- Reads a line. -/
def read (d : Draft) (p : PageLine) : Draft :=
  let (kept, l) := Container.resumeAll d.containers ⟨0, p.content⟩
  let stays := kept.length = d.containers.length
  if stays && d.block.isVerbatim then { d with containers := kept }.addVerbatim l
  else
    let (started, rest) :=
      Container.startAll p.content.length (stays && d.block.isParagraph) l
    if !started.isEmpty then
      let d := { d.endBlock with containers := kept }.openContainers started
      d.addLine rest p.ending (LineForm.of .none false rest)
    else if stays then { d with containers := kept }.addLine l p.ending (LineForm.of d.block false l)
    else d.addLazy kept l p.ending

end Draft

namespace Outline

/-- A page without the mark of its byte order. -/
def unmarked (t : Text) : Text :=
  if t.head? = some (Char.ofNat 0xFEFF) then t.drop 1 else t

/-- The outline of a page. -/
def of (t : Text) : List OutlineEntry :=
  ((lines (unmarked t)).foldl Draft.read Draft.empty).endBlock.entries.reverse

/-- What the entries of an outline define. -/
def defined (es : List OutlineEntry) : Defined :=
  ⟨es.filterMap fun | .label k => some k | _ => none,
    es.filterMap fun | .note k => some k | _ => none⟩

end Outline

/-- The text of an entry, if it is a heading of level one. -/
def OutlineEntry.title? : OutlineEntry → Option Text
  | heading 1 t => some t
  | _ => none

/-- The text of the first heading of level one. -/
def firstHeading? (page : Text) : Option Text :=
  let outline := Outline.of page
  (outline.findSome? OutlineEntry.title?).map (Inline.plain (Outline.defined outline))

end MdxPress.Markdown
