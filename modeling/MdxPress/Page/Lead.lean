import MdxPress.Diagnostic
import MdxPress.Fence.Segment
import MdxPress.Page.Header

/-!
# Leads

A wiki page shows the `description` of its header as its first paragraph, and a page without a
header begins with the paragraph that becomes its description.  In both cases the paragraph goes
below the title of the page.

* `SplitPage.ofText` cuts a page into header and body.
-/

namespace MdxPress

/-- Where the header of a page comes from, and how it is written. -/
inductive HeaderSource where
  | absent
  /-- A header that was read; it is written as it stood. -/
  | parsed (raw : Text)
  /-- A header that could not be read; it is written as it stood. -/
  | unparseable (raw : Text)
  /-- A header made from the first paragraph. -/
  | synthesized (text : Text)
  deriving DecidableEq, Repr

namespace HeaderSource

/-- What stands before the body. -/
def text : HeaderSource → Text
  | absent => []
  | parsed t | unparseable t | synthesized t => t

/-- The number of lines of the page that the header took. -/
def sourceLines : HeaderSource → Nat
  | parsed t | unparseable t => t.count '\n'
  | absent | synthesized _ => 0

end HeaderSource

/-- A page cut into header and body. -/
structure SplitPage where
  frontmatter : Yaml.Mapping
  header : HeaderSource
  body : Text
  diagnostics : List Diagnostic
  deriving Repr

namespace Lead

/-- Whether a line is a title. -/
def isTitle (l : FencedLine) : Bool :=
  !l.isCode && l.line.content.trimStart.startsWith "# ".toList

/-- Puts a paragraph behind the title of a body, or before the body if it has none. -/
def insert (paragraph body : Text) : Text :=
  let ls := Text.fenced body
  let before := ls.takeWhile (!isTitle ·)
  match ls.dropWhile (!isTitle ·) with
  | [] => paragraph ++ "\n\n".toList ++ body
  | title :: behind =>
    let head := Line.join (before.map (·.line)) ++ title.line.text
    let separator := if title.line.ending = .none then ['\n'] else []
    let tail := Text.dropBreaks (Line.join (behind.map (·.line)))
    head ++ separator ++ '\n' :: paragraph ++ "\n\n".toList ++ tail

/-- The first paragraph of a page, and what follows the blank line behind it; none, when no blank
line does. -/
def firstParagraph? (page : Text) : Option (Text × Text) :=
  let ls := page.lines
  let blanks := ls.takeWhile Line.isBlank
  let behind := ls.dropWhile Line.isBlank
  match behind.dropWhile (!·.isBlank) with
  | [] => none
  | _ :: rest => some (Line.join (blanks ++ behind.takeWhile (!·.isBlank)), Line.join rest)

/-- Whether a paragraph describes its page: it is no heading, marker or code. -/
def isDescription (paragraph : Text) : Bool :=
  !paragraph.isEmpty && !paragraph.startsWith ['#'] && !paragraph.startsWith ['{', '%'] &&
    (FenceOpener.ofLine? paragraph).isNone

/-- A character that later passes may rewrite together with what follows. -/
def isMarkup (c : Char) : Bool :=
  "[<\x7b&\x60(*_".toList.contains c

/-- A text with its braces escaped. -/
def escaped (t : Text) : Text :=
  Text.replaceChar '}' "&#125;".toList (Text.replaceChar '{' "&#123;".toList t)

/-- Whether a body shows a description already.  Only what precedes the first markup is compared,
if that is long enough to be telling. -/
def isShown (body description : Text) : Bool :=
  let flat := body.squash
  let plain := Text.trimEnd (description.takeWhile (!isMarkup ·))
  if 20 ≤ plain.length then flat.contains plain
  else flat.contains description || flat.contains (escaped description)

/-- The description in a header that its page has to show: wiki headers have no title. -/
def ofHeader? (frontmatter : Yaml.Mapping) : Option Text :=
  if frontmatter.has "title".toList then none
  else
    ((frontmatter.get? "description".toList).bind Yaml.Value.asText?).map Text.squash

/-- A body that shows the description of its header. -/
def display (frontmatter : Yaml.Mapping) (body : Text) : Text :=
  match ofHeader? frontmatter with
  | some d =>
    if d.isEmpty || isShown body d then body
    else body.leadingBreaks ++ insert d body.dropBreaks
  | none => body

end Lead

namespace SplitPage

/-- A page that is all body. -/
def whole (page : Text) (diagnostics : List Diagnostic) : SplitPage :=
  ⟨[], .absent, page, diagnostics⟩

/-- A page with a header made from its first paragraph, if that describes it. -/
def ofLead (page : Text) : SplitPage :=
  match Lead.firstParagraph? page with
  | none => whole page []
  | some (paragraph, rest) =>
    let lead := paragraph.trim
    if !Lead.isDescription lead then whole page []
    else
      let frontmatter : Yaml.Mapping := [(.string "description".toList, .string lead.squash)]
      match Header.render frontmatter with
      | .ok text => ⟨frontmatter, .synthesized text, Lead.insert lead rest, []⟩
      | .error e => whole page [⟨.unparseableHeader e.message, ⟨none, 1, 1⟩⟩]

/-- A page with the header that was found. -/
def ofBlock (b : HeaderBlock) : SplitPage :=
  match Header.parse b.yaml with
  | .ok frontmatter => ⟨frontmatter, .parsed b.raw, Lead.display frontmatter b.body, []⟩
  | .error e =>
    ⟨[], .unparseable b.raw, b.body, [⟨.unparseableHeader e.message, ⟨none, 1, 1⟩⟩]⟩

/-- The number of characters before the first `---` of a page. -/
def openerIndex (page : Text) : Nat :=
  match Text.breakOn "---".toList page with
  | some p => p.1.length
  | none => 0

/-- Cuts a page into header and body. -/
def ofText (page : Text) : SplitPage :=
  match HeaderBlock.find page with
  | .ok (some b) => ofBlock b
  | .ok none => ofLead page
  | .error _ => whole page [⟨.unterminatedHeader, Position.ofIndex page (openerIndex page)⟩]

end SplitPage
end MdxPress
