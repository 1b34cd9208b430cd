import MdxPress.Text.Line
import MdxPress.Yaml.Value.OfTree
import MdxPress.Yaml.Value.Render

/-!
# Headers

A page may begin with a header: lines of YAML between two lines `---`.  A byte order mark and blank
lines may stand before it.

* `HeaderBlock.find` finds the header of a page;
* `Header.parse` reads its YAML as a mapping, `Header.render` writes a mapping as a header.
-/

namespace MdxPress

/-- Why a page has no header that can be used. -/
inductive HeaderError where
  /-- The header is opened and never closed. -/
  | unterminated
  /-- The YAML cannot be read, or written. -/
  | unreadable (cause : Yaml.Error)
  /-- The YAML is no mapping. -/
  | noMapping
  deriving DecidableEq, Repr

/-- An error in words. -/
def HeaderError.message : HeaderError → Text
  | .unterminated => "Unterminated YAML frontmatter block: expected closing '---'".toList
  | .unreadable cause => "Frontmatter parse error: ".toList ++ cause.message
  | .noMapping => "Frontmatter must be a YAML mapping at the top level".toList

/-- A page cut behind its header: the header as it stands in the page, with all that precedes it,
the YAML between its delimiters, and the body. -/
structure HeaderBlock where
  raw : Text
  yaml : Text
  body : Text
  deriving DecidableEq, Repr

namespace HeaderBlock

/-- The byte order mark. -/
def byteOrderMark : Char := Char.ofNat 0xFEFF

/-- A page cut behind its byte order mark, if it has one. -/
def splitMark : Text → Text × Text
  | c :: r => if c = byteOrderMark then ([c], r) else ([], c :: r)
  | [] => ([], [])

/-- Whether a line delimits a header. -/
def isDelimiter (l : Line) : Bool :=
  l.content.trimEnd == "---".toList

/-- The header that begins behind an opening line, given what precedes and the lines behind. -/
def ofLines (before : Text) (ls : List Line) : Except HeaderError HeaderBlock :=
  let inner := ls.takeWhile (!isDelimiter ·)
  match ls.dropWhile (!isDelimiter ·) with
  | [] => .error .unterminated
  | closer :: rest =>
    .ok ⟨before ++ Line.join inner ++ closer.text, (Line.join inner).dropBreaksEnd, Line.join rest⟩

/-- Finds the header of a page. -/
def find (page : Text) : Except HeaderError (Option HeaderBlock) :=
  let (mark, rest) := splitMark page
  let ls := rest.lines
  match ls.dropWhile Line.isBlank with
  | [] => .ok none
  | opener :: behind =>
    if isDelimiter opener then
      let before := mark ++ Line.join (ls.takeWhile Line.isBlank) ++ opener.text
      (ofLines before behind).map some
    else .ok none

end HeaderBlock

namespace Header

/-- Reads the YAML of a header.  Nothing, and null, are a mapping without entries. -/
def parse (yaml : Text) : Except HeaderError Yaml.Mapping :=
  if yaml.allBlank then .ok []
  else
    match Yaml.Value.ofText yaml with
    | .ok .null => .ok []
    | .ok (.mapping m) => .ok m
    | .ok _ => .error .noMapping
    | .error e => .error (.unreadable e)

/-- Writes a mapping as a header, with a blank line behind it. -/
def render (m : Yaml.Mapping) : Except HeaderError Text :=
  match m.render with
  | .ok yaml => .ok ("---\n".toList ++ yaml ++ "---\n\n".toList)
  | .error e => .error (.unreadable e)

end Header
end MdxPress
