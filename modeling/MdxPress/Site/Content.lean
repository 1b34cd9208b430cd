import MdxPress.Markdown.Outline
import MdxPress.Page.Header
import MdxPress.Diagnostic
import MdxPress.Site.Metadata

/-!
# The parts of a page

A page as the metadata pass sees it: the values of its header and the rest.  A header may lack its
opening delimiter if it begins with `description:`.

* `PageHeader.read` cuts a page;
* `ContentInfo.ofBody` looks for a heading and a paragraph.
-/

namespace MdxPress

/-- The forms of headers. -/
inductive HeaderForm where
  | delimited
  /-- Without its opening delimiter. -/
  | bare
  | missing
  deriving DecidableEq, Repr

/-- A page cut into the values of its header and the rest. -/
structure PageHeader where
  form : HeaderForm
  frontmatter : Yaml.Mapping
  body : Text
  diagnostics : List Diagnostic
  deriving Repr

namespace PageHeader

/-- A page without a header. -/
def none (page : Text) (diagnostics : List Diagnostic) : PageHeader :=
  ⟨.missing, [], page, diagnostics⟩

/-- A page with the YAML of its header. -/
def ofYaml (form : HeaderForm) (yaml body : Text) : PageHeader :=
  match Header.parse yaml with
  | .ok m => ⟨form, m, body, []⟩
  | .error e => ⟨form, [], body, [⟨.unparseableHeader e.message, ⟨.none, 1, 1⟩⟩]⟩

/-- Whether a line ends a bare header and belongs to the body: it stands at the left and has no
colon. -/
def endsBare (l : Line) : Bool :=
  let t := l.content.trim
  !l.content.head?.any (fun c => c = ' ' || c = '\t') && !t.isEmpty && !t.contains [':']

/-- Whether a line delimits a bare header. -/
def isBareDelimiter (l : Line) : Bool :=
  l.content.trim == "---".toList

/-- The lines of a bare header behind its first, and the lines of the body. -/
def splitBare : List Line → Option (List Line × List Line)
  | [] => .none
  | l :: ls =>
    if isBareDelimiter l then some ([], ls)
    else if endsBare l then some ([], l :: ls)
    else (splitBare ls).map fun p => (l :: p.1, p.2)

/-- A page whose header has no opening delimiter. -/
def ofBare? (page : Text) : Option PageHeader :=
  if page.startsWith "description:".toList then
    match page.lines with
    | [] => .none
    | l :: ls => (splitBare ls).map fun (inner, body) =>
      ofYaml .bare (Line.join (l :: inner)) (Line.join body)
  else .none

/-- Cuts a page. -/
def read (page : Text) : PageHeader :=
  match HeaderBlock.find page with
  | .ok (some b) => ofYaml .delimited b.yaml b.body
  | .ok .none => (ofBare? page).getD (none page [])
  | .error _ => none page [⟨.unterminatedHeader, ⟨.none, 1, 1⟩⟩]

end PageHeader

namespace ContentInfo

/-- Whether a line of prose begins with what describes nothing: a heading, a statement, or the
delimiter of an admonition. -/
def isUndescriptive (line : Text) : Bool :=
  ["#", "import ", "export ", ":::"].any fun s => line.startsWith s.toList

/-- The first line of prose of more than twenty characters; the first argument tells whether a tag
is not ended. -/
def paragraphFrom : Bool → List FencedLine → Option Text
  | _, [] => none
  | inTag, l :: ls =>
    let t := l.line.content.trim
    if l.isCode then paragraphFrom inTag ls
    else if inTag || t.startsWith ['<'] then paragraphFrom (!Text.contains t ['>']) ls
    else if !isUndescriptive t && 20 < t.length then some t
    else paragraphFrom false ls

/-- The first heading, without its id. -/
def headingOf (body : Text) : Option Text :=
  (Markdown.firstHeading? body).bind fun h =>
    let t := (Name.customId h).1.trim
    if t.isEmpty then none else some t

/-- What a body offers. -/
def ofBody (body : Text) : ContentInfo :=
  ⟨headingOf body, paragraphFrom false body.fenced⟩

end ContentInfo
end MdxPress
