import MdxPress.Site.Archetype
import MdxPress.Text.Line

/-!
# Schema components

Components that tell search engines what a page is.  A component goes behind the imports that a body
begins with, together with its own import.

* `Schema.render` writes a component;
* `Schema.insert` puts it into a body.
-/

namespace MdxPress.Schema

/-- What a component shows. -/
structure Fields where
  title : Text
  description : Text
  url : Text
  date : Text
  deriving DecidableEq, Repr

/-- A text as the value of an attribute, which holds no double quotation mark. -/
def value (t : Text) : Text :=
  Text.replaceChar '"' ['\''] t

/-- The line of an attribute. -/
def line (name : String) (t : Text) : Text :=
  "  ".toList ++ name.toList ++ "=\"".toList ++ t ++ ['"']

/-- The import of components. -/
def importLine (names : String) (module : Text) : Text :=
  "import \x7b ".toList ++ names.toList ++ " \x7d from '".toList ++ module ++ "';".toList

/-- A component with its import. -/
def render (kind : SchemaKind) (module : Text) (f : Fields) : Text :=
  let article := fun names =>
    [importLine names module, [], "<TechnicalArticleSchema".toList, line "headline" (value f.title),
      line "description" (value f.description), line "url" f.url, line "datePublished" f.date,
      line "dateModified" f.date, "/>".toList]
  Text.joinWith ['\n'] <|
    match kind with
    | .main =>
      [importLine "SoftwareDocumentationSchema" module, [], "<SoftwareDocumentationSchema".toList,
        line "description" (value f.description), line "dateModified" f.date, "/>".toList]
    | .faq => article "FAQSchema, TechnicalArticleSchema"
    | .tutorial | .article => article "TechnicalArticleSchema"

/-- Whether a body imports from a module. -/
def imports (body module : Text) : Bool :=
  body.contains ("from '".toList ++ module ++ ['\'']) ||
    body.contains ("from \"".toList ++ module ++ ['"'])

/-- Whether a line is an import, or the end of one. -/
def isImport (l : Line) : Bool :=
  let t := l.content.trim
  t.startsWith "import ".toList || t.startsWith "from ".toList

/-- The lines up to the last import of those that a body begins with. -/
def importLines (ls : List Line) : List Line :=
  ((ls.takeWhile fun l => isImport l || l.isBlank).reverse.dropWhile (!isImport ·)).reverse

/-- Puts a block behind the imports that a body begins with, with blank lines around it. -/
def insert (body block : Text) : Text :=
  let ls := body.lines
  let head := importLines ls
  let rest := Text.dropBreaks (Line.join (ls.drop head.length))
  let lead := if head.isEmpty then [] else (Line.join head).dropBreaks.trimEnd ++ "\n\n".toList
  lead ++ block ++ "\n\n".toList ++ rest

end MdxPress.Schema
