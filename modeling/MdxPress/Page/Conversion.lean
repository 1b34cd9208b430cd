import MdxPress.Diagnostic
import MdxPress.Directive.Convert
import MdxPress.Link.Rewrite
import MdxPress.Mdx.Brace
import MdxPress.Mdx.Glyph
import MdxPress.Mdx.Html
import MdxPress.Mdx.Import
import MdxPress.Page.Lead

/-!
# Conversions

A page of the wiki becomes MDX in stages.  Directives are converted before braces are escaped, since
they are written with braces, and before links are rewritten, since they make some.

* `Stage.run` is one stage;
* `Conversion.trace` lists the page after every stage, and `convertPage` is the last of them.
-/

namespace MdxPress

/-- The stages of a conversion. -/
inductive Stage where
  | frontmatter
  | directives
  | inlineHtml
  | prose
  | escape
  | links
  | imports
  deriving DecidableEq, Repr

namespace Stage

/-- The stages in the order they are run. -/
def order : List Stage :=
  [frontmatter, directives, inlineHtml, prose, escape, links, imports]

/-- The name of a stage. -/
def name : Stage → Text
  | frontmatter => "frontmatter".toList
  | directives => "directives".toList
  | inlineHtml => "inline-html".toList
  | prose => "prose".toList
  | escape => "escape".toList
  | links => "links".toList
  | imports => "imports".toList

end Stage

/-- The counts of a conversion. -/
structure Report where
  directives : DirectiveReport
  escape : EscapeReport
  linksRewritten : Nat
  deriving DecidableEq, Repr

/-- Nothing counted yet. -/
def Report.empty : Report := ⟨.empty, .empty, 0⟩

/-- A page on its way through the stages. -/
structure Conversion where
  path : Text
  frontmatter : Yaml.Mapping
  header : HeaderSource
  body : Text
  report : Report
  diagnostics : List Diagnostic
  log : List LogEntry
  deriving Repr

/-- The line of the log for a leftover marker of the text `t`. -/
def Leftover.log (t : Text) (d : Leftover) : LogEntry :=
  .debug ("directive fallback for '".toList ++ d.marker.name ++ "' at byte ".toList ++
    Text.ofNat (Text.byteLength (t.take d.marker.start)) ++ ": ".toList ++ d.detail)

/-- The line of the log for a component that is never closed. -/
def OpenComponent.log (c : OpenComponent) : LogEntry :=
  .debug ("component <".toList ++ c.name ++ "> opened on line ".toList ++ Text.ofNat c.line ++
    " is never closed".toList)

/-- The lines of the log for imports that are added. -/
def Hoisted.log (h : Hoisted) : List LogEntry :=
  h.added.map fun name => .debug ("adding import for <".toList ++ name ++ ['>'])

/-- The lines of the log for a conversion of directives. -/
def ConvertedDirectives.log (c : ConvertedDirectives) : List LogEntry :=
  c.leftovers.map (Leftover.log c.passed)

namespace Conversion

/-- A page that no stage has touched. -/
def start (path page : Text) : Conversion where
  path := path
  frontmatter := []
  header := .absent
  body := page
  report := .empty
  diagnostics := []
  log := []

/-- The page as it stands: header and body. -/
def text (c : Conversion) : Text :=
  c.header.text ++ c.body

/-- Adds diagnostics about the body, located in the page. -/
def located (c : Conversion) (ds : List Diagnostic) (offset : Nat) : Conversion :=
  { c with diagnostics := c.diagnostics ++ ds.map (·.rebase (some c.path) offset) }

/-- Adds lines to the log. -/
def note (c : Conversion) (es : List LogEntry) : Conversion :=
  { c with log := c.log ++ es }

/-- The line of the log for the end of a stage. -/
def finished (c : Conversion) (s : Stage) : LogEntry :=
  let n := Text.ofNat
  let text :=
    match s with
    | .directives =>
      n c.report.directives.tally.converted ++ " directives converted, ".toList ++
        n c.report.directives.tally.fallbacks ++ " fallbacks".toList
    | .escape =>
      n c.report.escape.escapedLines ++ " lines escaped, ".toList ++
        n c.report.escape.fences ++ " fenced blocks skipped".toList
    | .links => n c.report.linksRewritten ++ " links rewritten".toList
    | s => s.name ++ " done".toList
  .debug (c.path ++ ": ".toList ++ text)

end Conversion

namespace Stage

/-- What a stage does to a page. -/
def apply (o : Options) (s : Stage) (c : Conversion) : Conversion :=
  match s with
  | frontmatter =>
    let p := SplitPage.ofText c.body
    { c with frontmatter := p.frontmatter, header := p.header, body := p.body }.located
      p.diagnostics 0
  | directives =>
    let d := convertDirectives o.directives c.body
    ({ c with body := d.text, report := { c.report with directives := d.report } }.note
      d.log).located d.diagnostics c.header.sourceLines
  | inlineHtml => { c with body := Html.normalize o.html c.body }
  | prose => { c with body := Glyph.normalize c.body }
  | escape =>
    let e := escapeBraces c.body
    ({ c with body := e.text, report := { c.report with escape := e.report } }.note
      (e.unclosed.map OpenComponent.log)).located e.diagnostics c.header.sourceLines
  | links =>
    let (body, n) := rewriteLinks c.body
    { c with body := body, report := { c.report with linksRewritten := n } }
  | imports =>
    let h := hoistImports c.body
    { c with body := h.text }.note h.log

/-- Runs a stage. -/
def run (o : Options) (c : Conversion) (s : Stage) : Conversion :=
  let c := s.apply o c
  c.note [c.finished s]

end Stage

namespace Conversion

/-- The page after each of the stages given. -/
def trace (o : Options) (c : Conversion) : List Stage → List (Stage × Conversion)
  | [] => []
  | s :: ss =>
    let c := s.run o c
    (s, c) :: trace o c ss

/-- The log with a line for every diagnostic at its end. -/
def fullLog (c : Conversion) : List LogEntry :=
  c.log ++ c.diagnostics.map .ofDiagnostic

end Conversion

/-- Converts a page. -/
def convertPage (o : Options) (path page : Text) : Conversion :=
  Stage.order.foldl (Stage.run o) (.start path page)

end MdxPress
