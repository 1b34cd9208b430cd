import MdxPress.Diagnostic
import MdxPress.Files.Path
import MdxPress.Site.Content
import MdxPress.Site.Schema

/-!
# Completed pages

The metadata pass gives a page the metadata and the schema component it lacks.  A page that has all
of them stays as it is.

* `Synthesis.ofPage` completes a page.
-/

namespace MdxPress

/-- A page after the metadata pass. -/
structure Synthesis where
  isUpdated : Bool
  text : Text
  metadata : Metadata
  /-- Whether a schema component was added. -/
  schemaAdded : Bool
  diagnostics : List Diagnostic
  deriving DecidableEq, Repr

namespace Synthesis

/-- A base URL and the name of a page below it. -/
def url (c : SiteConfig) (stem : Text) : Text :=
  Text.dropEndWhile (· = '/') c.baseUrl ++ '/' :: stem

/-- The schema component of a page. -/
def schema (c : SiteConfig) (family : Option Archetype) (stem : Text) (m : Metadata) : Text :=
  let kind := (family.map (·.schema)).getD .article
  let date := (c.today.map Date.render).getD []
  Schema.render kind c.schemaModule ⟨m.title.value, m.description.value, url c stem, date⟩

/-- The outcome in a word. -/
def outcome (isUpdated : Bool) : Text :=
  if isUpdated then "Updated".toList else "Unchanged".toList

/-- A line of the log about a page. -/
def logLine (path text : Text) : LogEntry :=
  .debug (path ++ ": ".toList ++ text)

/-- Completes a page, and tells the log of it.  An error means that the other entries of its header
cannot be written. -/
def ofPage (c : SiteConfig) (path page : Text) : List LogEntry × Except Yaml.Error Synthesis :=
  let header := PageHeader.read page
  let diagnostics := header.diagnostics.map (·.rebase (some path) 0)
  let warnings := diagnostics.map LogEntry.ofDiagnostic
  let stem := Path.stem path
  let family := Archetype.find? c.archetypes stem
  let m := Metadata.ofPage c family stem header.frontmatter (ContentInfo.ofBody header.body)
  let hasSchema := Schema.imports header.body c.schemaModule
  if header.form = .delimited && m.isComplete && hasSchema then
    (warnings ++ [logLine path "metadata complete".toList],
      .ok ⟨false, page, m, false, diagnostics⟩)
  else
    let body :=
      if hasSchema then header.body else Schema.insert header.body (schema c family stem m)
    match m.renderHeader (Metadata.extraEntries header.frontmatter) with
    | .error e => (warnings, .error e)
    | .ok head =>
      let text := head ++ "\n\n".toList ++ body.dropBreaks
      (warnings ++ [logLine path (outcome (text != page))],
        .ok ⟨text != page, text, m, !hasSchema, diagnostics⟩)

end Synthesis
end MdxPress
