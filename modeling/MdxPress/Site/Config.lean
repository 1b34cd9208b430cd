import MdxPress.Record.Json
import MdxPress.Record.Yaml
import MdxPress.Site.Archetype
import MdxPress.Site.Date

/-!
# Site settings

What the metadata of pages is made from.  Settings that are missing have the usual values.
-/

namespace MdxPress

/-- The settings of a site. -/
structure SiteConfig where
  projectName : Text
  /-- The language that the site is about. -/
  language : Text
  baseUrl : Text
  /-- The module that schema components are imported from. -/
  schemaModule : Text
  baseKeywords : List Text
  /-- Keywords by language. -/
  languageKeywords : List (Text × List Text)
  /-- The description of last resort, with a place for the topic. -/
  fallbackDescription : Text
  /-- The families of pages, the first that covers a page counts. -/
  archetypes : List Archetype
  /-- The date that schema components show. -/
  today : Option Date
  deriving DecidableEq, Repr

namespace SiteConfig

/-- The keywords that go with languages. -/
def standardKeywords : List (Text × List Text) :=
  [("Swift", ["swift", "ios", "macos", "xcode"]), ("Go", ["go", "golang"]),
    ("C++", ["c++", "cpp", "cmake"]), ("Java", ["java", "android"]),
    ("Dart", ["dart", "flutter"]), ("Kotlin", ["kotlin", "android"]),
    ("Python", ["python"])].map fun (l, ks) => (l.toList, ks.map String.toList)

/-- The usual settings. -/
def standard : SiteConfig where
  projectName := "ObjectBox".toList
  language := "C++".toList
  baseUrl := "https://cpp.objectbox.io".toList
  schemaModule := "@site/src/components/Schema".toList
  baseKeywords := ["database".toList]
  languageKeywords := standardKeywords
  fallbackDescription :=
    ("Learn about \x7btopic\x7d in \x7bproject\x7d \x7blanguage\x7d database " ++
      "for high-performance applications").toList
  archetypes := Archetype.standard
  today := none

/-- The keywords of the site's language. -/
def keywords (c : SiteConfig) : List Text :=
  (c.languageKeywords.lookup c.language).getD []

end SiteConfig

/-! ## Reading settings -/

open Record

variable {α : Type}

/-- The names of the kinds of structured data. -/
def SchemaKind.names : List (Text × SchemaKind) :=
  [("main".toList, .main), ("tutorial".toList, .tutorial), ("article".toList, .article),
    ("faq".toList, .faq)]

/-- Reads a family of pages. -/
def Archetype.decode? [Source α] : α → Option Archetype :=
  Record.decode? 5 fun fs => do
    let pattern ← fs.required 0 "pattern".toList Source.text?
    let title ← fs.required 1 "title_template".toList Source.text?
    let description ← fs.required 2 "description_template".toList Source.text?
    let keywords ← fs.required 3 "keywords".toList (list? Source.text?)
    let schema ← fs.required 4 "schema".toList (oneOf? SchemaKind.names)
    return ⟨pattern, title, description, keywords, schema⟩

/-- Reads a date. -/
def Date.decode? [Source α] (v : α) : Option Date :=
  (Source.text? v).bind Date.ofText?

namespace SiteConfig

/-- Reads settings. -/
def decode? [Source α] : α → Option SiteConfig :=
  let d := standard
  Record.decode? 9 fun fs => do
    let projectName ← fs.orDefault 0 "project_name".toList Source.text? d.projectName
    let language ← fs.orDefault 1 "language".toList Source.text? d.language
    let baseUrl ← fs.orDefault 2 "base_url".toList Source.text? d.baseUrl
    let schemaModule ← fs.orDefault 3 "schema_module".toList Source.text? d.schemaModule
    let baseKeywords ← fs.orDefault 4 "base_keywords".toList (list? Source.text?) d.baseKeywords
    let languageKeywords ←
      fs.orDefault 5 "language_keywords".toList (table? (list? Source.text?)) d.languageKeywords
    let fallback ←
      fs.orDefault 6 "fallback_description".toList Source.text? d.fallbackDescription
    let archetypes ← fs.orDefault 7 "archetypes".toList (list? Archetype.decode?) d.archetypes
    let today ← fs.orDefault 8 "today".toList (optional? Date.decode?) d.today
    return ⟨projectName, language, baseUrl, schemaModule, baseKeywords, languageKeywords,
      fallback, archetypes, today⟩

/-- Reads settings from a JSON text. -/
def ofJson? (t : Text) : Option SiteConfig :=
  (Json.ofText? t).bind decode?

/-- Reads settings from a YAML text. -/
def ofYaml? (t : Text) : Option SiteConfig :=
  match Yaml.Tree.ofText t with
  | .ok tree => decode? tree
  | .error _ => none

end SiteConfig
end MdxPress
