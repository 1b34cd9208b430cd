import MdxPress.Text.Case

/-!
# Archetypes

Families of pages, told by their file names, with the templates for their metadata.

* `Archetype.find?` finds the family of a page;
* `fillTemplate` fills a template.
-/

namespace MdxPress

/-- The structured data that goes with a page. -/
inductive SchemaKind where
  /-- A landing page. -/
  | main
  /-- A guide in steps. -/
  | tutorial
  /-- An article. -/
  | article
  /-- Questions and answers. -/
  | faq
  deriving DecidableEq, Repr, Inhabited

/-- A family of pages. -/
structure Archetype where
  /-- What the file name contains, in any case. -/
  pattern : Text
  titleTemplate : Text
  descriptionTemplate : Text
  keywords : List Text
  schema : SchemaKind
  deriving DecidableEq, Repr

namespace Archetype

/-- Whether a page belongs to a family; `stem` is its file name without extension. -/
def covers (a : Archetype) (stem : Text) : Bool :=
  (Text.lower stem).contains (Text.lower a.pattern)

/-- The first family that a page belongs to. -/
def find? (as : List Archetype) (stem : Text) : Option Archetype :=
  List.find? (fun a => a.covers stem) as

/-- A family from plain strings. -/
def of (pattern title description : String) (keywords : List String) (schema : SchemaKind) :
    Archetype :=
  ⟨pattern.toList, title.toList, description.toList, keywords.map String.toList, schema⟩

/-- The families of the pages of a database manual. -/
def standard : List Archetype :=
  [
    of "README" "\x7bproject\x7d \x7blanguage\x7d Database Documentation"
      ("High-performance NoSQL database for \x7blanguage\x7d applications " ++
        "with native APIs and easy integration")
      ["database", "nosql", "documentation"] .main,
    of "install" "Install \x7bproject\x7d \x7blanguage\x7d"
      ("Learn how to add \x7bproject\x7d \x7blanguage\x7d database to " ++
        "your project using package managers and build tools")
      ["installation", "setup", "package manager"] .tutorial,
    of "getting-started" "Getting Started with \x7bproject\x7d \x7blanguage\x7d"
      ("Step-by-step tutorial to integrate \x7bproject\x7d database in " ++
        "your \x7blanguage\x7d application and create your first entities")
      ["tutorial", "getting started", "quickstart"] .tutorial,
    of "entity-annotations" "Entity Annotations in \x7bproject\x7d \x7blanguage\x7d"
      ("Learn how to use annotations to define " ++
        "your data models and relationships in \x7bproject\x7d \x7blanguage\x7d")
      ["entities", "annotations", "data models", "relationships"] .article,
    of "queries" "Queries in \x7bproject\x7d \x7blanguage\x7d"
      ("Learn how to query your \x7bproject\x7d database using " ++
        "\x7blanguage\x7d APIs for filtering, sorting, and finding data")
      ["queries", "filtering", "sorting", "database search"] .article,
    of "relations" "Relations in \x7bproject\x7d \x7blanguage\x7d"
      ("Define and work with relationships " ++
        "between entities in \x7bproject\x7d \x7blanguage\x7d database")
      ["relations", "relationships", "foreign keys", "links"] .article,
    of "transactions" "Transactions in \x7bproject\x7d \x7blanguage\x7d"
      ("Learn how to use transactions for atomic " ++
        "operations and data consistency in \x7bproject\x7d \x7blanguage\x7d")
      ["transactions", "atomic operations", "data consistency"] .article,
    of "faq" "\x7bproject\x7d \x7blanguage\x7d FAQ"
      ("Frequently asked questions about \x7bproject\x7d " ++
        "\x7blanguage\x7d database, installation, usage, and troubleshooting")
      ["faq", "questions", "help", "troubleshooting"] .faq,
    of "custom-types" "Custom Types in \x7bproject\x7d \x7blanguage\x7d"
      ("Learn how to use custom data " ++
        "types and enums with \x7bproject\x7d \x7blanguage\x7d database")
      ["custom types", "enums", "data types", "serialization"] .article,
    of "schema-changes" "Schema Changes in \x7bproject\x7d \x7blanguage\x7d"
      ("Handle database schema migrations and " ++
        "updates in \x7bproject\x7d \x7blanguage\x7d applications")
      ["schema", "migrations", "database updates", "versioning"] .article,
    of "store" "Store - \x7bproject\x7d \x7blanguage\x7d"
      ("Learn about the Store API in " ++
        "\x7bproject\x7d \x7blanguage\x7d for database management and configuration")
      ["store", "database management", "configuration"] .article]

end Archetype

/-- Fills the places of a template for the project and for its language. -/
def fillTemplate (template project language : Text) : Text :=
  Text.replace "\x7blanguage\x7d".toList language
    (Text.replace "\x7bproject\x7d".toList project template)

end MdxPress
