import MdxPress.Text.Basic

/-!
# Options

What a site can choose about the conversion of its pages, and the choices made without it.
-/

namespace MdxPress

/-- How a reference to another page is shown. -/
inductive CardStyle where
  /-- A navigation card. -/
  | cards
  /-- A plain link. -/
  | links
  deriving DecidableEq, Repr, Inhabited

/-- The fixed text of the card for one target. -/
structure CuratedCard where
  target : Text
  title : Text
  description : Text
  deriving DecidableEq, Repr

/-- The link text for embedded URLs that hold a keyword. -/
structure EmbedLabel where
  keyword : Text
  label : Text
  deriving DecidableEq, Repr

/-- Choices about directives. -/
structure DirectiveOptions where
  cardStyle : CardStyle
  /-- Cards with fixed texts, in the order they are looked up. -/
  curatedCards : List CuratedCard
  /-- Labels in the order they are tried. -/
  embedLabels : List EmbedLabel
  /-- Whether `text` fences get the language their content tells. -/
  refineTextFences : Bool
  deriving DecidableEq, Repr

/-- Choices about inline HTML. -/
structure HtmlOptions where
  /-- The site path that stands for the asset folder. -/
  assetPrefix : Text
  deriving DecidableEq, Repr

/-- All choices about a conversion. -/
structure Options where
  directives : DirectiveOptions
  html : HtmlOptions
  deriving DecidableEq, Repr

/-- The usual choices about directives. -/
def DirectiveOptions.standard : DirectiveOptions where
  cardStyle := .cards
  curatedCards :=
    [⟨"installation".toList, "Installation".toList,
      "Get ObjectBox library and generator set up in your project".toList⟩,
     ⟨"getting-started".toList, "How to get started".toList,
      "Learn the basics of using ObjectBox in your application".toList⟩]
  embedLabels :=
    [⟨"vector-search".toList, "Learn more about On-Device Vector Search".toList⟩,
     ⟨"sync".toList, "Learn more about Data Sync".toList⟩,
     ⟨"getting-started".toList, "Getting Started Guide".toList⟩]
  refineTextFences := true

/-- The usual choices about inline HTML. -/
def HtmlOptions.standard : HtmlOptions where
  assetPrefix := "/img/assets".toList

/-- The usual choices. -/
def Options.standard : Options := ⟨.standard, .standard⟩

end MdxPress
