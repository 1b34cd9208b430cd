import MdxPress.Options
import MdxPress.Record.Json

/-!
# Reading options

Options are read from JSON.  Fields that are missing have the usual values; entries of lists are
complete.
-/

namespace MdxPress

open Record

/-- Reads a curated card. -/
def CuratedCard.ofJson? : Json → Option CuratedCard :=
  decode? 3 fun fs => do
    let target ← fs.required 0 "target".toList Source.text?
    let title ← fs.required 1 "title".toList Source.text?
    let description ← fs.required 2 "description".toList Source.text?
    return ⟨target, title, description⟩

/-- Reads a label for embedded URLs. -/
def EmbedLabel.ofJson? : Json → Option EmbedLabel :=
  decode? 2 fun fs => do
    let keyword ← fs.required 0 "keyword".toList Source.text?
    let label ← fs.required 1 "label".toList Source.text?
    return ⟨keyword, label⟩

/-- The names of the styles of cards. -/
def CardStyle.names : List (Text × CardStyle) :=
  [("cards".toList, .cards), ("links".toList, .links)]

/-- Reads the options about directives. -/
def DirectiveOptions.ofJson? : Json → Option DirectiveOptions :=
  let d := DirectiveOptions.standard
  decode? 4 fun fs => do
    let style ← fs.orDefault 0 "card_style".toList (oneOf? CardStyle.names) d.cardStyle
    let cards ←
      fs.orDefault 1 "curated_cards".toList (list? CuratedCard.ofJson?) d.curatedCards
    let labels ← fs.orDefault 2 "embed_labels".toList (list? EmbedLabel.ofJson?) d.embedLabels
    let refine ← fs.orDefault 3 "refine_text_fences".toList Source.bool? d.refineTextFences
    return ⟨style, cards, labels, refine⟩

/-- Reads the options about inline HTML. -/
def HtmlOptions.ofJson? : Json → Option HtmlOptions :=
  decode? 1 fun fs => do
    let site ← fs.orDefault 0 "asset_prefix".toList Source.text? HtmlOptions.standard.assetPrefix
    return ⟨site⟩

/-- Reads options. -/
def Options.ofJson? : Json → Option Options :=
  decode? 2 fun fs => do
    let directives ←
      fs.orDefault 0 "transcode".toList DirectiveOptions.ofJson? DirectiveOptions.standard
    let html ← fs.orDefault 1 "html".toList HtmlOptions.ofJson? HtmlOptions.standard
    return ⟨directives, html⟩

/-- Reads options from a JSON text. -/
def Options.ofText? (t : Text) : Option Options :=
  (Json.ofText? t).bind Options.ofJson?

end MdxPress
