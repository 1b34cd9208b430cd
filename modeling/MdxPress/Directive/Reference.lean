import MdxPress.Link.Target
import MdxPress.Marker.Replace
import MdxPress.Options
import MdxPress.Text.Scan

/-!
# References

Directives that lead somewhere: cards for other pages, embedded URLs and page references.

* `Reference.card` writes a navigation card;
* `Reference.ofContentRef?`, `ofEmbed?` and `ofPageRef?` convert the markers;
* `Reference.contentLink` and `pageLink` are the plain links that stand for them.
-/

namespace MdxPress.Reference

/-- A Markdown link. -/
def link (label target : Text) : Text :=
  '[' :: label ++ "](".toList ++ target ++ [')']

/-- The lines of a navigation card. -/
def cardLines (href title description : Text) : List Text :=
  ["<div className=\"custom-nav-card\">".toList,
   "  <a href=\"".toList ++ href ++ "\" className=\"custom-nav-card-link\">".toList,
   "    <div className=\"custom-nav-card-content\">".toList,
   "      <h3 className=\"custom-nav-card-title\">".toList ++ title ++ "</h3>".toList,
   "      <p className=\"custom-nav-card-description\">".toList ++ description ++ "</p>".toList,
   "    </div>".toList,
   "    <div className=\"custom-nav-card-arrow\">›</div>".toList,
   "  </a>".toList,
   "</div>".toList]

/-- A navigation card. -/
def card (href title description : Text) : Text :=
  Text.joinWith ['\n'] (cardLines href title description)

/-- Drops every `./` a path starts with. -/
def dropHere : Text → Text
  | '.' :: '/' :: r => dropHere r
  | t => t

/-- The target of a card: from the root of the site, unless it leaves it or goes up. -/
def cardHref (clean : Text) : Text :=
  if Target.hasScheme clean || clean.startsWith ['/'] || clean.startsWith "../".toList then clean
  else '/' :: dropHere clean

/-- The title and description of a card: the curated ones, or made from the text of the link. -/
def cardText (clean label : Text) (options : DirectiveOptions) : Text × Text :=
  match options.curatedCards.find? fun c => c.target == clean with
  | some c => (c.title, c.description)
  | none =>
    let bare := Name.stripExtension label.trim
    let title := Text.titleCase (bare.map fun c => if c = '-' then ' ' else c)
    (title, "Learn more about ".toList ++ Text.lower title)

/-- The title of a page that is known by its target only. -/
def titleOf (clean : Text) : Text :=
  Name.humanize (Target.lastSegment clean)

/-- The plain link for a content reference; the label, if blank, is made from the target. -/
def contentLink (url : Text) (label : Option Text) : Text :=
  let clean := Target.clean url
  let shown := (label.getD []).trim
  link (if shown.isEmpty then titleOf clean else shown) clean

/-- The plain link for a page reference. -/
def pageLink (page : Text) : Text :=
  let clean := Target.clean page
  link (titleOf clean) clean

/-- The label of the first Markdown link in a text. -/
def linkLabel? (t : Text) : Option Text :=
  let reader : Text → Option Text
    | '[' :: r =>
      (Text.breakAt (· = ']') r).bind fun (label, behind) =>
        match behind with
        | '(' :: target => if target.contains ')' then some label else none
        | _ => none
    | _ => none
  (Text.seek reader t).map (·.2)

/-- The card, or the link, for a content reference that names a URL and holds a link. -/
def ofContentRef? (options : DirectiveOptions) (opener : Marker) (inner : Text) : Option Text :=
  (opener.attribute? "url".toList).bind fun url =>
    (linkLabel? inner).map fun label =>
      match options.cardStyle with
      | .links => contentLink url (some label)
      | .cards =>
        let clean := Target.clean url
        let (title, description) := cardText clean label options
        card (cardHref clean) title description

/-- The link text for an embedded URL: the first label whose keyword it holds, else its last
segment, made readable. -/
def embedLabel (url : Text) (options : DirectiveOptions) : Text :=
  match options.embedLabels.find? fun l => url.contains l.keyword with
  | some l => l.label
  | none =>
    let segment := Target.lastSegment url
    if segment.isEmpty then "Learn more".toList
    else Text.titleCase (segment.map fun c => if c = '-' then ' ' else c)

/-- The link for an embedded URL. -/
def ofEmbed? (options : DirectiveOptions) (m : Marker) : Option Text :=
  (m.attribute? "url".toList).map fun url => link (embedLabel url.trim options) url.trim

/-- The link for a page reference. -/
def ofPageRef? (m : Marker) : Option Text :=
  (m.attribute? "page".toList).map pageLink

end MdxPress.Reference
