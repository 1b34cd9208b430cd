import MdxPress.CodeSpan
import MdxPress.Directive.Listing
import MdxPress.Fence.Segment
import MdxPress.Link.Target
import MdxPress.Options

/-!
# Inline HTML

MDX reads HTML as components, so void elements have to close themselves, and wrappers that only the
wiki knows have to go.  Names of elements may be written in any case; fenced code is never touched.

In a stretch of prose, in this order:

* `figureRule` makes an image of a figure, and its caption goes;
* on every line outside code spans, `imageAssetRule` and `sourceAssetRule` turn paths into the
  asset folder into site paths, and `voidRule` closes void elements;
* `customSpanRule` unwraps the wiki's spans, `captionRule` sets captions in italics, and
  `figureTagRule` drops what is left of figures.
-/

namespace MdxPress.Html

open Listing (openTag? exactTag? tagRest?)

/-- A quotation mark of an attribute. -/
def isQuote (c : Char) : Bool :=
  c = '"' || c = '\''

/-- Reads the equals sign behind an attribute's name, blanks around it aside. -/
def equals? (t : Text) : Option Text :=
  match Text.trimStart t with
  | '=' :: r => some (Text.trimStart r)
  | _ => none

/-- Reads an attribute's value: up to the next quotation mark of either kind. -/
def attributeValue? (name t : Text) : Option Text :=
  ((Text.dropWord? name t).bind equals?).bind fun r =>
    match r with
    | q :: r => if isQuote q then (Text.breakAt isQuote r).map (·.1) else none
    | [] => none

/-- The value of the first attribute `name` that begins a word, behind a character of a word or
not. -/
def attributeFrom (name : Text) : Bool → Text → Text
  | _, [] => []
  | inWord, c :: r =>
    match if inWord then none else attributeValue? name (c :: r) with
    | some v => v
    | none => attributeFrom name (Text.isWordChar c) r

/-- The value of an attribute of a tag, empty without one. -/
def valueOf (name tag : Text) : Text :=
  attributeFrom name false tag

/-- Reads the end of a figure. -/
def figureEnd? (t : Text) : Option Text :=
  Text.dropWord? "</figure>".toList (Text.trimStart t)

/-- Reads a caption and the end of the figure behind it; a caption may hold what looks like the
end of one. -/
def captionAndEnd? (t : Text) : Option Text :=
  (openTag? "figcaption".toList t).bind fun (_, r) =>
    let reader (t : Text) : Option Text :=
      (Text.dropWord? "</figcaption>".toList t).bind figureEnd?
    (Text.seek reader r).map (·.2)

/-- The rule for a figure around one image, with or without a caption. -/
def figureRule (t : Text) : Option (Text × Nat) :=
  (openTag? "figure".toList t).bind fun (_, r) =>
    let image := Text.trimStart r
    (exactTag? "img".toList image).bind fun (_, behind) =>
      let tag := image.take (image.taken behind)
      let behind := Text.trimStart behind
      ((captionAndEnd? behind).or (figureEnd? behind)).map fun rest =>
        ("![".toList ++ valueOf "alt".toList tag ++ "](".toList ++
          valueOf "src".toList tag ++ [')'], t.taken rest)

/-- Drops every `./` and `../` a path starts with. -/
def dropUpward : Text → Text
  | '.' :: '/' :: r => dropUpward r
  | '.' :: '.' :: '/' :: r => dropUpward r
  | t => t

/-- Reads a path into the asset folder, as written: what follows the folder. -/
def assetPath? (t : Text) : Option Text :=
  let t := dropUpward t
  Text.dropStart? ".gitbook/assets/".toList ((Text.dropStart? "docs/".toList t).getD t)

/-- Reads a path into the asset folder in any case: what follows the folder. -/
def assetPathAnyCase? (t : Text) : Option Text :=
  let t := dropUpward t
  Text.dropWord? ".gitbook/assets/".toList ((Text.dropWord? "docs/".toList t).getD t)

/-- Reads the start of a Markdown image up to its target: that start, and what follows it. -/
def imageStart? : Text → Option (Text × Text)
  | '!' :: '[' :: r =>
    (Text.breakAt (· = ']') r).bind fun (alt, behind) =>
      match behind with
      | '(' :: rest => some ("![".toList ++ alt ++ "](".toList, rest)
      | _ => none
  | _ => none

/-- The rule for an image whose target is an asset, between angle brackets or bare. -/
def imageAssetRule (site t : Text) : Option (Text × Nat) :=
  (imageStart? t).bind fun (start, target) =>
    let bracketed : Option (Text × Nat) :=
      match target with
      | '<' :: r =>
        (assetPath? r).bind fun path =>
          (tagRest? path).bind fun (file, rest) =>
            if file.isEmpty then none
            else some (start ++ '<' :: site ++ '/' :: Target.baseName file ++ ['>'], t.taken rest)
      | _ => none
    let bare : Option (Text × Nat) :=
      (assetPath? target).bind fun path =>
        let file := path.takeWhile fun c => !(c == ')' || isBlank c)
        if file.isEmpty then none
        else some (start ++ site ++ '/' :: Target.baseName file, t.taken (path.drop file.length))
    bracketed.or bare

/-- Reads `src=`, a quotation mark, a path into the asset folder and a quotation mark: the text of
the first, the mark, the path and what follows. -/
def assetSource? (t : Text) : Option (Text × Char × Text × Text) :=
  ((Text.dropWord? "src".toList t).bind equals?).bind fun r =>
    match r with
    | q :: path =>
      if isQuote q then
        (assetPathAnyCase? path).bind fun path =>
          (Text.breakAt isQuote path).bind fun (file, rest) =>
            if file.isEmpty then none else some (t.take (t.taken r), q, file, rest)
      else none
    | [] => none

/-- Looks in the rest of a tag for a source that is an asset: what stands before it, and the source
as `assetSource?` gives it. -/
def assetInTag? : Bool → Text → Option (Text × Text × Char × Text × Text)
  | _, [] => none
  | inWord, c :: r =>
    match if inWord then none else assetSource? (c :: r) with
    | some found => some ([], found)
    | none =>
      if c = '>' then none
      else (assetInTag? (Text.isWordChar c) r).map fun (before, found) => (c :: before, found)

/-- The rule for an image element whose source is an asset; its mark of quotation is kept. -/
def sourceAssetRule (site t : Text) : Option (Text × Nat) :=
  (Text.dropWord? "<img".toList t).bind fun r =>
    (if Text.startsOutsideWord r then assetInTag? true r else none).map
      fun (before, source, q, file, rest) =>
        (t.take 4 ++ before ++ source ++ q :: site ++ '/' :: Target.baseName file ++ [q],
          t.taken rest)

/-- Reads the end of a void element: blanks, a slash or none, and `>`. -/
def voidEnd? (t : Text) : Option Text :=
  match Text.trimStart t with
  | '>' :: r => some r
  | '/' :: '>' :: r => some r
  | _ => none

/-- Reads the attributes of a void element up to its end: the attributes, and what follows.  A
slash goes with the character behind it. -/
def voidRest? : Text → Option (Text × Text)
  | [] => none
  | [c] => (voidEnd? [c]).map fun rest => ([], rest)
  | c :: d :: r =>
    match voidEnd? (c :: d :: r) with
    | some rest => some ([], rest)
    | none =>
      if c = '/' then (voidRest? r).map fun (attrs, rest) => (c :: d :: attrs, rest)
      else (voidRest? (d :: r)).map fun (attrs, rest) => (c :: attrs, rest)

theorem voidRest?_cons_cons (c d : Char) (r : Text) : voidRest? (c :: d :: r) =
    match voidEnd? (c :: d :: r) with
    | some rest => some ([], rest)
    | none =>
      if c = '/' then (voidRest? r).map fun (attrs, rest) => (c :: d :: attrs, rest)
      else (voidRest? (d :: r)).map fun (attrs, rest) => (c :: attrs, rest) := by
  rfl

/-- The elements without content. -/
def voidNames : List Text :=
  ["br", "hr", "img", "input"].map String.toList

/-- The rule for a void element, which it closes. -/
def voidRule (t : Text) : Option (Text × Nat) :=
  voidNames.findSome? fun name =>
    (Text.dropWord? ('<' :: name) t).bind fun r =>
      (if Text.startsOutsideWord r then voidRest? r else none).map fun (attrs, rest) =>
        (t.take (t.taken r) ++ attrs.trimEnd ++ "/>".toList, t.taken rest)

/-- The rule for one of the wiki's spans, which it unwraps. -/
def customSpanRule (t : Text) : Option (Text × Nat) :=
  (Text.dropWord? "<span".toList t).bind fun r =>
    match r with
    | c :: _ =>
      if isBlank c then
        ((Text.dropWord? "data-gb-custom-inline".toList (Text.trimStart r)).bind tagRest?).bind
          fun (_, r) => (Text.seek (Text.dropWord? "</span>".toList) r).map
            fun (inner, rest) => (inner, t.taken rest)
      else none
    | [] => none

/-- The rule for a caption, which it sets in italics. -/
def captionRule (t : Text) : Option (Text × Nat) :=
  (openTag? "figcaption".toList t).bind fun (_, r) =>
    (Text.seek (Text.dropWord? "</figcaption>".toList) r).map fun (inner, rest) =>
      ('*' :: inner ++ ['*'], t.taken rest)

/-- The rule for a tag of a figure, or a bare tag of a caption, which it drops. -/
def figureTagRule (t : Text) : Option (Text × Nat) :=
  let figure := ((openTag? "figure".toList t).or (openTag? "/figure".toList t)).map (·.2)
  let caption := (Text.dropWord? "<figcaption>".toList t).or
    (Text.dropWord? "</figcaption>".toList t)
  (figure.or caption).map fun rest => ([], t.taken rest)

/-- Asset paths and void elements in a part of a line that is no code. -/
def normalizeInline (site part : Text) : Text :=
  ((part.rewrite (imageAssetRule site)).rewrite (sourceAssetRule site)).rewrite voidRule

/-- One stretch of prose. -/
def normalizeProse (site t : Text) : Text :=
  let t := (t.rewrite figureRule).mapLineProse (normalizeInline site)
  ((t.rewrite customSpanRule).rewrite captionRule).rewrite figureTagRule

/-- Makes the inline HTML of a body fit for MDX. -/
def normalize (o : HtmlOptions) (body : Text) : Text :=
  body.mapProse (normalizeProse (o.assetPrefix.dropEndWhile (· = '/')))

end MdxPress.Html
