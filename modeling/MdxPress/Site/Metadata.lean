import MdxPress.Fence.Segment
import MdxPress.Name
import MdxPress.Page.Header
import MdxPress.Site.Config

/-!
# Metadata

The title, the description and the keywords of a page.  What the header of the page has is kept;
the rest is made from the family of the page, from its content, and from its file name.

* `Metadata.ofPage` makes the metadata of a page;
* `Metadata.renderHeader` writes a header.
-/

namespace MdxPress

/-- A value, and whether the page had it. -/
structure Provided (α : Type) where
  isPresent : Bool
  value : α
  deriving DecidableEq, Repr

/-- The value that a page has, or the one that is made for it. -/
def Provided.orElse {α : Type} (found : Option α) (made : α) : Provided α :=
  match found with
  | some v => ⟨true, v⟩
  | none => ⟨false, made⟩

/-- What the content of a page offers. -/
structure ContentInfo where
  /-- The first heading of the first level. -/
  heading : Option Text
  /-- The first line of prose that is long enough. -/
  paragraph : Option Text
  deriving DecidableEq, Repr

/-- The metadata of a page. -/
structure Metadata where
  title : Provided Text
  description : Provided Text
  keywords : Provided (List Text)
  deriving DecidableEq, Repr

namespace Metadata

/-- The longest title that is made. -/
def maxTitle : Nat := 60

/-- The longest description that is made. -/
def maxDescription : Nat := 160

/-- The greatest number of keywords that are made. -/
def maxKeywords : Nat := 6

/-- Whether the page had everything. -/
def isComplete (m : Metadata) : Bool :=
  m.title.isPresent && m.description.isPresent && m.keywords.isPresent

/-- A text of at most `max` characters; three dots stand for what is cut off. -/
def truncate (max : Nat) (t : Text) : Text :=
  if t.length ≤ max then t else t.take (max - 3) ++ "...".toList

/-! ## What a header has -/

/-- The text of a scalar that is not blank. -/
def scalarText? (v : Yaml.Value) : Option Text :=
  let text :=
    match v with
    | .string t => some t
    | .int n => some (Text.ofInt n)
    | .float f => some f.render
    | .bool b => some (if b then "true".toList else "false".toList)
    | _ => none
  text.filter fun t => !t.allBlank

/-- The parts of a text between commas that are not blank. -/
def commaParts (t : Text) : List Text :=
  ((t.splitOn (· = ',')).map Text.trim).filter (!·.isEmpty)

/-- The keywords in a header: a sequence, or a text with commas. -/
def keywords? (v : Yaml.Value) : Option (List Text) :=
  let found :=
    match v with
    | .sequence vs => vs.filterMap scalarText?
    | .string t => commaParts t
    | _ => []
  if found.isEmpty then none else some found

/-! ## What is made -/

/-- The name of the project and its language. -/
def site (c : SiteConfig) : Text :=
  c.projectName ++ ' ' :: c.language

/-- A title: of the family, of the content, or of the file. -/
def makeTitle (c : SiteConfig) (family : Option Archetype) (stem : Text) (info : ContentInfo) :
    Text :=
  truncate maxTitle <|
    match family, info.heading with
    | some a, _ => fillTemplate a.titleTemplate c.projectName c.language
    | none, some h =>
      if h.contains c.projectName then h else h ++ " - ".toList ++ site c
    | none, none => Name.humanize (Text.lower stem) ++ " - ".toList ++ site c

/-- What a page is about, told by its file name. -/
def topic (stem : Text) : Text :=
  (Text.lower stem).map fun ch => if ch = '-' || ch = '_' then ' ' else ch

/-- A description: of the family, of the content, or of the file. -/
def makeDescription (c : SiteConfig) (family : Option Archetype) (stem : Text)
    (info : ContentInfo) : Text :=
  truncate maxDescription <|
    match family, info.paragraph.filter fun p => p.length < maxDescription with
    | some a, _ => fillTemplate a.descriptionTemplate c.projectName c.language
    | none, some p => p
    | none, none =>
      Text.replace "\x7btopic\x7d".toList (topic stem)
        (fillTemplate c.fallbackDescription c.projectName c.language)

/-- The words of a file name: runs of more than three ASCII letters. -/
def stemWords (stem : Text) : List Text :=
  ((Text.lower stem).splitOn (!Text.isAsciiLetter ·)).filter fun w => 3 < w.length

/-- The first of each of several equal texts. -/
def distinct : List Text → List Text
  | [] => []
  | t :: ts => t :: (distinct ts).filter (· != t)

/-- Keywords: of the project, its language, the site, and the page. -/
def makeKeywords (c : SiteConfig) (family : Option Archetype) (stem : Text) : List Text :=
  let page :=
    match family with
    | some a => a.keywords
    | none => stemWords stem
  (distinct (Text.lower c.projectName :: c.keywords ++ c.baseKeywords ++ page)).take maxKeywords

/-- The metadata of a page. -/
def ofPage (c : SiteConfig) (family : Option Archetype) (stem : Text) (frontmatter : Yaml.Mapping)
    (info : ContentInfo) : Metadata where
  title :=
    .orElse ((frontmatter.get? "title".toList).bind scalarText?) (makeTitle c family stem info)
  description :=
    .orElse ((frontmatter.get? "description".toList).bind scalarText?)
      (makeDescription c family stem info)
  keywords :=
    .orElse ((frontmatter.get? "keywords".toList).bind keywords?) (makeKeywords c family stem)

/-! ## Headers -/

/-- A text between double quotation marks. -/
def quoted (t : Text) : Text :=
  let body := t.flatMap fun c =>
    if c = '\\' then "\\\\".toList
    else if c = '"' then "\\\"".toList
    else if c = '\n' then "\\n".toList
    else [c]
  '"' :: body ++ ['"']

/-- Whether a keyword needs no quotation marks. -/
def isBare (t : Text) : Bool :=
  t.head?.any Text.isLetterOrNumber && t.getLast? != some ' ' &&
    t.all fun c => Text.isLetterOrNumber c || " +-_./".toList.contains c

/-- The entries of a header that are no metadata. -/
def extraEntries (frontmatter : Yaml.Mapping) : Yaml.Mapping :=
  frontmatter.filter fun e =>
    !e.1.asText?.any fun k => ["title", "description", "keywords"].any fun n => n.toList == k

/-- The line of a keyword. -/
def keywordLine (k : Text) : Text :=
  "  - ".toList ++ (if isBare k then k else quoted k) ++ ['\n']

/-- A header with metadata and other entries, up to its last delimiter. -/
def renderHeader (m : Metadata) (extra : Yaml.Mapping) : Except Yaml.Error Text :=
  let head :=
    "---\ntitle: ".toList ++ quoted m.title.value ++ "\ndescription: ".toList ++
      quoted m.description.value ++ "\nkeywords:\n".toList ++ m.keywords.value.flatMap keywordLine
  (if extra.isEmpty then .ok [] else extra.render).map fun t => head ++ t ++ "---".toList

end Metadata
end MdxPress
