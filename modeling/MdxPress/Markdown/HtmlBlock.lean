import MdxPress.Markdown.Tag

/-!
# Blocks of HTML

A line that begins with HTML starts a block that goes on to a line with its ending, or to a blank
line.

* `HtmlBlock.start?` reads a first line;
* `HtmlBlock.endsIn` tells whether a line ends a block.
-/

namespace MdxPress.Markdown

/-- The kinds of blocks, by what ends them. -/
inductive HtmlBlock where
  /-- An element whose content is no markup. -/
  | verbatim
  | comment
  | instruction
  | declaration
  | data
  /-- A tag of an element that is a block: a blank line ends it. -/
  | element
  /-- Any tag that is alone on its line: a blank line ends it. -/
  | tag
  deriving DecidableEq, Repr

namespace HtmlBlock

/-- Names of elements whose content is no markup. -/
def verbatimNames : List Text :=
  ["pre", "script", "style", "textarea"].map String.toList

/-- Names of elements that are blocks. -/
def blockNames : List Text :=
  Text.words ("address article aside base basefont blockquote body caption center col colgroup dd " ++
    "details dialog dir div dl dt fieldset figcaption figure footer form frame frameset h1 h2 h3 " ++
    "h4 h5 h6 head header hr html iframe legend li link main menu menuitem nav noframes ol " ++
    "optgroup option p param search section summary table tbody td tfoot th thead title tr track " ++
    "ul").toList

/-- Whether a tag stands at the start of a text, with only blanks behind it. -/
def isLoneTag (t : Text) : Bool :=
  let rest :=
    match t with
    | '/' :: r => Tag.afterClosing? r
    | r => Tag.afterOpening? r
  rest.any fun r => r.all isGap

/-- The kind of a block that begins with a tag, read from behind its `<`.  A lone tag begins none
where it would end a paragraph. -/
def ofTag? (interrupting : Bool) (t : Text) : Option HtmlBlock :=
  let closing := t.head? = some '/'
  let named := if closing then t.drop 1 else t
  let name := named.takeWhile Tag.inName
  let behind := named.drop name.length
  let key := Text.asciiLower name
  let isEnded := behind.head?.all fun c => isGap c || c = '>'
  if !name.head?.any Text.isAsciiLetter then none
  else if !closing && isEnded && verbatimNames.contains key then some verbatim
  else if blockNames.contains key then
    if isEnded || Text.startsWith behind "/>".toList then some element else none
  else if !interrupting && isLoneTag t then some tag
  else none

/-- The kind of the block that a line begins, and the part of the line where it may end already.
The opening of a comment or of an instruction may be a part of its ending. -/
def start? (interrupting : Bool) : Text → Option (HtmlBlock × Text)
  | '<' :: '!' :: '-' :: '-' :: r => some (comment, '-' :: '-' :: r)
  | '<' :: '!' :: '[' :: r =>
    (Text.dropStart? "CDATA[".toList r).map fun rest => (data, rest)
  | '<' :: '!' :: c :: r => if Text.isAsciiLetter c then some (declaration, r) else none
  | '<' :: '?' :: r => some (instruction, '?' :: r)
  | '<' :: r => (ofTag? interrupting r).map fun k => (k, r)
  | _ => none

/-- The ends of elements whose content is no markup. -/
def verbatimEnds : List Text :=
  verbatimNames.map fun n => "</".toList ++ n ++ ['>']

/-- Whether a block ends in a line, which is not blank, or in a part of it. -/
def endsIn (t : Text) : HtmlBlock → Bool
  | verbatim => verbatimEnds.any fun e => Text.contains (Text.asciiLower t) e
  | comment => t.contains "-->".toList
  | instruction => t.contains "?>".toList
  | declaration => t.contains ['>']
  | data => t.contains "]]>".toList
  | element => false
  | tag => false

/-- Whether a blank line ends a block. -/
def endsInBlank : HtmlBlock → Bool
  | element => true
  | tag => true
  | _ => false

end HtmlBlock
end MdxPress.Markdown
