import MdxPress.Markdown.Line
import MdxPress.Text.Letter

/-!
# HTML in a page

Tags, comments, instructions, declarations and character data.  A tag may run over a line ending
wherever it may hold a blank.

* `Tag.afterOpening?` and `Tag.afterClosing?` read a tag;
* `Html.after?` reads any of them.
-/

namespace MdxPress.Markdown

namespace Tag

/-- Whether a character separates the parts of a tag. -/
def isGapOrEnd (c : Char) : Bool :=
  isGap c || isEnd c

/-- Whether a character may stand in the name of a tag. -/
def inName (c : Char) : Bool :=
  Text.isAsciiAlnum c || c = '-'

/-- Whether a character may begin the name of an attribute. -/
def startsAttribute (c : Char) : Bool :=
  Text.isAsciiLetter c || c = ':' || c = '_'

/-- Whether a character may stand in the name of an attribute. -/
def inAttribute (c : Char) : Bool :=
  Text.isAsciiAlnum c || c = '-' || c = '.' || c = ':' || c = '_'

/-- Whether a character may stand in a value without quotes. -/
def inBareValue (c : Char) : Bool :=
  !isGapOrEnd c && c != '"' && c != '\'' && c != '/' && c != '<' && c != '=' && c != '>' &&
    c != '\x60'

/-- What follows the name of a tag. -/
def afterName? : Text → Option Text
  | [] => none
  | c :: r => if Text.isAsciiLetter c then some (r.dropWhile inName) else none

/-- What follows the value of an attribute. -/
def afterValue? : Text → Option Text
  | [] => none
  | c :: r =>
    if c = '"' || c = '\'' then
      (Text.breakAt (· = c) r).bind fun (_, rest) =>
        match rest with
        | [] => none
        | d :: _ => if isGapOrEnd d || d = '/' || d = '>' then some rest else none
    else if inBareValue c then some (r.dropWhile inBareValue)
    else none

/-- What follows one attribute. -/
def afterAttribute? : Text → Option Text
  | [] => none
  | c :: r =>
    if startsAttribute c then
      let behind := r.dropWhile inAttribute
      match behind.dropWhile isGapOrEnd with
      | '=' :: v => afterValue? (v.dropWhile isGapOrEnd)
      | _ => some behind
    else none

/-- What follows the attributes and the end of a tag; there are at most `fuel` attributes. -/
def afterAttributes? : Nat → Text → Option Text
  | 0, _ => none
  | fuel + 1, t =>
    match t.dropWhile isGapOrEnd with
    | '>' :: r => some r
    | '/' :: '>' :: r => some r
    | u => (afterAttribute? u).bind (afterAttributes? fuel)

/-- What follows an opening tag, read from behind its `<`. -/
def afterOpening? (t : Text) : Option Text :=
  (afterName? t).bind fun r =>
    match r with
    | [] => none
    | c :: _ => if isGapOrEnd c || c = '/' || c = '>' then afterAttributes? (r.length + 1) r else none

/-- What follows a closing tag, read from behind its `</`. -/
def afterClosing? (t : Text) : Option Text :=
  (afterName? t).bind fun r =>
    match r.dropWhile isGapOrEnd with
    | '>' :: rest => some rest
    | _ => none

end Tag

namespace Html

/-- What follows the first occurrence of `stop`. -/
def behind? (stop t : Text) : Option Text :=
  (Text.breakOn stop t).map (·.2)

/-- What follows a piece of HTML, read from behind its `<`.  The opening and the ending of a comment
or of an instruction may share characters. -/
def after? : Text → Option Text
  | '!' :: '-' :: '-' :: r =>
    if r.head? = some '>' then some (r.drop 1)
    else behind? "-->".toList ('-' :: r)
  | '!' :: '[' :: r =>
    (Text.dropStart? "CDATA[".toList r).bind (behind? "]]>".toList)
  | '!' :: c :: r => if Text.isAsciiLetter c then behind? ['>'] r else none
  | '?' :: r => behind? "?>".toList r
  | '/' :: r => Tag.afterClosing? r
  | t => Tag.afterOpening? t

end Html
end MdxPress.Markdown
