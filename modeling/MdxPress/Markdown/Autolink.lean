import MdxPress.Markdown.Line
import MdxPress.Text.Blank
import MdxPress.Text.Case
import MdxPress.Text.Punctuation

/-!
# Addresses in the text

An address links to itself: in angle brackets, or bare if it begins with `http://`, `https://` or
`www.`.  Characters that mean something elsewhere mean nothing inside an address.

* `Autolink.angled?` reads an address in angle brackets;
* `Autolink.bareLength?` is the length of a bare address.
-/

namespace MdxPress.Markdown.Autolink

/-- Whether a text is a scheme: a letter and up to 31 letters, digits, or other characters. -/
def isScheme (t : Text) : Bool :=
  t.head?.any Text.isAsciiLetter && 2 ≤ t.length && t.length ≤ 32 &&
    t.all fun c => Text.isAsciiAlnum c || c = '+' || c = '-' || c = '.'

/-- Whether a text is an address with a scheme. -/
def isAbsolute (t : Text) : Bool :=
  (Text.breakAt (· = ':') t).any fun (scheme, rest) =>
    isScheme scheme && rest.all fun c => 0x20 < c.toNat && c.toNat != 0x7F && c != '<'

/-- Whether a character may stand in the name of a mailbox. -/
def inMailbox (c : Char) : Bool :=
  Text.isAsciiAlnum c || Text.contains ".!#$%&'*+/=?^_\x60\x7b|\x7d~-".toList [c]

/-- Whether a text is one of the names of a host. -/
def isHostName (t : Text) : Bool :=
  t.length ≤ 63 && t.all (fun c => Text.isAsciiAlnum c || c = '-') &&
    t.head?.any Text.isAsciiAlnum && t.getLast?.any Text.isAsciiAlnum

/-- Whether a text is the address of a mailbox. -/
def isEmail (t : Text) : Bool :=
  (Text.breakAt (· = '@') t).any fun (mailbox, host) =>
    !mailbox.isEmpty && mailbox.all inMailbox && (Text.splitOn (· = '.') host).all isHostName

/-- Reads an address in angle brackets. -/
def angled? : Text → Option Text
  | '<' :: r =>
    (Text.breakAt (· = '>') r).bind fun (t, _) =>
      if isAbsolute t || isEmail t then some t else none
  | _ => none

/-- Whether a character may end a sentence, and so no bare address. -/
def isTrailing (c : Char) : Bool :=
  Text.contains "!\"'*),.:;?_~".toList [c]

/-- Whether a text goes on with characters that end no bare address, up to its end or a blank.  The
first argument tells whether an ampersand stands before, and whether letters stand between. -/
def trails : Option Bool → Text → Bool
  | none, [] => true
  | some _, [] => false
  | some named, c :: r =>
    if Text.isAsciiLetter c then trails (some true) r
    else if c = ';' && named then trails none r
    else false
  | none, c :: r =>
    if isTrailing c then trails none r
    else if c = '&' then trails (some false) r
    else if c = '<' then true
    else if c = ']' then
      r.head?.all (fun d => isGap d || isEnd d || d = '(' || d = '[') || trails none r
    else isBlank c

/-- What follows the host of a bare address.  An underscore stands neither in its last part nor in
the part before; the first two arguments tell whether one does so far. -/
def afterHost? (inLast inPrevious seen : Bool) : Text → Option Text
  | [] => if inLast || inPrevious || !seen then none else some []
  | c :: r =>
    let stop := if inLast || inPrevious || !seen then none else some (c :: r)
    if c = '.' then if trails none (c :: r) then stop else afterHost? false inLast seen r
    else if c = '_' then if trails none (c :: r) then stop else afterHost? true inPrevious seen r
    else if c = '-' then afterHost? inLast inPrevious seen r
    else if isBlank c || Text.isPunctuation c then stop
    else afterHost? inLast inPrevious true r

/-- What follows the path of a bare address, in which some parentheses were opened and some were
closed. -/
def afterPath (opened closed : Nat) : Text → Text
  | [] => []
  | c :: r =>
    if isBlank c then c :: r
    else if c = '(' then afterPath (opened + 1) closed r
    else if isTrailing c || c = '&' || c = '<' || c = ']' then
      if trails none (c :: r) && !(c = ')' && closed < opened) then c :: r
      else afterPath opened (if c = ')' then closed + 1 else closed) r
    else afterPath opened closed r

/-- The text from the host of a bare address on. -/
def host? (before : Option Char) (t : Text) : Option Text :=
  let lower := Text.asciiLower t
  let isWeb := before.all fun c =>
    isGap c || isEnd c || Text.contains "(*_[]~".toList [c]
  if Text.startsWith lower "www.".toList then if isWeb && 4 < t.length then some t else none
  else if before.any Text.isAsciiLetter then none
  else
    ((Text.dropStart? "https://".toList lower).or (Text.dropStart? "http://".toList lower)).map
      fun rest => t.drop (t.length - rest.length)

/-- The length of the bare address that a text begins with, behind the character `before`. -/
def bareLength? (before : Option Char) (t : Text) : Option Nat :=
  ((host? before t).bind (afterHost? false false false)).map fun rest =>
    t.length - (afterPath 0 0 rest).length

end MdxPress.Markdown.Autolink
