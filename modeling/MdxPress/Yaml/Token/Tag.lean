import MdxPress.Number.Radix
import MdxPress.Yaml.Error
import MdxPress.Yaml.Token

/-!
# Names, tags and directives

Reading the tokens that carry no content: anchors and aliases, tags, and the directives before a
document.  Each reader gives the token and the text behind it.
-/

namespace MdxPress.Yaml

/-! ## Anchors and aliases -/

/-- Characters that may follow the name of an anchor besides a gap. -/
def endsAnchor : Text → Bool
  | [] => true
  | c :: r => atGap (c :: r) || "?:,]\x7d%@\x60".toList.contains c

/-- Reads the name of an anchor or alias. -/
def readAnchor (t : Text) : Except Error (Text × Text) :=
  let name := t.takeWhile isNameChar
  let rest := t.dropWhile isNameChar
  if name.isEmpty || !endsAnchor rest then .error .badAnchor else .ok (name, rest)

/-! ## Tags -/

/-- A character of a tag. -/
def isTagChar (isVerbatim : Bool) (c : Char) : Bool :=
  isNameChar c || ";/?:@&=+$.%!~*'()".toList.contains c ||
    (isVerbatim && (c = ',' || c = '[' || c = ']'))

/-- The octets of a tag, whose escapes are a percent sign and two hexadecimal digits. -/
def octets? : Text → Option (List UInt8)
  | [] => some []
  | '%' :: a :: b :: r =>
    (Text.digit? a).bind fun x => (Text.digit? b).bind fun y =>
      (octets? r).map (UInt8.ofNat (x * 16 + y) :: ·)
  | c :: r => if c = '%' then none else (octets? r).map (UInt8.ofNat c.toNat :: ·)

/-- A tag with its escapes replaced. -/
def unescapeTag? (t : Text) : Option Text :=
  (octets? t).bind fun os => (String.fromUTF8? ⟨os.toArray⟩).map String.toList

/-- Reads the characters of a tag. -/
def readTagText (isVerbatim : Bool) (t : Text) : Except Error (Text × Text) :=
  match unescapeTag? (t.takeWhile (isTagChar isVerbatim)) with
  | some s => .ok (s, t.dropWhile (isTagChar isVerbatim))
  | none => .error .badTag

/-- Reads the characters of a tag, of which there is one at least. -/
def readTagText1 (isVerbatim : Bool) (t : Text) : Except Error (Text × Text) :=
  (readTagText isVerbatim t).bind fun p => if p.1.isEmpty then .error .badTag else .ok p

/-- Reads a tag behind its exclamation mark: written out between angle brackets, with a handle of
its own, or with the handle that is one mark. -/
def readTagParts (t : Text) : Except Error (Token × Text) :=
  match t with
  | '<' :: r =>
    (readTagText1 true r).bind fun (suffix, rest) =>
      match rest with
      | '>' :: rest => .ok (.tag [] suffix, rest)
      | _ => .error .badTag
  | t =>
    let name := t.takeWhile isNameChar
    match t.dropWhile isNameChar with
    | '!' :: r =>
      (readTagText1 false r).map fun (suffix, rest) => (.tag ('!' :: name ++ ['!']) suffix, rest)
    | r =>
      (readTagText false r).map fun (suffix, rest) =>
        let whole := name ++ suffix
        (if whole.isEmpty then .tag [] ['!'] else .tag ['!'] whole, rest)

/-- Reads a tag behind its exclamation mark, up to a gap, or to a comma in a flow collection. -/
def readTag (inFlow : Bool) (t : Text) : Except Error (Token × Text) :=
  (readTagParts t).bind fun (token, rest) =>
    if atGap rest || (inFlow && rest.head? = some ',') then .ok (token, rest) else .error .badTag

/-! ## Directives -/

/-- Reads a number of at most nine digits. -/
def readVersionNumber (t : Text) : Except Error (Nat × Text) :=
  let digits := t.takeWhile Char.isDigit
  match Text.nat? 10 digits with
  | some n => if 9 < digits.length then .error .badDirective else .ok (n, t.dropWhile Char.isDigit)
  | none => .error .badDirective

/-- Reads the version of a `YAML` directive. -/
def readVersion (t : Text) : Except Error (Token × Text) :=
  (readVersionNumber (t.dropWhile isSpace)).bind fun (major, r) =>
    match r with
    | '.' :: r => (readVersionNumber r).map fun (minor, r) => (.versionDirective major minor, r)
    | _ => .error .badDirective

/-- Reads the handle that a `TAG` directive defines. -/
def readHandle : Text → Except Error (Text × Text)
  | '!' :: r =>
    let name := r.takeWhile isNameChar
    match r.dropWhile isNameChar with
    | '!' :: r => .ok ('!' :: name ++ ['!'], r)
    | r => if name.isEmpty then .ok (['!'], r) else .error .badDirective
  | _ => .error .badDirective

/-- Reads the handle of a `TAG` directive and what it stands for. -/
def readTagDirective (t : Text) : Except Error (Token × Text) :=
  (readHandle (t.dropWhile isSpace)).bind fun (handle, r) =>
    if r.head?.any isSpace then
      (readTagText1 true (r.dropWhile isSpace)).bind fun (namespacePart, r) =>
        if atGap r then .ok (.tagDirective handle namespacePart, r) else .error .badDirective
    else .error .badDirective

/-- The line break behind a directive; a comment may stand before it. -/
def readDirectiveEnd (t : Text) : Except Error Text :=
  let r := t.dropWhile isSpace
  let r := if r.head? = some '#' then r.dropWhile (!isBreak ·) else r
  if atLineEnd r then .ok r else .error .badDirective

/-- Reads a directive behind its percent sign. -/
def readDirective (t : Text) : Except Error (Token × Text) :=
  let name := t.takeWhile isNameChar
  let r := t.dropWhile isNameChar
  let body :=
    if !atGap r then .error .badDirective
    else if name = "YAML".toList then readVersion r
    else if name = "TAG".toList then readTagDirective r
    else .error .badDirective
  body.bind fun (token, r) => (readDirectiveEnd r).map fun r => (token, r)

end MdxPress.Yaml
