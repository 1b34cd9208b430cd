import MdxPress.Number.Radix
import MdxPress.Text.Scan

/-!
# JSON values and tokens

What a JSON text says, and the tokens it says it in.  The order of members and repeated names are kept;
of a number no more is known than that it is one.

* `Json.tokens?` cuts a text into tokens; none, when a part of it is no token.
-/

namespace MdxPress

/-- A JSON value. -/
inductive Json where
  | null
  | bool (b : Bool)
  | number
  | text (t : Text)
  /-- A string that holds half a surrogate pair, which is no text. -/
  | brokenText
  | array (items : List Json)
  | object (members : List (Text × Json))
  deriving Repr, Inhabited

namespace Json

/-- A token: a value that has no parts, or a mark. -/
inductive Token where
  | leaf (value : Json)
  | arrayStart
  | arrayEnd
  | objectStart
  | objectEnd
  | colon
  | comma
  deriving Repr

/-! ## Strings -/

/-- A unit of a string: a character, or half a surrogate pair. -/
inductive StringUnit where
  | char (c : Char)
  | surrogate (n : Nat)
  deriving DecidableEq, Repr

/-- The character that a letter behind a backslash stands for. -/
def escapeOf? (c : Char) : Option Char :=
  match c with
  | '"' => some '"'
  | '\\' => some '\\'
  | '/' => some '/'
  | 'b' => some (Char.ofNat 8)
  | 'f' => some (Char.ofNat 0xC)
  | 'n' => some '\n'
  | 'r' => some '\r'
  | 't' => some '\t'
  | _ => none

/-- The unit with a number. -/
def unitOf (n : Nat) : StringUnit :=
  if 0xD800 ≤ n && n ≤ 0xDFFF then .surrogate n else .char (Char.ofNat n)

/-- Reads the units of a string up to its closing quotation mark. -/
def readUnits : Text → Option (List StringUnit × Text)
  | [] => none
  | '"' :: r => some ([], r)
  | '\\' :: 'u' :: a :: b :: c :: d :: r =>
    (Text.nat? 16 [a, b, c, d]).bind fun n =>
      (readUnits r).map fun p => (unitOf n :: p.1, p.2)
  | '\\' :: c :: r =>
    (escapeOf? c).bind fun e => (readUnits r).map fun p => (.char e :: p.1, p.2)
  | c :: r =>
    if c.toNat < 0x20 || c = '\\' then none
    else (readUnits r).map fun p => (.char c :: p.1, p.2)

/-- The character of a surrogate pair. -/
def pairOf? (high low : Nat) : Option Char :=
  if high < 0xDC00 && 0xDC00 ≤ low then
    some (Char.ofNat (0x10000 + (high - 0xD800) * 0x400 + (low - 0xDC00)))
  else none

/-- The text of units; none, when a half has no other half. -/
def textOf? : List StringUnit → Option Text
  | [] => some []
  | .char c :: us => (textOf? us).map (c :: ·)
  | .surrogate h :: .surrogate l :: us =>
    (pairOf? h l).bind fun c => (textOf? us).map (c :: ·)
  | .surrogate _ :: _ => none

/-- Reads a string behind its opening quotation mark. -/
def readString (t : Text) : Option (Json × Text) :=
  (readUnits t).map fun (us, r) =>
    match textOf? us with
    | some s => (.text s, r)
    | none => (.brokenText, r)

/-! ## Numbers -/

/-- Drops digits, of which there is one at least. -/
def dropDigits? (t : Text) : Option Text :=
  if t.head?.any Char.isDigit then some (t.dropWhile Char.isDigit) else none

/-- Drops the whole part of a number, which has no zero in front. -/
def dropWhole? : Text → Option Text
  | '0' :: r => some r
  | t => dropDigits? t

/-- Drops the part of a number behind the point, if there is one. -/
def dropFraction? : Text → Option Text
  | '.' :: r => dropDigits? r
  | t => some t

/-- Drops the exponent of a number, if there is one. -/
def dropExponent? : Text → Option Text
  | c :: r =>
    if c = 'e' || c = 'E' then
      match r with
      | '+' :: r => dropDigits? r
      | '-' :: r => dropDigits? r
      | r => dropDigits? r
    else some (c :: r)
  | [] => some []

/-- Drops a number. -/
def dropNumber? (t : Text) : Option Text :=
  let digits :=
    match t with
    | '-' :: r => r
    | t => t
  ((dropWhole? digits).bind dropFraction?).bind dropExponent?

/-! ## Tokens -/

/-- The names of values. -/
def words : List (Text × Json) :=
  [("null".toList, .null), ("true".toList, .bool true), ("false".toList, .bool false)]

/-- Reads the name of a value. -/
def readWord (t : Text) : Option (Json × Text) :=
  words.findSome? fun (w, v) => (Text.dropStart? w t).map fun r => (v, r)

/-- Reads a token that is no mark. -/
def readLeaf : Text → Option (Json × Text)
  | '"' :: r => readString r
  | t => (readWord t).or ((dropNumber? t).map fun r => (.number, r))

/-- A character between tokens. -/
def isGap (c : Char) : Bool :=
  c = ' ' || c = '\t' || c = '\n' || c = '\r'

/-- The mark that a character is. -/
def mark? (c : Char) : Option Token :=
  match c with
  | '[' => some .arrayStart
  | ']' => some .arrayEnd
  | '\x7b' => some .objectStart
  | '\x7d' => some .objectEnd
  | ':' => some .colon
  | ',' => some .comma
  | _ => none

/-- Reads the tokens of a text, when the next `skip` characters are read already. -/
def tokensFrom? : Nat → Text → Option (List Token)
  | _, [] => some []
  | skip + 1, _ :: r => tokensFrom? skip r
  | 0, c :: r =>
    if isGap c then tokensFrom? 0 r
    else
      match mark? c with
      | some m => (tokensFrom? 0 r).map (m :: ·)
      | none =>
        (readLeaf (c :: r)).bind fun (v, rest) =>
          (tokensFrom? (Text.taken r rest) r).map (.leaf v :: ·)

/-- Reads the tokens of a text. -/
def tokens? (t : Text) : Option (List Token) :=
  tokensFrom? 0 t

end Json
end MdxPress
