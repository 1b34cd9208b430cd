import MdxPress.Number.Radix
import MdxPress.Yaml.Error
import MdxPress.Yaml.Token.Fold

/-!
# Plain and quoted scalars

Reading a scalar that is no block.  Each reader gives the content and the text behind it.
-/

namespace MdxPress.Yaml

/-- A plain scalar as read. -/
structure PlainScalar where
  content : Text
  rest : Text
  /-- Whether a line ended behind the content. -/
  broken : Bool
  deriving Repr

/-- A character in front. -/
def PlainScalar.prepend (t : Text) (p : PlainScalar) : PlainScalar :=
  { p with content := t ++ p.content }

/-- A character that ends a plain scalar in a flow collection. -/
def isFlowIndicator (c : Char) : Bool :=
  c = ',' || c = '[' || c = ']' || c = '{' || c = '}'

/-- Whether the text ends a plain scalar. -/
def endsPlain (inFlow : Bool) : Text → Bool
  | [] => true
  | c :: r => (c = ':' && atGap r) || (inFlow && isFlowIndicator c)

/-- Whether the text holds a colon that a plain scalar of a flow collection may not hold. -/
def hasPlainColon (inFlow : Bool) : Text → Bool
  | ':' :: c :: _ => inFlow && (isFlowIndicator c || c = '?')
  | _ => false

/-- Whether a plain scalar ends behind a gap: at a lesser indentation, at the mark of a document or
at a comment. -/
def endsBehindGap (inFlow : Bool) (indent column : Nat) (t : Text) : Bool :=
  (!inFlow && column < indent) || (column = 0 && atDocumentMark t) || t.head? == some '#'

/-- Reads the rest of a plain scalar that stands at `column` behind the gap `gap`. -/
def readPlain (inFlow : Bool) (indent column : Nat) (gap : Fold) :
    Text → Except Error PlainScalar
  | [] => .ok ⟨[], [], gap.broken⟩
  | '\r' :: '\n' :: r => readPlain inFlow indent 0 (gap.lineBreak ['\n']) r
  | c :: r =>
    if isBreak c then readPlain inFlow indent 0 (gap.lineBreak (breakText c)) r
    else if isSpace c then
      if gap.broken && column < indent && c = '\t' then .error .tabIndentation
      else readPlain inFlow indent (column + 1) (gap.space c) r
    else if !gap.isEmpty && endsBehindGap inFlow indent column (c :: r) then
      .ok ⟨[], c :: r, gap.broken⟩
    else if hasPlainColon inFlow (c :: r) then .error .plainColon
    else if endsPlain inFlow (c :: r) then .ok ⟨[], c :: r, gap.broken⟩
    else (readPlain inFlow indent (column + 1) .empty r).map (·.prepend (gap.text ++ [c]))

/-- Where a quoted scalar stands: in its content, behind a backslash, or in the digits of an
escape, so many of which are missing. -/
inductive QuoteMode where
  | content
  | backslash
  | digits (missing value : Nat)
  deriving DecidableEq, Repr

/-- The character that a letter behind a backslash stands for. -/
def escapeOf? (c : Char) : Option Char :=
  match c with
  | '0' => some (Char.ofNat 0)
  | 'a' => some (Char.ofNat 7)
  | 'b' => some (Char.ofNat 8)
  | 't' => some '\t'
  | '\t' => some '\t'
  | 'n' => some '\n'
  | 'v' => some (Char.ofNat 0xB)
  | 'f' => some (Char.ofNat 0xC)
  | 'r' => some '\r'
  | 'e' => some (Char.ofNat 0x1B)
  | ' ' => some ' '
  | '"' => some '"'
  | '/' => some '/'
  | '\\' => some '\\'
  | 'N' => some (Char.ofNat 0x85)
  | '_' => some (Char.ofNat 0xA0)
  | 'L' => some (Char.ofNat 0x2028)
  | 'P' => some (Char.ofNat 0x2029)
  | _ => none

/-- The number of digits behind a letter that begins a numeric escape. -/
def escapeWidth? (c : Char) : Option Nat :=
  if c = 'x' then some 2 else if c = 'u' then some 4 else if c = 'U' then some 8 else none

/-- Reads the rest of a quoted scalar, and the text behind its closing quote. -/
def readQuoted (isSingle : Bool) (mode : QuoteMode) (column : Nat) (gap : Fold) :
    Text → Except Error (Text × Text)
  | [] => .error .unclosedQuote
  | '\r' :: '\n' :: r =>
    match mode with
    | .content => readQuoted isSingle .content 0 (gap.lineBreak ['\n']) r
    | .backslash => readQuoted isSingle .content 0 .escaped r
    | .digits .. => .error .badEscape
  | '\'' :: '\'' :: r =>
    if isSingle then
      (readQuoted isSingle .content (column + 2) .empty r).map fun p =>
        (gap.text ++ '\'' :: p.1, p.2)
    else
      match mode with
      | .content =>
        (readQuoted isSingle .content (column + 2) .empty r).map fun p =>
          (gap.text ++ '\'' :: '\'' :: p.1, p.2)
      | _ => .error .badEscape
  | c :: r =>
    match mode with
    | .backslash =>
      if isBreak c then readQuoted isSingle .content 0 .escaped r
      else
        match escapeOf? c with
        | some e =>
          (readQuoted isSingle .content (column + 1) .empty r).map fun p => (e :: p.1, p.2)
        | none =>
          match escapeWidth? c with
          | some n => readQuoted isSingle (.digits n 0) (column + 1) .empty r
          | none => .error .badEscape
    | .digits missing value =>
      match Text.digit? c with
      | none => .error .badEscape
      | some d =>
        let value := value * 16 + d
        if 1 < missing then readQuoted isSingle (.digits (missing - 1) value) (column + 1) .empty r
        else if value.isValidChar then
          (readQuoted isSingle .content (column + 1) .empty r).map fun p =>
            (Char.ofNat value :: p.1, p.2)
        else .error .badEscape
    | .content =>
      if isBreak c then readQuoted isSingle .content 0 (gap.lineBreak (breakText c)) r
      else if isSpace c then readQuoted isSingle .content (column + 1) (gap.space c) r
      else if column = 0 && atDocumentMark (c :: r) then .error .unclosedQuote
      else if c = (if isSingle then '\'' else '"') then .ok (gap.text, r)
      else if c = '\\' && !isSingle then
        (readQuoted isSingle .backslash (column + 1) .empty r).map fun p => (gap.text ++ p.1, p.2)
      else
        (readQuoted isSingle .content (column + 1) .empty r).map fun p =>
          (gap.text ++ c :: p.1, p.2)

end MdxPress.Yaml
