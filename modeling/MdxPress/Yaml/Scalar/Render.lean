import MdxPress.Yaml.Scalar.Style

/-!
# Strings as they are written

The text of a string in each style.  Lines of a string are indented to a column given.
-/

namespace MdxPress.Yaml

/-- Spaces up to a column. -/
def spaces (n : Nat) : Text :=
  List.replicate n ' '

/-- A string whose lines stand indented; the first argument tells whether a line begins. -/
def indentLines (column : Nat) : Bool → Text → Text
  | _, [] => []
  | atStart, c :: r =>
    if isBreak c then c :: indentLines column true r
    else (if atStart then spaces column else []) ++ c :: indentLines column false r

/-- The letter that is the escape of a character. -/
def escapeLetter? (c : Char) : Option Char :=
  match c.toNat with
  | 0x00 => some '0'
  | 0x07 => some 'a'
  | 0x08 => some 'b'
  | 0x09 => some 't'
  | 0x0A => some 'n'
  | 0x0B => some 'v'
  | 0x0C => some 'f'
  | 0x0D => some 'r'
  | 0x1B => some 'e'
  | 0x22 => some '"'
  | 0x5C => some '\\'
  | 0x85 => some 'N'
  | 0x2028 => some 'L'
  | 0x2029 => some 'P'
  | _ => none

/-- The escape of a character. -/
def escapeText (c : Char) : Text :=
  match escapeLetter? c with
  | some l => ['\\', l]
  | none =>
    if c.toNat ≤ 0xFF then '\\' :: 'x' :: Text.hex 2 c.toNat
    else if c.toNat ≤ 0xFFFF then '\\' :: 'u' :: Text.hex 4 c.toNat
    else '\\' :: 'U' :: Text.hex 8 c.toNat

/-- A string between double quotation marks. -/
def doubleQuoted (t : Text) : Text :=
  let body := t.flatMap fun c =>
    if !isPrintable c || isBreak c || c = '"' || c = '\\' then escapeText c else [c]
  '"' :: body ++ ['"']

/-- A string between single quotation marks, which are doubled inside.  The line behind a line
break is indented, be it empty. -/
def singleQuoted (column : Nat) (t : Text) : Text :=
  let body := indentLines column false (t.flatMap fun c => if c = '\'' then ['\'', '\''] else [c])
  let last := if t.getLast?.any isBreak then spaces column else []
  '\'' :: body ++ last ++ ['\'']

/-- The mark for the end of a block: whether a line break ends it, or several. -/
def chompingMark (t : Text) : Text :=
  match t.reverse with
  | [] => ['-']
  | [c] => if isBreak c then ['+'] else ['-']
  | c :: d :: _ => if !isBreak c then ['-'] else if isBreak d then ['+'] else []

/-- A string as a block.  The indentation is given when the first line does not show it. -/
def blockText (column : Nat) (t : Text) : Text :=
  let indentation := if t.head?.any fun c => isPlainSpace c || isBreak c then ['2'] else []
  '|' :: indentation ++ chompingMark t ++ '\n' :: indentLines column true t

/-- A string as it is written where lines of it are indented to `column`. -/
def renderString (isKey : Bool) (column : Nat) (t : Text) : Text :=
  match Style.ofText isKey t with
  | .plain => t
  | .single => singleQuoted column t
  | .double => doubleQuoted t
  | .block => blockText column t

end MdxPress.Yaml
