import MdxPress.Entity.Table
import MdxPress.Number.Radix
import MdxPress.Text.Blank
import MdxPress.Text.Letter
import MdxPress.Text.Scan

/-!
# Character references

`&name;`, `&#65;` and `&#x41;` stand for characters.

* `Entity.named?` looks a name up;
* `Entity.decode` puts a character for every reference of a text and keeps what is none: unknown
  names, code points that are no characters, and the null character. Of the names that stand for
  two characters it takes the first.
-/

namespace MdxPress.Entity

/-- One entry of the table: a name and its text. -/
def entry? (t : Text) : Option (Text × Text) :=
  (Text.breakAt (· = '=') t).bind fun (name, codes) =>
    ((Text.splitOn (· = '+') codes).mapM (Text.nat? 16)).map fun ns => (name, ns.map Char.ofNat)

/-- The names and their texts. -/
def table : List (Text × Text) :=
  (Text.words tableText.toList).filterMap entry?

/-- The text that a name stands for. -/
def named? (name : Text) : Option Text :=
  table.lookup name

/-- The number behind `&#`, decimal or hexadecimal. -/
def code? : Text → Option Nat
  | [] => none
  | c :: r => if c = 'x' || c = 'X' then Text.nat? 16 r else Text.nat? 10 (c :: r)

/-- The character that the inside of a reference stands for. -/
def resolve? : Text → Option Char
  | '#' :: r => (code? r).bind fun n => if n ≠ 0 && n.isValidChar then some (Char.ofNat n) else none
  | name => (named? name).bind List.head?

/-- The rule for a reference: an ampersand, letters and digits, a semicolon. -/
def rule : Text → Option (Text × Nat)
  | '&' :: r =>
    let inside := r.takeWhile fun c => Text.isAsciiAlnum c || c = '#'
    match r.drop inside.length with
    | ';' :: _ => (resolve? inside).map fun c => ([c], inside.length + 2)
    | _ => none
  | _ => none

/-- Puts a character for every reference of a text. -/
def decode (t : Text) : Text :=
  t.rewrite rule

end MdxPress.Entity
