import MdxPress.Text.Basic
import MdxPress.Text.CaseTable
import MdxPress.Text.Letter

/-!
# Letter case

Lowercase and uppercase forms.  A form may have several characters, and a capital sigma at the end
of a word has a lowercase form of its own.

* `lowerChar`, `upperChar` map one character without looking at its neighbours;
* `lower` maps a text and minds the sigma;
* `titleCase` capitalises every word and lowers the rest of it;
* `sameLetter` compares a character with an ASCII letter, whatever their case.
-/

namespace MdxPress.Text

/-- The first image that one of the runs gives for a code point. -/
def runImage (runs : List CaseRun) (n : Nat) : Option Nat :=
  runs.findSome? fun r => r.map? n

/-- The lowercase form of a character. -/
def lowerChar (c : Char) : Text :=
  if c.toNat < 128 then [c.toLower]
  else if c.toNat = 0x130 then ['i', Char.ofNat 0x307]
  else
    match runImage lowerRuns c.toNat with
    | some n => [Char.ofNat n]
    | none => [c]

/-- The uppercase form of a character. -/
def upperChar (c : Char) : Text :=
  if c.toNat < 128 then [c.toUpper]
  else
    match upperLong.find? fun p => p.1 == c.toNat with
    | some p => p.2.map Char.ofNat
    | none =>
      match runImage upperRuns c.toNat with
      | some n => [Char.ofNat n]
      | none => [c]

/-- Whether a character is a cased letter. -/
def isCased (c : Char) : Bool :=
  if c.toNat < 128 then isAsciiLetter c else casedRanges.has c

/-- Whether a character is passed over when one looks for the neighbouring letter of a sigma. -/
def isCaseIgnorable (c : Char) : Bool :=
  if c.toNat < 128 then c == '\'' || c == '.' || c == ':' || c == '^' || c == '\x60'
  else caseIgnorableRanges.has c

/-- Whether the first character that is not passed over is a cased letter. -/
def meetsCased (t : Text) : Bool :=
  match t.dropWhile isCaseIgnorable with
  | [] => false
  | c :: _ => isCased c

/-- Lowers the rest of a text; the first argument holds what precedes it, nearest first. -/
def lowerAfter : Text → Text → Text
  | _, [] => []
  | before, c :: r =>
    let form :=
      if c.toNat = 0x3A3 then
        if meetsCased before && !meetsCased r then [Char.ofNat 0x3C2] else [Char.ofNat 0x3C3]
      else lowerChar c
    form ++ lowerAfter (c :: before) r

/-- The lowercase form of a text. -/
def lower (t : Text) : Text :=
  lowerAfter [] t

/-- Title case of the rest of a text, knowing whether a letter precedes it. -/
def titleCaseAfter : Bool → Text → Text
  | _, [] => []
  | inWord, c :: r =>
    if isLetter c then (if inWord then lowerChar c else upperChar c) ++ titleCaseAfter true r
    else c :: titleCaseAfter false r

/-- Title case: a letter that follows no letter goes to uppercase, every other one to lowercase. -/
def titleCase (t : Text) : Text :=
  titleCaseAfter false t

/-- Whether `c` is the ASCII letter `l` (given in lowercase) up to case.  The long s and the Kelvin
sign are case variants of `s` and `k`. -/
def sameLetter (l c : Char) : Bool :=
  c.toLower == l || (l == 's' && c.toNat == 0x17F) || (l == 'k' && c.toNat == 0x212A)

/-- The text behind `word`, for a text that starts with it in any case; `word` is lowercase. -/
def dropWord? : Text → Text → Option Text
  | [], t => some t
  | _ :: _, [] => none
  | l :: w, c :: r => if sameLetter l c then dropWord? w r else none

end MdxPress.Text
