import MdxPress.Text.Blank
import MdxPress.Text.Case

/-!
# Names

Names of pages and tabs, and the titles and values made from them.

* `Name.humanize` makes a title of a file name;
* `Name.customId` finds the `{#id}` that a heading may end with;
* `Name.tabValue` makes the value of a tab from its title;
* `Name.claim` makes a value unique within a group: the second `cmake` becomes `cmake1`.
-/

namespace MdxPress.Name

/-- A link target or a file name without the extension of a document. -/
def stripExtension (target : Text) : Text :=
  ((Text.dropEnd? ".md".toList target).or (Text.dropEnd? ".mdx".toList target)).getD target

/-- A readable title for the name of a file: dashes and low lines become spaces. -/
def humanize (name : Text) : Text :=
  Text.titleCase ((stripExtension name.trim).map fun c => if c = '-' || c = '_' then ' ' else c)

/-- A character of a heading's id. -/
def isIdChar (c : Char) : Bool :=
  Text.isAsciiAlnum c || c = '-' || c = '_'

/-- Reads an id between two delimiters at the end of a text. -/
def idBetween? (left right t : Text) : Option (Text × Text) :=
  (Text.dropEnd? right t).bind fun body =>
    (Text.breakOnLast left t).bind fun p =>
      let id := body.drop (p.1.length + left.length)
      if !id.isEmpty && id.all isIdChar then some (p.1.trimEnd, id) else none

/-- The text of a heading and the id it ends with, whose braces may be escaped already. -/
def customId (t : Text) : Text × Option Text :=
  let s := t.trimEnd
  let found :=
    if s.endsWith ['}'] then idBetween? ['{', '#'] ['}'] s
    else if s.endsWith "&#125;".toList then idBetween? "&#123;#".toList "&#125;".toList s
    else none
  match found with
  | some p => (p.1, some p.2)
  | none => (t, none)

/-- The value of the tab at a position, counted from 1.  Common titles have values of their own;
otherwise the ASCII letters and digits of the title are kept, or the position is used. -/
def tabValue (title : Text) (position : Nat) : Text :=
  let name := Text.lower title.trim
  let cpp := "cpp".toList
  if name = "c++".toList || name = cpp then cpp
  else if name = ['c'] || Text.contains name "c without".toList then ['c']
  else if Text.contains name "cmake".toList then
    if Text.contains name cpp || Text.contains name "c++".toList then "cmakecpp".toList
    else "cmake".toList
  else
    let kept := name.filter Text.isAsciiAlnum
    if kept.isEmpty then "tab".toList ++ Text.ofNat position else kept

/-- The `n`-th form of a value: the value itself, then the value followed by 1, 2, … -/
def numbered (base : Text) : Nat → Text
  | 0 => base
  | n + 1 => base ++ Text.ofNat (n + 1)

/-- The first form of a value that is not in use.  One of the first `used.length + 1` forms is
free, since they are distinct. -/
def claim (used : List Text) (base : Text) : Text :=
  (((List.range (used.length + 1)).map (numbered base)).find? fun v => !used.contains v).getD base

/-- Claims values one after another. -/
def claimAll (used : List Text) : List Text → List Text
  | [] => []
  | b :: bs =>
    let v := claim used b
    v :: claimAll (v :: used) bs

end MdxPress.Name
