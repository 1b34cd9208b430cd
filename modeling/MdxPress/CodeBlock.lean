import MdxPress.Fence
import MdxPress.Language

/-!
# Blocks of code

A block of code as the pages show it: a fence, a language, maybe a title, and the content.

* `CodeBlock.render` writes a block;
* `CodeBlock.wrapped?` reads a text that is one block and nothing else.
-/

namespace MdxPress

namespace CodeBlock

/-- The title that a block shows: without double quotes, which its attribute could not hold. -/
def shownTitle? (title : Option Text) : Option Text :=
  match title with
  | none => none
  | some t =>
    let shown := Text.trim (t.filter (· ≠ '"'))
    if shown.isEmpty then none else some shown

/-- Writes a block.  Its language is the one given, else the one its title tells, else `text`. -/
def render (title language : Option Text) (fence content : Text) : Text :=
  let shown := shownTitle? title
  let tag :=
    match language with
    | some l => l
    | none => (shown.bind Language.ofFile?).getD "text".toList
  let head :=
    match shown with
    | some t => fence ++ tag ++ " title=\"".toList ++ t ++ ['"']
    | none => fence ++ tag
  head ++ '\n' :: content ++ '\n' :: fence

/-- The contents of the lines of a text. -/
def lineContents (t : Text) : List Text :=
  t.lines.map (·.content)

/-- Whether a line ends the block of `f`, blanks around it aside. -/
def isClosing (f : Fence) (line : Text) : Bool :=
  let t := line.trim
  t.all (· == f.mark.char) && f.length ≤ t.length

/-- Reads a text that is one fenced block, blanks around it aside: its opening and its content. -/
def wrapped? (t : Text) : Option (FenceOpener × Text) :=
  match lineContents t.trim with
  | [] => none
  | first :: rest =>
    (FenceOpener.ofLine? first).bind fun opener =>
      match rest.getLast? with
      | none => none
      | some last =>
        if isClosing opener.fence last then
          some (opener, Text.joinWith ['\n'] rest.dropLast)
        else none

end CodeBlock
end MdxPress
