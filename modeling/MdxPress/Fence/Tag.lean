import MdxPress.Fence.Segment
import MdxPress.Language

/-!
# Tagging fences

Passes that give a language to opening lines and leave all else as it is.

* `Text.tagBare` tags the openers without info;
* `Text.refineText` tags the `text` openers whose content tells its language.
-/

namespace MdxPress

/-- The line that opens a block, with its info replaced by a language. -/
def FenceOpener.tagged (o : FenceOpener) (language : Text) (l : Line) : Line :=
  { l with content := l.content.indentation ++ o.fence.run ++ language }

/-- The opening that a line is: it opens a block when none is open before it. -/
def FencedLine.opener? (l : FencedLine) : Option FenceOpener :=
  if l.before.isNone then FenceOpener.ofLine? l.line.content else none

namespace Text

/-- The line with a language if it opens a block without info. -/
def tagBareLine (language : Text) (l : FencedLine) : Line :=
  match l.opener? with
  | some o => if o.info.isEmpty then o.tagged language l.line else l.line
  | none => l.line

/-- Gives a language to every opener without info. -/
def tagBare (language t : Text) : Text :=
  Line.join (t.fenced.map (tagBareLine language))

/-- The language to give to a line that opens a `text` block before the lines `rest`. -/
def refinement? (l : FencedLine) (rest : List FencedLine) : Option (FenceOpener × Text) :=
  l.opener?.bind fun o =>
    if o.info = "text".toList then
      let content := (l.after.content (rest.map (·.line))).map (·.content)
      (Language.ofCode? (joinWith ['\n'] content)).map fun language => (o, language)
    else none

/-- Lines with the languages that `text` blocks tell, and how many were given. -/
def refineLines : List FencedLine → List Line × Nat
  | [] => ([], 0)
  | l :: ls =>
    let (rest, n) := refineLines ls
    match refinement? l ls with
    | some (o, language) => (o.tagged language l.line :: rest, n + 1)
    | none => (l.line :: rest, n)

/-- Gives the `text` blocks the languages their content tells, and counts them. -/
def refineText (t : Text) : Text × Nat :=
  let (ls, n) := refineLines t.fenced
  (Line.join ls, n)

end Text
end MdxPress
