import MdxPress.Fence.Segment

/-!
# Imports

MDX accepts imports at the top level only, and the components a conversion writes need theirs.
All imports of a body are gathered at its start.

* `usesComponent` says whether a component stands in the prose of a body;
* `hoistImports` gathers the imports and adds those of the tab components.
-/

namespace MdxPress

namespace Import

/-- Whether a line is an import at the root. -/
def isImport (line : Text) : Bool :=
  line.startsWith "import ".toList && line.contains " from ".toList

/-- Whether a line names a module between quotes. -/
def names (line module : Text) : Bool :=
  line.contains ('\'' :: module ++ ['\'']) || line.contains ('"' :: module ++ ['"'])

/-- Whether a text holds the start of a tag of the component. -/
def opensTag (tag : Text) : Text → Bool
  | [] => false
  | c :: r =>
    (match Text.dropStart? tag (c :: r) with
      | some (d :: _) => d == '>' || d == '/' || isBlank d
      | _ => false) || opensTag tag r

/-- A component of the theme: its name, its module, and the statement that imports it. -/
structure ThemeComponent where
  name : Text
  module : Text
  statement : Text
  deriving DecidableEq, Repr

/-- The components of tab groups. -/
def themeComponents : List ThemeComponent :=
  [⟨"Tabs".toList, "@theme/Tabs".toList, "import Tabs from '@theme/Tabs';".toList⟩,
   ⟨"TabItem".toList, "@theme/TabItem".toList, "import TabItem from '@theme/TabItem';".toList⟩]

/-- Whether a line is an import of the body, code aside. -/
def isStatement (l : FencedLine) : Bool :=
  !l.isCode && isImport l.line.content

/-- The imports among lines, without blanks at their end, in order. -/
def statements (ls : List FencedLine) : List Text :=
  (ls.filter isStatement).map fun l => l.line.content.trimEnd

/-- The first occurrence of every text that is not among `seen`. -/
def distinctFrom (seen : List Text) : List Text → List Text
  | [] => []
  | t :: ts => if seen.contains t then distinctFrom seen ts else t :: distinctFrom (t :: seen) ts

/-- The lines that are no imports, put together. -/
def rest (ls : List FencedLine) : Text :=
  Line.join ((ls.filter fun l => !isStatement l).map (·.line))

/-- Whether all imports stand before everything but blank lines. -/
def lead (ls : List FencedLine) : Bool :=
  (ls.dropWhile fun l => isStatement l || (!l.isCode && l.line.isBlank)).all fun l =>
    !isStatement l

end Import

/-- Whether the component `name` stands as a tag in the prose of a body. -/
def usesComponent (body name : Text) : Bool :=
  body.prose.any fun t => Import.opensTag ('<' :: name) t

/-- A body with its imports gathered, and the components whose imports were added. -/
structure Hoisted where
  text : Text
  added : List Text
  deriving DecidableEq, Repr

/-- The theme components that `rest` uses and none of the `statements` imports.  A statement that
is added counts for the components after it. -/
def Import.missing (rest : Text) : List Text → List ThemeComponent → List ThemeComponent
  | _, [] => []
  | statements, c :: cs =>
    if usesComponent rest c.name && !statements.any fun s => names s c.module then
      c :: missing rest (statements ++ [c.statement]) cs
    else missing rest statements cs

/-- Gathers the imports of a body behind the line breaks it starts with.  A body whose imports
lead it already, with none missing and none twice, stays as it is. -/
def hoistImports (body : Text) : Hoisted :=
  let ls := Text.fenced body.dropBreaks
  let found := Import.statements ls
  let distinct := Import.distinctFrom [] found
  let rest := Import.rest ls
  let missing := Import.missing rest distinct Import.themeComponents
  let inPlace := Import.lead ls && distinct.length == found.length
  if (distinct.isEmpty && missing.isEmpty) || (inPlace && missing.isEmpty) then ⟨body, []⟩
  else
    let block := Text.joinWith ['\n'] (distinct ++ missing.map (·.statement))
    let behind := rest.dropBreaks
    ⟨body.leadingBreaks ++ block ++ '\n' :: (if behind.isEmpty then [] else '\n' :: behind),
      missing.map (·.name)⟩

end MdxPress
