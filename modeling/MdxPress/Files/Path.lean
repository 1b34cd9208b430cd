import MdxPress.Text.Basic

/-!
# Paths

A path is a text with slashes between its parts.  Empty parts count for nothing, nor do single dots
except at the start of a path.
-/

namespace MdxPress.Path

/-- Whether a path starts at the root. -/
def isAbsolute (p : Text) : Bool :=
  p.startsWith ['/']

/-- The parts of a path that count. -/
def parts (p : Text) : List Text :=
  (p.splitOn (· = '/')).filter fun s => !s.isEmpty && s != ['.']

/-- Whether a path starts with a dot that counts as a part. -/
def startsHere (p : Text) : Bool :=
  (p.splitOn (· = '/')).head? == some ['.']

/-- The file name at the end of a path. -/
def fileName? (p : Text) : Option Text :=
  (parts p).getLast?.filter (· != ['.', '.'])

/-- A file name cut at its last dot; a dot at its start is part of the name. -/
def splitName (name : Text) : Text × Option Text :=
  match Text.breakOnLast ['.'] name with
  | some (stem, extension) => if stem.isEmpty then (name, none) else (stem, some extension)
  | none => (name, none)

/-- The name of the file without extension; empty, when there is none. -/
def stem (p : Text) : Text :=
  ((fileName? p).map fun n => (splitName n).1).getD []

/-- The extension of the file. -/
def extension? (p : Text) : Option Text :=
  (fileName? p).bind fun n => (splitName n).2

/-- The path without its last part; none, for a path without parts. -/
def parent? (p : Text) : Option Text :=
  let front := (if isAbsolute p then [[]] else if startsHere p then [['.']] else [])
  let ps := parts p
  if ps.isEmpty then (if startsHere p then some [] else none)
  else
    let kept := front ++ ps.dropLast
    if kept == [[]] then some ['/'] else some (Text.joinWith ['/'] kept)

end MdxPress.Path
