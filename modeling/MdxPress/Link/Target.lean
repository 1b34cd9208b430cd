import MdxPress.Name

/-!
# Link targets

Where a link leads: a URL with a scheme, which is left alone, or a path to a page of the site,
which is written without the extension of its file.
-/

namespace MdxPress.Target

/-- A character of a scheme, the first one apart. -/
def isSchemeChar (c : Char) : Bool :=
  Text.isAsciiAlnum c || c = '+' || c = '-' || c = '.'

/-- Whether a target starts with a scheme, such as `https:` or `mailto:`. -/
def hasScheme (t : Text) : Bool :=
  match Text.breakAt (· = ':') t with
  | some (c :: scheme, _) => Text.isAsciiLetter c && scheme.all isSchemeChar
  | _ => false

/-- The target without the extension of its path; none, when there is nothing to strip. -/
def stripped? (t : Text) : Option Text :=
  if hasScheme t then none
  else
    let (path, anchor) :=
      match Text.breakAt (· = '#') t with
      | some (path, anchor) => (path, '#' :: anchor)
      | none => (t, [])
    let bare := Name.stripExtension path
    if bare.length = path.length then none else some (bare ++ anchor)

/-- The target without blanks around it and without the extension of its path. -/
def clean (t : Text) : Text :=
  (stripped? t.trim).getD t.trim

/-- The last segment of the path of a target; the host of a URL is no segment. -/
def lastSegment (t : Text) : Text :=
  let path := t.takeWhile fun c => c ≠ '?' && c ≠ '#'
  let path :=
    match Text.breakOn "://".toList path with
    | some (_, rest) =>
      match Text.breakAt (· = '/') rest with
      | some (_, p) => p
      | none => []
    | none => path
  ((Text.splitOn (· = '/') (Text.dropEndWhile (· = '/') path)).getLast?).getD []

/-- The name of a path: what follows its last slash. -/
def baseName (t : Text) : Text :=
  ((Text.splitOn (· = '/') t).getLast?).getD []

end MdxPress.Target
