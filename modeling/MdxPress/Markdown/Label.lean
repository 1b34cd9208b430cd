import MdxPress.Markdown.Line
import MdxPress.Text.Case

/-!
# Labels and targets

A link names its target behind its text, or by a label that is defined elsewhere on the page.

* `Label.key` is what labels are compared by;
* `Definition.read?` reads the definition of a label, `Definition.readAll` those a paragraph begins
  with;
* `Target.after?` reads a target behind the text of a link.
-/

namespace MdxPress.Markdown

namespace Label

/-- The greatest length of a label. -/
def maxLength : Nat := 999

/-- A label up to its closing bracket, read from behind the opening one, and what follows. -/
def inside? : Text → Option (Text × Text)
  | [] => none
  | '[' :: _ => none
  | ']' :: r => some ([], r)
  | '\\' :: c :: r =>
    if c = '[' || c = ']' || c = '\\' then (inside? r).map fun p => ('\\' :: c :: p.1, p.2)
    else (inside? (c :: r)).map fun p => ('\\' :: p.1, p.2)
  | c :: r => (inside? r).map fun p => (c :: p.1, p.2)

/-- Whether labels may look like this: not blank, and not too long. -/
def isValid (label : Text) : Bool :=
  label.length ≤ maxLength && label.any fun c => !isGap c && !isEnd c

/-- A label that a bracket opens, and what follows it. -/
def read? : Text → Option (Text × Text)
  | '[' :: r => (inside? r).filter fun p => isValid p.1
  | _ => none

/-- What labels are compared by: case and the kind of blanks do not matter. -/
def key (label : Text) : Text :=
  let words := (Text.splitOn (fun c => isGap c || isEnd c) label).filter fun w => !w.isEmpty
  (Text.lower (Text.joinWith [' '] words)).flatMap Text.upperChar

end Label

namespace Target

/-- Whether a character is a control character of ASCII. -/
def isControl (c : Char) : Bool :=
  c.toNat < 0x20 || c.toNat = 0x7F

/-- What follows an address in angle brackets, read from behind the opening one. -/
def afterAngled? : Text → Option Text
  | [] => none
  | '>' :: r => some r
  | '<' :: _ => none
  | '\\' :: c :: r =>
    if c = '<' || c = '>' || c = '\\' then afterAngled? r else afterAngled? (c :: r)
  | c :: r => if isEnd c then none else afterAngled? r

/-- What follows an address, inside `depth` parentheses of it; at most `limit` may be open. -/
def afterBare? (limit : Nat) : Nat → Text → Option Text
  | depth, [] => if depth = 0 then some [] else none
  | depth, '\\' :: c :: r =>
    if c = '(' || c = ')' || c = '\\' then afterBare? limit depth r
    else afterBare? limit depth (c :: r)
  | depth, c :: r =>
    if c = '(' then if depth < limit then afterBare? limit (depth + 1) r else none
    else if c = ')' then if depth = 0 then some (c :: r) else afterBare? limit (depth - 1) r
    else if isGap c || isEnd c then if depth = 0 then some (c :: r) else none
    else if isControl c then none
    else afterBare? limit depth r

/-- What follows an address. -/
def afterAddress? (limit : Nat) : Text → Option Text
  | [] => none
  | '<' :: r => afterAngled? r
  | c :: r => if isControl c || c = ' ' || c = ')' then none else afterBare? limit 0 (c :: r)

/-- What follows a title, read from behind its opening mark. -/
def afterTitleMark? (stop : Char) : Text → Option Text
  | [] => none
  | '\\' :: c :: r =>
    if c = stop || c = '\\' then afterTitleMark? stop r else afterTitleMark? stop (c :: r)
  | c :: r => if c = stop then some r else afterTitleMark? stop r

/-- What follows a title. -/
def afterTitle? : Text → Option Text
  | '"' :: r => afterTitleMark? '"' r
  | '\'' :: r => afterTitleMark? '\'' r
  | '(' :: r => afterTitleMark? ')' r
  | _ => none

/-- The number of parentheses that may be open in the address behind the text of a link. -/
def maxDepth : Nat := 32

/-- What follows a target in parentheses, read from behind the opening one. -/
def after? (t : Text) : Option Text :=
  let close := fun u : Text =>
    match skipGap u with
    | ')' :: r => some r
    | _ => none
  (close t).or <|
    (afterAddress? maxDepth (skipGap t)).bind fun rest =>
      (close rest).or <|
        if (skipGap rest).length < rest.length then (afterTitle? (skipGap rest)).bind close else none

end Target

namespace Definition

/-- What follows the end of a line, before which there are only blanks. -/
def afterLine? (t : Text) : Option Text :=
  match t.dropWhile isGap with
  | [] => some []
  | u => (cutEnd? u).map (·.2)

/-- What follows an address and maybe a title that nothing stands behind on their lines. -/
def afterTarget? (t : Text) : Option Text :=
  (Target.afterAddress? t.length (skipGap t)).bind fun rest =>
    let titled :=
      if (skipGap rest).length < rest.length then
        (Target.afterTitle? (skipGap rest)).bind afterLine?
      else none
    titled.or (afterLine? rest)

/-- Reads a definition: the key of its label, and what follows it. -/
def read? (t : Text) : Option (Text × Text) :=
  (Label.read? (t.dropWhile isGap)).bind fun (label, rest) =>
    match rest with
    | ':' :: r => (afterTarget? r).map fun behind => (Label.key label, behind)
    | _ => none

/-- The keys of the definitions that a paragraph begins with, and the rest of it. -/
def readAll : Nat → Text → List Text × Text
  | 0, t => ([], t)
  | fuel + 1, t =>
    match read? t with
    | some (key, rest) => let (keys, behind) := readAll fuel rest; (key :: keys, behind)
    | none => ([], t)

end Definition
end MdxPress.Markdown
