import MdxPress.Entity
import MdxPress.Fence.Segment
import MdxPress.Text.Case
import MdxPress.Text.Word

/-!
# Listings

HTML blocks that hold code, and the fences they become: `<options>…</options>` and
`<pre><code>…</code></pre>`.  Names of elements may be written in any case.
-/

namespace MdxPress.Listing

/-- Reads the rest of a tag up to the `>` that ends it: what stands before it, and what follows. -/
def tagRest? (t : Text) : Option (Text × Text) :=
  Text.breakAt (· = '>') t

/-- Reads an opening tag whose name begins with `name`: the rest of the tag, and what follows. -/
def openTag? (name t : Text) : Option (Text × Text) :=
  (Text.dropWord? ('<' :: name) t).bind tagRest?

/-- Reads an opening tag whose name is `name`: the rest of the tag, and what follows. -/
def exactTag? (name t : Text) : Option (Text × Text) :=
  (Text.dropWord? ('<' :: name) t).bind fun r =>
    if Text.startsOutsideWord r then tagRest? r else none

/-- A fenced block of `content` with the tag `language`. -/
def fenced (language content : Text) : Text :=
  "\x60\x60\x60".toList ++ language ++ '\n' :: content.trim ++ "\n\x60\x60\x60".toList

/-- The rule for an option block. -/
def optionsRule (t : Text) : Option (Text × Nat) :=
  (exactTag? "options".toList t).bind fun (_, r) =>
    (Text.seek (Text.dropWord? "</options>".toList) r).map fun (inner, rest) =>
      (fenced "txt".toList inner, t.taken rest)

/-- A character of a language in a class name. -/
def isLanguageChar (c : Char) : Bool :=
  Text.isAsciiAlnum c || c = '_' || c = '+' || c = '#' || c = '-'

/-- The language that the first `language-…` among attributes names; none gives an empty tag. -/
def languageOf (attributes : Text) : Text :=
  let reader (t : Text) : Option Text :=
    (Text.dropStart? "language-".toList t).bind fun r =>
      let l := r.takeWhile isLanguageChar
      if l.isEmpty then none else some l
  ((Text.seek reader attributes).map (·.2)).getD []

/-- The rule for a tag, which is left out: `<`, at least one character, and the next `>`. -/
def tagRule : Text → Option (Text × Nat)
  | '<' :: r =>
    (tagRest? r).bind fun (inside, _) =>
      if inside.isEmpty then none else some ([], inside.length + 2)
  | _ => none

/-- Reads the end of a preformatted block: what follows it. -/
def preEnd? (t : Text) : Option Text :=
  (Text.dropWord? "</code>".toList t).bind fun r =>
    Text.dropWord? "</pre>".toList (Text.trimStart r)

/-- The rule for a preformatted block.  Tags inside it are left out, then references decoded. -/
def preRule (t : Text) : Option (Text × Nat) :=
  (openTag? "pre".toList t).bind fun (preAttrs, r) =>
    (openTag? "code".toList (Text.trimStart r)).bind fun (codeAttrs, r) =>
      (Text.seek preEnd? r).map fun (inner, rest) =>
        (fenced (languageOf (preAttrs ++ ' ' :: codeAttrs))
          (Entity.decode (inner.rewrite tagRule)), t.taken rest)

end MdxPress.Listing
