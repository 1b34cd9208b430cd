import MdxPress.Yaml.Scalar
import MdxPress.Yaml.Tree

/-!
# Values of documents

What a tree means.  A tag of the document's own makes a tagged value; the tags of the standard make
a scalar what they say; other tags make a scalar a string.

* `Value.ofTree` is the value of a tree;
* `Value.ofText` reads a text.
-/

namespace MdxPress.Yaml

/-- The tag of a tagged value: what follows the exclamation mark of a tag of the document's own. -/
def ownTag? : Text → Option Text
  | ['!'] => some ['!']
  | '!' :: r => some r
  | _ => none

namespace Value

/-- The value of a scalar without quotes. -/
def ofPlain (t : Text) : Except Error Value :=
  match Plain.ofText t with
  | .null => .ok .null
  | .bool b => .ok (.bool b)
  | .int n => .ok (.int n)
  | .wide => .error .integerRange
  | .float f => .ok (.float f)
  | .text => .ok (.string t)

/-- The value of a scalar without a tag. -/
def ofUntagged (isPlain : Bool) (t : Text) : Except Error Value :=
  if isPlain then ofPlain t else .ok (.string t)

/-- A value, or the failure of a scalar to fit its tag. -/
def orMismatch (v : Option Value) : Except Error Value :=
  match v with
  | some v => .ok v
  | none => .error .tagMismatch

/-- The integer that a scalar tagged as one is. -/
def taggedInt? (t : Text) : Option Value :=
  (Plain.int? t).bind fun n => if Plain.isNarrow n then some (.int n) else none

/-- The value of a scalar with a tag of the standard, or with a tag that means nothing. -/
def ofStandardTag (tag content : Text) : Except Error Value :=
  match Text.dropStart? "tag:yaml.org,2002:".toList tag with
  | some kind =>
    if kind = "bool".toList then orMismatch ((Plain.bool? content).map .bool)
    else if kind = "int".toList then orMismatch (taggedInt? content)
    else if kind = "float".toList then orMismatch ((Plain.float? content).map .float)
    else if kind = "null".toList then orMismatch (if Plain.isNull content then some .null else none)
    else .ok (.string content)
  | none => .ok (.string content)

/-- The value of a scalar. -/
def ofScalar (tag : Option Text) (isPlain : Bool) (content : Text) : Except Error Value :=
  match tag with
  | none => ofUntagged isPlain content
  | some tag =>
    match ownTag? tag with
    | some own => (ofUntagged isPlain content).map (.tagged own)
    | none => ofStandardTag tag content

/-- A collection with its tag, if that is one of the document's own. -/
def withTag (tag : Option Text) (v : Value) : Value :=
  match tag.bind ownTag? with
  | some own => .tagged own v
  | none => v

mutual

/-- The value of a tree. -/
def ofTree : Tree → Except Error Value
  | .scalar tag isPlain c => ofScalar tag isPlain c
  | .sequence tag items => (ofItems items).map fun vs => withTag tag (.sequence vs)
  | .mapping tag es =>
    (ofEntries es).bind fun m =>
      if hasDuplicateKey m then .error .duplicateKey else .ok (withTag tag (.mapping m))
  | .failed e => .error e

/-- The values of items. -/
def ofItems : List Tree → Except Error (List Value)
  | [] => .ok []
  | t :: ts => (ofTree t).bind fun v => (ofItems ts).map (v :: ·)

/-- The values of entries. -/
def ofEntries : List (Tree × Tree) → Except Error Mapping
  | [] => .ok []
  | (k, v) :: es =>
    (ofTree k).bind fun k => (ofTree v).bind fun v => (ofEntries es).map ((k, v) :: ·)

end

/-- The value of a text. -/
def ofText (t : Text) : Except Error Value :=
  (Tree.ofText t).bind ofTree

end Value
end MdxPress.Yaml
