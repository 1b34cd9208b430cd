import MdxPress.Yaml.Error
import MdxPress.Yaml.Scalar.Render

/-!
# Values as they are written

Collections are written as blocks, one entry on a line; only empty ones are written with brackets.
A sequence in a mapping stands at the column of the keys, a mapping two columns to the right.  A
collection that is an entry of a sequence begins on the line of its dash.

* `Value.isWritable` tells which values have a text: tags do not follow each other;
* `Mapping.render` writes the mapping of a document.
-/

namespace MdxPress.Yaml

/-- A character of a tag that is written as it is. -/
def isBareTagChar (c : Char) : Bool :=
  isNameChar c || ";/?:@&=+$,.~*'()[]".toList.contains c

/-- A tag as it is written; other characters are escaped octet by octet. -/
def renderTag (tag : Text) : Text :=
  '!' :: (bareTag tag).flatMap fun c =>
    if isBareTagChar c then [c]
    else (String.singleton c).toUTF8.toList.flatMap fun o => '%' :: Text.hex 2 o.toNat

/-- A tag with the space behind it. -/
def tagLead : Option Text → Text
  | none => []
  | some t => renderTag t ++ [' ']

/-- What a collection stands behind. -/
inductive Lead where
  /-- A key and its colon. -/
  | key
  /-- A dash. -/
  | dash
  /-- The mark of a key or of a value that has a line of its own. -/
  | mark
  deriving DecidableEq, Repr

/-- A text with the line break it lacks. -/
def endLine (t : Text) : Text :=
  if t.getLast?.any isBreak then t else t ++ ['\n']

/-- Lines at a column behind a text. -/
def stack (column : Nat) (t : Text) : List Text → Text
  | [] => t
  | l :: ls => stack column (endLine t ++ spaces column ++ l) ls

/-- The lines of a collection at a column, with what stands between its indicator and them.  They
begin on the line of the indicator unless a tag or a key stands there. -/
def blockLines (lead : Lead) (tag : Option Text) (column : Nat) (lines : List Text) : Text :=
  match lead, tag, lines with
  | .key, none, ls => stack column [] ls
  | _, some t, ls => stack column (' ' :: renderTag t) ls
  | _, none, l :: ls => stack column (' ' :: l) ls
  | _, none, [] => []

/-- The column of a sequence whose indicator belongs to a collection at `column`. -/
def sequenceColumn (lead : Lead) (tag : Option Text) (column : Nat) : Nat :=
  match lead with
  | .key => column
  | .dash => column + 2
  | .mark => if tag.isSome then column else column + 2

namespace Value

/-- Whether a value has a tag. -/
def isTagged : Value → Bool
  | .tagged .. => true
  | _ => false

mutual

/-- Whether a value can be written; the first argument tells whether a tag stands before it. -/
def isWritable (behindTag : Bool) : Value → Bool
  | .tagged _ v => !behindTag && v.isWritable true
  | .sequence vs => areWritable vs
  | .mapping [(k, v)] => (behindTag || !k.isTagged) && k.isWritable false && v.isWritable false
  | .mapping es => entriesWritable es
  | _ => true

/-- Whether items can be written. -/
def areWritable : List Value → Bool
  | [] => true
  | v :: vs => v.isWritable false && areWritable vs

/-- Whether entries can be written. -/
def entriesWritable : List (Value × Value) → Bool
  | [] => true
  | (k, v) :: es => k.isWritable false && v.isWritable false && entriesWritable es

end

/-- The text of a value that takes no lines of its own; none for a collection with entries. -/
def scalar? (isKey : Bool) (column : Nat) : Value → Option Text
  | .null => some "null".toList
  | .bool b => some (if b then "true".toList else "false".toList)
  | .int n => some (Text.ofInt n)
  | .float f => some f.render
  | .string s => some (renderString isKey column s)
  | .sequence [] => some "[]".toList
  | .mapping [] => some "\x7b\x7d".toList
  | .sequence _ | .mapping _ | .tagged .. => none

/-- The length that counts for a key: the octets of its text, without quotes and escapes. -/
def keyLength : Value → Nat
  | .string s => s.byteLength
  | v => ((v.scalar? true 0).getD []).length

/-- The text of a key that stands on the line of its value, if it may: it is short, takes one line,
and is no collection with entries. -/
def simpleKey? (tag : Option Text) (v : Value) : Option Text :=
  let isMultiline := v.text?.any fun s => s.any isBreak
  let length := ((tag.map renderTag).getD []).length + v.keyLength
  if isMultiline || 128 < length then none
  else (v.scalar? true 0).map fun t => tagLead tag ++ t

/-- The text of a key with its tag, if it stands on the line of its value. -/
def lineKey? : Value → Option Text
  | .tagged t v => v.simpleKey? (some t)
  | v => v.simpleKey? none

mutual

/-- A value behind the indicator of a collection at `column`. -/
def render (lead : Lead) (tag : Option Text) (column : Nat) : Value → Text
  | .tagged t v => render lead (some t) column v
  | .sequence (v :: vs) =>
    let c := sequenceColumn lead tag column
    blockLines lead tag c (renderItems c (v :: vs))
  | .mapping (e :: es) => blockLines lead tag (column + 2) (renderEntries (column + 2) (e :: es))
  | v => ' ' :: tagLead tag ++ (v.scalar? false (column + 2)).getD []

/-- The items of a sequence at `column`. -/
def renderItems (column : Nat) : List Value → List Text
  | [] => []
  | v :: vs => ('-' :: render .dash none column v) :: renderItems column vs

/-- The entries of a mapping at `column`. -/
def renderEntries (column : Nat) : List (Value × Value) → List Text
  | [] => []
  | (k, v) :: es =>
    let entry :=
      match k.lineKey? with
      | some t => t ++ ':' :: render .key none column v
      | none =>
        stack column ('?' :: render .mark none column k) [':' :: render .mark none column v]
    entry :: renderEntries column es

end
end Value

/-- The text of a document that is a mapping. -/
def Mapping.render (m : Mapping) : Except Error Text :=
  if !(Value.mapping m).isWritable false then .error .nestedTags
  else
    match Value.renderEntries 0 m with
    | [] => .ok "\x7b\x7d\n".toList
    | l :: ls => .ok (endLine (stack 0 l ls))

end MdxPress.Yaml
