import MdxPress.Record.Source
import MdxPress.Yaml.Value.OfTree

/-!
# Records in YAML

A text is any scalar, as it is written.  Where a collection is expected an empty scalar has no
entries.  A choice is a scalar, or a tag with null behind it.
-/

namespace MdxPress.Yaml.Tree

/-- The text of a scalar. -/
def text? : Tree → Option Text
  | .scalar _ _ t => some t
  | _ => none

/-- Whether a tree is a scalar that is not written. -/
def isOmitted : Tree → Bool
  | .scalar _ true [] => true
  | _ => false

/-- The entries of a mapping whose keys are scalars. -/
def entries? : Tree → Option (List (Text × Tree))
  | .mapping _ es => es.mapM fun e => e.1.text?.map fun k => (k, e.2)
  | t => if t.isOmitted then some [] else none

/-- The items of a sequence. -/
def items? : Tree → Option (List Tree)
  | .sequence _ ts => some ts
  | t => if t.isOmitted then some [] else none

/-- The boolean that a scalar is. -/
def bool? : Tree → Option Bool
  | .scalar _ true t => Plain.bool? t
  | _ => none

/-- The choice that a tag or a scalar names. -/
def choice? : Tree → Option Text
  | .scalar tag isPlain t =>
    match tag.bind ownTag? with
    | some own => if isPlain && (t.isEmpty || Plain.isNull t) then some own else none
    | none => some t
  | _ => none

/-- Whether a tree is null.  A scalar that is tagged as null has to be one. -/
def isNull? : Tree → Option Bool
  | .scalar none true t => some (t.isEmpty || Plain.isNull t)
  | .scalar (some tag) true t =>
    if tag = "tag:yaml.org,2002:null".toList then (if Plain.isNull t then some true else none)
    else some false
  | .failed _ => none
  | _ => some false

end MdxPress.Yaml.Tree

namespace MdxPress.Record

instance : Source Yaml.Tree where
  text? := Yaml.Tree.text?
  bool? := Yaml.Tree.bool?
  items? := Yaml.Tree.items?
  entries? := Yaml.Tree.entries?
  fields?
    | .sequence _ ts => some (.listed ts)
    | t => t.entries?.map .named
  choice? := Yaml.Tree.choice?
  isNothing? := Yaml.Tree.isNull?

end MdxPress.Record
