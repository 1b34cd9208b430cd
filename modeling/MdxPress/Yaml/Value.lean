import MdxPress.Number.Binary

/-!
# YAML values

What a YAML document says: null, booleans, numbers, strings, sequences, mappings in the order of
the document, and values with a tag of their own.

* `Value.same` compares values as keys are compared: the order of a mapping does not count;
* `Mapping` is the mapping of a page header, with `Mapping.get?` for its string keys.
-/

namespace MdxPress.Yaml

/-- A YAML value.  The integers lie between -2^63 and 2^64. -/
inductive Value where
  | null
  | bool (b : Bool)
  | int (n : Int)
  | float (f : Binary)
  | string (s : Text)
  | sequence (items : List Value)
  | mapping (entries : List (Value × Value))
  | tagged (tag : Text) (value : Value)
  deriving Repr, Inhabited

/-- The entries of a mapping, in order. -/
abbrev Mapping := List (Value × Value)

/-- A tag without the exclamation mark in front; a lone mark is kept. -/
def bareTag : Text → Text
  | '!' :: c :: r => c :: r
  | t => t

mutual

/-- Whether two values are the same key. -/
def Value.same : Value → Value → Bool
  | .null, .null => true
  | .bool a, .bool b => a == b
  | .int a, .int b => a == b
  | .float a, .float b => a.same b
  | .string a, .string b => a == b
  | .sequence as, .sequence bs => sameItems as bs
  | .mapping as, .mapping bs => as.length == bs.length && sameEntries as bs
  | .tagged t a, .tagged u b => bareTag t == bareTag u && a.same b
  | _, _ => false
termination_by structural a => a

/-- Whether two sequences are the same, item by item. -/
def sameItems : List Value → List Value → Bool
  | [], [] => true
  | a :: as, b :: bs => a.same b && sameItems as bs
  | _, _ => false
termination_by structural as => as

/-- Whether every entry of one mapping stands in another. -/
def sameEntries : List (Value × Value) → List (Value × Value) → Bool
  | [], _ => true
  | (k, v) :: as, bs => (bs.any fun e => k.same e.1 && v.same e.2) && sameEntries as bs
termination_by structural as => as

end

namespace Value

/-- The text of a string. -/
def text? : Value → Option Text
  | string s => some s
  | _ => none

/-- A value without its tag. -/
def untag : Value → Value
  | tagged _ v => v.untag
  | v => v

/-- The text of a string, tagged or not. -/
def asText? (v : Value) : Option Text :=
  v.untag.text?

/-- Whether a value is the string `key`. -/
def isKey (key : Text) (v : Value) : Bool :=
  v.text? == some key

end Value

/-- The value of a string key. -/
def Mapping.get? (m : Mapping) (key : Text) : Option Value :=
  (m.find? fun e => e.1.isKey key).map (·.2)

/-- Whether a mapping has a string key. -/
def Mapping.has (m : Mapping) (key : Text) : Bool :=
  m.any fun e => e.1.isKey key

/-- Whether a key stands twice among entries. -/
def hasDuplicateKey : Mapping → Bool
  | [] => false
  | (k, _) :: rest => rest.any (fun e => k.same e.1) || hasDuplicateKey rest

end MdxPress.Yaml
