import MdxPress.Json.Token

/-!
# Reading JSON

* `Json.ofText?` reads a text that holds one value.
-/

namespace MdxPress.Json

/-- What is due in an array or an object that is not ended. -/
inductive Due where
  /-- An entry, or the end. -/
  | first
  /-- An entry. -/
  | entry
  /-- The colon behind the name of a member. -/
  | colon (name : Text)
  /-- The value of a member. -/
  | value (name : Text)
  /-- A comma, or the end. -/
  | comma
  deriving DecidableEq, Repr

/-- A value that is not ended. -/
inductive Open where
  /-- The whole text, with its value if that is ended. -/
  | whole (value : Option Json)
  | array (items : List Json) (due : Due)
  | object (members : List (Text × Json)) (due : Due)
  deriving Repr

/-- Adds a value where one is due; the first string of a member is its name. -/
def place (v : Json) : List Open → Option (List Open)
  | .whole none :: os => some (.whole (some v) :: os)
  | .array items .first :: os => some (.array (items ++ [v]) .comma :: os)
  | .array items .entry :: os => some (.array (items ++ [v]) .comma :: os)
  | .object ms (.value name) :: os => some (.object (ms ++ [(name, v)]) .comma :: os)
  | .object ms .first :: os =>
    match v with
    | .text name => some (.object ms (.colon name) :: os)
    | _ => none
  | .object ms .entry :: os =>
    match v with
    | .text name => some (.object ms (.colon name) :: os)
    | _ => none
  | _ => none

/-- Whether a value is due that is no name. -/
def awaitsValue : List Open → Bool
  | .whole none :: _ => true
  | .array _ .first :: _ => true
  | .array _ .entry :: _ => true
  | .object _ (.value _) :: _ => true
  | _ => false

/-- Uses a token. -/
def step (os : List Open) (t : Token) : Option (List Open) :=
  match t, os with
  | .leaf v, os => place v os
  | .arrayStart, os => if awaitsValue os then some (.array [] .first :: os) else none
  | .objectStart, os => if awaitsValue os then some (.object [] .first :: os) else none
  | .arrayEnd, .array items .first :: os => place (.array items) os
  | .arrayEnd, .array items .comma :: os => place (.array items) os
  | .objectEnd, .object ms .first :: os => place (.object ms) os
  | .objectEnd, .object ms .comma :: os => place (.object ms) os
  | .comma, .array items .comma :: os => some (.array items .entry :: os)
  | .comma, .object ms .comma :: os => some (.object ms .entry :: os)
  | .colon, .object ms (.colon name) :: os => some (.object ms (.value name) :: os)
  | _, _ => none

/-- The value of a text. -/
def ofText? (t : Text) : Option Json :=
  ((tokens? t).bind fun ts => ts.foldlM step [.whole none]).bind fun os =>
    match os with
    | [.whole (some v)] => some v
    | _ => none

end MdxPress.Json
