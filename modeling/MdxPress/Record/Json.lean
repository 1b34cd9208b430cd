import MdxPress.Json.Reader
import MdxPress.Record.Source

/-!
# Records in JSON

Nothing is converted: a string is a string, and a list is an array.  A choice is its name, or an
object with null under its name.
-/

namespace MdxPress.Record

instance : Source Json where
  text?
    | .text t => some t
    | _ => none
  bool?
    | .bool b => some b
    | _ => none
  items?
    | .array vs => some vs
    | _ => none
  entries?
    | .object es => some es
    | _ => none
  fields?
    | .object es => some (.named es)
    | .array vs => some (.listed vs)
    | _ => none
  choice?
    | .text t => some t
    | .object [(t, .null)] => some t
    | _ => none
  isNothing?
    | .null => some true
    | _ => some false

end MdxPress.Record
