import MdxPress.Text.Basic

/-!
# Records

Settings are records: named fields, some of which may be missing.  They are read from values of
different formats, all of which offer the views of `Source`.

A record may be written by name, or as a list of its fields in their order.  Unknown names are
passed over; a name that stands twice is an error.
-/

namespace MdxPress.Record

/-- The fields of a record as they are written. -/
inductive Fields (α : Type) where
  | named (entries : List (Text × α))
  | listed (values : List α)

/-- The views of a value; a view is missing when the value has no such form. -/
class Source (α : Type) where
  text? : α → Option Text
  bool? : α → Option Bool
  items? : α → Option (List α)
  entries? : α → Option (List (Text × α))
  fields? : α → Option (Fields α)
  /-- The name of a choice. -/
  choice? : α → Option Text
  /-- Whether the value stands for nothing. -/
  isNothing? : α → Option Bool

variable {α β : Type}

namespace Fields

/-- The value of the field at a position with a name, if it is there. -/
def get? (fs : Fields α) (position : Nat) (name : Text) : Option (Option α) :=
  match fs with
  | listed vs => some vs[position]?
  | named es =>
    match es.filter fun e => e.1 == name with
    | [] => some none
    | [e] => some (some e.2)
    | _ => none

/-- Whether there are no more than `count` fields, where they are listed. -/
def fits (fs : Fields α) (count : Nat) : Bool :=
  match fs with
  | listed vs => vs.length ≤ count
  | named _ => true

/-- Reads a field that may be missing. -/
def orDefault (fs : Fields α) (position : Nat) (name : Text) (decode : α → Option β)
    (default : β) : Option β :=
  (fs.get? position name).bind fun v =>
    match v with
    | some v => decode v
    | none => some default

/-- Reads a field that has to be there. -/
def required (fs : Fields α) (position : Nat) (name : Text) (decode : α → Option β) : Option β :=
  (fs.get? position name).bind fun v => v.bind decode

end Fields

/-- Reads a record with at most `count` fields. -/
def decode? [Source α] (count : Nat) (read : Fields α → Option β) (v : α) : Option β :=
  (Source.fields? v).bind fun fs => if fs.fits count then read fs else none

/-- Reads a list. -/
def list? [Source α] (decode : α → Option β) (v : α) : Option (List β) :=
  (Source.items? v).bind fun vs => vs.mapM decode

/-- Puts a value under a name, in the place of the value that stands there. -/
def put (name : Text) (v : β) : List (Text × β) → List (Text × β)
  | [] => [(name, v)]
  | (n, w) :: es => if n = name then (n, v) :: es else (n, w) :: put name v es

/-- Reads values by name, the last of each name. -/
def table? [Source α] (decode : α → Option β) (v : α) : Option (List (Text × β)) :=
  (Source.entries? v).bind fun es =>
    es.foldlM (fun m e => (decode e.2).map fun w => put e.1 w m) []

/-- Reads a value that may be nothing. -/
def optional? [Source α] (decode : α → Option β) (v : α) : Option (Option β) :=
  (Source.isNothing? v).bind fun nothing => if nothing then some none else (decode v).map some

/-- Reads one of several choices. -/
def oneOf? [Source α] (choices : List (Text × β)) (v : α) : Option β :=
  (Source.choice? v).bind fun c => choices.lookup c

end MdxPress.Record
