import MdxPress.Number.Radix
import MdxPress.Number.Text
import MdxPress.Yaml.Value

/-!
# Plain scalars

What a scalar without quotes means: null, a boolean, a number or a string.

Numbers have an optional sign; integers may have the bases 16, 8 and 2 with `0x`, `0o` and `0b`.
Several digits that begin with a zero are a string, and so is anything else that no rule takes.

* `Plain.ofText` decides;
* `Plain.isText` says whether a string may be written without quotes as far as its meaning goes.
-/

namespace MdxPress.Yaml

/-- The meaning of a plain scalar. -/
inductive Plain where
  | null
  | bool (b : Bool)
  | int (n : Int)
  /-- An integer that a value cannot hold, yet not so great that it counts as a float. -/
  | wide
  | float (f : Binary)
  | text
  deriving DecidableEq, Repr

namespace Plain

/-- The text without a sign in front. -/
def unsigned : Text → Text
  | '-' :: r => r
  | '+' :: r => r
  | t => t

/-- Several digits of which the first is a zero, with or without a sign. -/
def isZeroLed (t : Text) : Bool :=
  match unsigned t with
  | '0' :: c :: r => (c :: r).all Text.isAsciiDigit
  | _ => false

/-- Reads the magnitude of an integer in one of its bases. -/
def magnitude? (t : Text) : Option Nat :=
  match t with
  | '0' :: 'x' :: r => Text.nat? 16 r
  | '0' :: 'o' :: r => Text.nat? 8 r
  | '0' :: 'b' :: r => Text.nat? 2 r
  | t => if isZeroLed t then none else Text.nat? 10 t

/-- Reads an integer of any size. -/
def int? : Text → Option Int
  | '-' :: r => (magnitude? r).map fun n => -(n : Int)
  | '+' :: r => (magnitude? r).map fun n => (n : Int)
  | t => (magnitude? t).map fun n => (n : Int)

/-- Whether an integer is no less than minus a power of two and less than another. -/
def isWithin (low high : Nat) (n : Int) : Bool :=
  -(Binary.twoTo low : Int) ≤ n && n < (Binary.twoTo high : Int)

/-- Whether an integer fits a value. -/
def isNarrow (n : Int) : Bool :=
  isWithin 63 64 n

/-- Whether an integer, though no value, is still no float. -/
def isWide (n : Int) : Bool :=
  isWithin 127 128 n

/-- Reads a float: an infinity, the undefined number, or a decimal in the range of floats. -/
def float? (t : Text) : Option Binary :=
  let positive :=
    match t with
    | '+' :: r => r
    | t => t
  if [".inf", ".Inf", ".INF"].any fun s => positive == s.toList then some (.infinite false)
  else if ["-.inf", "-.Inf", "-.INF"].any fun s => t == s.toList then some (.infinite true)
  else if [".nan", ".NaN", ".NAN"].any fun s => t == s.toList then some .nan
  else
    match t with
    | '+' :: '+' :: _ => none
    | '+' :: '-' :: _ => none
    | t => (Binary.ofText? t).filter Binary.isFinite

/-- Whether a scalar is one of the spellings of null; the empty one is treated apart. -/
def isNull (t : Text) : Bool :=
  ["null", "Null", "NULL", "~"].any fun s => t == s.toList

/-- Reads a boolean. -/
def bool? (t : Text) : Option Bool :=
  if ["true", "True", "TRUE"].any fun s => t == s.toList then some true
  else if ["false", "False", "FALSE"].any fun s => t == s.toList then some false
  else none

/-- The meaning of a scalar that is an integer or a float. -/
def number? (t : Text) : Option Plain :=
  let asFloat := if isZeroLed t then none else (float? t).map float
  match int? t with
  | some n => if isNarrow n then some (int n) else if isWide n then some wide else asFloat
  | none => asFloat

/-- The meaning of a plain scalar. -/
def ofText (t : Text) : Plain :=
  if t.isEmpty || isNull t then null
  else
    match bool? t with
    | some b => bool b
    | none => (number? t).getD text

/-- Whether a string means itself when it is written plain. -/
def isText (t : Text) : Bool :=
  ofText t == text && !isZeroLed t

end Plain
end MdxPress.Yaml
