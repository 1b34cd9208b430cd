import MdxPress.Total

/-!
# Texts

A text is a list of characters: every pass over a page is then a recursion on data, and every
position is a number of characters.  This module holds the searches the passes share.

* `breakOn` cuts a text at the first occurrence of another;
* `replace` puts one text for every occurrence of another, from left to right;
* `byteLength` is the length of a text in UTF-8, the unit in which offsets are reported.
-/

namespace MdxPress

/-- A stretch of a page. -/
abbrev Text := List Char

namespace Text

/-- What holds of all characters of a text is decided along the text. -/
instance (priority := 2000) decidableForallMem (p : Char → Prop) [DecidablePred p] (t : Text) :
    Decidable (∀ c ∈ t, p c) :=
  List.decidableBAll p t

/-- What holds of a character, if there is one, is decided on it. -/
instance (priority := 2000) decidableForallMem? (p : Char → Prop) [DecidablePred p]
    (o : Option Char) : Decidable (∀ c ∈ o, p c) :=
  Option.decidableForallMem o

/-- The text behind `start`, for a text that starts with it. -/
def dropStart? (start t : Text) : Option Text :=
  start.isPrefixOf? t

/-- The text before `stop`, for a text that ends with it. -/
def dropEnd? (stop t : Text) : Option Text :=
  (stop.reverse.isPrefixOf? t.reverse).map List.reverse

/-- Whether a text starts with `start`. -/
def startsWith (t start : Text) : Bool :=
  start.isPrefixOf t

/-- Whether a text ends with `stop`. -/
def endsWith (t stop : Text) : Bool :=
  stop.isSuffixOf t

/-- Whether `sub` stands somewhere in a text. -/
def contains (t sub : Text) : Bool :=
  match t with
  | [] => sub.isEmpty
  | c :: r => sub.isPrefixOf (c :: r) || contains r sub

/-- Cuts a text at the first occurrence of `sub`: what stands before it and what follows it. -/
def breakOn (sub : Text) : Text → Option (Text × Text)
  | [] => if sub.isEmpty then some ([], []) else none
  | c :: r =>
    match sub.isPrefixOf? (c :: r) with
    | some rest => some ([], rest)
    | none => (breakOn sub r).map fun p => (c :: p.1, p.2)

/-- Cuts a text at the last occurrence of `sub`: what stands before it and what follows it. -/
def breakOnLast (sub : Text) : Text → Option (Text × Text)
  | [] => if sub.isEmpty then some ([], []) else none
  | c :: r =>
    match breakOnLast sub r with
    | some p => some (c :: p.1, p.2)
    | none => (sub.isPrefixOf? (c :: r)).map fun rest => ([], rest)

/-- Cuts a text at the first character that satisfies `p`, which goes with neither part. -/
def breakAt (p : Char → Bool) : Text → Option (Text × Text)
  | [] => none
  | c :: r => if p c then some ([], r) else (breakAt p r).map fun q => (c :: q.1, q.2)

/-- The pieces between the characters that satisfy `p`: always one more than there are such. -/
def splitOn (p : Char → Bool) : Text → List Text
  | [] => [[]]
  | c :: r =>
    if p c then [] :: splitOn p r
    else
      match splitOn p r with
      | [] => [[c]]
      | t :: ts => (c :: t) :: ts

/-- Puts `new` for every occurrence of `old`; the first argument counts the characters of an
occurrence that are still to be passed over. -/
def replaceFrom (old new : Text) : Nat → Text → Text
  | _, [] => []
  | skip + 1, _ :: r => replaceFrom old new skip r
  | 0, c :: r =>
    if old.isPrefixOf (c :: r) then new ++ replaceFrom old new (old.length - 1) r
    else c :: replaceFrom old new 0 r

/-- Puts `new` for every occurrence of the non-empty text `old`, from left to right. -/
def replace (old new t : Text) : Text :=
  replaceFrom old new 0 t

/-- Puts `new` for every occurrence of the character `old`. -/
def replaceChar (old : Char) (new t : Text) : Text :=
  t.flatMap fun c => if c = old then new else [c]

/-- The texts one after another, with `sep` between neighbours. -/
def joinWith (sep : Text) : List Text → Text
  | [] => []
  | [t] => t
  | t :: u :: ts => t ++ sep ++ joinWith sep (u :: ts)

/-- The length of a text in UTF-8. -/
def byteLength (t : Text) : Nat :=
  total Char.utf8Size t

/-- The number of characters before the byte offset `n`: whole characters only. -/
def charsBefore (n : Nat) : Text → Nat
  | [] => 0
  | c :: r => if c.utf8Size ≤ n then charsBefore (n - c.utf8Size) r + 1 else 0

/-- The part of a text from one character position to another. -/
def slice (t : Text) (start stop : Nat) : Text :=
  (t.drop start).take (stop - start)

/-- The decimal digits of a number. -/
def ofNat (n : Nat) : Text :=
  Nat.toDigits 10 n

/-- ASCII letters in lowercase, all else as it is. -/
def asciiLower (t : Text) : Text :=
  t.map Char.toLower

end Text
end MdxPress
