import MdxPress.Yaml.Error
import MdxPress.Yaml.Token.Fold

/-!
# Block scalars

Scalars whose content stands indented on lines of its own, behind `|` or `>`.

The header may give the indentation and what becomes of line breaks at the end; otherwise the first
line with content sets the indentation, and one line break is kept.
-/

namespace MdxPress.Yaml

/-- What becomes of the line breaks at the end of a block scalar. -/
inductive Chomping where
  | strip
  | clip
  | keep
  deriving DecidableEq, Repr

/-- The header of a block scalar. -/
structure BlockHeader where
  chomping : Chomping
  /-- The indentation relative to the enclosing collection, if given. -/
  increment : Option Nat
  deriving DecidableEq, Repr

namespace BlockHeader

/-- Reads a chomping indicator. -/
def chomping? : Text → Option (Chomping × Text)
  | '+' :: r => some (.keep, r)
  | '-' :: r => some (.strip, r)
  | _ => none

/-- Reads an indentation indicator, which is no zero. -/
def increment? : Text → Except Error (Option Nat × Text)
  | [] => .ok (none, [])
  | c :: r =>
    if c = '0' then .error .badBlockHeader
    else if c.isDigit then .ok (some (c.toNat - '0'.toNat), r)
    else .ok (none, c :: r)

/-- Reads the indicators of a header, in either order. -/
def indicators (t : Text) : Except Error (BlockHeader × Text) :=
  match chomping? t with
  | some (c, r) => (increment? r).map fun (n, r) => (⟨c, n⟩, r)
  | none =>
    (increment? t).map fun (n, r) =>
      match n, chomping? r with
      | some n, some (c, r) => (⟨c, some n⟩, r)
      | n, _ => (⟨.clip, n⟩, r)

/-- Reads a header with its line: spaces, a comment, and the line break. -/
def ofLine (t : Text) : Except Error (BlockHeader × Text) :=
  (indicators t).bind fun (h, r) =>
    let r := r.dropWhile isSpace
    let r := if r.head? = some '#' then r.dropWhile (!isBreak ·) else r
    match r with
    | [] => .ok (h, [])
    | '\r' :: '\n' :: r => .ok (h, r)
    | c :: r => if isBreak c then .ok (h, r) else .error .badBlockHeader

end BlockHeader

/-- Where the reader of a block scalar stands. -/
structure BlockState where
  isLiteral : Bool
  chomping : Chomping
  /-- The indentation of the enclosing collection, plus one. -/
  least : Nat
  /-- The indentation of the content; none until a line sets it. -/
  indent : Option Nat
  /-- The farthest column that spaces have reached while the indentation is not set. -/
  reached : Nat
  column : Nat
  /-- Whether the reader is inside a line of the content. -/
  inLine : Bool
  /-- The line break behind the last line of the content. -/
  first : Text
  /-- The line breaks after it. -/
  later : Text
  /-- Whether the last line of the content began with a space or tab. -/
  wasIndented : Bool
  deriving Repr

namespace BlockState

/-- The end of a block scalar's content: the line breaks that are kept. -/
def ending (s : BlockState) : Text :=
  match s.chomping with
  | .strip => []
  | .clip => s.first
  | .keep => s.first ++ s.later

/-- The line breaks between two lines of the content, the second of which begins with a space or
tab or not.  Only lines that do not are folded. -/
def between (s : BlockState) (isIndented : Bool) : Text :=
  if !s.isLiteral && s.first = ['\n'] && !s.wasIndented && !isIndented then
    (if s.later.isEmpty then [' '] else []) ++ s.later
  else s.first ++ s.later

/-- The indentation, once a line is met that is not empty. -/
def settled (s : BlockState) : Nat :=
  match s.indent with
  | some n => n
  | none => max (max s.reached s.column) (max s.least 1)

/-- Behind a line break inside a line of the content. -/
def endLine (s : BlockState) (b : Text) : BlockState :=
  { s with inLine := false, first := b, later := [], column := 0 }

/-- Behind the line break of an empty line. -/
def emptyLine (s : BlockState) (b : Text) : BlockState :=
  { s with later := s.later ++ b, reached := max s.reached s.column, column := 0 }

/-- Whether the reader is still among the spaces of the indentation. -/
def inIndentation (s : BlockState) : Bool :=
  match s.indent with
  | some n => s.column < n
  | none => true

end BlockState

/-- Reads the rest of a block scalar: its content, and the text behind it. -/
def readBlock (s : BlockState) : Text → Except Error (Text × Text)
  | [] => .ok (s.ending, [])
  | '\r' :: '\n' :: r =>
    if s.inLine then readBlock (s.endLine ['\n']) r else readBlock (s.emptyLine ['\n']) r
  | c :: r =>
    if s.inLine then
      if isBreak c then readBlock (s.endLine (breakText c)) r
      else (readBlock s r).map fun p => (c :: p.1, p.2)
    else if s.inIndentation && c = ' ' then readBlock { s with column := s.column + 1 } r
    else if s.inIndentation && c = '\t' then .error .tabIndentation
    else if isBreak c then readBlock (s.emptyLine (breakText c)) r
    else if s.column = s.settled then
      let s' := { s with
        indent := some s.settled, inLine := true, first := [], later := []
        wasIndented := isSpace c }
      (readBlock s' r).map fun p => (s.between (isSpace c) ++ c :: p.1, p.2)
    else .ok (s.ending, c :: r)

/-- Reads a block scalar behind its indicator; `enclosing` is the indentation of the collection
around it, if there is one. -/
def readBlockScalar (isLiteral : Bool) (enclosing : Option Nat) (t : Text) :
    Except Error (Text × Text) :=
  (BlockHeader.ofLine t).bind fun (h, r) =>
    let indent := h.increment.map fun n => enclosing.getD 0 + n
    readBlock ⟨isLiteral, h.chomping, (enclosing.map (· + 1)).getD 0, indent, 0, 0, false, [], [],
      false⟩ r

end MdxPress.Yaml
