import MdxPress.Yaml.Token.Block
import MdxPress.Yaml.Token.Plain
import MdxPress.Yaml.Token.Tag

/-!
# The tokens of a text

A token is read from its first characters, but two things are known later only.  Block collections
have no marks of their own: a column to the right of the enclosing one begins a collection, and one
to the left ends it.  And a key is known by the colon behind it, so a place where a key may stand is
remembered until the colon is met or the line ends.

* `Cursor` is a place in a text, where a carriage return and a line feed are one line break;
* `Reader` is what has to be remembered between two tokens;
* `Reader.token` reads one token;
* `tokens` reads a text.
-/

namespace MdxPress.Yaml

/-! ## Places -/

/-- A place in a text: what is left, and the number of characters, of lines, and of characters on
its line before it. -/
structure Cursor where
  rest : Text
  index : Nat
  line : Nat
  column : Nat
  deriving DecidableEq, Repr

namespace Cursor

/-- The start of a text. -/
def start (t : Text) : Cursor := ⟨t, 0, 0, 0⟩

/-- The place behind the next character. -/
def next (c : Cursor) : Cursor :=
  match c.rest with
  | [] => c
  | ch :: r =>
    if isBreak ch && !(ch = '\r' && r.head? = some '\n') then ⟨r, c.index + 1, c.line + 1, 0⟩
    else ⟨r, c.index + 1, c.line, c.column + 1⟩

/-- The place behind the next `n` characters. -/
def skip : Nat → Cursor → Cursor
  | 0, c => c
  | n + 1, c => skip n c.next

/-- The place where `r`, an end of what is left, begins. -/
def moveTo (c : Cursor) (r : Text) : Cursor :=
  c.skip (c.rest.length - r.length)

end Cursor

/-! ## Readers -/

/-- A token that may turn out to begin a key. -/
structure KeyCandidate where
  /-- Whether it has to be a key: it stands at the column of the keys of a block mapping. -/
  isRequired : Bool
  /-- The number of tokens before it. -/
  token : Nat
  place : Cursor
  deriving Repr

/-- A key ends on its line, and within 1024 characters. -/
def KeyCandidate.isStale (k : KeyCandidate) (c : Cursor) : Bool :=
  k.place.line < c.line || k.place.index + 1024 < c.index

/-- What is remembered between two tokens. -/
structure Reader where
  cursor : Cursor
  /-- The tokens read so far. -/
  tokens : List Token
  /-- The columns of the open block collections, innermost first. -/
  blocks : List Nat
  /-- Whether a key may begin at the next token. -/
  keyAllowed : Bool
  /-- The candidate inside the innermost flow collection, or outside all. -/
  candidate : Option KeyCandidate
  /-- The candidates outside the innermost flow collection; one for every flow collection that is
  open. -/
  outer : List (Option KeyCandidate)
  deriving Repr

namespace Reader

/-- At the start of a text. -/
def start (t : Text) : Reader := ⟨.start t, [], [], true, none, []⟩

/-- Whether a flow collection is open. -/
def inFlow (s : Reader) : Bool :=
  !s.outer.isEmpty

/-- Adds a token. -/
def emit (s : Reader) (t : Token) : Reader :=
  { s with tokens := s.tokens ++ [t] }

/-- Adds a token before which `n` tokens stand. -/
def insert (s : Reader) (n : Nat) (t : Token) : Reader :=
  { s with tokens := s.tokens.take n ++ t :: s.tokens.drop n }

/-- Goes on to where `r` begins. -/
def moveTo (s : Reader) (r : Text) : Reader :=
  { s with cursor := s.cursor.moveTo r }

/-! ## Block collections -/

/-- Ends the block collections that lie to the right of a column; all, if there is none. -/
def closeBlocks (s : Reader) (column : Option Nat) : Reader :=
  if s.inFlow then s
  else
    let lies := fun b => column.all (· < b)
    let closed := (s.blocks.takeWhile lies).map fun _ => Token.blockEnd
    { s with tokens := s.tokens ++ closed, blocks := s.blocks.dropWhile lies }

/-- Begins a block collection at a column, if that lies to the right of the enclosing one. -/
def openBlock (s : Reader) (column n : Nat) (t : Token) : Reader :=
  if !s.inFlow && s.blocks.head?.all (· < column) then
    { s.insert n t with blocks := column :: s.blocks }
  else s

/-- Begins a block collection at the next token, where one may begin. -/
def openHere (s : Reader) (t : Token) : Except Error Reader :=
  if s.inFlow then .ok s
  else if s.keyAllowed then .ok (s.openBlock s.cursor.column s.tokens.length t)
  else .error .misplacedIndicator

/-! ## Keys -/

/-- Gives up a candidate, which must not be required. -/
def giveUp (k : Option KeyCandidate) : Except Error (Option KeyCandidate) :=
  if k.any (·.isRequired) then .error .missingColon else .ok none

/-- Gives up the innermost candidate. -/
def dropKey (s : Reader) : Except Error Reader :=
  (giveUp s.candidate).map fun k => { s with candidate := k }

/-- Makes the next token a candidate, if a key may begin there. -/
def markKey (s : Reader) : Except Error Reader :=
  if s.keyAllowed then
    let required := !s.inFlow && s.blocks.head? == some s.cursor.column
    s.dropKey.map fun s => { s with candidate := some ⟨required, s.tokens.length, s.cursor⟩ }
  else .ok s

/-- Gives up a candidate that is stale. -/
def refresh (c : Cursor) (k : Option KeyCandidate) : Except Error (Option KeyCandidate) :=
  if k.any (·.isStale c) then giveUp k else .ok k

/-- Gives up the candidates that are stale. -/
def dropStale (s : Reader) : Except Error Reader :=
  (refresh s.cursor s.candidate).bind fun k =>
    (s.outer.mapM (refresh s.cursor)).map fun ks => { s with candidate := k, outer := ks }

/-! ## Gaps -/

/-- What follows blanks, comments and line breaks, and whether a key may begin there.  Where a key
may begin, tabs are no blanks; the byte order mark may begin a line. -/
def skipGap (inFlow inComment keyAllowed : Bool) (column : Nat) : Text → Text × Bool
  | [] => ([], keyAllowed)
  | c :: r =>
    if isBreak c then skipGap inFlow false (keyAllowed || !inFlow) 0 r
    else if inComment then skipGap inFlow true keyAllowed (column + 1) r
    else if column = 0 && c.toNat = 0xFEFF then skipGap inFlow false keyAllowed 1 r
    else if c = ' ' || ((inFlow || !keyAllowed) && c = '\t') then
      skipGap inFlow false keyAllowed (column + 1) r
    else if c = '#' then skipGap inFlow true keyAllowed (column + 1) r
    else (c :: r, keyAllowed)

/-- Goes on to the next token, and ends the collections that do not reach it. -/
def ready (s : Reader) : Except Error Reader :=
  let (r, allowed) := skipGap s.inFlow false s.keyAllowed s.cursor.column s.cursor.rest
  let s := { s.moveTo r with keyAllowed := allowed }
  s.dropStale.map fun s => s.closeBlocks (some s.cursor.column)

/-! ## Tokens -/

/-- A directive or the mark of a document: what stands before it is ended. -/
def boundary (s : Reader) (t : Token) (r : Text) : Except Error Reader :=
  (s.closeBlocks none).dropKey.map fun s => { (s.emit t).moveTo r with keyAllowed := false }

/-- The start of a flow collection. -/
def flowStart (s : Reader) (t : Token) (r : Text) : Except Error Reader :=
  s.markKey.map fun s =>
    { (s.emit t).moveTo r with
      keyAllowed := true, candidate := none, outer := s.candidate :: s.outer }

/-- The end of a flow collection. -/
def flowEnd (s : Reader) (t : Token) (r : Text) : Except Error Reader :=
  s.dropKey.map fun s =>
    { (s.emit t).moveTo r with
      keyAllowed := false, candidate := s.outer.head?.getD none, outer := s.outer.tail }

/-- A comma between entries. -/
def flowEntry (s : Reader) (r : Text) : Except Error Reader :=
  s.dropKey.map fun s => { (s.emit .flowEntry).moveTo r with keyAllowed := true }

/-- A dash before an entry of a block sequence. -/
def blockEntry (s : Reader) (r : Text) : Except Error Reader :=
  (s.openHere .blockSequenceStart).bind fun s =>
    s.dropKey.map fun s => { (s.emit .blockEntry).moveTo r with keyAllowed := true }

/-- A question mark before a key. -/
def explicitKey (s : Reader) (r : Text) : Except Error Reader :=
  (s.openHere .blockMappingStart).bind fun s =>
    s.dropKey.map fun s => { (s.emit .key).moveTo r with keyAllowed := !s.inFlow }

/-- A colon before a value.  The candidate, if there is one, was a key. -/
def value (s : Reader) (r : Text) : Except Error Reader :=
  match s.candidate with
  | some k =>
    let s := (s.insert k.token .key).openBlock k.place.column k.token .blockMappingStart
    .ok { (s.emit .value).moveTo r with keyAllowed := false, candidate := none }
  | none =>
    (s.openHere .blockMappingStart).map fun s =>
      { (s.emit .value).moveTo r with keyAllowed := !s.inFlow }

/-- An anchor, alias, tag or quoted scalar, which may be a key. -/
def item (s : Reader) (read : Except Error (Token × Text)) : Except Error Reader :=
  s.markKey.bind fun s =>
    read.map fun (t, r) => { (s.emit t).moveTo r with keyAllowed := false }

/-- A plain scalar, which may be a key.  Where it ends with its line, another key may begin. -/
def plain (s : Reader) : Except Error Reader :=
  s.markKey.bind fun s =>
    let indent := (s.blocks.head?.map (· + 1)).getD 0
    (readPlain s.inFlow indent s.cursor.column .empty s.cursor.rest).map fun p =>
      { (s.emit (.scalar true p.content)).moveTo p.rest with keyAllowed := p.broken }

/-- A block scalar, behind which a key may begin. -/
def block (s : Reader) (isLiteral : Bool) (r : Text) : Except Error Reader :=
  s.dropKey.bind fun s =>
    (readBlockScalar isLiteral s.blocks.head? r).map fun (content, r) =>
      { (s.emit (.scalar false content)).moveTo r with keyAllowed := true }

/-- Whether a plain scalar may begin with a character and the text behind it. -/
def startsPlain (inFlow : Bool) (c : Char) (r : Text) : Bool :=
  !(isSpace c || isBreak c || "-?:,[]\x7b\x7d#&*!|>'\"%@\x60".toList.contains c) ||
    (c = '-' && !r.head?.any isSpace) ||
    (!inFlow && (c = '?' || c = ':') && !atGap r)

/-- Reads the next token, whose first character is `c`. -/
def token (s : Reader) (c : Char) (r : Text) : Except Error Reader :=
  let atStart := s.cursor.column = 0
  if atStart && c = '%' then (readDirective r).bind fun (t, r) => s.boundary t r
  else if atStart && atDocumentMark (c :: r) then
    s.boundary (if c = '-' then .documentStart else .documentEnd) (r.drop 2)
  else if c = '[' then s.flowStart .flowSequenceStart r
  else if c = '\x7b' then s.flowStart .flowMappingStart r
  else if c = ']' then s.flowEnd .flowSequenceEnd r
  else if c = '\x7d' then s.flowEnd .flowMappingEnd r
  else if c = ',' then s.flowEntry r
  else if c = '-' && atGap r then s.blockEntry r
  else if c = '?' && (s.inFlow || atGap r) then s.explicitKey r
  else if c = ':' && (s.inFlow || atGap r) then s.value r
  else if c = '*' then s.item ((readAnchor r).map fun (n, r) => (.alias n, r))
  else if c = '&' then s.item ((readAnchor r).map fun (n, r) => (.anchor n, r))
  else if c = '!' then s.item (readTag s.inFlow r)
  else if c = '|' && !s.inFlow then s.block true r
  else if c = '>' && !s.inFlow then s.block false r
  else if c = '\'' || c = '"' then
    s.item ((readQuoted (c = '\'') .content (s.cursor.column + 1) .empty r).map fun (t, r) =>
      (.scalar false t, r))
  else if startsPlain s.inFlow c r then s.plain
  else .error .strayCharacter

/-- The tokens, at the end of the text. -/
def finish (s : Reader) : Except Error (List Token) :=
  (s.closeBlocks none).dropKey.map (·.tokens)

/-- Reads all that is left.  Every token takes characters. -/
def run (s : Reader) : Except Error (List Token) :=
  s.ready.bind fun s' =>
    match s'.cursor.rest with
    | [] => s'.finish
    | c :: r =>
      (s'.token c r).bind fun s'' =>
        if s''.cursor.rest.length < s.cursor.rest.length then run s'' else .error .stuck
termination_by s.cursor.rest.length

end Reader

/-- The tokens of a text. -/
def tokens (t : Text) : Except Error (List Token) :=
  if t.all isAllowed then (Reader.start t).run else .error .controlCharacter

end MdxPress.Yaml
