import MdxPress.Yaml.Node.Open
import MdxPress.Yaml.Token.Reader

/-!
# Documents

The node of a text that holds one document.

* `Node.ofTokens` puts tokens together;
* `Node.ofText` reads a text; the node of a text without content is missing.
-/

namespace MdxPress.Yaml

/-- What the handles of tags stand for. -/
abbrev Handles := List (Text × Text)

/-- The handles that need no directive. -/
def Handles.standard : Handles :=
  [(['!'], ['!']), (['!', '!'], "tag:yaml.org,2002:".toList)]

/-- The tag that a handle and a suffix make. -/
def Handles.resolve (hs : Handles) (handle suffix : Text) : Except Error Text :=
  if handle.isEmpty then .ok suffix
  else
    match hs.lookup handle with
    | some t => .ok (t ++ suffix)
    | none => .error .undefinedTagHandle

/-- Uses a token that nothing has to happen before. -/
def Draft.use (hs : Handles) (d : Draft) (t : Token) : Except Error Draft :=
  match t with
  | .tag handle suffix =>
    if d.awaitsNode then
      (hs.resolve handle suffix).map fun tag =>
        { d with props := some { d.nextProps with tag := some tag } }
    else .error .misplacedPart
  | t =>
    if Draft.isContent t then (if d.awaitsNode then d.content t else .error .misplacedPart)
    else d.indicator t

/-- Uses a token. -/
def Draft.step (hs : Handles) (d : Draft) (t : Token) : Except Error Draft :=
  (d.settle t 4).bind fun d => d.use hs t

/-- The node of a document whose tokens are used up. -/
def Draft.finish (d : Draft) : Except Error Node :=
  (d.settle .documentEnd 4).bind fun d =>
    match d.opens with
    | [.root (some n)] => .ok n
    | _ => .error .misplacedPart

/-- A directive. -/
def isDirective : Token → Bool
  | .versionDirective .. | .tagDirective .. => true
  | _ => false

/-- A token that belongs to no node. -/
def isBoundary : Token → Bool
  | .documentStart | .documentEnd => true
  | t => isDirective t

/-- Reads directives: one version at most, 1.1 or 1.2, and every handle once. -/
def readDirectives (hasVersion : Bool) (hs : Handles) : List Token → Except Error Handles
  | .versionDirective major minor :: ts =>
    if hasVersion || major ≠ 1 || (minor ≠ 1 && minor ≠ 2) then .error .badDirective
    else readDirectives true hs ts
  | .tagDirective handle t :: ts =>
    if (hs.lookup handle).isSome then .error .badDirective
    else readDirectives hasVersion (hs ++ [(handle, t)]) ts
  | _ => .ok (hs ++ Handles.standard)

/-- Puts the tokens of a node together. -/
def Node.ofContent (hs : Handles) (ts : List Token) : Except Error Node :=
  (ts.foldlM (Draft.step hs) Draft.start).bind Draft.finish

/-- Puts the tokens of a document together, behind its start. -/
def Node.ofBody (hs : Handles) (ts : List Token) : Except Error Node :=
  let content := ts.takeWhile (!isBoundary ·)
  let behind := ts.dropWhile (!isBoundary ·)
  (Node.ofContent hs content).bind fun n =>
    if (behind.dropWhile (· = .documentEnd)).isEmpty then .ok n else .error .severalDocuments

/-- Puts the tokens of a text together.  Without directives the start of the document may be
missing; behind it, the node may be. -/
def Node.ofTokens (ts : List Token) : Except Error (Option Node) :=
  let rest := ts.dropWhile isDirective
  (readDirectives false [] (ts.takeWhile isDirective)).bind fun hs =>
    match rest with
    | .documentStart :: r =>
      let r := if r.head?.all isBoundary then .scalar true [] :: r else r
      (Node.ofBody hs r).map some
    | r =>
      if ts.isEmpty then .ok none
      else if r.length = ts.length then (Node.ofBody hs r).map some
      else .error .badDirective

/-- The node of a text. -/
def Node.ofText (t : Text) : Except Error (Option Node) :=
  (tokens t).bind Node.ofTokens

end MdxPress.Yaml
