import MdxPress.Markdown.Line

/-!
# Tables

A table begins with a row of names and a row of dashes that has as many cells.

* `TableRow.headCells?` counts the cells of a line as a first row;
* `TableRow.ruleCells?` counts those of a row of dashes.
-/

namespace MdxPress.Markdown.TableRow

/-- The cells of a line: the pieces between its bars.  A backslash hides the bar or the backslash
behind it. -/
def pieces : Text → List Text
  | [] => [[]]
  | '\\' :: c :: r =>
    if c = '|' || c = '\\' then
      match pieces r with
      | [] => [['\\', c]]
      | p :: ps => ('\\' :: c :: p) :: ps
    else
      match pieces (c :: r) with
      | [] => [['\\']]
      | p :: ps => ('\\' :: p) :: ps
  | c :: r =>
    match pieces r with
    | [] => [[c]]
    | p :: ps => if c = '|' then [] :: p :: ps else (c :: p) :: ps

/-- The cells of a line, without the blank pieces before the first bar and behind the last one. -/
def cells (t : Text) : List Text :=
  match pieces t with
  | [] => []
  | [p] => [p]
  | p :: ps =>
    let inner := if p.all isGap then ps else p :: ps
    match inner.getLast? with
    | some q => if q.all isGap then inner.dropLast else inner
    | none => inner

/-- The number of cells of a line, if it may be a first row. -/
def headCells? (l : LineRest) : Option Nat :=
  let n := (cells l.body.text).length
  if 3 < l.indent || n = 0 then none else some n

/-- Whether a cell is one of a row of dashes: dashes, maybe with a colon at either end. -/
def isDashes (cell : Text) : Bool :=
  let inner := Text.dropEndWhile isGap (cell.dropWhile isGap)
  let behind := if inner.head? = some ':' then inner.drop 1 else inner
  let rest := behind.dropWhile (· = '-')
  rest.length < behind.length && (rest.isEmpty || rest == [':'])

/-- The number of cells of a row of dashes, which has a bar or a colon. -/
def ruleCells? (l : LineRest) : Option Nat :=
  let t := l.body.text
  let cs := cells t
  if 3 < l.indent || !t.any (fun c => c = '|' || c = ':') || !cs.all isDashes then none
  else some cs.length

end MdxPress.Markdown.TableRow
