import MdxPress.Markdown.Label

/-!
# Containers

Quotes, list items and footnotes hold the blocks whose lines begin as they demand.

* `Container.start?` reads the beginning of one off a line;
* `Container.resume?` tells what a later line has to look like to stay inside.
-/

namespace MdxPress.Markdown

/-- Whether a text, free of blanks at its start, is a rule: three marks of one kind or more, and
blanks between them. -/
def isRule (t : Text) : Bool :=
  match t with
  | [] => false
  | m :: _ =>
    (m = '*' || m = '-' || m = '_') && t.all (fun c => c = m || isGap c) &&
      3 ≤ (t.filter (· = m)).length

/-- A container that is open. -/
inductive Container where
  | quote
  /-- A list item: the columns its content is indented by, and whether it has none so far. -/
  | item (width : Nat) (empty : Bool)
  /-- A footnote and its label. -/
  | note (label : Text)
  deriving DecidableEq, Repr

namespace Container

/-- What follows the mark of a quote. -/
def afterQuote? (l : LineRest) : Option LineRest :=
  if 3 < l.indent then none
  else
    match l.body.text with
    | '>' :: r => some (LineRest.drop 1 ⟨l.body.column + 1, r⟩)
    | _ => none

/-- The length of the mark of a list item: a bullet that begins no rule, or a number of at most nine
digits.  Where it ends a paragraph the number has to be one. -/
def markLength? (interrupting : Bool) : Text → Option Nat
  | [] => none
  | c :: r =>
    if c = '+' then some 1
    else if c = '*' || c = '-' then if isRule (c :: r) then none else some 1
    else
      let digits := (c :: r).takeWhile Text.isAsciiDigit
      let n := digits.length
      if n = 0 || 9 < n || (interrupting && digits != ['1']) then none
      else
        match (c :: r).drop n with
        | '.' :: _ => some (n + 1)
        | ')' :: _ => some (n + 1)
        | _ => none

/-- Reads the beginning of a list item.  More than four columns of blanks belong to its content, all
but the first.  An item does not end a paragraph, if nothing follows its mark. -/
def startItem? (interrupting : Bool) (l : LineRest) : Option (Container × LineRest) :=
  if 3 < l.indent then none
  else
    (markLength? interrupting l.body.text).bind fun n =>
      let behind : LineRest := ⟨l.body.column + n, l.body.text.drop n⟩
      let width := l.indent + n
      if behind.isBlank then if interrupting then none else some (item (width + 1) true, behind)
      else if behind.indent = 0 then none
      else
        let gap := if behind.indent ≤ 4 then behind.indent else 1
        some (item (width + gap) false, behind.drop gap)

/-- Reads the beginning of a footnote. -/
def startNote? (l : LineRest) : Option (Container × LineRest) :=
  if 3 < l.indent then none
  else
    match l.body.text with
    | '[' :: '^' :: r =>
      (Label.inside? r).bind fun (label, rest) =>
        match rest with
        | ':' :: behind =>
          if label.isEmpty || label.any isGap then none
          else some (note (Label.key label), LineRest.body ⟨l.body.column, behind⟩)
        | _ => none
    | _ => none

/-- Reads the beginning of a container, where it may have to end a paragraph. -/
def start? (interrupting : Bool) (l : LineRest) : Option (Container × LineRest) :=
  ((afterQuote? l).map fun r => (quote, r)).or
    ((startItem? interrupting l).or (startNote? l))

/-- Whether a line stays inside a container, and what is left of it there. -/
def resume? (l : LineRest) : Container → Option (Container × LineRest)
  | quote => (afterQuote? l).map fun r => (quote, r)
  | item width empty =>
    if l.isBlank then if empty then none else some (item width false, l.drop width)
    else if width ≤ l.indent then some (item width false, l.drop width)
    else none
  | note label =>
    if l.isBlank || 4 ≤ l.indent then some (note label, l.drop 4) else none

/-- The open containers that a line stays inside, and what is left of it there. -/
def resumeAll : List Container → LineRest → List Container × LineRest
  | [], l => ([], l)
  | c :: cs, l =>
    match resume? l c with
    | some (c', r) => ((c' :: (resumeAll cs r).1), (resumeAll cs r).2)
    | none => ([], l)

/-- The containers that begin on a line, of which there are at most `fuel`. -/
def startAll : Nat → Bool → LineRest → List Container × LineRest
  | 0, _, l => ([], l)
  | fuel + 1, interrupting, l =>
    match start? interrupting l with
    | some (c, r) => let (cs, rest) := startAll fuel false r; (c :: cs, rest)
    | none => ([], l)

end Container
end MdxPress.Markdown
