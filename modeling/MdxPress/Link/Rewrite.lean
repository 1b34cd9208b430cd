import MdxPress.CodeSpan
import MdxPress.Fence.Segment
import MdxPress.Link.Target

/-!
# Links between pages

The site knows its pages without the extension of their files, so a link to `page.md#part` becomes
a link to `page#part`.  Images, links elsewhere and code are left alone.

* `Link.ofStart?` reads the link that a text starts with;
* `rewriteLinks` rewrites a body and counts the links it changed.
-/

namespace MdxPress

/-- A Markdown link or image as written. -/
structure Link where
  isImage : Bool
  label : Text
  target : Text
  /-- Whether the target stands between angle brackets. -/
  bracketed : Bool
  /-- The title with its quotes and the blanks before it, or nothing. -/
  title : Text
  deriving DecidableEq, Repr

namespace Link

/-- Reads the end of a link: a title or none, blanks, and the closing parenthesis. -/
def ending? (t : Text) : Option (Text × Text) :=
  let blanks := t.indentation
  match t.drop blanks.length with
  | ')' :: r => some ([], r)
  | '"' :: r =>
    if blanks.isEmpty then none
    else
      (Text.breakAt (· = '"') r).bind fun (inside, behind) =>
        match Text.trimStart behind with
        | ')' :: rest => some (blanks ++ '"' :: inside ++ ['"'], rest)
        | _ => none
  | _ => none

/-- Reads a target between angle brackets and the end of the link. -/
def bracketedTarget? : Text → Option (Text × Text × Text)
  | '<' :: r =>
    match Text.breakAt (fun c => c = '>' || c = '\n') r with
    | some (c :: cs, behind) =>
      if (r.drop (cs.length + 1)).head? = some '>' then
        (ending? behind).map fun (title, rest) => (c :: cs, title, rest)
      else none
    | _ => none
  | _ => none

/-- Reads a bare target, which has neither blanks nor parentheses that close, and the end of the
link. -/
def bareTarget? (t : Text) : Option (Text × Text × Text) :=
  let target := t.takeWhile fun c => !(c == ')' || isBlank c)
  if target.isEmpty then none
  else (ending? (t.drop target.length)).map fun (title, rest) => (target, title, rest)

/-- Reads a link behind its opening bracket. -/
def afterBracket? (isImage : Bool) (t : Text) : Option (Link × Text) :=
  (Text.breakAt (· = ']') t).bind fun (label, behind) =>
    match behind with
    | '(' :: r =>
      let r := Text.trimStart r
      match bracketedTarget? r with
      | some (target, title, rest) => some (⟨isImage, label, target, true, title⟩, rest)
      | none =>
        (bareTarget? r).map fun (target, title, rest) =>
          (⟨isImage, label, target, false, title⟩, rest)
    | _ => none

/-- Reads the link or image that a text starts with. -/
def ofStart? : Text → Option (Link × Text)
  | '!' :: '[' :: r => afterBracket? true r
  | '[' :: r => afterBracket? false r
  | _ => none

/-- The link with another target. -/
def render (l : Link) (target : Text) : Text :=
  let shown := if l.bracketed then '<' :: target ++ ['>'] else target
  '[' :: l.label ++ "](".toList ++ shown ++ l.title ++ [')']

/-- The link as it is to be written; none, when it stays as it is. -/
def rewritten? (l : Link) : Option Text :=
  if l.isImage then none else (Target.stripped? l.target).map l.render

/-- The rule for a link.  One that stays as it is is copied. -/
def rule (t : Text) : Option (Text × Nat) :=
  (ofStart? t).map fun (l, rest) =>
    (l.rewritten?.getD (t.take (t.taken rest)), t.taken rest)

/-- The rule that tells whether a link is rewritten. -/
def changes (t : Text) : Option (Bool × Nat) :=
  (ofStart? t).map fun (l, rest) => (l.rewritten?.isSome, t.taken rest)

/-- The number of links that are rewritten in a part of a line that is no code. -/
def countIn (part : Text) : Nat :=
  (Text.hits changes part).countP (·.value)

end Link

/-- Rewrites the links of a body, and counts those that changed. -/
def rewriteLinks (body : Text) : Text × Nat :=
  let parts := body.prose.flatMap fun t => t.lines.flatMap fun l =>
    (l.text.codeSpans.filter fun s => !s.isCode).map (·.text)
  (body.mapProse fun t => t.mapLineProse (Text.rewrite Link.rule), total Link.countIn parts)

end MdxPress
