import MdxPress.CodeBlock
import MdxPress.Diagnostic
import MdxPress.Directive.Admonition
import MdxPress.Directive.Reference

/-!
# Leftover markers

What becomes of the markers that no regular pass took.  Each is the subject of one decision, save
the closers that a decision on their opener takes along.

* `Leftover.decisions` lists the decisions for a page, in order;
* `Leftover.clear` carries them out.
-/

namespace MdxPress

/-- A decision about a leftover marker: the edit, and what it did in words. -/
structure Leftover where
  marker : Marker
  edit : Text.Edit
  detail : Text
  deriving DecidableEq, Repr

namespace Leftover

/-- Whether a line is fence marks only. -/
def isFenceRun (line : Text) : Bool :=
  let t := line.trim
  3 ≤ t.length && t.all fun c => (FenceMark.ofChar? c).isSome

/-- A `text` block for the inside of a code directive, whatever it holds: the fence lines around
its content are dropped, and the run of the first is kept. -/
def textBlock (title : Option Text) (inner : Text) : Text :=
  let lines := CodeBlock.lineContents inner.trim
  let opener := lines.head?.bind FenceOpener.ofLine?
  let fence := (opener.map (·.fence.run)).getD "\x60\x60\x60".toList
  let rest := if opener.isSome then lines.tail else lines
  let kept := if rest.getLast?.any isFenceRun then rest.dropLast else rest
  CodeBlock.render title (some "text".toList) fence (Text.joinWith ['\n'] kept).trimEnd

/-- The replacement for an opener that its closer follows at once. -/
def ofPair? (opener : Marker) (inner : Text) : Option (Text × Text) :=
  if opener.name = "code".toList then
    some (textBlock (opener.attribute? "title".toList) inner,
      "converted to a text code block".toList)
  else if opener.name = "hint".toList then
    some (Admonition.ofHint opener inner, "converted to an admonition".toList)
  else if opener.name = "content-ref".toList then
    (opener.attribute? "url".toList).map fun url =>
      (Reference.contentLink url none, "converted to a plain link".toList)
  else none

/-- The decision about an opener and the closer right behind it. -/
def paired? (t : Text) (opener closer : Marker) : Option Leftover :=
  if closer.closes opener.name then
    (ofPair? opener (t.slice opener.stop closer.start)).map fun (new, detail) =>
      ⟨opener, ⟨opener.start, closer.stop, new⟩, detail⟩
  else none

/-- Looks behind a lone code marker for a bare fence, blank lines aside: the characters up to the
end of its line, and the same with the fence tagged as `text`. -/
def bareFence? : List Line → Option (Nat × Text)
  | [] => none
  | l :: ls =>
    if l.isBlank then
      (bareFence? ls).map fun (n, new) => (l.text.length + n, l.text ++ new)
    else
      (FenceOpener.ofLine? l.content).bind fun o =>
        if o.info.isEmpty then
          some (l.text.length, (⟨l.content.indentation ++ o.fence.run ++ "text".toList, l.ending⟩ :
            Line).text)
        else none

/-- The decision about a code marker without closer: it goes, and a bare fence that follows it
becomes a `text` fence. -/
def danglingCode (t : Text) (m : Marker) : Leftover :=
  let (start, stop) := t.lineAround m.start m.stop
  match bareFence? (Text.lines (t.drop stop)) with
  | some (n, new) =>
    ⟨m, ⟨start, stop + n, new⟩, "unclosed code directive; following fence tagged as text".toList⟩
  | none => ⟨m, ⟨start, stop, []⟩, "unclosed code directive removed".toList⟩

/-- The replacement for a marker that shows something by itself. -/
def ofSingle? (m : Marker) : Option (Text × Text) :=
  if m.name = "content-ref".toList then
    (m.attribute? "url".toList).map fun url =>
      (Reference.contentLink url none, "converted to a plain link".toList)
  else if m.name = "page-ref".toList then
    (m.attribute? "page".toList).map fun page =>
      (Reference.pageLink page, "converted to a link".toList)
  else if m.name = "file".toList then
    (m.attribute? "src".toList).map fun src =>
      (Reference.link (Target.baseName src.trim) src.trim, "converted to a file link".toList)
  else if m.name = "tab".toList then
    (m.attribute? "title".toList).bind fun title =>
      if title.trim.isEmpty then none
      else some ("**".toList ++ title.trim ++ "**".toList, "tab title kept as bold text".toList)
  else none

/-- The decision about a marker by itself. -/
def single (t : Text) (m : Marker) : Leftover :=
  if m.name = "code".toList then danglingCode t m
  else
    match ofSingle? m with
    | some (new, detail) => ⟨m, ⟨m.start, m.stop, new⟩, detail⟩
    | none =>
      let (start, stop) := t.lineAround m.start m.stop
      ⟨m, ⟨start, stop, []⟩, "marker removed".toList⟩

/-- The decision about a marker before the markers `rest`.  It leaves alone what stands before
`cursor`, where an earlier decision ends. -/
def decide (t : Text) (cursor : Nat) (m : Marker) (rest : List Marker) : Leftover :=
  let chosen := (rest.head?.bind (paired? t m)).getD (single t m)
  if chosen.edit.start < cursor then { chosen with edit := { chosen.edit with start := m.start } }
  else chosen

/-- The decisions about markers from `cursor` on. -/
def decisionsFrom (t : Text) (cursor : Nat) : List Marker → List Leftover
  | [] => []
  | m :: ms =>
    if m.start < cursor then decisionsFrom t cursor ms
    else
      let d := decide t cursor m ms
      d :: decisionsFrom t d.edit.stop ms

/-- The decisions for a page, in order. -/
def decisions (t : Text) : List Leftover :=
  decisionsFrom t 0 t.markers

/-- A page without its leftover markers. -/
def clear (t : Text) : Text :=
  t.splice ((decisions t).map (·.edit))

/-- The diagnostic for a decision on the page `t`. -/
def diagnostic (t : Text) (d : Leftover) : Diagnostic :=
  ⟨.malformedDirective d.marker.name d.detail, Position.ofIndex t d.marker.start⟩

end Leftover
end MdxPress
