import MdxPress.Marker
import MdxPress.Text.Edit

/-!
# Replacing markers

A directive is an opening marker and the closer behind it, with the text between them; some
directives are one marker alone.

* `Text.pairs` lists the directives of one name: an opener pairs with the next marker of its
  family when that is a closer, so an opener that meets another opener first stays alone;
* `Text.replacePairs`, `Text.replaceSingles` put a text for those a conversion accepts.

Pairs never overlap, since no marker of the family stands between an opener and its closer.
-/

namespace MdxPress

/-- An opening marker, its closer, and the text between them. -/
structure MarkerPair where
  opener : Marker
  closer : Marker
  inner : Text
  deriving DecidableEq, Repr

/-- A text after a pass for one directive, with the numbers of directives found and replaced. -/
structure Replaced where
  text : Text
  found : Nat
  converted : Nat
  deriving DecidableEq, Repr

namespace Text

/-- The pairs of one directive among markers of `t`. -/
def pairsAmong (t name : Text) : List Marker → List MarkerPair
  | [] => []
  | m :: ms =>
    let rest := pairsAmong t name ms
    if m.name = name then
      match ms.find? fun k => k.name == name || k.closes name with
      | some k => if k.closes name then ⟨m, k, t.slice m.stop k.start⟩ :: rest else rest
      | none => rest
    else rest

/-- The pairs of the directive `name`, in order. -/
def pairs (t name : Text) : List MarkerPair :=
  pairsAmong t name t.markers

/-- The markers called `name`, in order. -/
def singles (t name : Text) : List Marker :=
  t.markers.filter (·.name == name)

/-- Puts for every pair of the directive `name` the text that `convert` gives, if it gives one. -/
def replacePairs (t name : Text) (convert : Marker → Text → Option Text) : Replaced :=
  let edits := (t.pairs name).filterMap fun p =>
    (convert p.opener p.inner).map fun new => (⟨p.opener.start, p.closer.stop, new⟩ : Edit)
  ⟨t.splice edits, (t.singles name).length, edits.length⟩

/-- Puts for every marker called `name` the text that `convert` gives, if it gives one. -/
def replaceSingles (t name : Text) (convert : Marker → Option Text) : Replaced :=
  let edits := (t.singles name).filterMap fun m =>
    (convert m).map fun new => (⟨m.start, m.stop, new⟩ : Edit)
  ⟨t.splice edits, (t.singles name).length, edits.length⟩

/-- Takes away every marker called `name`, with its line when it is alone there. -/
def removeSingles (t name : Text) : Text :=
  t.splice <| (t.singles name).map fun m =>
    let span := t.lineAround m.start m.stop
    ⟨span.1, span.2, []⟩

end Text
end MdxPress
