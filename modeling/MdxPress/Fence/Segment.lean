import MdxPress.Fence
import MdxPress.Text.Scan

/-!
# Segments

A page cut into runs of lines that are all code or all prose.

* `segments` is the partition; put together again it is the page;
* `mapProse` rewrites the prose segments and copies the code;
* `rewriteProse` does so by a rule, and counts how often it applied.
-/

namespace MdxPress

/-- A run of lines that are all code, delimiters included, or all prose. -/
structure Segment where
  fenced : Bool
  text : Text
  deriving DecidableEq, Repr

/-- The runs of lines of one kind, for lines whose kind is known. -/
def Segment.ofLines : List FencedLine → List Segment
  | [] => []
  | l :: ls =>
    match ofLines ls with
    | [] => [⟨l.isCode, l.line.text⟩]
    | s :: ss =>
      if s.fenced = l.isCode then ⟨s.fenced, l.line.text ++ s.text⟩ :: ss
      else ⟨l.isCode, l.line.text⟩ :: s :: ss

namespace Text

/-- The lines of a text with what is open around them. -/
def fenced (t : Text) : List FencedLine :=
  fencedLines none t.lines

/-- The segments of a text. -/
def segments (t : Text) : List Segment :=
  Segment.ofLines t.fenced

/-- Rewrites the prose of a text and copies the code. -/
def mapProse (f : Text → Text) (t : Text) : Text :=
  t.segments.flatMap fun s => if s.fenced then s.text else f s.text

/-- The prose segments of a text. -/
def prose (t : Text) : List Text :=
  (t.segments.filter fun s => !s.fenced).map (·.text)

/-- Rewrites the prose of a text by a rule, and counts its applications. -/
def rewriteProse (rule : Text → Option (Text × Nat)) (t : Text) : Text × Nat :=
  (t.mapProse (rewrite rule), total (fun s => (hits rule s).length) t.prose)

end Text
end MdxPress
