import MdxPress.Diagnostic
import MdxPress.Mdx.Component

/-!
# Braces

MDX evaluates `{…}` in prose, so braces in prose are written as character references.  Braces keep
their meaning in code, in statements, in markers `{% … %}` and inside components.

* `Brace.mask` tells which characters of a prose line are protected;
* `escapeBraces` escapes a body;
* `countProseBraces` counts the braces that escaping would replace.
-/

namespace MdxPress

namespace Brace

/-- The characters of a prose part of a line, each with whether a marker covers it.  A marker that
does not end runs to the end of the part.  The first argument tells whether one is open. -/
def markerMask : Bool → Text → List (Char × Bool)
  | false, '{' :: '%' :: r => ('{', true) :: ('%', true) :: markerMask true r
  | false, c :: r => (c, false) :: markerMask false r
  | true, '%' :: '}' :: r => ('%', true) :: ('}', true) :: markerMask false r
  | true, c :: r => (c, true) :: markerMask true r
  | _, [] => []

/-- The characters of a line, each with whether it is protected: code, or part of a marker. -/
def mask (line : Text) : List (Char × Bool) :=
  line.codeSpans.flatMap fun s =>
    if s.isCode then s.text.map fun c => (c, true) else markerMask false s.text

/-- The text for a character: a reference for an unprotected brace. -/
def escapeChar : Char × Bool → Text
  | ('{', false) => "&#123;".toList
  | ('}', false) => "&#125;".toList
  | (c, _) => [c]

/-- A prose line with its unprotected braces escaped. -/
def escapeLine (line : Text) : Text :=
  (mask line).flatMap escapeChar

/-- Whether a character is an unprotected brace. -/
def isStray : Char × Bool → Bool
  | (c, isProtected) => (c == '{' || c == '}') && !isProtected

/-- The number of unprotected braces of a prose line. -/
def strays (line : Text) : Nat :=
  (mask line).countP isStray

/-- A line as it is written when it has a class. -/
def escapeClassified : Line × LineClass → Line
  | (l, .prose) => { l with content := escapeLine l.content }
  | (l, _) => l

end Brace

/-- The number of braces that stand unprotected in the prose of a body. -/
def countProseBraces (body : Text) : Nat :=
  total (fun (l, c) => if c = .prose then Brace.strays l.content else 0) body.classified.1

/-- The counts of an escaping run. -/
structure EscapeReport where
  /-- Lines in which a brace was replaced. -/
  escapedLines : Nat
  /-- Fenced blocks. -/
  fences : Nat
  /-- Unprotected braces left. -/
  remaining : Nat
  /-- The components never closed, outermost first. -/
  unclosed : List Text
  deriving DecidableEq, Repr

/-- Nothing counted yet. -/
def EscapeReport.empty : EscapeReport := ⟨0, 0, 0, []⟩

/-- A body with its braces escaped. -/
structure Escaped where
  text : Text
  report : EscapeReport
  unclosed : List OpenComponent
  deriving DecidableEq, Repr

/-- The diagnostic for a component that is never closed. -/
def OpenComponent.diagnostic (c : OpenComponent) : Diagnostic :=
  ⟨.unclosedComponent c.name, ⟨none, c.line, c.column⟩⟩

/-- The diagnostics of an escaping run. -/
def Escaped.diagnostics (e : Escaped) : List Diagnostic :=
  e.unclosed.map (·.diagnostic)

/-- Escapes the braces in the prose of a body. -/
def escapeBraces (body : Text) : Escaped :=
  let (ls, s) := body.classified
  let text := Line.join (ls.map Brace.escapeClassified)
  { text := text
    report :=
      { escapedLines := ls.countP fun (l, c) => c = .prose && Brace.strays l.content ≠ 0
        fences := s.fences
        remaining := countProseBraces text
        unclosed := s.unclosed.map (·.name) }
    unclosed := s.unclosed }

end MdxPress
