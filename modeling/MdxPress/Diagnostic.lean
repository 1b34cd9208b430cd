import MdxPress.Directive.Kind
import MdxPress.Position

/-!
# Diagnostics

What a conversion recovered from, and where.  A pass reports positions in the text it saw;
`Diagnostic.rebase` moves them into the page that text was taken from.  A run tells of them in its log.
-/

namespace MdxPress

/-- What went wrong. -/
inductive Fault where
  /-- A marker that no regular pass took, and what became of it. -/
  | malformedDirective (name detail : Text)
  /-- A component that is opened and never closed. -/
  | unclosedComponent (tag : Text)
  /-- A header that cannot be read as a mapping, and why. -/
  | unparseableHeader (message : Text)
  /-- A header that is opened and never closed. -/
  | unterminatedHeader
  deriving DecidableEq, Repr

/-- How grave a fault is. -/
inductive Severity where
  /-- The page may have lost something. -/
  | error
  /-- Nothing was lost. -/
  | warning
  deriving DecidableEq, Repr

/-- The gravity of a fault. -/
def Fault.severity : Fault → Severity
  | .malformedDirective .. | .unterminatedHeader => .warning
  | .unclosedComponent _ | .unparseableHeader _ => .error

/-- A fault as it is printed. -/
def Fault.render : Fault → Text
  | .malformedDirective name detail =>
    "malformed directive '".toList ++ name ++ "': ".toList ++ detail
  | .unclosedComponent tag => "component <".toList ++ tag ++ "> is never closed".toList
  | .unparseableHeader message => "unparseable frontmatter: ".toList ++ message
  | .unterminatedHeader => "frontmatter opened but never closed".toList

/-- A fault and its place. -/
structure Diagnostic where
  fault : Fault
  position : Position
  deriving DecidableEq, Repr

namespace Diagnostic

/-- A diagnostic on one line. -/
def render (d : Diagnostic) : Text :=
  d.position.render ++ ": ".toList ++ d.fault.render

/-- Moves a diagnostic down by `offset` lines, into `file` unless it names one already. -/
def rebase (file : Option Text) (offset : Nat) (d : Diagnostic) : Diagnostic :=
  { d with position :=
      { d.position with
        file := if d.position.file.isSome then d.position.file else file
        line := d.position.line + offset } }

/-- Whether a fault among the diagnostics is an error. -/
def anyError (ds : List Diagnostic) : Bool :=
  ds.any fun d => d.fault.severity == .error

end Diagnostic

/-! ## Logs -/

/-- How much a line of the log matters. -/
inductive LogLevel where
  | debug
  | warning
  deriving DecidableEq, Repr

/-- A line of the log. -/
structure LogEntry where
  level : LogLevel
  text : Text
  deriving DecidableEq, Repr

namespace LogEntry

/-- A line for those who look closely. -/
def debug (text : Text) : LogEntry := ⟨.debug, text⟩

/-- A line for everyone. -/
def warning (text : Text) : LogEntry := ⟨.warning, text⟩

/-- The line for a diagnostic. -/
def ofDiagnostic (d : Diagnostic) : LogEntry := warning d.render

/-- A line as it is printed. -/
def render (e : LogEntry) : Text :=
  match e.level with
  | .debug => "DEBUG ".toList ++ e.text
  | .warning => "WARN ".toList ++ e.text

end LogEntry
end MdxPress
