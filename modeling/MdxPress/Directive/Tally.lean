import MdxPress.Directive.Kind

/-!
# Tallies

How many directives of each kind were found, converted by their pass, and left to the fallback.
A kind is listed as soon as it was counted, be it with zeroes.
-/

namespace MdxPress

/-- The counts of one kind. -/
structure Counts where
  found : Nat
  converted : Nat
  fallback : Nat
  deriving DecidableEq, Repr, Inhabited

/-- Counts by kind. -/
structure Tally where
  entries : List (DirectiveKind × Counts)
  deriving DecidableEq, Repr, Inhabited

namespace Tally

/-- No kind counted yet. -/
def empty : Tally := ⟨[]⟩

/-- The counts of a kind, if it was counted. -/
def get? (t : Tally) (k : DirectiveKind) : Option Counts :=
  t.entries.lookup k

/-- The counts of a kind, zeroes if it was not counted. -/
def get (t : Tally) (k : DirectiveKind) : Counts :=
  (t.get? k).getD ⟨0, 0, 0⟩

/-- Changes the counts of a kind. -/
def modify (t : Tally) (k : DirectiveKind) (f : Counts → Counts) : Tally :=
  ⟨(k, f (t.get k)) :: t.entries.filter fun e => e.1 ≠ k⟩

/-- Counts what a pass found and converted. -/
def addPass (t : Tally) (k : DirectiveKind) (found converted : Nat) : Tally :=
  t.modify k fun c => { c with found := c.found + found, converted := c.converted + converted }

/-- Counts one marker left to the fallback. -/
def addFallback (t : Tally) (k : DirectiveKind) : Tally :=
  t.modify k fun c => { c with fallback := c.fallback + 1 }

/-- The kinds counted, in the order of reports. -/
def report (t : Tally) : List (DirectiveKind × Counts) :=
  DirectiveKind.all.filterMap fun k => (t.get? k).map fun c => (k, c)

/-- The number of directives converted. -/
def converted (t : Tally) : Nat :=
  total (fun e => e.2.converted) t.report

/-- The number of markers left to the fallback. -/
def fallbacks (t : Tally) : Nat :=
  total (fun e => e.2.fallback) t.report

end Tally
end MdxPress
