import MdxPress.Text.Basic

/-!
# Rules over a text

A rule looks at a text from its first character on and says whether it applies there, with a value
and the number of characters it covers (at least one).  Rules are tried from left to right, and a
character that one application covers is not looked at again.

* `hits` lists the applications with their positions;
* `rewrite` puts a text for each of them;
* `seek` finds the first place where something stands.
-/

namespace MdxPress.Text

/-- One application of a rule: the characters from `start` to `stop`, and its value. -/
structure Hit (α : Type) where
  start : Nat
  stop : Nat
  value : α
  deriving Repr

/-- The applications of a rule to a text whose first character stands at `pos`, when the next
`skip` characters are already covered. -/
def hitsFrom {α : Type} (rule : Text → Option (α × Nat)) (pos : Nat) :
    Nat → Text → List (Hit α)
  | _, [] => []
  | skip + 1, _ :: r => hitsFrom rule (pos + 1) skip r
  | 0, c :: r =>
    match rule (c :: r) with
    | some (v, n) => ⟨pos, pos + n, v⟩ :: hitsFrom rule (pos + 1) (n - 1) r
    | none => hitsFrom rule (pos + 1) 0 r

/-- The applications of a rule to a text. -/
def hits {α : Type} (rule : Text → Option (α × Nat)) (t : Text) : List (Hit α) :=
  hitsFrom rule 0 0 t

/-- Rewrites a text by a rule, when the next `skip` characters are already covered. -/
def rewriteFrom (rule : Text → Option (Text × Nat)) : Nat → Text → Text
  | _, [] => []
  | skip + 1, _ :: r => rewriteFrom rule skip r
  | 0, c :: r =>
    match rule (c :: r) with
    | some (new, n) => new ++ rewriteFrom rule (n - 1) r
    | none => c :: rewriteFrom rule 0 r

/-- Puts for every application of a rule the text it gives. -/
def rewrite (rule : Text → Option (Text × Nat)) (t : Text) : Text :=
  rewriteFrom rule 0 t

/-- Finds the first place where `reader` succeeds: what stands before it, and what it gives. -/
def seek {α : Type} (reader : Text → Option α) : Text → Option (Text × α)
  | [] => (reader []).map fun a => ([], a)
  | c :: r =>
    match reader (c :: r) with
    | some a => some ([], a)
    | none => (seek reader r).map fun p => (c :: p.1, p.2)

/-- The number of characters that a reader took, from what it left. -/
def taken (whole rest : Text) : Nat :=
  whole.length - rest.length

end MdxPress.Text
