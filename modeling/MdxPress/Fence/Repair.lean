import MdxPress.Fence.Tag

/-!
# Fence repair

Debris that exports leave around fences: a block that holds blank lines only, and an opener that
is followed by blank lines and a second opener.  The block goes, and the second opener goes.
-/

namespace MdxPress

/-- What an opening line and the lines behind it call for. -/
inductive FenceRepair where
  /-- Nothing to repair. -/
  | none
  /-- The block holds blank lines only: it goes, with so many lines behind its opener. -/
  | emptyBlock (lines : Nat)
  /-- A second opener follows after blank lines: it goes with them. -/
  | secondOpener (lines : Nat)
  deriving DecidableEq, Repr

namespace FenceRepair

/-- What the opener `o` calls for, when the lines `rest` follow it. -/
def decide (o : FenceOpener) (rest : List Line) : FenceRepair :=
  let blanks := (rest.takeWhile Line.isBlank).length
  match rest.drop blanks with
  | [] => none
  | l :: _ =>
    if blanks = 0 then none
    else if FenceState.closedBy o.fence l.content then emptyBlock (blanks + 1)
    else
      match FenceOpener.ofLine? l.content with
      | some second =>
        if second.fence.mark = o.fence.mark && second.language?.isSome && o.language?.isSome then
          secondOpener (blanks + 1)
        else none
      | Option.none => none

end FenceRepair

namespace Text

/-- The lines that repair keeps, and the number of repairs, from a state on; the next `skip` lines
are debris. -/
def repairLines : FenceState → Nat → List Line → List Line × Nat
  | _, _, [] => ([], 0)
  | s, skip + 1, _ :: ls => repairLines s skip ls
  | s, 0, l :: ls =>
    match s, FenceOpener.ofLine? l.content with
    | Option.none, some o =>
      match FenceRepair.decide o ls with
      | .none =>
        let (rest, n) := repairLines (some o.fence) 0 ls
        (l :: rest, n)
      | .emptyBlock k =>
        let (rest, n) := repairLines Option.none k ls
        (rest, n + 1)
      | .secondOpener k =>
        let (rest, n) := repairLines (some o.fence) k ls
        (l :: rest, n + 1)
    | s, _ =>
      let (rest, n) := repairLines (s.next l.content) 0 ls
      (l :: rest, n)

/-- Takes fence debris away, and counts the repairs. -/
def repairFences (t : Text) : Text × Nat :=
  let (ls, n) := repairLines Option.none 0 t.lines
  (Line.join ls, n)

end Text
end MdxPress
