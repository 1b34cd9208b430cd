import MdxPress.Proofs.Fence.Opener
import MdxPress.Proofs.Fence.Closed

/-!
Which lines of a page are code.  Where nothing is open, an opening line begins a block, and the block
holds the lines from there on, up to the first later line that closes it, or to the end of the page.
Lines are counted from zero; whether one opens or closes a block is said of its text alone.

* `Fence.Opens` and `Fence.Closes` are the delimiters of a block, and `Fence.IsRegular` is what every
  open fence is;
* `exists_spans_of_run` finds the line that opened what is open;
* `FenceState.Spans` says which lines a block holds, and `FenceState.Spans.begin_unique` that no line
  stands in two;
* `fencedLines_spans` is the result.

Caveat: quotations and lists are not looked into, so a fence that stands behind their signs is none.
-/

namespace MdxPress

/-! ## Delimiters -/

namespace Fence

/-- What every open fence is: three marks or more, at most three columns from the left. -/
structure IsRegular (f : Fence) : Prop where
  mark : f.mark.char = '\x60' ∨ f.mark.char = '~'
  long : 3 ≤ f.length
  near : f.indent ≤ 3

/-- A line that opens the block of a fence: an indentation, the run of the fence, and an info, which
does not go on with the run and has no backtick behind a run of backticks. -/
def Opens (f : Fence) (line : Text) : Prop :=
  ∃ before behind, line = before ++ (f.run ++ behind) ∧
    FenceOpener.Reads ⟨f, behind.trim⟩ before behind

/-- A line that closes the block of a fence: at most three columns of indentation, at least as many
marks as the fence has, and nothing but blanks behind them. -/
def Closes (f : Fence) (line : Text) : Prop :=
  ∃ before n behind, line = before ++ (List.replicate n f.mark.char ++ behind) ∧
    (∀ c ∈ before, Text.isIndent c = true) ∧ before.width ≤ 3 ∧ f.length ≤ n ∧
    behind.allBlank = true

variable {f : Fence} {line : Text}

theorem Opens.isRegular (opens : f.Opens line) : f.IsRegular := by
  obtain ⟨before, behind, -, reads⟩ := opens
  exact ⟨by cases f.mark <;> simp [FenceMark.char], reads.long, reads.near⟩

theorem closedBy_iff_closes (regular : f.IsRegular) :
    FenceState.closedBy f line = true ↔ f.Closes line := by
  rw [FenceState.closedBy_iff]
  constructor
  · rintro ⟨before, n, behind, rfl, indent, near, -, enough, blank⟩
    exact ⟨before, n, behind, rfl, indent, near, enough, blank⟩
  · rintro ⟨before, n, behind, rfl, indent, near, enough, blank⟩
    exact ⟨before, n, behind, rfl, indent, near, regular.long.trans enough, enough, blank⟩

end Fence

/-! ## One line -/

namespace FenceState

variable {f g : Fence} {line : Text}

theorem next_none_eq_some_iff : next none line = some f ↔ f.Opens line := by
  rw [next, Option.map_eq_some_iff]
  constructor
  · rintro ⟨o, opens, rfl⟩
    obtain ⟨before, behind, rfl, reads⟩ := FenceOpener.ofLine?_eq_some_iff.1 opens
    obtain ⟨fence, info⟩ := o
    obtain rfl : info = behind.trim := reads.info
    exact ⟨before, behind, rfl, reads⟩
  · rintro ⟨before, behind, rfl, reads⟩
    exact ⟨_, FenceOpener.ofLine?_eq_some_iff.2 ⟨before, behind, rfl, reads⟩, rfl⟩

theorem next_some_eq_some_iff (regular : f.IsRegular) :
    next (some f) line = some g ↔ g = f ∧ ¬ f.Closes line := by
  rw [← Fence.closedBy_iff_closes regular, next]
  split
  case isTrue closes => simp [closes]
  case isFalse stays => simp [stays, eq_comm]

theorem next_some_of_closes (regular : f.IsRegular) (closes : f.Closes line) :
    next (some f) line = none :=
  next_of_closes ((Fence.closedBy_iff_closes regular).2 closes)

/-- One line leaves a regular fence open, if any. -/
theorem isRegular_next {s : FenceState} (regular : ∀ f ∈ s, f.IsRegular) :
    ∀ f ∈ s.next line, f.IsRegular := by
  intro f opens
  cases s with
  | none => exact (next_none_eq_some_iff.1 opens).isRegular
  | some g =>
    obtain ⟨rfl, -⟩ := (next_some_eq_some_iff (regular g rfl)).1 opens
    exact regular f rfl

/-! ## The lines above a line -/

variable {ls : List Line} {i j k : Nat}

theorem run_take_succ {l : Line} (line : ls[k]? = some l) (s : FenceState) :
    s.run (ls.take (k + 1)) = (s.run (ls.take k)).next l.content := by
  rw [List.take_add_one, line, run_append]
  rfl

theorem isRegular_run_of {s : FenceState} (regular : ∀ f ∈ s, f.IsRegular) (ls : List Line) :
    ∀ f ∈ s.run ls, f.IsRegular := by
  induction ls generalizing s with
  | nil => exact regular
  | cons l ls ih => exact ih (isRegular_next regular)

theorem isRegular_run (ls : List Line) : ∀ f ∈ run none ls, f.IsRegular :=
  isRegular_run_of (fun _ isOpen => by cases isOpen) ls

end FenceState

/-- Each line of a page, with what the lines above it leave open. -/
theorem getElem?_fencedLines (s : FenceState) (ls : List Line) (k : Nat) :
    (fencedLines s ls)[k]? =
      ls[k]?.map fun l => ⟨l, s.run (ls.take k), s.run (ls.take (k + 1))⟩ := by
  induction ls generalizing s k with
  | nil => rfl
  | cons l ls ih =>
    cases k with
    | zero => rfl
    | succ k =>
      rw [fencedLines, List.getElem?_cons_succ, ih, List.getElem?_cons_succ]
      rfl

namespace FenceState

/-- Line `i` opens the block of a fence: nothing is open above it, and that fence behind it. -/
structure Begins (f : Fence) (ls : List Line) (i : Nat) : Prop where
  outside : run none (ls.take i) = none
  inside : run none (ls.take (i + 1)) = some f

/-- Line `j` closes a block of the fence, if it is open there. -/
def ClosesAt (f : Fence) (ls : List Line) (j : Nat) : Prop :=
  ∃ l ∈ ls[j]?, f.Closes l.content

/-- Line `k` stands in the block of the fence that line `i` opens: it is that line, or a later one
with no line between them that closes the block. -/
structure Spans (f : Fence) (ls : List Line) (i k : Nat) : Prop where
  begins : Begins f ls i
  from_ : i ≤ k
  stays : ∀ j, i < j → j < k → ¬ ClosesAt f ls j

variable {f g : Fence} {ls : List Line} {i i' j k : Nat}

theorem Begins.isRegular (begins : Begins f ls i) : f.IsRegular :=
  isRegular_run _ f begins.inside

/-- A block begins at a line that opens it, where nothing is open. -/
theorem begins_iff :
    Begins f ls i ↔ run none (ls.take i) = none ∧ ∃ l ∈ ls[i]?, f.Opens l.content := by
  constructor
  · rintro ⟨outside, inside⟩
    refine ⟨outside, ?_⟩
    cases line : ls[i]? with
    | none =>
      rw [List.take_add_one, line, Option.toList_none, List.append_nil, outside] at inside
      cases inside
    | some l =>
      rw [run_take_succ line, outside] at inside
      exact ⟨l, rfl, next_none_eq_some_iff.1 inside⟩
  · rintro ⟨outside, l, line, opens⟩
    refine ⟨outside, ?_⟩
    rw [run_take_succ line, outside]
    exact next_none_eq_some_iff.2 opens

/-- A block stays open as long as no line closes it. -/
theorem Spans.run_eq (spans : Spans f ls i k) (later : i < k) : run none (ls.take k) = some f := by
  obtain ⟨begins, -, stays⟩ := spans
  induction k, later using Nat.le_induction with
  | base => exact begins.inside
  | succ k later ih =>
    have isOpen := ih fun j first second => stays j first (second.trans (Nat.lt_succ_self k))
    cases line : ls[k]? with
    | none => rw [List.take_add_one, line, Option.toList_none, List.append_nil, isOpen]
    | some l =>
      rw [run_take_succ line, isOpen, next_some_eq_some_iff begins.isRegular]
      exact ⟨rfl, fun closes => stays k later (Nat.lt_succ_self k) ⟨l, line, closes⟩⟩

/-- The first later line that closes a block ends it. -/
theorem Spans.run_eq_none (spans : Spans f ls i j) (later : i < j) (closes : ClosesAt f ls j) :
    run none (ls.take (j + 1)) = none := by
  obtain ⟨l, line, closes⟩ := closes
  rw [run_take_succ line, spans.run_eq later]
  exact next_some_of_closes spans.begins.isRegular closes

/-- **What is open was opened**: by a line above, and no line since then has closed it. -/
theorem exists_spans_of_run (isOpen : run none (ls.take k) = some f) :
    ∃ i < k, Spans f ls i k := by
  induction k generalizing f with
  | zero => cases isOpen
  | succ k ih =>
    have goesOn (before : run none (ls.take k) = some f) (stays : ¬ ClosesAt f ls k) :
        ∃ i < k + 1, Spans f ls i (k + 1) := by
      obtain ⟨i, first, spans⟩ := ih before
      refine ⟨i, first.trans (Nat.lt_succ_self k), spans.begins, spans.from_.trans (Nat.le_succ k), ?_⟩
      intro j second third
      rcases Nat.lt_succ_iff_lt_or_eq.1 third with before | rfl
      · exact spans.stays j second before
      · exact stays
    cases line : ls[k]? with
    | none =>
      rw [List.take_add_one, line, Option.toList_none, List.append_nil] at isOpen
      refine goesOn isOpen ?_
      rintro ⟨l, here, -⟩
      rw [line] at here
      cases here
    | some l =>
      cases before : run none (ls.take k) with
      | none =>
        exact ⟨k, Nat.lt_succ_self k, ⟨before, isOpen⟩, Nat.le_succ k, fun j _ _ => by omega⟩
      | some g =>
        have step := isOpen
        rw [run_take_succ line, before, next_some_eq_some_iff (isRegular_run _ g before)] at step
        obtain ⟨rfl, stays⟩ := step
        refine goesOn before ?_
        rintro ⟨l', here, closes⟩
        obtain rfl := Option.some.inj (line.symm.trans here)
        exact stays closes

/-- Nothing opens inside of a block. -/
theorem Spans.le_of_begins (spans : Spans f ls i k) (begins : Begins g ls i') (within : i' ≤ k) :
    i' ≤ i := by
  by_contra later
  have isOpen := Spans.run_eq (k := i')
    ⟨spans.begins, by omega, fun j first second => spans.stays j first (by omega)⟩ (by omega)
  rw [begins.outside] at isOpen
  cases isOpen

/-- **No line stands in two blocks.** -/
theorem Spans.begin_unique (spans : Spans f ls i k) (other : Spans g ls i' k) : i' = i :=
  Nat.le_antisymm (spans.le_of_begins other.begins other.from_)
    (other.le_of_begins spans.begins spans.from_)

end FenceState

/-! ## The lines of a page -/

open FenceState in
/-- **The fences of a page are CommonMark's.**  What lines leave open is nothing or a regular fence.  A
block begins at an opening line where nothing is open; it is open behind that line and every later one,
up to the first that closes it, which ends it.  And the lines that are code are those of the blocks,
each of them in one block. -/
theorem fencedLines_spans (ls : List Line) :
    (∀ f ∈ run none ls, f.IsRegular) ∧
      (∀ i f, Begins f ls i ↔
        run none (ls.take i) = none ∧ ∃ l ∈ ls[i]?, f.Opens l.content) ∧
      (∀ i f k, Spans f ls i k → k < ls.length →
        (¬ (i < k ∧ ClosesAt f ls k) → run none (ls.take (k + 1)) = some f) ∧
          (i < k ∧ ClosesAt f ls k → run none (ls.take (k + 1)) = none)) ∧
      ∀ k l, (fencedLines none ls)[k]? = some l →
        (l.isCode = true ↔ ∃! i, ∃ f, Spans f ls i k) := by
  refine ⟨isRegular_run ls, fun i f => begins_iff, ?_, ?_⟩
  · intro i f k spans inside
    refine ⟨fun stays => ?_, fun ends => spans.run_eq_none ends.1 ends.2⟩
    refine Spans.run_eq (i := i) ⟨spans.begins, spans.from_.trans (Nat.le_succ k), ?_⟩
      (Nat.lt_succ_of_le spans.from_)
    intro j first second closes
    rcases Nat.lt_succ_iff_lt_or_eq.1 second with before | rfl
    · exact spans.stays j first before closes
    · exact stays ⟨first, closes⟩
  · intro k l here
    rw [getElem?_fencedLines] at here
    obtain ⟨l, line, rfl⟩ := Option.map_eq_some_iff.1 here
    rw [FencedLine.isCode, Bool.or_eq_true, Option.isSome_iff_exists, Option.isSome_iff_exists]
    constructor
    · intro code
      obtain ⟨i, f, spans⟩ : ∃ i f, Spans f ls i k := by
        cases before : run none (ls.take k) with
        | some f =>
          obtain ⟨i, -, spans⟩ := exists_spans_of_run before
          exact ⟨i, f, spans⟩
        | none =>
          obtain ⟨f, inside⟩ := code.resolve_left (by simp [before])
          exact ⟨k, f, ⟨before, inside⟩, le_rfl, fun j _ _ => by omega⟩
      refine ⟨i, ⟨f, spans⟩, ?_⟩
      rintro i' ⟨g, other⟩
      exact spans.begin_unique other
    · rintro ⟨i, ⟨f, spans⟩, -⟩
      rcases Nat.eq_or_lt_of_le spans.from_ with rfl | later
      · exact .inr ⟨f, spans.begins.inside⟩
      · exact .inl ⟨f, spans.run_eq later⟩

end MdxPress
