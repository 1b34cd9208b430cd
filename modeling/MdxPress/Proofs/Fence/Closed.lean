import MdxPress.Fence.Segment
import MdxPress.Fence.Tag
import MdxPress.Proofs.Text.Line

/-!
Texts that are closed: whole lines, with no block of code left open behind them.  What follows a
closed text is read as if it stood alone, so a pass over closed texts is a pass over each of them.  Where
a block is opened, a pass over fences decides what to do, and reads no further than that block.

* `Text.fenced_append` reads the lines of two texts put together;
* `Text.Closed.append` puts closed texts together;
* `Text.Closed.of_line` is the line to begin with, `Text.run_content` what keeps a block open;
* `FencedLine.AtOpeners` says something of every opening line and the lines behind it, and
  `FencedLine.atOpeners_inside` passes over the content of a block, where nothing opens;
* `FenceState.content_eq_takeWhile` is that content: the lines up to the first that closes the block.
-/

namespace MdxPress

/-! ## Lines put together -/

theorem FenceState.run_append (s : FenceState) (ls ms : List Line) :
    s.run (ls ++ ms) = (s.run ls).run ms := by
  simp [FenceState.run]

theorem fencedLines_append (s : FenceState) (ls ms : List Line) :
    fencedLines s (ls ++ ms) = fencedLines s ls ++ fencedLines (s.run ls) ms := by
  induction ls generalizing s with
  | nil => rfl
  | cons l ls ih => simp [fencedLines, FenceState.run, ih]

@[simp]
theorem map_line_fencedLines (s : FenceState) (ls : List Line) :
    (fencedLines s ls).map (·.line) = ls := by
  induction ls generalizing s with
  | nil => rfl
  | cons l ls ih => simp [fencedLines, ih]

/-- Nothing is open around a line of prose. -/
theorem FencedLine.isCode_eq_false_iff {l : FencedLine} :
    l.isCode = false ↔ l.before = none ∧ l.after = none := by
  rw [isCode, Bool.or_eq_false_iff, Option.isSome_eq_false_iff, Option.isSome_eq_false_iff,
    Option.isNone_iff_eq_none, Option.isNone_iff_eq_none]

theorem length_fencedLines (s : FenceState) (ls : List Line) :
    (fencedLines s ls).length = ls.length := by
  rw [← List.length_map (·.line), map_line_fencedLines]

/-- The lines in the middle are read from the state that those above them leave. -/
theorem fencedLines_eq_append {s : FenceState} {ls : List Line} {above rest : List FencedLine}
    (same : fencedLines s ls = above ++ rest) :
    above = fencedLines s (above.map (·.line)) ∧
      rest = fencedLines (s.run (above.map (·.line))) (rest.map (·.line)) := by
  have lines : ls = above.map (·.line) ++ rest.map (·.line) := by
    rw [← List.map_append, ← same, map_line_fencedLines]
  rw [lines, fencedLines_append] at same
  obtain ⟨first, second⟩ := List.append_inj same (by rw [length_fencedLines, List.length_map])
  exact ⟨first.symm, second.symm⟩

namespace Line

theorem allEnded_append {ls ms : List Line} :
    AllEnded (ls ++ ms) ↔ AllEnded ls ∧ AllEnded ms :=
  List.forall_mem_append

end Line

namespace Text

/-! ## Closed texts -/

/-- A text of whole lines that leaves no block open. -/
structure Closed (t : Text) : Prop where
  ended : Line.AllEnded t.lines
  outside : FenceState.run none t.lines = none

instance (t : Text) : Decidable t.Closed :=
  decidable_of_iff ((∀ l ∈ t.lines, l.ending ≠ .none) ∧ FenceState.run none t.lines = none)
    ⟨fun h => ⟨h.1, h.2⟩, fun h => ⟨h.1, h.2⟩⟩

theorem Closed.nil : Closed [] :=
  ⟨nofun, rfl⟩

/-- What follows a closed text is read as if it stood alone. -/
theorem fenced_append {a : Text} (closed : a.Closed) (b : Text) :
    (a ++ b).fenced = a.fenced ++ b.fenced := by
  rw [fenced, lines_append closed.ended, fencedLines_append, closed.outside, fenced, fenced]

theorem Closed.append {a b : Text} (left : a.Closed) (right : b.Closed) : (a ++ b).Closed where
  ended := by
    rw [lines_append left.ended]
    exact Line.allEnded_append.2 ⟨left.ended, right.ended⟩
  outside := by
    rw [lines_append left.ended, FenceState.run_append, left.outside, right.outside]

theorem Closed.flatMap {α : Type} {f : α → Text} {xs : List α} (each : ∀ x ∈ xs, (f x).Closed) :
    Closed (xs.flatMap f) := by
  induction xs with
  | nil => exact .nil
  | cons x xs ih =>
    rw [List.flatMap_cons]
    exact (each x (.head _)).append (ih fun y mem => each y (.tail _ mem))

/-! ## Single lines and blocks -/

/-- A text that is the content of a line: it holds no line break. -/
structure OneLine (t : Text) : Prop where
  noFeed : '\n' ∉ t
  noReturn : '\r' ∉ t

instance (t : Text) : Decidable t.OneLine :=
  decidable_of_iff ('\n' ∉ t ∧ '\r' ∉ t) ⟨fun h => ⟨h.1, h.2⟩, fun h => ⟨h.1, h.2⟩⟩

theorem OneLine.append {t u : Text} (left : t.OneLine) (right : u.OneLine) : (t ++ u).OneLine :=
  ⟨fun mem => (List.mem_append.1 mem).elim left.noFeed right.noFeed,
    fun mem => (List.mem_append.1 mem).elim left.noReturn right.noReturn⟩

theorem OneLine.of_part {t u : Text} (one : t.OneLine) (part : u <:+: t) : u.OneLine :=
  ⟨fun mem => one.noFeed (part.mem mem), fun mem => one.noReturn (part.mem mem)⟩

theorem OneLine.isWhole {t : Text} (one : t.OneLine) {e : Ending} : Line.IsWhole ⟨t, e⟩ :=
  ⟨one.noFeed, fun _ last => one.noReturn (List.mem_of_getLast? last)⟩

theorem OneLine.lines_feed {t : Text} (one : t.OneLine) (rest : Text) :
    (t ++ '\n' :: rest).lines = ⟨t, .lf⟩ :: rest.lines :=
  lines_append_lf rest one.noFeed fun last => one.noReturn (List.mem_of_getLast? last)

/-- Lines of text, each with a line feed. -/
def ofLines (ls : List Text) : Text :=
  ls.flatMap fun t => t ++ ['\n']

@[simp]
theorem ofLines_nil : ofLines [] = [] :=
  rfl

@[simp]
theorem ofLines_cons (t : Text) (ts : List Text) : ofLines (t :: ts) = t ++ '\n' :: ofLines ts := by
  simp [ofLines]

theorem ofLines_append (ts us : List Text) : ofLines (ts ++ us) = ofLines ts ++ ofLines us := by
  simp [ofLines]

theorem lines_ofLines {ts : List Text} (one : ∀ t ∈ ts, t.OneLine) :
    (ofLines ts).lines = ts.map fun t => ⟨t, .lf⟩ := by
  induction ts with
  | nil => rfl
  | cons t ts ih =>
    rw [ofLines_cons, (one t (.head _)).lines_feed, ih fun u mem => one u (.tail _ mem)]
    rfl

theorem joinWith_cons (sep t : Text) {ts : List Text} (filled : ts ≠ []) :
    joinWith sep (t :: ts) = t ++ sep ++ joinWith sep ts := by
  cases ts with
  | nil => exact (filled rfl).elim
  | cons u ts => rfl

/-- The last of the lines that are put together lacks its line feed. -/
theorem joinWith_feed {ts : List Text} (filled : ts ≠ []) :
    joinWith ['\n'] ts ++ ['\n'] = ofLines ts := by
  induction ts with
  | nil => exact (filled rfl).elim
  | cons t ts ih =>
    by_cases last : ts = []
    · simp [last, joinWith]
    · rw [joinWith_cons _ _ last, ofLines_cons, ← ih last]
      simp

/-- A line that opens no block is closed. -/
theorem Closed.of_line {t : Text} (one : t.OneLine) (prose : FenceOpener.ofLine? t = none) :
    (t ++ ['\n']).Closed where
  ended := by
    rw [one.lines_feed]
    simp [Line.AllEnded, lines]
  outside := by
    rw [one.lines_feed]
    simp [FenceState.run, FenceState.next, lines, prose]

/-- The state inside a block stays until a line closes it. -/
theorem run_content {f : Fence} {ls : List Line}
    (inside : ∀ l ∈ ls, FenceState.closedBy f l.content = false) :
    FenceState.run (some f) ls = some f := by
  induction ls with
  | nil => rfl
  | cons l ls ih =>
    have stays : FenceState.next (some f) l.content = some f := by
      simp [FenceState.next, inside l (.head _)]
    rw [FenceState.run, List.foldl_cons, stays]
    exact ih fun m mem => inside m (.tail _ mem)

end Text

/-! ## Opening lines -/

namespace FencedLine

/-- Something holds of every line that opens a block, and of the lines behind it. -/
def AtOpeners (p : FenceOpener → List Line → Prop) (ls : List FencedLine) : Prop :=
  ∀ l below, l :: below <:+ ls → ∀ o ∈ l.opener?, p o (below.map (·.line))

variable {p q : FenceOpener → List Line → Prop} {l : FencedLine} {ls : List FencedLine}

theorem atOpeners_nil : AtOpeners p [] := by
  intro l below ends
  cases List.suffix_nil.1 ends

theorem atOpeners_cons :
    AtOpeners p (l :: ls) ↔ (∀ o ∈ l.opener?, p o (ls.map (·.line))) ∧ AtOpeners p ls := by
  constructor
  · intro all
    exact ⟨all l ls List.suffix_rfl, fun k below ends => all k below (List.suffix_cons_iff.2 (.inr ends))⟩
  · rintro ⟨first, later⟩ k below ends
    rcases List.suffix_cons_iff.1 ends with same | ends
    · cases same
      exact first
    · exact later k below ends

theorem AtOpeners.mono (all : AtOpeners p ls) (weaker : ∀ o rest, p o rest → q o rest) : AtOpeners q ls :=
  fun l below ends o opens => weaker o _ (all l below ends o opens)

instance decidableAtOpeners [∀ o rest, Decidable (p o rest)] :
    (ls : List FencedLine) → Decidable (AtOpeners p ls)
  | [] => isTrue atOpeners_nil
  | _ :: ls =>
    have := decidableAtOpeners ls
    decidable_of_iff _ atOpeners_cons.symm

end FencedLine

/-! ## Inside of a block -/

namespace FenceState

variable {f : Fence} {line : Text}

theorem next_of_stays (stays : closedBy f line = false) : next (some f) line = some f := by
  simp [next, stays]

theorem next_of_closes (closes : closedBy f line = true) : next (some f) line = none := by
  simp [next, closes]

theorem next_of_opens {o : FenceOpener} (opens : FenceOpener.ofLine? line = some o) :
    next none line = some o.fence := by
  simp [next, opens]

/-- The content of a block are the lines up to the first that closes it. -/
theorem content_eq_takeWhile (f : Fence) (ls : List Line) :
    content (some f) ls = ls.takeWhile fun l => !closedBy f l.content := by
  induction ls with
  | nil => rfl
  | cons l ls ih =>
    rw [content]
    cases closes : closedBy f l.content with
    | true => simp [next_of_closes closes, closes]
    | false => simp [next_of_stays closes, closes, ih]

end FenceState

namespace FencedLine

variable {p : FenceOpener → List Line → Prop} {s : FenceState} {f : Fence} {l : Line} {ls : List Line}

/-- A line opens nothing inside of a block, nor where it cannot. -/
theorem opener?_of_quiet (quiet : s.isSome = true ∨ FenceOpener.ofLine? l.content = none)
    (after : FenceState) : opener? ⟨l, s, after⟩ = none := by
  cases s with
  | some f => rfl
  | none => exact quiet.resolve_left nofun

theorem atOpeners_of_quiet (quiet : s.isSome = true ∨ FenceOpener.ofLine? l.content = none) :
    AtOpeners p (fencedLines s (l :: ls)) ↔ AtOpeners p (fencedLines (s.next l.content) ls) := by
  rw [fencedLines, atOpeners_cons, opener?_of_quiet quiet]
  exact and_iff_right (by simp)

theorem atOpeners_of_opens {o : FenceOpener} (opens : FenceOpener.ofLine? l.content = some o) :
    AtOpeners p (fencedLines none (l :: ls)) ↔ p o ls ∧ AtOpeners p (fencedLines (some o.fence) ls) := by
  have opener : opener? ⟨l, none, some o.fence⟩ = some o := opens
  rw [fencedLines, FenceState.next_of_opens opens, atOpeners_cons, opener, map_line_fencedLines]
  exact and_congr_left' (by simp)

/-- Nothing opens in the content of a block. -/
theorem atOpeners_inside (inside : ∀ l ∈ ls, FenceState.closedBy f l.content = false) (rest : List Line) :
    AtOpeners p (fencedLines (some f) (ls ++ rest)) ↔ AtOpeners p (fencedLines (some f) rest) := by
  induction ls with
  | nil => rfl
  | cons l ls ih =>
    obtain ⟨first, later⟩ := List.forall_mem_cons.1 inside
    rw [List.cons_append, atOpeners_of_quiet (.inl rfl), FenceState.next_of_stays first, ih later]

/-- Nothing opens in a block, up to the line that closes it. -/
theorem atOpeners_closed (inside : ∀ l ∈ ls, FenceState.closedBy f l.content = false)
    (closes : FenceState.closedBy f l.content = true) (behind : List Line) :
    AtOpeners p (fencedLines (some f) (ls ++ l :: behind)) ↔ AtOpeners p (fencedLines none behind) := by
  rw [atOpeners_inside inside, atOpeners_of_quiet (.inl rfl), FenceState.next_of_closes closes]

end FencedLine
end MdxPress
