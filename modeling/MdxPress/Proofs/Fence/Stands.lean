import MdxPress.Proofs.Fence.Block
import MdxPress.Proofs.Marker.Place
import MdxPress.Proofs.Text.Edge

/-!
Blocks of code, by themselves and in a page.  A text is one closed block when its first line opens it,
its last line closes it, and it stays open between them; it stands in a page, between the text before it
and the text behind it, when the page reads the lines from its opening line to its closing line as one,
what stands around it on these two lines included.

* `Text.isBlock_iff_of_lines` is the condition on the lines, and `Text.isBlock_written_iff` that for a
  block that is written from a fence, an info and a content;
* `Text.StandsAsBlock` is the definition on the lines of the page;
* `Text.standsAsBlock_iff` takes the block out of the page: nothing is open before it, and its lines are
  a block by themselves;
* `Text.IsBlock.isSome_run` says that it is open up to its last line, so two blocks share no line.
-/

namespace MdxPress

/-- A text that is one closed block: what is open behind each of its lines says so. -/
def Text.IsBlock (t : Text) : Prop :=
  ∃ (first : FencedLine) (inner : List FencedLine) (last : FencedLine),
    t.fenced = first :: (inner ++ [last]) ∧ first.after.isSome = true ∧
    (∀ l ∈ inner, l.after.isSome = true) ∧ last.after = none

/-! ## Lines of a block -/

/-- A block stays open as long as no line closes it. -/
theorem forall_isSome_fencedLines_iff {f : Fence} {ls : List Line} :
    (∀ l ∈ fencedLines (some f) ls, l.after.isSome = true) ↔
      ∀ l ∈ ls, FenceState.closedBy f l.content = false := by
  induction ls with
  | nil => simp [fencedLines]
  | cons l ls ih =>
    rw [fencedLines, List.forall_mem_cons, List.forall_mem_cons]
    cases closes : FenceState.closedBy f l.content with
    | true => simp [FenceState.next, closes]
    | false =>
      have stays : FenceState.next (some f) l.content = some f := by
        simp [FenceState.next, closes]
      rw [stays, ih]
      simp

/-- **A block by its lines.** -/
theorem Text.isBlock_iff_of_lines {t : Text} {first last : Line} {inner : List Line}
    (lines : t.lines = first :: (inner ++ [last])) :
    t.IsBlock ↔ ∃ o, FenceOpener.ofLine? first.content = some o ∧
      (∀ l ∈ inner, FenceState.closedBy o.fence l.content = false) ∧
      FenceState.closedBy o.fence last.content = true := by
  have fenced : t.fenced = ⟨first, none, FenceState.next none first.content⟩ ::
      (fencedLines (FenceState.next none first.content) inner ++
        [⟨last, FenceState.run (FenceState.next none first.content) inner,
          FenceState.next (FenceState.run (FenceState.next none first.content) inner)
            last.content⟩]) := by
    rw [Text.fenced, lines, fencedLines, fencedLines_append]
    rfl
  constructor
  · rintro ⟨_, _, _, same, opens, stays, closes⟩
    rw [fenced] at same
    obtain ⟨rfl, rest⟩ := List.cons.inj same
    obtain ⟨rfl, ends⟩ := List.append_inj' rest rfl
    obtain rfl := List.singleton_inj.1 ends
    dsimp only at opens closes
    cases opener : FenceOpener.ofLine? first.content with
    | none => simp [FenceState.next, opener] at opens
    | some o =>
      have opened : FenceState.next none first.content = some o.fence := by
        simp [FenceState.next, opener]
      rw [opened] at stays closes
      have inside := forall_isSome_fencedLines_iff.1 stays
      rw [run_content inside] at closes
      refine ⟨o, rfl, inside, ?_⟩
      cases ends : FenceState.closedBy o.fence last.content with
      | true => rfl
      | false => simp [FenceState.next, ends] at closes
  · rintro ⟨o, opener, inside, ends⟩
    have opened : FenceState.next none first.content = some o.fence := by
      simp [FenceState.next, opener]
    rw [opened, run_content inside] at fenced
    refine ⟨_, _, _, fenced, rfl, forall_isSome_fencedLines_iff.2 inside, ?_⟩
    simp [FenceState.next, ends]

/-! ## Blocks that are written -/

namespace Text

/-- A run of marks that is followed by `k` more of them, and then by something else. -/
theorem ofLine?_run_append {f : Fence} (three : 3 ≤ f.length) {k : Nat} {behind : Text}
    (stops : behind.head? ≠ some f.mark.char) :
    FenceOpener.ofLine? (f.run ++ (List.replicate k f.mark.char ++ behind)) =
      if f.mark = .backtick ∧ '\x60' ∈ behind then none
      else some ⟨⟨f.mark, 0, f.length + k⟩, behind.trim⟩ := by
  have run : f.run ++ (List.replicate k f.mark.char ++ behind) =
      List.replicate (f.length + k) f.mark.char ++ behind := by
    rw [← List.append_assoc, Fence.run, List.replicate_append_replicate]
  have long : 3 ≤ f.length + k := Nat.le_add_right_of_le three
  have start : indentColumns 0 ([] ++ (List.replicate (f.length + k) f.mark.char ++ behind)) =
      (width [], List.replicate (f.length + k) f.mark.char ++ behind) :=
    indentColumns_run (List.forall_mem_nil _) f.mark (by omega) behind
  have tick : '\x60' ∈ behind.trim ↔ '\x60' ∈ behind := mem_trim (by decide)
  rw [run, FenceOpener.ofLine?, ← List.nil_append (List.replicate _ _ ++ behind), start]
  simp [fenceRun?_replicate f.mark long stops, contains_singleton, tick, width, indentColumns]

/-- A run closes the blocks of its mark that no longer run opened. -/
theorem closedBy_run_iff {f : Fence} (three : 3 ≤ f.length) (k : Nat) :
    FenceState.closedBy ⟨f.mark, 0, f.length + k⟩ f.run = true ↔ k = 0 := by
  rw [FenceState.closedBy_iff]
  constructor
  · rintro ⟨before, n, behind, same, -, -, -, enough, -⟩
    have lengths := congrArg List.length same
    simp only [Fence.run, List.length_append, List.length_replicate] at lengths
    dsimp only at enough
    omega
  · rintro rfl
    exact ⟨[], f.length, [], by simp [Fence.run], List.forall_mem_nil _, by decide, three, Nat.le_refl _, rfl⟩

/-- The lines of a block that is written. -/
theorem lines_written {f : Fence} (three : 3 ≤ f.length) {info : Text} (content : Text)
    (noFeed : '\n' ∉ info) (noReturn : info.getLast? ≠ some '\r') :
    (f.run ++ info ++ '\n' :: content ++ '\n' :: f.run).lines =
      ⟨f.run ++ info, .lf⟩ :: ((content ++ ['\n']).lines ++ [⟨f.run, .none⟩]) := by
  have run := oneLine_run f
  have head : (f.run ++ info).getLast? ≠ some '\r' := by
    rw [List.getLast?_append]
    cases last : info.getLast? with
    | none => exact fun ends => run.noReturn (List.mem_of_getLast? (by simpa using ends))
    | some c => simpa [last] using noReturn
  have filled : f.run ≠ [] := by
    rw [Fence.run, ne_eq, List.replicate_eq_nil_iff]
    omega
  have cut : f.run ++ info ++ '\n' :: content ++ '\n' :: f.run =
      (f.run ++ info) ++ '\n' :: ((content ++ ['\n']) ++ f.run) := by simp
  rw [cut, lines_append_lf _ (fun mem => (List.mem_append.1 mem).elim run.noFeed noFeed) head,
    lines_append (allEnded_lines List.getLast?_concat), lines_of_noFeed filled run.noFeed]

/-- **A block that is written is one closed block** exactly when its info does not lengthen the run
before it, an info behind backticks holds no backtick, and no line of the content closes it. -/
theorem isBlock_written_iff {f : Fence} (three : 3 ≤ f.length) {info content : Text}
    (noFeed : '\n' ∉ info) (noReturn : info.getLast? ≠ some '\r') :
    IsBlock (f.run ++ info ++ '\n' :: content ++ '\n' :: f.run) ↔
      info.head? ≠ some f.mark.char ∧ (f.mark = .backtick → '\x60' ∉ info) ∧
        ∀ l ∈ (content ++ ['\n']).lines, FenceState.closedBy f l.content = false := by
  rw [isBlock_iff_of_lines (lines_written three content noFeed noReturn)]
  obtain ⟨k, behind, rfl, stops⟩ := exists_run f.mark.char info
  dsimp only
  rw [ofLine?_run_append three stops]
  cases k with
  | succ k =>
    -- The opening line has the longer run, so the last line closes nothing.
    constructor
    · rintro ⟨o, opens, -, closes⟩
      split at opens
      case isTrue => cases opens
      case isFalse =>
        cases opens
        cases (closedBy_run_iff three (k + 1)).1 closes
    · rintro ⟨head, -, -⟩
      exact (head rfl).elim
  | zero =>
    have same (line : Text) : FenceState.closedBy ⟨f.mark, 0, f.length⟩ line =
        FenceState.closedBy f line := FenceState.closedBy_congr rfl rfl line
    have closes : FenceState.closedBy f f.run = true :=
      same f.run ▸ (closedBy_run_iff three 0).2 rfl
    rw [List.replicate_zero, List.nil_append, Nat.add_zero]
    split
    case isTrue ticks => simp [ticks.1, ticks.2]
    case isFalse plain => simpa [same, stops, closes] using fun _ => not_and.1 plain

end Text

/-! ## Blocks that stand in a page -/

/-- Lines that are one closed block: the first opens it, the last closes it, and it stays open between
them. -/
def FencedLine.AreBlock (ls : List FencedLine) : Prop :=
  ∃ (first : FencedLine) (inner : List FencedLine) (last : FencedLine),
    ls = first :: (inner ++ [last]) ∧ first.before = none ∧
    first.after.isSome = true ∧ (∀ l ∈ inner, l.after.isSome = true) ∧ last.after = none

namespace Text

/-- A text is read as one closed block where it stands in a page. -/
def StandsAsBlock (before block behind : Text) : Prop :=
  ∃ above lines below, (before ++ block ++ behind).fenced = above ++ lines ++ below ∧
    Line.join (above.map (·.line)) ++ before.lastLine = before ∧
    Line.join (lines.map (·.line)) = before.lastLine ++ block ++ behind.firstLine ∧
    FencedLine.AreBlock lines

theorem isBlock_iff_areBlock {t : Text} : t.IsBlock ↔ FencedLine.AreBlock t.fenced := by
  constructor
  · rintro ⟨first, inner, last, same, opens, stays, closes⟩
    refine ⟨first, inner, last, same, ?_, opens, stays, closes⟩
    rw [fenced] at same
    cases lines : t.lines with
    | nil => simp [lines, fencedLines] at same
    | cons l ls =>
      rw [lines, fencedLines] at same
      rw [← (List.cons.inj same).1]
  · rintro ⟨first, inner, last, same, -, opens, stays, closes⟩
    exact ⟨first, inner, last, same, opens, stays, closes⟩

end Text

/-! ## Stretches of the lines of a page -/

namespace Text

theorem isBlock_outside {t : Text} (block : t.IsBlock) : FenceState.run none t.lines = none := by
  obtain ⟨first, inner, last, same, -, -, closes⟩ := block
  rw [fenced] at same
  have cut : fencedLines none t.lines = (first :: inner) ++ [last] := same
  obtain ⟨-, ends⟩ := fencedLines_eq_append cut
  have lines : t.lines = (first :: inner).map (·.line) ++ [last.line] := by
    rw [← map_line_fencedLines none t.lines, same]
    simp
  rw [lines, FenceState.run_append]
  rw [List.map_singleton, fencedLines, fencedLines] at ends
  have after := congrArg FencedLine.after (List.singleton_inj.1 ends)
  exact after.symm.trans closes

/-- What stands in front of a block in a page, and the block by itself. -/
theorem StandsAsBlock.alone {before block behind : Text} (stands : StandsAsBlock before block behind) :
    (∃ above : Text, before = above ++ before.lastLine ∧ above.Closed) ∧
      IsBlock (before.lastLine ++ block ++ behind.firstLine) := by
  obtain ⟨above, lines, below, same, joined, stretch, first, inner, last, shape, outside, more⟩ := stands
  have whole : Line.AreLines (above.map (·.line) ++ (lines.map (·.line) ++ below.map (·.line))) := by
    rw [← List.map_append, ← List.map_append, ← List.append_assoc, ← same, fenced,
      map_line_fencedLines]
    exact areLines_lines _
  have cut : fencedLines none (before ++ block ++ behind).lines = above ++ (lines ++ below) :=
    same.trans (List.append_assoc above lines below)
  have middle := (fencedLines_eq_append (fencedLines_eq_append cut).2.symm).1
  have ended : Line.AllEnded (above.map (·.line)) :=
    whole.allEnded_or_eq_nil.resolve_right (by simp [shape])
  have start : FenceState.run none (above.map (·.line)) = none := by
    rw [shape, List.map_cons, fencedLines] at middle
    exact (congrArg FencedLine.before (List.cons.inj middle).1).symm.trans outside
  have wholeAbove : Line.AreLines (above.map (·.line)) :=
    whole.sublist (List.sublist_append_left _ _)
  have wholeLines : Line.AreLines (lines.map (·.line)) :=
    whole.sublist ((List.sublist_append_left _ _).trans (List.sublist_append_right _ _))
  refine ⟨⟨Line.join (above.map (·.line)), joined.symm, ?_, ?_⟩, ?_⟩
  · rwa [lines_join wholeAbove]
  · rwa [lines_join wholeAbove]
  · rw [isBlock_iff_areBlock, ← stretch, fenced, lines_join wholeLines, ← start, ← middle]
    exact ⟨first, inner, last, shape, outside, more⟩

/-- **A block in a page**: nothing is open before its first line, and its lines are a block. -/
theorem standsAsBlock_iff {before block behind : Text} :
    StandsAsBlock before block behind ↔
      (∃ above : Text, before = above ++ before.lastLine ∧ above.Closed) ∧
        IsBlock (before.lastLine ++ block ++ behind.firstLine) := by
  refine ⟨StandsAsBlock.alone, ?_⟩
  rintro ⟨⟨above, cut, closed⟩, isBlock⟩
  obtain ⟨rest, split, ends⟩ := exists_firstLine behind
  have lines : (before.lastLine ++ block ++ behind.firstLine ++ rest).fenced =
      (before.lastLine ++ block ++ behind.firstLine).fenced ++ rest.fenced := by
    rcases ends with ⟨rfl, -⟩ | ⟨w, line, -⟩
    · rw [List.append_nil]
      exact (List.append_nil _).symm
    · refine fenced_append ⟨allEnded_lines ?_, isBlock_outside isBlock⟩ rest
      rw [line, ← List.append_assoc, List.getLast?_concat]
  have page : before ++ block ++ behind =
      above ++ (before.lastLine ++ block ++ behind.firstLine ++ rest) := by
    conv => lhs; rw [cut, split]
    simp
  refine ⟨above.fenced, _, rest.fenced, ?_, ?_, join_line_fenced _, isBlock_iff_areBlock.1 isBlock⟩
  · rw [page, fenced_append closed, lines]
    exact (List.append_assoc _ _ _).symm
  · rw [join_line_fenced, ← cut]

/-- A line feed ends the last line of a text, if that shows something at its end. -/
theorem lines_append_feed {t : Text} {c : Char} (last : t.getLast? = some c) (noFeed : c ≠ '\n')
    (noReturn : c ≠ '\r') :
    ∃ ls u, t.lines = ls ++ [⟨u, .none⟩] ∧ (t ++ ['\n']).lines = ls ++ [⟨u, .lf⟩] := by
  obtain ⟨above, cut, ends⟩ := exists_lastLine t
  have filled : t.lastLine ≠ [] := by
    intro empty
    rw [empty, List.append_nil] at cut
    rcases ends with rfl | feed
    · rw [cut] at last
      cases last
    · rw [← cut, last] at feed
      exact noFeed (Option.some.inj feed)
  have lineLast : t.lastLine.getLast? = some c := by
    rw [cut, List.getLast?_append_of_ne_nil above filled] at last
    exact last
  have line := lines_of_noFeed filled (lastLine_noFeed t)
  have fed : (t.lastLine ++ ['\n']).lines = [⟨t.lastLine, .lf⟩] :=
    lines_append_lf [] (lastLine_noFeed t) fun isReturn =>
      noReturn (Option.some.inj (lineLast.symm.trans isReturn))
  refine ⟨above.lines, t.lastLine, ?_, ?_⟩
  · conv => lhs; rw [cut]
    rw [lines_append ends.allEnded, line]
  · conv => lhs; rw [cut]
    rw [List.append_assoc, lines_append ends.allEnded, fed]

/-- A block stays a block when its last line is ended. -/
theorem IsBlock.append_feed {t : Text} (block : t.IsBlock) {c : Char} (last : t.getLast? = some c)
    (noFeed : c ≠ '\n') (noReturn : c ≠ '\r') : IsBlock (t ++ ['\n']) := by
  obtain ⟨ls, u, lines, ended⟩ := lines_append_feed last noFeed noReturn
  obtain ⟨first, inner, final, same, opens, stays, closes⟩ := block
  rw [fenced, lines, fencedLines_append, ← List.cons_append] at same
  obtain ⟨above, below⟩ := List.append_inj' same rfl
  rw [← List.singleton_inj.1 below] at closes
  refine ⟨first, inner, ⟨⟨u, .lf⟩, FenceState.run none ls, (FenceState.run none ls).next u⟩, ?_, opens,
    stays, closes⟩
  rw [fenced, ended, fencedLines_append, ← List.cons_append, ← above]
  rfl

/-- A block is open behind its lines, up to the last of them. -/
theorem IsBlock.isSome_run {t u : Text} (block : IsBlock (t ++ u)) (filled : t ≠ [])
    (ends : t.EndsLine) (more : u ≠ []) : (FenceState.run none t.lines).isSome = true := by
  obtain ⟨first, inner, last, same, opens, stays, -⟩ := block
  have lines : (t ++ u).lines = t.lines ++ u.lines := lines_append ends.allEnded u
  have linesOf {v : Text} (has : v ≠ []) : v.lines ≠ [] := fun none => has (by
    rw [← join_lines v, none]
    rfl)
  obtain ⟨ms, m, cut⟩ := (List.eq_nil_or_concat' t.lines).resolve_left (linesOf filled)
  obtain ⟨ks, k, behind⟩ := (List.eq_nil_or_concat' u.lines).resolve_left (linesOf more)
  rw [fenced, lines, fencedLines_append] at same
  have before : fencedLines none t.lines = fencedLines none ms ++
      [⟨m, FenceState.run none ms, FenceState.run none t.lines⟩] := by
    rw [cut, fencedLines_append, FenceState.run_append]
    rfl
  have after : fencedLines (FenceState.run none t.lines) u.lines =
      fencedLines (FenceState.run none t.lines) ks ++
        fencedLines (FenceState.run (FenceState.run none t.lines) ks) [k] := by
    rw [behind, fencedLines_append]
  rw [after, ← List.append_assoc, ← List.cons_append] at same
  have inside := (List.append_inj' same rfl).1
  have mem : ⟨m, FenceState.run none ms, FenceState.run none t.lines⟩ ∈ first :: inner := by
    rw [← inside, before]
    simp
  rcases List.mem_cons.1 mem with rfl | mem
  · exact opens
  · exact stays _ mem

/-- Two blocks that stand in a page do not share a line: the first is still open where the second
would have to begin. -/
theorem StandsAsBlock.not_on_one_line {before first between second behind : Text} (firstFeed : '\n' ∈ first)
    (secondFeed : '\n' ∈ second) (noFeed : '\n' ∉ between)
    (left : StandsAsBlock before first (between ++ (second ++ behind)))
    (right : StandsAsBlock (before ++ (first ++ between)) second behind) : False := by
  obtain ⟨⟨above, cut, closed⟩, block⟩ := left.alone
  obtain ⟨⟨above', cut', closed'⟩, -⟩ := right.alone
  obtain ⟨most, split, ends⟩ := exists_lastLine first
  have filled : most ≠ [] := by
    rintro rfl
    rw [List.nil_append] at split
    exact lastLine_noFeed first (split ▸ firstFeed)
  have mostFeed : '\n' ∈ most := List.mem_of_getLast? (ends.resolve_left filled)
  have line : lastLine (before ++ (first ++ between)) = first.lastLine ++ between := by
    have cut : before ++ (first ++ between) = before ++ most ++ (first.lastLine ++ between) := by
      conv => lhs; rw [split]
      simp
    have whole : EndsLine (before ++ most) :=
      .inr (by rw [List.getLast?_append_of_ne_nil _ filled]; exact ends.resolve_left filled)
    rw [cut, lastLine_append whole, lastLine_of_noFeed]
    simpa using ⟨lastLine_noFeed first, noFeed⟩
  have same : above' = above ++ (before.lastLine ++ most) := by
    rw [line] at cut'
    have lines : before ++ (first ++ between) =
        above ++ (before.lastLine ++ most) ++ (first.lastLine ++ between) := by
      conv => lhs; rw [cut, split]
      simp
    exact (List.append_cancel_right (lines.symm.trans cut')).symm
  have isOpen : (FenceState.run none (before.lastLine ++ most).lines).isSome = true := by
    have regroup : before.lastLine ++ first ++ firstLine (between ++ (second ++ behind)) =
        (before.lastLine ++ most) ++
          (first.lastLine ++ firstLine (between ++ (second ++ behind))) := by
      conv => lhs; rw [split]
      simp
    rw [regroup] at block
    refine block.isSome_run (by simp [filled]) (.inr ?_) ?_
    · rw [List.getLast?_append_of_ne_nil _ filled]
      exact ends.resolve_left filled
    · rw [firstLine_of_noFeed noFeed]
      obtain ⟨rest, cut, ⟨rfl, whole⟩ | ⟨w, feed, -⟩⟩ := exists_firstLine (second ++ behind)
      · exact absurd (List.mem_append_left _ secondFeed) whole
      · simp [feed]
  have outside := closed'.outside
  rw [same, lines_append closed.ended, FenceState.run_append, closed.outside] at outside
  rw [outside] at isOpen
  cases isOpen

end Text

end MdxPress
