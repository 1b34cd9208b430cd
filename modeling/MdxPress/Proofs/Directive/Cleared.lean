import MdxPress.Proofs.Directive.ClearLine
import MdxPress.Proofs.Directive.CodePair
import MdxPress.Proofs.Directive.Enclosing
import MdxPress.Proofs.Directive.Leftover
import MdxPress.Proofs.Fence.Stands
import MdxPress.Proofs.Marker.Inert

/-!
Pages that keep no marker when their leftover markers are cleared.  Clearing joins the texts around a
marker, so a page can have markers again, and a block of code can open or close where none did.

* `Leftover.Sweepable` is the grammar of pages on which that does not happen, one stretch of lines after
  another, `Leftover.markers_clear` the result;
* `Leftover.Quiet` is what a stretch has to read as, and `Leftover.Quiet.of_isBlock` and
  `Leftover.Quiet.of_inert` are two ways to see it.
-/

namespace MdxPress.Leftover

open Text (Closed)

/-! ## Quiet texts -/

/-- Whole lines without a marker, which leave no block open. -/
structure Quiet (t : Text) : Prop where
  closed : t.Closed
  markers : t.markers = []

instance (t : Text) : Decidable (Quiet t) :=
  decidable_of_iff (t.Closed ∧ t.markers = []) ⟨fun h => ⟨h.1, h.2⟩, fun h => ⟨h.1, h.2⟩⟩

theorem Quiet.append {a b : Text} (left : Quiet a) (right : Quiet b) : Quiet (a ++ b) where
  closed := left.closed.append right.closed
  markers := by rw [Text.markers_append left.closed, left.markers, right.markers]; rfl

theorem Quiet.of_inert {t : Text} (inert : t.Inert) : Quiet t :=
  ⟨inert.closed, inert.markers⟩

/-- Every line of a block is code. -/
theorem isCode_of_isBlock {t : Text} (block : t.IsBlock) : ∀ l ∈ t.fenced, l.isCode = true := by
  have shape := block
  obtain ⟨first, inner, last, same, -⟩ := shape
  have lines : t.lines = first.line :: (inner.map (·.line) ++ [last.line]) := by
    rw [← map_line_fencedLines none t.lines, ← Text.fenced, same]
    simp
  obtain ⟨o, opens, inside, -⟩ := (Text.isBlock_iff_of_lines lines).1 block
  have opened : FenceState.next none first.line.content = some o.fence := by
    simp [FenceState.next, opens]
  intro l mem
  rw [Text.fenced, lines, fencedLines, fencedLines_append, opened, Text.run_content inside] at mem
  rcases List.mem_cons.1 mem with rfl | mem
  · rfl
  · rcases List.mem_append.1 mem with mem | mem
    · exact FenceState.isCode_of_mem_fencedLines inside mem
    · rw [fencedLines, fencedLines] at mem
      rw [List.mem_singleton.1 mem]
      rfl

/-- A block of code is quiet, if its last line has its line feed. -/
theorem Quiet.of_isBlock {t : Text} (block : t.IsBlock) (ends : t.EndsLine) : Quiet t where
  closed := ⟨ends.allEnded, Text.isBlock_outside block⟩
  markers := by
    rw [Text.markers, Marker.inLines_eq_nil_iff]
    intro l mem
    obtain ⟨isIn, prose⟩ := List.mem_filter.1 mem
    rw [isCode_of_isBlock block l isIn] at prose
    cases prose

/-! ## Stretches with one decision -/

/-- An opener that its closer follows at once. -/
theorem clear_pair {a new detail : Text} {m k : Marker} (markers : a.markers = [m, k])
    (closes : k.closes m.name = true) (taken : ofPair? m (a.slice m.stop k.start) = some (new, detail)) :
    clear a = a.take m.start ++ new ++ a.drop k.stop := by
  have stands : k.StandsIn a := Text.standsIn_of_mem_markers (by simp [markers])
  have covered : k.start < k.stop := by
    obtain ⟨before, inside, behind, -, start, stop, -⟩ := stands
    omega
  have pair : chosen a m [k] =
      ⟨m, ⟨m.start, k.stop, new⟩, detail⟩ := by
    simp [chosen, paired?, closes, taken]
  have here : decide a 0 m [k] = ⟨m, ⟨m.start, k.stop, new⟩, detail⟩ := by
    rw [decide_eq, pair, if_neg (Nat.not_lt_zero _)]
  rw [clear, decisions, markers, decisionsFrom, if_neg (Nat.not_lt_zero _)]
  dsimp only
  rw [here, decisionsFrom, if_pos covered]
  simp [decisionsFrom, Text.splice, Text.spliceFrom]

/-- A marker that no other follows. -/
theorem clear_single {a : Text} {m : Marker} (markers : a.markers = [m]) :
    clear a = a.take (single a m).edit.start ++ (single a m).edit.new ++
      a.drop (single a m).edit.stop := by
  have here : decide a 0 m [] = single a m := by
    rw [decide_eq, if_neg (Nat.not_lt_zero _)]
    rfl
  rw [clear, decisions, markers, decisionsFrom, if_neg (Nat.not_lt_zero _)]
  dsimp only
  rw [here]
  simp [decisionsFrom, Text.splice, Text.spliceFrom]

/-- A marker that shows nothing goes with its line, where it is alone on it. -/
theorem clear_removed {a : Text} {m : Marker} (markers : a.markers = [m])
    (shows : ofSingle? m = none) (line : a.lineAround m.start m.stop = (0, a.length)) :
    clear a = [] := by
  have edit : (single a m).edit = ⟨0, a.length, []⟩ := by
    unfold single danglingCode
    simp only [line, List.drop_length, shows]
    split <;> rfl
  rw [clear_single markers, edit]
  simp

/-- A lone code marker tags the bare fence behind it. -/
theorem clear_bareFence {a new : Text} {m : Marker} {n : Nat} (markers : a.markers = [m])
    (isCode : m.name = "code".toList)
    (found : bareFence? (Text.lines (a.drop (a.lineAround m.start m.stop).2)) = some (n, new)) :
    clear a = a.take (a.lineAround m.start m.stop).1 ++ new ++
      a.drop ((a.lineAround m.start m.stop).2 + n) := by
  have edit : (single a m).edit =
      ⟨(a.lineAround m.start m.stop).1, (a.lineAround m.start m.stop).2 + n, new⟩ := by
    simp only [single, isCode, if_true, danglingCode, found]
  rw [clear_single markers, edit]

/-! ## Pages -/

/-- A line of prose all of whose markers are shown in their places, where nothing that is put makes a
marker, and where the line that they leave is prose. -/
structure ShowsLine (l : Line) : Prop where
  whole : l.IsWhole
  filled : l.ending = .none → l.content ≠ []
  prose : FenceOpener.ofLine? l.content = none
  shows : ShowsAll l.text
  seamless : SeamlessLine l.content
  shownWhole : (shownLine l).IsWhole
  shownProse : FenceOpener.ofLine? (shownLine l).content = none

/-- A line of prose by itself leaves no block open. -/
theorem closed_text {l : Line} (whole : l.IsWhole) (ended : l.ending ≠ .none)
    (prose : FenceOpener.ofLine? l.content = none) : l.text.Closed := by
  have lines := Text.lines_text whole fun none => (ended none).elim
  constructor
  · rw [lines]
    exact fun k mem => List.mem_singleton.1 mem ▸ ended
  · rw [lines]
    simp [FenceState.run, FenceState.next, prose]

/-- **No marker is left on a line where nothing that is put makes one.** -/
theorem ShowsLine.markers {l : Line} (line : ShowsLine l) : (shownLine l).text.markers = [] := by
  by_cases empty : (shownLine l).text = []
  · rw [empty]
    rfl
  · have filled : (shownLine l).ending = .none → (shownLine l).content ≠ [] := by
      intro none content
      exact empty (by rw [Line.text, content, none]; rfl)
    rw [Line.markers_text line.shownWhole filled line.shownProse]
    exact inSpans_mapOutsideCode line.seamless

/-- A stretch of lines `a` that reads as `new` when it is cleared, in front of a rest that is cleared
apart from it. -/
def Precedes (a new rest : Text) : Prop :=
  rest = [] ∨ (a.Closed ∧ new.Closed ∧ Apart a rest)

/-- Pages that keep no marker when their leftover markers are cleared, one stretch after another. -/
inductive Sweepable : Text → Prop
  /-- No marker is left over. -/
  | quiet {t : Text} (markers : t.markers = []) : Sweepable t
  /-- Lines without a marker. -/
  | plain {a rest : Text} (lines : Quiet a) (behind : Sweepable rest) : Sweepable (a ++ rest)
  /-- A line whose markers are shown in their places. -/
  | line {l : Line} {rest : Text} (shows : ShowsLine l) (next : rest = [] ∨ l.ending ≠ .none ∧ Apart l.text rest)
    (behind : Sweepable rest) : Sweepable (l.text ++ rest)
  /-- A marker that shows nothing, alone on its line. -/
  | removed {a rest : Text} {m : Marker} (markers : a.markers = [m]) (shows : ofSingle? m = none)
    (line : a.lineAround m.start m.stop = (0, a.length)) (next : Precedes a [] rest)
    (behind : Sweepable rest) : Sweepable (a ++ rest)
  /-- A directive, where what is put for it makes no marker with what stands beside it. -/
  | pair {a rest new detail : Text} {m k : Marker} (markers : a.markers = [m, k])
    (closes : k.closes m.name = true) (taken : ofPair? m (a.slice m.stop k.start) = some (new, detail))
    (shown : Text.markers (a.take m.start ++ new ++ a.drop k.stop) = [])
    (next : Precedes a (a.take m.start ++ new ++ a.drop k.stop) rest) (behind : Sweepable rest) :
    Sweepable (a ++ rest)
  /-- A lone code marker in front of a bare fence, where the fence that is tagged makes no marker. -/
  | fence {a rest new : Text} {m : Marker} {n : Nat} (markers : a.markers = [m])
    (isCode : m.name = "code".toList)
    (found : bareFence? (Text.lines (a.drop (a.lineAround m.start m.stop).2)) = some (n, new))
    (shown : Text.markers (a.take (a.lineAround m.start m.stop).1 ++ new ++
      a.drop ((a.lineAround m.start m.stop).2 + n)) = [])
    (next : Precedes a (a.take (a.lineAround m.start m.stop).1 ++ new ++
      a.drop ((a.lineAround m.start m.stop).2 + n)) rest) (behind : Sweepable rest) :
    Sweepable (a ++ rest)

/-- A stretch without markers, in front of one that is cleared of them. -/
theorem markers_clear_append {a new rest : Text} (cleared : clear a = new) (shown : new.markers = [])
    (next : Precedes a new rest) (behind : (clear rest).markers = []) :
    (clear (a ++ rest)).markers = [] := by
  rcases next with rfl | ⟨closed, newClosed, apart⟩
  · rw [List.append_nil, cleared, shown]
  · rw [clear_append closed apart, cleared, Text.markers_append newClosed, shown, behind]
    rfl

section Lines

variable {a rest : Text} {m k : Marker}

/-- A directive on lines of its own, where what is put for it is quiet. -/
theorem Sweepable.of_lines {new detail : Text} (markers : a.markers = [m, k])
    (closes : k.closes m.name = true) (taken : ofPair? m (a.slice m.stop k.start) = some (new, detail))
    (first : m.start = 0) (last : a.drop k.stop = ['\n']) (closed : a.Closed)
    (shown : Quiet (new ++ ['\n'])) (apart : Apart a rest) (behind : Sweepable rest) :
    Sweepable (a ++ rest) := by
  have text : a.take m.start ++ new ++ a.drop k.stop = new ++ ['\n'] := by
    rw [first, last]
    rfl
  refine .pair markers closes taken ?_ (.inr ⟨closed, ?_, apart⟩) behind
  · rw [text]
    exact shown.markers
  · rw [text]
    exact shown.closed

/-- A hint is quiet if its body is. -/
theorem quiet_ofHint (opener : Marker) {inner : Text} (body : Quiet (inner.trim ++ ['\n'])) :
    Quiet (Admonition.ofHint opener inner ++ ['\n']) := by
  have colons : Text.IsPlain ":::".toList := by decide
  have first : Text.IsProse (":::".toList ++ Admonition.typeOf (opener.attribute? "style".toList)) :=
    (colons.append (Admonition.isPlain_typeOf _) (.inl (by decide))).isProse rfl (by decide) (by decide)
  have above := Quiet.of_inert (.of_line first)
  have below : Quiet (":::".toList ++ ['\n']) := .of_inert (.of_line (by decide))
  have lines := (above.append body).append below
  simpa [Admonition.ofHint_eq] using lines

/-- The block that the sweep makes of a code directive is quiet if its title and its content fit the
fence. -/
theorem quiet_textBlock {title : Option Text} (noFeed : ∀ t ∈ title, '\n' ∉ t) {inner : Text}
    (fits : CodeBlock.Fits (textFence inner) title (some "text".toList) (textContent inner)) :
    Quiet (textBlock title inner ++ ['\n']) := by
  have block := (isBlock_textBlock_iff noFeed inner).2 fits
  have three := three_le_textFence inner
  have last : (textBlock title inner).getLast? = some (textFence inner).mark.char := by
    rw [textBlock_eq, CodeBlock.render_eq, List.getLast?_append, List.getLast?_cons, Fence.run,
      List.getLast?_replicate, if_neg (by omega)]
    rfl
  refine .of_isBlock (block.append_feed last ?_ ?_) (Text.endsLine_append_feed _)
  all_goals cases (textFence inner).mark <;> decide

/-- A hint on lines of its own, with a quiet body. -/
theorem Sweepable.hint (markers : a.markers = [m, k]) (isHint : m.name = "hint".toList)
    (closes : k.closes "hint".toList = true) (first : m.start = 0) (last : a.drop k.stop = ['\n'])
    (closed : a.Closed) (body : Quiet ((a.slice m.stop k.start).trim ++ ['\n']))
    (apart : Apart a rest) (behind : Sweepable rest) : Sweepable (a ++ rest) := by
  have taken : ofPair? m (a.slice m.stop k.start) =
      some (Admonition.ofHint m (a.slice m.stop k.start), "converted to an admonition".toList) := by
    rw [ofPair?, if_neg (by rw [isHint]; decide), if_pos isHint]
  exact .of_lines markers (by rw [isHint]; exact closes) taken first last closed (quiet_ofHint m body)
    apart behind

/-- A code directive on lines of its own, whose title and content fit the fence. -/
theorem Sweepable.code (markers : a.markers = [m, k]) (isCode : m.name = "code".toList)
    (closes : k.closes "code".toList = true) (first : m.start = 0) (last : a.drop k.stop = ['\n'])
    (closed : a.Closed)
    (fits : CodeBlock.Fits (textFence (a.slice m.stop k.start)) (m.attribute? "title".toList)
      (some "text".toList) (textContent (a.slice m.stop k.start)))
    (apart : Apart a rest) (behind : Sweepable rest) : Sweepable (a ++ rest) := by
  have stands : m.StandsIn a := Text.standsIn_of_mem_markers (by simp [markers])
  have noFeed : ∀ t ∈ m.attribute? "title".toList, '\n' ∉ t := fun t has => stands.noFeed has
  have taken : ofPair? m (a.slice m.stop k.start) =
      some (textBlock (m.attribute? "title".toList) (a.slice m.stop k.start),
        "converted to a text code block".toList) := by
    rw [ofPair?, if_pos isCode]
  exact .of_lines markers (by rw [isCode]; exact closes) taken first last closed
    (quiet_textBlock noFeed fits) apart behind

end Lines

end MdxPress.Leftover
