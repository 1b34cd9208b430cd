import MdxPress.Proofs.Fence.Block
import MdxPress.Proofs.Fence.InPlace

/-!
Paragraphs that are trimmed.  The blanks in front of a text are the indentation of its first line that is
not blank, and those at its end belong to its last line, so trimming can change the code of a text at its
two ends: a block loses its indentation or the ending of its last line, and a line that is indented too
far for a block begins one.

* `Text.IsTidy` excludes the two;
* `Text.codeKept_trim` is the result.
-/

namespace MdxPress

/-- A blank line opens no block. -/
theorem FenceOpener.ofLine?_of_blank {line : Text} (blank : line.allBlank = true) : ofLine? line = none := by
  have same := ofLine?_append_blank [] (List.all_eq_true.1 blank)
  rw [List.nil_append] at same
  rw [same]
  rfl

namespace Text

/-- Blank lines are gaps, and nothing is open behind them. -/
theorem fencedCode_blanks {ls : List Line} (blank : ∀ l ∈ ls, l.isBlank = true) (ms : List Line) :
    fencedCode none (ls ++ ms) = List.replicate ls.length none ++ fencedCode none ms := by
  induction ls with
  | nil => rfl
  | cons l ls ih =>
    obtain ⟨first, rest⟩ := List.forall_mem_cons.1 blank
    rw [List.cons_append, fencedCode_of_prose (FenceOpener.ofLine?_of_blank first), ih rest]
    rfl

/-- A text whose code trimming leaves as it is: it leaves no block open, a block with which it begins is
not indented, and one with which it ends has a line feed and no blanks behind it. -/
structure IsTidy (t : Text) : Prop where
  closed : FenceState.run none t.lines = none
  first : ∀ l ∈ (t.lines.dropWhile Line.isBlank).head?,
    FenceOpener.ofLine? l.content.trimStart ≠ none → l.content.trimStart = l.content
  last : ∀ l ∈ t.fenced.getLast?, l.isCode = true →
    l.line.content.trimEnd = l.line.content ∧ l.line.ending = .lf

instance (t : Text) : Decidable t.IsTidy :=
  decidable_of_iff (FenceState.run none t.lines = none ∧
      (∀ l ∈ (t.lines.dropWhile Line.isBlank).head?,
        FenceOpener.ofLine? l.content.trimStart ≠ none → l.content.trimStart = l.content) ∧
      ∀ l ∈ t.fenced.getLast?, l.isCode = true →
        l.line.content.trimEnd = l.line.content ∧ l.line.ending = .lf)
    ⟨fun ⟨closed, first, last⟩ => ⟨closed, first, last⟩, fun h => ⟨h.closed, h.first, h.last⟩⟩

section Trimmed

variable {t : Text} {ls : List Line} {l : Line}

/-! ## The end of a text -/

theorem trimStart_ne_nil {line : Text} (shown : line.allBlank = false) : line.trimStart ≠ [] := by
  intro empty
  rw [allBlank, List.all_eq_true.2 (trimStart_eq_nil_iff.1 empty)] at shown
  cases shown

theorem allBlank_trimEnd (line : Text) : line.trimEnd.allBlank = line.allBlank := by
  obtain ⟨tail, cut, blank⟩ := dropEndWhile_append_mem isBlank line
  conv => rhs; rw [cut, allBlank, List.all_append, List.all_eq_true.2 blank, Bool.and_true]
  rfl

theorem trimEnd_ne_nil {line : Text} (shown : line.allBlank = false) : line.trimEnd ≠ [] := by
  intro empty
  rw [← allBlank_trimEnd, empty] at shown
  cases shown

theorem allBlank_of_line (mem : l ∈ t.lines) (shown : l.isBlank = false) : t.allBlank = false := by
  rw [Bool.eq_false_iff]
  intro blank
  rw [isBlank_of_mem_lines (List.all_eq_true.1 blank) mem] at shown
  cases shown

/-- The last line of a text that is trimmed at its end. -/
theorem lines_trimEnd (lines : t.lines = ls ++ [l]) (shown : l.isBlank = false) :
    (t.trimEnd ++ ['\n']).lines = ls ++ [⟨l.content.trimEnd, .lf⟩] := by
  have whole : Line.AreLines (ls ++ [l]) := lines ▸ areLines_lines t
  have ended : Line.AllEnded ls := whole.allEnded_or_eq_nil.resolve_right (List.cons_ne_nil _ _)
  have isWhole := whole.isWhole (l := l) (by simp)
  have filled := trimEnd_ne_nil shown
  have cut : t = Line.join ls ++ (l.content ++ l.ending.text) := by
    rw [← join_lines t, lines]
    simp [Line.text]
  have line : trimEnd (l.content ++ l.ending.text) = l.content.trimEnd :=
    dropEndWhile_append l.content fun c => Ending.isBlank_of_mem
  have trimmed : t.trimEnd ++ ['\n'] = Line.join (ls ++ [⟨l.content.trimEnd, .lf⟩]) := by
    rw [cut, trimEnd_append_of_filled _ (by rw [line]; exact filled), line]
    simp [Line.text, Ending.text]
  have wholeLast : Line.AreLines [⟨l.content.trimEnd, .lf⟩] := by
    refine ⟨⟨fun mem => isWhole.noFeed ((trimEnd_isPrefix _).mem mem), fun _ last => ?_⟩,
      fun none_ => (by cases none_), trivial⟩
    have visible := getLast?_dropEndWhile last
    cases visible
  rw [trimmed, lines_join ((whole.sublist (List.sublist_append_left _ _)).append ended wholeLast)]

/-- A tidy text that is trimmed at its end has the code that it had. -/
theorem IsTidy.fencedCode_trimEnd (tidy : t.IsTidy) (lines : t.lines = ls ++ [l]) :
    fencedCode none (ls ++ [⟨l.content.trimEnd, .lf⟩]) = t.codeInPlace ∧
      FenceState.run none (ls ++ [⟨l.content.trimEnd, .lf⟩]) = none := by
  have closed := tidy.closed
  rw [lines] at closed
  rw [codeInPlace, lines]
  have last : (⟨l, FenceState.run none ls, (FenceState.run none ls).next l.content⟩ : FencedLine) ∈
      t.fenced.getLast? := by
    simp [fenced, lines, fencedLines_append, fencedLines]
  cases code : FencedLine.isCode ⟨l, FenceState.run none ls, (FenceState.run none ls).next l.content⟩ with
  | true =>
    obtain ⟨content, ending⟩ := tidy.last _ last code
    have same : (⟨l.content.trimEnd, .lf⟩ : Line) = l := by rw [content, ← ending]
    rw [same]
    exact ⟨rfl, closed⟩
  | false =>
    obtain ⟨outside, after⟩ : FenceState.run none ls = none ∧ (FenceState.run none ls).next l.content = none :=
      FencedLine.isCode_eq_false_iff.1 code
    rw [outside] at after
    have prose : FenceOpener.ofLine? l.content = none := Option.map_eq_none_iff.1 after
    have trimmed : FenceOpener.ofLine? l.content.trimEnd = none := by
      obtain ⟨tail, cut, blank⟩ := dropEndWhile_append_mem isBlank l.content
      rw [cut, FenceOpener.ofLine?_append_blank _ blank] at prose
      exact prose
    constructor
    · rw [fencedCode_append, fencedCode_append, outside, fencedCode_of_prose prose,
        fencedCode_of_prose trimmed]
    · rw [FenceState.run_append, outside]
      simp [FenceState.run, FenceState.next, trimmed]

/-! ## The start of a text -/

/-- The first line of a text that is trimmed at its start. -/
theorem lines_trimStart {bs : List Line} (blank : ∀ b ∈ bs, b.isBlank = true)
    (lines : t.lines = bs ++ l :: ls) (shown : l.isBlank = false) :
    t.trimStart.lines = ⟨l.content.trimStart, l.ending⟩ :: ls := by
  have whole : Line.AreLines (l :: ls) :=
    (lines ▸ areLines_lines t).sublist (List.sublist_append_right _ _)
  obtain ⟨isWhole, last, rest⟩ := whole
  have filled : l.content.trimStart ≠ [] := trimStart_ne_nil shown
  have blanks : ∀ c ∈ Line.join bs, isBlank c = true := by
    intro c mem
    obtain ⟨b, isIn, inside⟩ := List.mem_flatMap.1 mem
    rcases List.mem_append.1 inside with content | ending
    · exact List.all_eq_true.1 (blank b isIn) c content
    · exact Ending.isBlank_of_mem ending
  have trimmed : t.trimStart = Line.join (⟨l.content.trimStart, l.ending⟩ :: ls) := by
    have cut : t = Line.join bs ++ (l.content ++ (l.ending.text ++ Line.join ls)) := by
      rw [← join_lines t, lines]
      simp [Line.text]
    rw [cut, trimStart_append blanks, trimStart_append_of_filled filled]
    simp [Line.text]
  have wholeTrimmed : Line.AreLines (⟨l.content.trimStart, l.ending⟩ :: ls) := by
    refine ⟨⟨fun mem => ?_, fun lf isReturn => ?_⟩, fun none_ => ⟨filled, (last none_).2⟩, rest⟩
    · exact isWhole.noFeed ((trimStart_suffix _).mem mem)
    · refine isWhole.noReturn lf ?_
      rw [← isReturn]
      obtain ⟨before, cut⟩ := trimStart_suffix l.content
      conv => lhs; rw [← cut]
      exact List.getLast?_append_of_ne_nil _ filled
  rw [trimmed, lines_join wholeTrimmed]

/-- A line without its indentation begins no block, unless it had none. -/
theorem fencedCode_trimStart {bs : List Line} (blank : ∀ b ∈ bs, b.isBlank = true)
    (edge : FenceOpener.ofLine? l.content.trimStart ≠ none → l.content.trimStart = l.content)
    (ls : List Line) :
    fencedCode none (bs ++ l :: ls) =
        List.replicate bs.length none ++ fencedCode none (⟨l.content.trimStart, l.ending⟩ :: ls) ∧
      FenceState.run none (bs ++ l :: ls) =
        FenceState.run none (⟨l.content.trimStart, l.ending⟩ :: ls) := by
  have outside : FenceState.run none bs = none :=
    FenceState.run_of_prose fun b mem => FenceOpener.ofLine?_of_blank (blank b mem)
  rw [fencedCode_blanks blank, FenceState.run_append, outside]
  by_cases begins : FenceOpener.ofLine? l.content.trimStart = none
  · have prose : FenceOpener.ofLine? l.content = none := by
      rw [Option.eq_none_iff_forall_ne_some]
      intro o opens
      rw [FenceOpener.ofLine?_trimStart opens] at begins
      cases begins
    constructor
    · rw [fencedCode_of_prose prose, fencedCode_of_prose (l := ⟨l.content.trimStart, l.ending⟩) begins]
    · simp [FenceState.run, FenceState.next, prose, begins]
  · rw [edge begins]
    exact ⟨rfl, rfl⟩

/-! ## Both ends -/

/-- The first line of a tidy text that shows something, when the last line is trimmed. -/
theorem IsTidy.exists_first (tidy : t.IsTidy) (lines : t.lines = ls ++ [l]) (shown : l.isBlank = false) :
    ∃ (bs : List Line) (f : Line) (more : List Line), ls ++ [⟨l.content.trimEnd, .lf⟩] = bs ++ f :: more ∧
      (∀ b ∈ bs, b.isBlank = true) ∧ f.isBlank = false ∧
      (FenceOpener.ofLine? f.content.trimStart ≠ none → f.content.trimStart = f.content) := by
  obtain ⟨bs, rest, -, -, cut, blank, stops⟩ := exists_cut_of_fails Line.isBlank ls
  have first := tidy.first
  subst cut
  rw [lines, List.append_assoc, List.dropWhile_append_of_pos blank] at first
  cases rest with
  | nil =>
    rw [List.nil_append, List.dropWhile_cons_of_neg (by simp [shown])] at first
    have stillShown : l.content.trimEnd.allBlank = false := (allBlank_trimEnd l.content).trans shown
    refine ⟨bs, ⟨l.content.trimEnd, .lf⟩, [], by simp, blank, stillShown, fun begins => ?_⟩
    obtain ⟨tail, whole, tailBlank⟩ := dropEndWhile_append_mem isBlank l.content
    have trimmed : l.content.trimStart = l.content.trimEnd.trimStart ++ tail := by
      conv => lhs; rw [whole]
      exact trimStart_append_of_filled (trimStart_ne_nil stillShown) tail
    have same := first l rfl (by rwa [trimmed, FenceOpener.ofLine?_append_blank _ tailBlank])
    rw [trimmed] at same
    exact List.append_cancel_right (same.trans whole)
  | cons f more =>
    have visible := stops f rfl
    rw [List.cons_append, List.dropWhile_cons_of_neg (by simp [visible])] at first
    exact ⟨bs, f, more ++ [⟨l.content.trimEnd, .lf⟩], by simp, blank, visible, first f rfl⟩

/-- **A tidy text that is trimmed** has the code that it had, and leaves nothing open. -/
theorem IsTidy.codeKept_trim (tidy : t.IsTidy) (lines : t.lines = ls ++ [l]) (shown : l.isBlank = false) :
    CodeKept t (t.trim ++ ['\n']) ∧ (t.trim ++ ['\n']).Closed := by
  obtain ⟨code, closed⟩ := tidy.fencedCode_trimEnd lines
  obtain ⟨bs, f, more, cut, blank, visible, edge⟩ := tidy.exists_first lines shown
  have ended := lines_trimEnd lines shown
  rw [cut] at code closed ended
  obtain ⟨sameCode, sameState⟩ := fencedCode_trimStart blank edge more
  have trimmed : (t.trim ++ ['\n']).lines = ⟨f.content.trimStart, f.ending⟩ :: more := by
    have filled : t.trimEnd.trimStart ≠ [] :=
      trimStart_ne_nil ((allBlank_trimEnd t).trans (allBlank_of_line (by simp [lines]) shown))
    rw [← lines_trimStart blank ended visible, trimStart_append_of_filled filled]
    rfl
  refine ⟨fun ls holds => ?_, ⟨?_, ?_⟩⟩
  · rw [HoldsCode, ← code, sameCode] at holds
    rw [HoldsCode, codeInPlace, trimmed]
    exact infix_gaps _ holds
  · exact allEnded_lines List.getLast?_concat
  · rw [trimmed, ← sameState, closed]

end Trimmed

end Text
end MdxPress
