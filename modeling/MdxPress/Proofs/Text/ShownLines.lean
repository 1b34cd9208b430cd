import MdxPress.Proofs.Text.Blank
import MdxPress.Proofs.Text.Edge
import MdxPress.Proofs.Text.Line

/-!
What a text shows line by line: its lines without blanks at their ends, blank lines aside.  Blanks at
the ends of a text, line breaks among them, make no difference, so texts may be trimmed and put
together with any number of blank lines between them.

* `Text.shownLines_feed` and `Text.shownLines_blankLine` put two texts together;
* `Text.exists_lines_append_blank` tells what blanks at the end of a text do to its lines;
* `Text.shownLines_dropBreaks` and `Text.shownLines_trim` trim a text.
-/

namespace MdxPress.Text

/-! ## Shown lines -/

/-- What a line shows: itself without blanks at its ends, if anything is left of it. -/
def shown (line : Text) : List Text :=
  [line.trim].filter fun t => !t.isEmpty

/-- The lines of a text that are not blank, each without blanks at its ends. -/
def shownLines (t : Text) : List Text :=
  (t.lines.map fun l => l.content.trim).filter fun t => !t.isEmpty

theorem shown_append_blank (t : Text) {blanks : Text} (blank : ∀ c ∈ blanks, isBlank c = true) :
    shown (t ++ blanks) = shown t := by
  rw [shown, trim_append_blank t blank, shown]

theorem shown_blank_append {blanks : Text} (blank : ∀ c ∈ blanks, isBlank c = true) (t : Text) :
    shown (blanks ++ t) = shown t := by
  rw [shown, trim_blank_append blank, shown]

/-- What lines show, put together. -/
theorem shownLines_join {ls : List Line} (whole : Line.AreLines ls) :
    shownLines (Line.join ls) = ls.flatMap fun l => l.content.shown := by
  rw [shownLines, lines_join whole]
  induction ls with
  | nil => rfl
  | cons l ls ih => rw [List.flatMap_cons, ← ih whole.2.2, shown, ← List.filter_append]; rfl

theorem shownLines_eq_flatMap (t : Text) :
    shownLines t = t.lines.flatMap fun l => l.content.shown := by
  rw [← shownLines_join (areLines_lines t), join_lines]

theorem shownLines_append {t : Text} (ended : Line.AllEnded t.lines) (u : Text) :
    shownLines (t ++ u) = shownLines t ++ shownLines u := by
  simp only [shownLines_eq_flatMap, lines_append ended, List.flatMap_append]

theorem shownLines_of_noFeed {line : Text} (noFeed : '\n' ∉ line) : shownLines line = line.shown := by
  by_cases empty : line = []
  · rw [empty]
    rfl
  · rw [shownLines_eq_flatMap, lines_of_noFeed empty noFeed]
    exact List.append_nil _

/-- A line in front of others.  The carriage return before its line feed is blank. -/
theorem shownLines_line {line : Text} (noFeed : '\n' ∉ line) (rest : Text) :
    shownLines (line ++ '\n' :: rest) = line.shown ++ shownLines rest := by
  rw [shownLines_eq_flatMap, shownLines_eq_flatMap rest]
  by_cases last : line.getLast? = some '\r'
  · obtain ⟨content, rfl⟩ := List.getLast?_eq_some_iff.1 last
    have noFeed : '\n' ∉ content := fun mem => noFeed (List.mem_append_left _ mem)
    rw [List.append_assoc, List.singleton_append, lines_append_crlf rest noFeed,
      shown_append_blank content (by decide)]
    rfl
  · rw [lines_append_lf rest noFeed last]
    rfl

/-- **Two texts with a line feed between them show what each of them shows.** -/
theorem shownLines_feed (t u : Text) : shownLines (t ++ '\n' :: u) = shownLines t ++ shownLines u := by
  induction size : t.length using Nat.strongRecOn generalizing t with
  | ind n ih =>
    by_cases feed : '\n' ∈ t
    · obtain ⟨line, rest, rfl, noFeed⟩ := List.eq_append_cons_of_mem feed
      have shorter : rest.length < n := by
        rw [← size, List.length_append, List.length_cons]
        omega
      rw [List.append_assoc, List.cons_append, shownLines_line noFeed, shownLines_line noFeed,
        ih rest.length shorter rest rfl, List.append_assoc]
    · rw [shownLines_line feed, shownLines_of_noFeed feed]

/-- The same with a blank line between them. -/
theorem shownLines_blankLine (t u : Text) :
    shownLines (t ++ "\n\n".toList ++ u) = shownLines t ++ shownLines u := by
  have feeds : t ++ "\n\n".toList ++ u = t ++ '\n' :: ([] ++ '\n' :: u) := by simp
  rw [feeds, shownLines_feed, shownLines_feed]
  rfl

/-! ## Blanks at the ends of a text -/

theorem shownLines_cons_blank {c : Char} (blank : isBlank c = true) (t : Text) :
    shownLines (c :: t) = shownLines t := by
  have one : ∀ d ∈ [c], isBlank d = true := by simpa using blank
  by_cases break_ : c = '\n'
  · rw [break_]
    exact shownLines_feed [] t
  · by_cases feed : '\n' ∈ t
    · obtain ⟨line, rest, rfl, noFeed⟩ := List.eq_append_cons_of_mem feed
      have longer : '\n' ∉ [c] ++ line := by simpa [Ne.symm break_] using noFeed
      have first : c :: (line ++ '\n' :: rest) = ([c] ++ line) ++ '\n' :: rest := rfl
      rw [first, shownLines_line longer, shownLines_line noFeed, shown_blank_append one]
    · have longer : '\n' ∉ [c] ++ t := by simpa [Ne.symm break_] using feed
      have first : c :: t = [c] ++ t := rfl
      rw [first, shownLines_of_noFeed longer, shownLines_of_noFeed feed, shown_blank_append one]

theorem shownLines_blank_append {blanks : Text} (blank : ∀ c ∈ blanks, isBlank c = true) (t : Text) :
    shownLines (blanks ++ t) = shownLines t := by
  induction blanks with
  | nil => rfl
  | cons c blanks ih =>
    rw [List.cons_append, shownLines_cons_blank (blank c (.head _)),
      ih fun d mem => blank d (.tail _ mem)]

/-- **Blanks at the end of a text** go on with its last line, and make blank lines behind it. -/
theorem exists_lines_append_blank (t : Text) {blanks : Text} (blank : ∀ c ∈ blanks, isBlank c = true) :
    ∃ ls ms, (t ++ blanks).lines = ls ++ ms ∧
      List.Forall₂ (fun l k : Line => k.content.trimEnd = l.content.trimEnd) t.lines ls ∧
      ∀ m ∈ ms, m.isBlank = true := by
  obtain ⟨above, cut, ends⟩ := exists_lastLine t
  have noFeed := lastLine_noFeed t
  generalize t.lastLine = last at cut noFeed
  subst cut
  have whole : List.Forall₂ (fun l k : Line => k.content.trimEnd = l.content.trimEnd)
      above.lines above.lines :=
    List.forall₂_same.2 fun _ _ => rfl
  rw [List.append_assoc, lines_append ends.allEnded, lines_append ends.allEnded]
  by_cases empty : last = []
  · refine ⟨above.lines, blanks.lines, by rw [empty, List.nil_append], ?_,
      fun m => isBlank_of_mem_lines blank⟩
    rw [empty, lines, List.append_nil]
    exact whole
  rw [lines_of_noFeed empty noFeed]
  by_cases feed : '\n' ∈ blanks
  · obtain ⟨rest, later, rfl, noFeed'⟩ := List.eq_append_cons_of_mem feed
    obtain ⟨here, there⟩ := List.forall_mem_append.1 blank
    obtain ⟨l, line, text⟩ := exists_line_of_noFeed (w := last ++ rest) (e := ['\n'])
      (by simpa using ⟨noFeed, noFeed'⟩) (.inr rfl)
    have cut : last ++ (rest ++ '\n' :: later) = last ++ rest ++ ['\n'] ++ later := by simp
    rw [cut, lines_append (endsLine_append_feed _).allEnded, line]
    refine ⟨above.lines ++ [l], lines later, by simp, List.rel_append whole (.cons ?_ .nil),
      fun m => isBlank_of_mem_lines fun c mem => there c (.tail _ mem)⟩
    have ending := dropEndWhile_append l.content fun c (mem : c ∈ l.ending.text) => Ending.isBlank_of_mem mem
    rw [trimEnd, ← ending, ← Line.text, text, List.append_assoc]
    exact dropEndWhile_append last (List.forall_mem_append.2 ⟨here, by decide⟩)
  · refine ⟨above.lines ++ [⟨last ++ blanks, .none⟩], [], ?_, List.rel_append whole (.cons ?_ .nil),
      List.forall_mem_nil _⟩
    · have line : (last ++ blanks).lines = [⟨last ++ blanks, .none⟩] :=
        lines_of_noFeed (by simp [empty]) (by simpa using ⟨noFeed, feed⟩)
      rw [line, List.append_nil]
    · exact dropEndWhile_append last blank

theorem shownLines_append_blank (t : Text) {blanks : Text} (blank : ∀ c ∈ blanks, isBlank c = true) :
    shownLines (t ++ blanks) = shownLines t := by
  obtain ⟨ls, ms, lines, same, gone⟩ := exists_lines_append_blank t blank
  have nothing : (ms.flatMap fun l => l.content.shown) = [] := by
    refine List.flatMap_eq_nil_iff.2 fun m mem => ?_
    rw [shown, trim_of_allBlank (gone m mem)]
    rfl
  rw [shownLines_eq_flatMap, shownLines_eq_flatMap, lines, List.flatMap_append, nothing, List.append_nil]
  clear lines
  generalize t.lines = ks at same
  induction same with
  | nil => rfl
  | cons trimmed _ ih => rw [List.flatMap_cons, List.flatMap_cons, ih, shown, shown, trim, trim, trimmed]

theorem shownLines_trimEnd (t : Text) : shownLines t.trimEnd = shownLines t := by
  obtain ⟨tail, cut, blank⟩ := dropEndWhile_append_mem isBlank t
  conv_rhs => rw [cut]
  exact (shownLines_append_blank _ blank).symm

theorem shownLines_trim (t : Text) : shownLines t.trim = shownLines t := by
  have cut : t.trimEnd.indentation ++ t.trim = t.trimEnd := List.takeWhile_append_dropWhile
  rw [← shownLines_trimEnd t, ← cut]
  exact (shownLines_blank_append (List.all_eq_true.1 List.all_takeWhile) _).symm

theorem shownLines_dropBreaks (t : Text) : shownLines t.dropBreaks = shownLines t := by
  have cut : t.leadingBreaks ++ t.dropBreaks = t := List.takeWhile_append_dropWhile
  have blank : ∀ c ∈ t.leadingBreaks, isBlank c = true := by
    intro c mem
    have kind := List.mem_takeWhile_imp mem
    simp only [Bool.or_eq_true, decide_eq_true_eq] at kind
    rcases kind with rfl | rfl <;> rfl
  conv_rhs => rw [← cut]
  exact (shownLines_blank_append blank _).symm

end MdxPress.Text
