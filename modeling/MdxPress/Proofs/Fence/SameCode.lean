import Mathlib.Data.List.Forall2
import MdxPress.Proofs.CodeSpan
import MdxPress.Proofs.Fence.Segment

/-!
Pages that agree in their code.  A pass that rewrites prose line by line must not open, close or move
any code, on the line it rewrites or on a later one.  The segments of a page are runs of whole lines that
are all code or all prose, each read on its own as it is read in the page, and only the last may leave a
block open or its line unended.

* `Text.SameCode` compares two pages line by line: endings, what is open behind a line, fenced lines
  as they stand, and the inline code of the others;
* `FencedLine.Spares` is what a pass has to see to on one line, `Text.sameCode_join` what follows for
  the page;
* `Text.sameCode_of_lines` is the same for a pass that is given by the text it puts for a line;
* `Text.mapProse_lines` reads a pass over the lines of prose segments as a pass over the lines of
  the page;
* `Text.areCut_segments` says what the segments of every page are, `Segment.AreCut`.
-/

namespace MdxPress

/-! ## Lines that agree in their code -/

/-- Two lines, each with what is open around it, that agree in their code. -/
structure FencedLine.SameCode (l k : FencedLine) : Prop where
  ending : k.line.ending = l.line.ending
  after : k.after = l.after
  block : l.isCode = true → k.line = l.line
  spans : l.isCode = false → k.line.content.inlineCode = l.line.content.inlineCode

/-- Two pages with as many lines, which agree in their code line by line. -/
def Text.SameCode (t u : Text) : Prop :=
  List.Forall₂ FencedLine.SameCode t.fenced u.fenced

/-- A line that may stand in the place of another: code stays as it is, and prose opens no block and
has the inline code it had. -/
structure FencedLine.Spares (l : FencedLine) (k : Line) : Prop where
  ending : k.ending = l.line.ending
  block : l.isCode = true → k = l.line
  noOpener : l.isCode = false → FenceOpener.ofLine? k.content = none
  spans : l.isCode = false → k.content.inlineCode = l.line.content.inlineCode

/-- What is open behind a line is open behind one that stands in its place: the line itself if it is
code, and any line of prose if it is prose. -/
theorem FencedLine.next_eq {s : FenceState} {l k : Line}
    (block : isCode ⟨l, s, s.next l.content⟩ = true → k = l)
    (noOpener : isCode ⟨l, s, s.next l.content⟩ = false → FenceOpener.ofLine? k.content = none) :
    s.next k.content = s.next l.content := by
  cases code : isCode ⟨l, s, s.next l.content⟩ with
  | true => rw [block code]
  | false =>
    obtain ⟨outside, after⟩ := isCode_eq_false_iff.1 code
    obtain rfl : s = none := outside
    exact (congrArg (Option.map (·.fence)) (noOpener code)).trans after.symm

theorem FencedLine.Spares.next {s : FenceState} {l k : Line}
    (spares : Spares ⟨l, s, s.next l.content⟩ k) : s.next k.content = s.next l.content :=
  next_eq spares.block spares.noOpener

/-- A line of prose opens no block. -/
theorem FencedLine.opener_eq_none {s : FenceState} {ls : List Line} {l : FencedLine}
    (mem : l ∈ fencedLines s ls) (prose : l.isCode = false) :
    FenceOpener.ofLine? l.line.content = none := by
  induction ls generalizing s with
  | nil => cases mem
  | cons k ls ih =>
    rcases List.mem_cons.1 mem with rfl | mem
    · obtain ⟨rfl, after⟩ := isCode_eq_false_iff.1 prose
      exact Option.map_eq_none_iff.1 after
    · exact ih mem

/-- A line may stand in its own place. -/
theorem FencedLine.Spares.self {l : FencedLine}
    (prose : l.isCode = false → FenceOpener.ofLine? l.line.content = none) : l.Spares l.line :=
  ⟨rfl, fun _ => rfl, prose, fun _ => rfl⟩

/-- **Line by line.**  Whatever is open before them, the lines agree in their code. -/
theorem forall₂_sameCode {s : FenceState} {ls ms : List Line}
    (spares : List.Forall₂ FencedLine.Spares (fencedLines s ls) ms) :
    List.Forall₂ FencedLine.SameCode (fencedLines s ls) (fencedLines s ms) := by
  induction ls generalizing s ms with
  | nil =>
    cases spares
    exact .nil
  | cons l ls ih =>
    cases spares with
    | @cons _ k _ ks first rest =>
      have after := first.next
      refine .cons ⟨first.ending, after, first.block, first.spans⟩ ?_
      rw [after]
      exact ih rest

namespace Line

/-- Lines that end, begin and break off as lines do may stand in their places. -/
theorem AreLines.of_forall₂ {ls ms : List Line} (whole : AreLines ls)
    (kept : List.Forall₂ (fun l k => l.IsWhole → k.IsWhole ∧ (k.ending = .none → l.ending = .none) ∧
      (l.content ≠ [] → k.content ≠ [])) ls ms) : AreLines ms := by
  induction kept with
  | nil => trivial
  | @cons l k ls ks first rest ih =>
    obtain ⟨isWhole, ending, filled⟩ := first whole.1
    refine ⟨isWhole, fun none => ?_, ih whole.2.2⟩
    obtain ⟨hasContent, last⟩ := whole.2.1 (ending none)
    rw [last] at rest
    cases rest
    exact ⟨filled hasContent, rfl⟩

end Line

namespace Text

/-- The lines that a pass leaves behind make a page with the code of the one it was given. -/
theorem sameCode_join {t : Text} {ms : List Line} (whole : Line.AreLines ms)
    (spares : List.Forall₂ FencedLine.Spares t.fenced ms) : t.SameCode (Line.join ms) := by
  rw [SameCode, fenced, fenced, lines_join whole]
  exact forall₂_sameCode spares

theorem exists_forall₂ {α β : Type} {R : α → β → Prop} {xs : List α}
    (each : ∀ x ∈ xs, ∃ y, R x y) : ∃ ys, List.Forall₂ R xs ys := by
  induction xs with
  | nil => exact ⟨[], .nil⟩
  | cons x xs ih =>
    obtain ⟨y, first⟩ := each x (.head _)
    obtain ⟨ys, rest⟩ := ih fun z mem => each z (.tail _ mem)
    exact ⟨y :: ys, .cons first rest⟩

theorem flatMap_eq_join {g : FencedLine → Text} {ls : List FencedLine} {ms : List Line}
    (written : List.Forall₂ (fun l k => k.text = g l) ls ms) : ls.flatMap g = Line.join ms := by
  induction written with
  | nil => rfl
  | cons first _ ih => rw [List.flatMap_cons, ih, Line.join_cons, first]

/-- **The lines that a pass over lines leaves**, when it puts one whole line for every line, ended if that
line is: what is known of each holds of the lines of the result. -/
theorem forall₂_lines_flatMap {P : FencedLine → Line → Prop} {t : Text} {g : FencedLine → Text}
    (each : ∀ l ∈ t.fenced, l.line.IsWhole → ∃ k : Line, k.text = g l ∧ P l k ∧
      (k.ending = .none → l.line.ending = .none) ∧ k.IsWhole ∧ (l.line.content ≠ [] → k.content ≠ [])) :
    List.Forall₂ P t.fenced (Text.lines (t.fenced.flatMap g)) := by
  have lines : t.fenced.map (·.line) = t.lines := map_line_fencedLines none t.lines
  have whole : Line.AreLines (t.fenced.map (·.line)) := lines ▸ areLines_lines t
  obtain ⟨ms, kept⟩ := exists_forall₂ fun l mem =>
    each l mem (whole.isWhole (List.mem_map_of_mem mem))
  rw [flatMap_eq_join (kept.imp fun _ _ k => k.1), lines_join]
  · exact kept.imp fun _ _ k => k.2.1
  · refine whole.of_forall₂ ?_
    rw [List.forall₂_map_left_iff]
    exact kept.imp fun l k ⟨_, _, ending, isWhole, filled⟩ _ => ⟨isWhole, ending, filled⟩

/-- **A pass over lines** keeps the code of a page, if it puts for every line one that may stand in
its place. -/
theorem sameCode_of_lines {t : Text} {g : FencedLine → Text}
    (each : ∀ l ∈ t.fenced, l.line.IsWhole → ∃ k : Line, k.text = g l ∧ l.Spares k ∧ k.IsWhole ∧
      (l.line.content ≠ [] → k.content ≠ [])) : t.SameCode (t.fenced.flatMap g) := by
  refine forall₂_sameCode (forall₂_lines_flatMap fun l mem isWhole => ?_)
  obtain ⟨k, text, spares, whole, filled⟩ := each l mem isWhole
  exact ⟨k, text, spares, spares.ending.symm.trans, whole, filled⟩

/-! ## Passes over the lines of prose -/

theorem lines_text_append {l : Line} (whole : l.IsWhole) (ended : l.ending ≠ .none) (t : Text) :
    (l.text ++ t).lines = l :: t.lines := by
  obtain ⟨content, ending⟩ := l
  cases ending with
  | none => exact (ended rfl).elim
  | lf =>
    rw [← lines_append_lf t whole.noFeed (whole.noReturn rfl)]
    simp [Line.text, Ending.text]
  | crlf =>
    rw [← lines_append_crlf t whole.noFeed]
    simp [Line.text, Ending.text]

/-- A line in front of a text, if nothing follows an unended one. -/
theorem lines_text_append_of_last {l : Line} (whole : l.IsWhole) {t : Text}
    (last : l.ending = .none → l.content ≠ [] ∧ t = []) : (l.text ++ t).lines = l :: t.lines := by
  by_cases none_ : l.ending = .none
  · obtain ⟨filled, rfl⟩ := last none_
    rw [List.append_nil, lines_text whole fun _ => filled]
    rfl
  · exact lines_text_append whole none_ t

/-- **The lines of the segments are the lines of the page**, each in a segment of its kind. -/
theorem flatMap_lines_ofLines {β : Type} (f : Line → Bool → List β) {ls : List FencedLine}
    (whole : Line.AreLines (ls.map (·.line))) :
    (Segment.ofLines ls).flatMap (fun s => s.text.lines.flatMap fun l => f l s.fenced) =
      ls.flatMap fun l => f l.line l.isCode := by
  induction ls with
  | nil => rfl
  | cons l ls ih =>
    obtain ⟨first, last, rest⟩ := whole
    have later := ih rest
    rw [Segment.ofLines, List.flatMap_cons, ← later]
    split
    case h_1 empty =>
      have alone : l.line.text.lines = [l.line] := lines_text first fun none => (last none).1
      simp [empty, alone]
    case h_2 s ss same =>
      have ended : l.line.ending ≠ .none := by
        intro none
        obtain rfl := List.map_eq_nil_iff.1 (last none).2
        cases same
      rw [same]
      split
      case isFalse =>
        have alone : l.line.text.lines = [l.line] := lines_text first fun none => (ended none).elim
        simp [alone]
      case isTrue kind =>
        rw [← kind]
        simp [lines_text_append first ended]

theorem flatMap_lines_segments {β : Type} (f : Line → Bool → List β) (t : Text) :
    t.segments.flatMap (fun s => s.text.lines.flatMap fun l => f l s.fenced) =
      t.fenced.flatMap fun l => f l.line l.isCode := by
  refine flatMap_lines_ofLines f ?_
  rw [fenced, map_line_fencedLines]
  exact areLines_lines t

/-- **A pass over the lines of prose segments is a pass over the lines of prose.** -/
theorem mapProse_lines (g : Text → Text) (t : Text) :
    t.mapProse (fun s => s.lines.flatMap fun l => g l.text) =
      t.fenced.flatMap fun l => if l.isCode then l.line.text else g l.line.text := by
  rw [← flatMap_lines_segments (fun l code => if code then l.text else g l.text), mapProse]
  refine List.flatMap_congr fun s _ => ?_
  cases s.fenced with
  | true => exact (join_lines s.text).symm
  | false => rfl

end Text

/-- What is found in a segment of prose is found on one of its lines, if no line end stands in it. -/
theorem Segment.any_prose {found : Text → Bool}
    (divides : ∀ l : Line, l.ending ≠ .none → ∀ t, found (l.text ++ t) = (found l.text || found t))
    {ls : List FencedLine} (whole : Line.AreLines (ls.map (·.line))) :
    (ofLines ls).any (fun s => !s.fenced && found s.text) =
      ls.any fun l => !l.isCode && found l.line.text := by
  induction ls with
  | nil => rfl
  | cons l ls ih =>
    obtain ⟨first, last, rest⟩ := whole
    have later := ih rest
    rw [ofLines, List.any_cons, ← later]
    split
    case h_1 empty => simp [empty]
    case h_2 s ss same =>
      have ended : l.line.ending ≠ .none := by
        intro none
        obtain rfl := List.map_eq_nil_iff.1 (last none).2
        cases same
      rw [same]
      split
      case isFalse => simp
      case isTrue kind =>
        rw [List.any_cons, List.any_cons, divides l.line ended, kind]
        cases l.isCode <;> simp [Bool.or_assoc]

/-! ## Segments -/

/-- Lines that open nothing leave nothing open. -/
theorem FenceState.run_of_prose {ls : List Line} (prose : ∀ l ∈ ls, FenceOpener.ofLine? l.content = none) :
    FenceState.run none ls = none := by
  induction ls with
  | nil => rfl
  | cons l ls ih =>
    have first : FenceState.next none l.content = none := by
      simp [FenceState.next, prose l (.head _)]
    rw [FenceState.run, List.foldl_cons, first]
    exact ih fun k mem => prose k (.tail _ mem)

namespace Segment

/-- A run of lines that are all code or all prose, by themselves. -/
structure IsRun (s : Segment) : Prop where
  filled : s.text ≠ []
  kind : ∀ l ∈ s.text.fenced, l.isCode = s.fenced

/-- Segments that a page can be cut into. -/
def AreCut : List Segment → Prop
  | [] => True
  | s :: ss => s.IsRun ∧ (ss ≠ [] → s.text.Closed) ∧ AreCut ss

/-- The lines of a run of prose open nothing. -/
theorem IsRun.opener_eq_none {s : Segment} (run : s.IsRun) (prose : s.fenced = false) :
    ∀ l ∈ s.text.lines, FenceOpener.ofLine? l.content = none := by
  intro l mem
  rw [← map_line_fencedLines none s.text.lines] at mem
  obtain ⟨k, isIn, rfl⟩ := List.mem_map.1 mem
  exact FencedLine.opener_eq_none isIn ((run.kind k isIn).trans prose)

/-- A segment with which lines begin, when `st` is open before them, and the segments behind it. -/
structure Begins (st : FenceState) (s : Segment) (ss : List Segment) : Prop where
  filled : s.text ≠ []
  kind : ∀ l ∈ fencedLines st s.text.lines, l.isCode = s.fenced
  ended : ss ≠ [] → Line.AllEnded s.text.lines
  outside : ss ≠ [] → st.run s.text.lines = none
  later : AreCut ss

/-- Nothing is open before a segment of prose. -/
theorem Begins.eq_none {st : FenceState} {s : Segment} {ss : List Segment} (begins : Begins st s ss)
    (prose : s.fenced = false) : st = none := by
  cases lines : s.text.lines with
  | nil =>
    have joined := Text.join_lines s.text
    rw [lines] at joined
    exact (begins.filled joined.symm).elim
  | cons l ls =>
    have first := begins.kind ⟨l, st, st.next l.content⟩ (by rw [lines]; exact .head _)
    rw [prose] at first
    exact (FencedLine.isCode_eq_false_iff.1 first).1

theorem Begins.areCut {s : Segment} {ss : List Segment} (begins : Begins none s ss) :
    AreCut (s :: ss) :=
  ⟨⟨begins.filled, begins.kind⟩, fun more => ⟨begins.ended more, begins.outside more⟩, begins.later⟩

section Line

variable {st : FenceState} {l : Line} (whole : l.IsWhole)
include whole

/-- A line that is a segment of its own. -/
theorem begins_line (last : l.ending = .none → l.content ≠ []) {ss : List Segment}
    (ended : ss ≠ [] → l.ending ≠ .none) (outside : ss ≠ [] → st.next l.content = none)
    (later : AreCut ss) :
    Begins st ⟨FencedLine.isCode ⟨l, st, st.next l.content⟩, l.text⟩ ss := by
  have alone : l.text.lines = [l] := Text.lines_text whole last
  refine ⟨?_, ?_, fun more => ?_, fun more => ?_, later⟩
  · rintro empty
    rw [show l.text = [] from empty] at alone
    cases alone
  · rw [alone]
    exact List.forall_mem_singleton.2 rfl
  · rw [alone]
    exact List.forall_mem_singleton.2 (ended more)
  · rw [alone]
    exact outside more

/-- A line that goes with the segment behind it. -/
theorem Begins.cons {s : Segment} {ss : List Segment} (begins : Begins (st.next l.content) s ss)
    (ended : l.ending ≠ .none) (joined : s.fenced = FencedLine.isCode ⟨l, st, st.next l.content⟩) :
    Begins st ⟨s.fenced, l.text ++ s.text⟩ ss := by
  have lines : (l.text ++ s.text).lines = l :: s.text.lines :=
    Text.lines_text_append whole ended s.text
  refine ⟨by simp [begins.filled], ?_, fun more => ?_, fun more => ?_, begins.later⟩
  · rw [lines]
    exact List.forall_mem_cons.2 ⟨joined.symm, begins.kind⟩
  · rw [lines]
    exact List.forall_mem_cons.2 ⟨ended, begins.ended more⟩
  · rw [lines]
    exact begins.outside more

end Line

/-- The first segment of lines, from whatever is open before them. -/
theorem exists_begins (st : FenceState) {l : Line} {ls : List Line}
    (whole : Line.AreLines (l :: ls)) :
    ∃ s ss, ofLines (fencedLines st (l :: ls)) = s :: ss ∧ Begins st s ss := by
  induction ls generalizing st l with
  | nil =>
    refine ⟨_, _, rfl, begins_line whole.1 (fun none => (whole.2.1 none).1) ?_ ?_ trivial⟩
    all_goals exact fun more => (more rfl).elim
  | cons k ls ih =>
    obtain ⟨isWhole, last, rest⟩ := whole
    have ended : l.ending ≠ .none := fun none => nomatch (last none).2
    obtain ⟨s, ss, same, begins⟩ := ih (st.next l.content) rest
    rw [fencedLines, ofLines, same]
    by_cases joined : s.fenced = FencedLine.isCode ⟨l, st, st.next l.content⟩
    · exact ⟨_, _, if_pos joined, begins.cons isWhole ended joined⟩
    · -- One of two neighbours that differ is prose, so nothing is open between them.
      have outside : st.next l.content = none := by
        cases code : FencedLine.isCode ⟨l, st, st.next l.content⟩ with
        | true => exact begins.eq_none (by simpa [code] using joined)
        | false => exact (FencedLine.isCode_eq_false_iff.1 code).2
      refine ⟨_, _, if_neg joined, begins_line isWhole (fun none => (ended none).elim)
        (fun _ => ended) (fun _ => outside) ?_⟩
      rw [outside] at begins
      exact begins.areCut

end Segment

/-- **The segments of a page** are cut where its lines change between code and prose. -/
theorem Text.areCut_segments (t : Text) : Segment.AreCut t.segments := by
  have whole := areLines_lines t
  rw [segments, fenced]
  cases lines : t.lines with
  | nil => trivial
  | cons l ls =>
    rw [lines] at whole
    obtain ⟨s, ss, same, begins⟩ := Segment.exists_begins none whole
    rw [same]
    exact begins.areCut

end MdxPress
