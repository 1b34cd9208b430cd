import MdxPress.Proofs.Fence.SameCode
import MdxPress.Proofs.Text.Part

/-!
The code of a text in its place: its lines of code, with a gap for every line of prose.  A run of code is
a stretch without gaps, so it stays whole when the text is cut at a gap, when gaps are added or dropped,
and when other text is put into one.

* `Text.HoldsCode` says that lines stand in a text as a run of code;
* `Text.holdsCode_of_mem_segments`: the lines of every fenced segment do;
* `Text.CodeKept` compares two texts, and `Text.infix_gap` finds a run of code on one side of a gap;
* `Text.CutAt` cuts a text at a line of prose.
-/

namespace MdxPress

/-- A line if it is code, and a gap if it is prose. -/
def FencedLine.code? (l : FencedLine) : Option Line :=
  if l.isCode then some l.line else none

/-- Lines that are read as code, in their places. -/
def fencedCode (s : FenceState) (ls : List Line) : List (Option Line) :=
  (fencedLines s ls).map FencedLine.code?

theorem fencedCode_append (s : FenceState) (ls ms : List Line) :
    fencedCode s (ls ++ ms) = fencedCode s ls ++ fencedCode (s.run ls) ms := by
  rw [fencedCode, fencedLines_append, List.map_append]
  rfl

theorem fencedCode_cons (s : FenceState) (l : Line) (ls : List Line) :
    fencedCode s (l :: ls) =
      FencedLine.code? ⟨l, s, s.next l.content⟩ :: fencedCode (s.next l.content) ls :=
  rfl

/-- A line that opens no block is a gap, and nothing is open behind it. -/
theorem fencedCode_of_prose {l : Line} (prose : FenceOpener.ofLine? l.content = none) (ls : List Line) :
    fencedCode none (l :: ls) = none :: fencedCode none ls := by
  have outside : FenceState.next none l.content = none := by rw [FenceState.next, prose, Option.map_none]
  rw [fencedCode_cons, outside]
  rfl

namespace Text

/-- The code of a text in its place. -/
def codeInPlace (t : Text) : List (Option Line) :=
  fencedCode none t.lines

theorem codeInPlace_append {a : Text} (closed : a.Closed) (b : Text) :
    (a ++ b).codeInPlace = a.codeInPlace ++ b.codeInPlace := by
  rw [codeInPlace, lines_append closed.ended, fencedCode_append, closed.outside]
  rfl

theorem codeInPlace_feed (t : Text) : codeInPlace ('\n' :: t) = none :: t.codeInPlace := by
  rw [codeInPlace, lines]
  exact fencedCode_of_prose rfl _

/-- Whether the first line of a text is code. -/
theorem head?_codeInPlace {t : Text} :
    (∀ x ∈ t.codeInPlace.head?, x = none) ↔ ∀ l ∈ t.lines.head?, FenceOpener.ofLine? l.content = none := by
  rw [codeInPlace]
  cases t.lines with
  | nil => simp [fencedCode, fencedLines]
  | cons l ls => simp [fencedCode_cons, FencedLine.code?, FencedLine.isCode, FenceState.next]

/-! ## Runs of code -/

/-- The lines stand in the text one behind the other, and are code there. -/
def HoldsCode (t : Text) (ls : List Line) : Prop :=
  ls.map some <:+: t.codeInPlace

instance (t : Text) (ls : List Line) : Decidable (t.HoldsCode ls) :=
  inferInstanceAs (Decidable (_ <:+: _))

/-- Every run of code of the one text is a run of code of the other. -/
def CodeKept (t u : Text) : Prop :=
  ∀ ls, t.HoldsCode ls → u.HoldsCode ls

theorem CodeKept.refl (t : Text) : CodeKept t t :=
  fun _ holds => holds

theorem CodeKept.trans {t u v : Text} (first : CodeKept t u) (second : CodeKept u v) : CodeKept t v :=
  fun ls holds => second ls (first ls holds)

/-- A run of code stands on the one side of a gap or on the other. -/
theorem infix_gap {ls : List Line} {xs ys : List (Option Line)} (stands : ls.map some <:+: xs ++ none :: ys) :
    ls.map some <:+: xs ∨ ls.map some <:+: ys := by
  obtain ⟨a, b, same⟩ := stands
  rw [List.append_assoc] at same
  rcases append_eq_append_sign same with ⟨x, rfl, behind⟩ | ⟨x, -, rfl⟩
  · rcases append_eq_append_sign behind with ⟨y, rfl, -⟩ | ⟨y, inside, -⟩
    · exact .inl ⟨a, y, by simp⟩
    · have gap : none ∈ ls.map some := inside ▸ by simp
      simp at gap
  · exact .inr ⟨x, b, by simp⟩

/-- Gaps in front hold no run of code. -/
theorem infix_gaps {ls : List Line} {ys : List (Option Line)} (n : Nat)
    (stands : ls.map some <:+: List.replicate n none ++ ys) : ls.map some <:+: ys := by
  induction n with
  | zero => exact stands
  | succ n ih =>
    have cut : ls.map some <:+: [] ++ none :: (List.replicate n none ++ ys) := stands
    rcases infix_gap cut with none_ | later
    · have empty : ls.map some = [] := List.infix_nil.1 none_
      rw [empty]
      exact List.nil_infix
    · exact ih later

/-! ## Segments -/

/-- The lines of a fenced segment are code. -/
theorem codeInPlace_of_isRun {s : Segment} (run : s.IsRun) (code : s.fenced = true) :
    s.text.codeInPlace = s.text.lines.map some := by
  have each (l : FencedLine) (mem : l ∈ s.text.fenced) : l.code? = some l.line := by
    rw [FencedLine.code?, run.kind l mem, if_pos code]
  calc s.text.codeInPlace
      = s.text.fenced.map fun l => some l.line := List.map_congr_left each
    _ = (s.text.fenced.map (·.line)).map some := by rw [List.map_map]; rfl
    _ = s.text.lines.map some := by rw [fenced, map_line_fencedLines]

theorem holdsCode_of_areCut {ss : List Segment} (cut : Segment.AreCut ss) {s : Segment} (mem : s ∈ ss)
    (code : s.fenced = true) : HoldsCode (ss.flatMap (·.text)) s.text.lines := by
  induction ss with
  | nil => cases mem
  | cons r rs ih =>
    obtain ⟨run, closed, later⟩ := cut
    rw [List.flatMap_cons]
    by_cases last : rs = []
    · subst last
      obtain rfl : s = r := by simpa using mem
      rw [List.flatMap_nil, List.append_nil]
      simp [HoldsCode, codeInPlace_of_isRun run code]
    · rw [HoldsCode, codeInPlace_append (closed last)]
      rcases List.mem_cons.1 mem with rfl | mem
      · rw [codeInPlace_of_isRun run code]
        exact (List.prefix_append _ _).isInfix
      · exact (ih later mem).trans (List.suffix_append _ _).isInfix

/-- **The lines of a fenced segment** stand in the page as a run of code. -/
theorem holdsCode_of_mem_segments {t : Text} {s : Segment} (mem : s ∈ t.segments) (code : s.fenced = true) :
    t.HoldsCode s.text.lines := by
  have holds := holdsCode_of_areCut (areCut_segments t) mem code
  rwa [flatMap_text_segments] at holds

/-! ## Cuts at a line of prose -/

/-- A text cut at a line of prose: whole lines that leave nothing open, the line, and what stands
behind it. -/
structure CutAt (t a : Text) (l : Line) (b : Text) : Prop where
  text : t = a ++ (l.text ++ b)
  closed : a.Closed
  isWhole : l.IsWhole
  last : l.ending = .none → l.content ≠ [] ∧ b = []
  prose : FenceOpener.ofLine? l.content = none

/-- A line of prose cuts the text. -/
theorem CutAt.of_fenced {t : Text} {above below : List FencedLine} {l : FencedLine}
    (cut : t.fenced = above ++ l :: below) (prose : l.isCode = false) :
    CutAt t (Line.join (above.map (·.line))) l.line (Line.join (below.map (·.line))) := by
  have lines : t.lines = above.map (·.line) ++ l.line :: below.map (·.line) := by
    rw [← map_line_fencedLines none t.lines, ← fenced, cut]
    simp
  have whole : Line.AreLines (above.map (·.line) ++ l.line :: below.map (·.line)) :=
    lines ▸ areLines_lines t
  have ended : Line.AllEnded (above.map (·.line)) :=
    whole.allEnded_or_eq_nil.resolve_right (List.cons_ne_nil _ _)
  have wholeAbove := whole.sublist (List.sublist_append_left _ _)
  obtain ⟨isWhole, last, -⟩ := whole.sublist (List.sublist_append_right _ _)
  have outside : FenceState.run none (above.map (·.line)) = none := by
    rw [fenced] at cut
    have behind := (fencedLines_eq_append cut).2
    rw [List.map_cons, fencedLines] at behind
    have before := congrArg FencedLine.before (List.cons.inj behind).1
    exact before.symm.trans (FencedLine.isCode_eq_false_iff.1 prose).1
  refine ⟨?_, ⟨?_, ?_⟩, isWhole, fun none_ => ?_, ?_⟩
  · rw [← join_lines t, lines]
    simp
  · rwa [lines_join wholeAbove]
  · rwa [lines_join wholeAbove]
  · obtain ⟨filled, empty⟩ := last none_
    exact ⟨filled, by rw [empty]; rfl⟩
  · exact FencedLine.opener_eq_none (cut ▸ by simp : l ∈ t.fenced) prose

theorem CutAt.lines_eq {t a b : Text} {l : Line} (cut : CutAt t a l b) : t.lines = a.lines ++ l :: b.lines := by
  rw [cut.text, lines_append cut.closed.ended, lines_text_append_of_last cut.isWhole cut.last]

theorem CutAt.codeInPlace_eq {t a b : Text} {l : Line} (cut : CutAt t a l b) :
    t.codeInPlace = a.codeInPlace ++ none :: b.codeInPlace := by
  rw [codeInPlace, cut.lines_eq, fencedCode_append, cut.closed.outside, fencedCode_of_prose cut.prose]
  rfl

end Text
end MdxPress
