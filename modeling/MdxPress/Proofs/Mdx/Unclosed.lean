import MdxPress.Proofs.Mdx.Run

/-!
The components that escaping reports as never closed.  A tag opens its component behind all that is
open, and a closer takes away the last one only; so what is open comes in the order of its tags, and
what is open at the end of a body was open on every line from its tag on.

* `MdxState.OpensBefore` is that order, `OpensBefore.tag`, `OpensBefore.advance` and
  `OpensBefore.classifyLines` keep it along a line and along a body;
* `MdxState.carries_of_mem_unclosed`: from the line of a component that is never closed on, every line
  is left as it is;
* `escapeBraces_reports_unclosed` is the report as a whole.
-/

namespace MdxPress

/-- Where a component was opened. -/
def OpenComponent.position (k : OpenComponent) : Position :=
  ⟨none, k.line, k.column⟩

namespace MdxState

/-! ## The order of what is open -/

/-- What is open was opened before a position, the outermost component first. -/
structure OpensBefore (s : MdxState) (p : Position) : Prop where
  ordered : s.unclosed.Pairwise fun j k => j.position.Before k.position
  before : ∀ k ∈ s.unclosed, k.position.Before p

/-- A tag that ends on its line covers its first character. -/
theorem offset_lt_tag {s : MdxState} {line : Text} {n : Nat} {g : Tag}
    (ended : (s.tag line n g).1.pending.isSome = false) : g.offset < (s.tag line n g).2 := by
  have width : 0 < g.width := by
    unfold Tag.width
    split <;> omega
  unfold tag at ended ⊢
  dsimp only at ended ⊢
  split
  case isTrue => split <;> exact Nat.lt_add_of_pos_right width
  case isFalse opens =>
    rw [if_neg opens] at ended
    split
    case h_1 => exact Nat.lt_add_right _ (Nat.lt_add_of_pos_right width)
    case h_2 never =>
      simp only [never] at ended
      cases ended

namespace OpensBefore

variable {s t : MdxState} {p q : Position} {line : Text} {n : Nat}

theorem start (p : Position) : MdxState.start.OpensBefore p :=
  ⟨.nil, nofun⟩

theorem mono (opens : s.OpensBefore p) (later : ∀ r : Position, r.Before p → r.Before q) :
    s.OpensBefore q :=
  ⟨opens.ordered, fun k mem => later _ (opens.before k mem)⟩

/-- A place further right on the line. -/
theorem right {i j : Nat} (opens : s.OpensBefore ⟨none, n, i⟩) (further : i ≤ j) :
    s.OpensBefore ⟨none, n, j⟩ := by
  refine opens.mono fun r before => ?_
  simp only [Position.Before] at before ⊢
  omega

/-- The start of the next line. -/
theorem below {i : Nat} (opens : s.OpensBefore ⟨none, n, i⟩) : s.OpensBefore ⟨none, n + 1, 1⟩ := by
  refine opens.mono fun r before => ?_
  simp only [Position.Before] at before ⊢
  omega

/-- Where less is open, the order stays. -/
theorem sublist (opens : s.OpensBefore p) (fewer : t.unclosed.Sublist s.unclosed) :
    t.OpensBefore p :=
  ⟨opens.ordered.sublist fewer, fun k mem => opens.before k (fewer.subset mem)⟩

/-- A component that is opened behind all others comes last. -/
theorem push {k : OpenComponent} (opens : s.OpensBefore k.position) (later : k.position.Before p)
    (more : t.unclosed = s.unclosed ++ [k]) : t.OpensBefore p := by
  constructor
  · rw [more, List.pairwise_append]
    exact ⟨opens.ordered, List.pairwise_singleton .., fun j mem i last =>
      List.mem_singleton.1 last ▸ opens.before j mem⟩
  · rw [more]
    exact List.forall_mem_append.2 ⟨fun j mem => (opens.before j mem).trans later,
      List.forall_mem_singleton.2 later⟩

/-- **One tag**: it opens its component behind all others, closes the last one, or neither. -/
theorem tag {g : Tag} (settled : s.pending = none) (opens : s.OpensBefore ⟨none, n, g.offset + 1⟩)
    (later : Position.Before ⟨none, n, g.offset + 1⟩ p) : (s.tag line n g).1.OpensBefore p := by
  have stays : s.OpensBefore p := opens.mono fun _ before => before.trans later
  have bare : s.unclosed = s.stack := by rw [unclosed, settled, Option.toList_none, List.append_nil]
  unfold MdxState.tag
  dsimp only
  split
  case isTrue =>
    split
    · refine stays.sublist ?_
      rw [bare, unclosed, settled, Option.toList_none, List.append_nil]
      exact List.dropLast_sublist _
    · exact stays
  case isFalse =>
    split
    case h_1 m selfClosing _ =>
      cases selfClosing with
      | true => exact stays
      | false =>
        refine opens.push (k := ⟨g.name, n, g.offset + 1⟩) later ?_
        rw [bare, unclosed, settled]
        exact List.append_nil _
    case h_2 => exact opens.push (k := ⟨g.name, n, g.offset + 1⟩) later (bare ▸ rfl)

/-- The tags of a line, from the first that an earlier one does not cover. -/
theorem tags {resume : Nat} (settled : s.pending = none)
    (opens : s.OpensBefore ⟨none, n, resume + 1⟩) (gs : List Tag) :
    (s.tags line n resume gs).1.OpensBefore ⟨none, n + 1, 1⟩ := by
  induction gs generalizing s resume with
  | nil => exact opens.below
  | cons g gs ih =>
    rw [MdxState.tags]
    split
    case isTrue => exact ih settled opens
    case isFalse free =>
      have here : s.OpensBefore ⟨none, n, g.offset + 1⟩ := opens.right (by omega)
      dsimp only
      split
      case isTrue => exact here.tag settled (.inl (Nat.lt_succ_self n))
      case isFalse ended =>
        have behind := offset_lt_tag (eq_false_of_ne_true ended)
        have opens' : (s.tag line n g).1.OpensBefore ⟨none, n, (s.tag line n g).2 + 1⟩ :=
          here.tag settled (.inr ⟨rfl, Nat.succ_lt_succ behind⟩)
        exact ih (by simpa using ended) opens'

theorem advanceProse (opens : s.OpensBefore ⟨none, n, 1⟩) :
    (s.advanceProse line n).2.OpensBefore ⟨none, n + 1, 1⟩ := by
  unfold MdxState.advanceProse
  split
  case h_1 settled => exact opens.tags settled _
  case h_2 k pending =>
    split
    case h_1 => exact opens.below
    case h_2 m selfClosing _ =>
      -- The pending component is the last that is open: it stays so, or goes.
      refine ((opens.sublist ?_).right (Nat.le_add_left 1 m)).tags rfl _
      cases selfClosing with
      | true => simp [unclosed, pending]
      | false => simp [unclosed, pending]

/-- **One line.** -/
theorem advance (opens : s.OpensBefore ⟨none, n, 1⟩) :
    (s.advance line n).2.OpensBefore ⟨none, n + 1, 1⟩ := by
  rw [MdxState.advance]
  split
  case isTrue => exact opens.below.sublist (.refl _)
  case isFalse =>
    have opens' : OpensBefore { s with fence := s.fence.next line } ⟨none, n, 1⟩ :=
      opens.sublist (.refl _)
    exact opens'.advanceProse

/-- **A run over lines.** -/
theorem classifyLines (opens : s.OpensBefore ⟨none, n, 1⟩) (ls : List Line) :
    (classifyLines s n ls).2.OpensBefore ⟨none, n + ls.length, 1⟩ := by
  induction ls generalizing s n with
  | nil => exact opens
  | cons l ls ih =>
    have next : (s.advance l.content n).2.OpensBefore ⟨none, n + 1, 1⟩ := opens.advance
    have rest := ih next
    rwa [Nat.add_assoc, Nat.add_comm 1] at rest

end OpensBefore

/-! ## The lines behind an open tag -/

variable {s t : MdxState} {n : Nat} {k : OpenComponent}

theorem classOf_of_unclosed (busy : s.unclosed ≠ []) (touched : Bool) (line : Text) :
    s.classOf touched line = .component := by
  have inside : (touched || !s.stack.isEmpty || s.pending.isSome) = true := by
    rcases s with ⟨fence, stack, pending, fences⟩
    cases pending with
    | some p => simp
    | none =>
      have filled : stack ≠ [] := by simpa [unclosed] using busy
      simp [filled]
  rw [classOf, if_pos inside]

theorem advanceProse_of_unclosed {line : Text} (busy : (s.advanceProse line n).2.unclosed ≠ []) :
    (s.advanceProse line n).1 = .component := by
  cases pending : s.pending with
  | none =>
    rw [advanceProse_of_settled pending] at busy ⊢
    exact classOf_of_unclosed busy _ _
  | some p =>
    rw [advanceProse]
    simp only [pending]
    split <;> rfl

/-- A line with something open behind it is left as it is. -/
theorem escapeClassified_of_unclosed {l : Line} (busy : (s.advance l.content n).2.unclosed ≠ []) :
    Brace.escapeClassified (l, (s.advance l.content n).1) = l := by
  rw [advance] at busy ⊢
  split
  case isTrue => rfl
  case isFalse prose =>
    rw [if_neg prose] at busy
    rw [advanceProse_of_unclosed busy]
    rfl

/-- **From the line of a component that is never closed on**, every line is left as it is. -/
theorem carries_of_mem_unclosed {ls : List Line} (above : k.line ≤ n)
    (mem : k ∈ (classifyLines s n ls).2.unclosed) :
    Carries n ls s (classifyLines s n ls).2 := by
  induction ls generalizing s n with
  | nil => exact .nil
  | cons l ls ih =>
    have rest : k ∈ (classifyLines (s.advance l.content n).2 (n + 1) ls).2.unclosed := mem
    have opened : k ∈ (s.advance l.content n).2.unclosed := by
      rcases unclosed_classifyLines rest with opened | ⟨before, -, -, -, -, line, -⟩
      · exact opened
      · omega
    exact .cons rfl (escapeClassified_of_unclosed (List.ne_nil_of_mem opened))
      (ih (Nat.le_succ_of_le above) rest)

end MdxState

/-! ## Bodies -/

theorem classified_append {body : Text} {ls ms : List Line} (lines : body.lines = ls ++ ms) :
    body.classified.1.drop ls.length =
        (classifyLines (classifyLines .start 1 ls).2 (1 + ls.length) ms).1 ∧
      body.classified.2 = (classifyLines (classifyLines .start 1 ls).2 (1 + ls.length) ms).2 := by
  have length : (classifyLines .start 1 ls).1.length = ls.length := by
    rw [← List.length_map (·.1), classifyLines_lines]
  rw [Text.classified, lines, classifyLines_append]
  exact ⟨List.drop_left' length, rfl⟩

/-- The lines from a component that is never closed on stand in the escaped body as they are. -/
theorem drop_lines_of_mem_unclosed {body : Text} {k : OpenComponent}
    (mem : k ∈ (escapeBraces body).unclosed) :
    (escapeBraces body).text.lines.drop (k.line - 1) = body.lines.drop (k.line - 1) := by
  obtain ⟨above, l, below, fenced, -, lineNo, -⟩ := OpenComponent.exists_line_of_mem_unclosed mem
  have lines : body.lines = above.map (·.line) ++ (l :: below).map (·.line) := by
    rw [← map_line_fencedLines none body.lines, ← Text.fenced, fenced, List.map_append]
  obtain ⟨behind, state⟩ := classified_append lines
  have length : k.line - 1 = (above.map (·.line)).length := by
    rw [lineNo, List.length_map]
    rfl
  have opened : k ∈ body.classified.2.unclosed := mem
  rw [state] at opened
  have carried : MdxState.Carries (1 + (above.map (·.line)).length) ((l :: below).map (·.line))
      (classifyLines .start 1 (above.map (·.line))).2 _ :=
    MdxState.carries_of_mem_unclosed (by rw [lineNo, List.length_map]; omega) opened
  calc (escapeBraces body).text.lines.drop (k.line - 1)
      = (body.classified.1.drop (above.map (·.line)).length).map Brace.escapeClassified := by
        rw [lines_escapeBraces, length, List.map_drop]
    _ = (classifyLines _ _ ((l :: below).map (·.line))).1.map (·.1) := by
        rw [behind]
        exact List.map_congr_left carried.kept
    _ = body.lines.drop (k.line - 1) := by
        rw [classifyLines_lines, lines, length, List.drop_left]

/-- A diagnostic points at the `<` before the name of a component, on a line of the body that is no
code. -/
def Diagnostic.PointsAtTag (body : Text) (d : Diagnostic) : Prop :=
  ∃ (name : Text) (above : List FencedLine) (l : FencedLine) (below : List FencedLine)
    (left right : Text),
    d = ⟨.unclosedComponent name, ⟨none, above.length + 1, left.length + 1⟩⟩ ∧
      body.fenced = above ++ l :: below ∧ l.isCode = false ∧
      l.line.content = left ++ '<' :: (name ++ right)

/-- **The report of components that are never closed**: the diagnostics come in the order of their
positions, outermost first, and give the names in the report one by one; each points at its tag,
outside of code; and from the line of the first on, the lines of the body are left as they are. -/
theorem escapeBraces_reports_unclosed (body : Text) :
    (escapeBraces body).diagnostics.Pairwise (fun d e => d.position.Before e.position) ∧
      (escapeBraces body).diagnostics.map (·.fault) =
        (escapeBraces body).report.unclosed.map Fault.unclosedComponent ∧
      (∀ d ∈ (escapeBraces body).diagnostics, d.PointsAtTag body) ∧
      ∀ d ∈ (escapeBraces body).diagnostics.head?,
        (escapeBraces body).text.lines.drop (d.position.line - 1) =
          body.lines.drop (d.position.line - 1) := by
  have opens := (MdxState.OpensBefore.start ⟨none, 1, 1⟩).classifyLines body.lines
  refine ⟨?_, ?_, ?_, ?_⟩
  · exact List.pairwise_map.2 opens.ordered
  · simp [Escaped.diagnostics, escapeBraces, OpenComponent.diagnostic]
  · refine List.forall_mem_map.2 fun k mem => ?_
    obtain ⟨above, l, below, fenced, prose, line, left, right, content, column⟩ :=
      OpenComponent.exists_line_of_mem_unclosed mem
    exact ⟨k.name, above, l, below, left, right, by rw [OpenComponent.diagnostic, line, column],
      fenced, prose, content⟩
  · intro d first
    obtain ⟨k, head, rfl⟩ := Option.map_eq_some_iff.1 ((List.head?_map ..).symm.trans first)
    exact drop_lines_of_mem_unclosed (List.mem_of_mem_head? head)

/-- The braces above the first open tag are escaped, those behind it are not. -/
example :
    let result := escapeBraces "{a}\n<Tabs>\n{b} <Tab\n".toList
    result.text = "&#123;a&#125;\n<Tabs>\n{b} <Tab\n".toList ∧
      result.diagnostics.map (·.position) = [⟨none, 2, 1⟩, ⟨none, 3, 5⟩] := by
  decide +kernel

end MdxPress
