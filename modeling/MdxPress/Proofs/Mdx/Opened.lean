import MdxPress.Mdx.Brace
import MdxPress.Proofs.CodeSpan
import MdxPress.Proofs.Fence.Closed
import MdxPress.Proofs.Position

/-!
Where a component was opened.  A line opens components by its tags alone, so what is open at the end
of a body stands in it, at the line and the column that were noted.

* `MdxState.unclosed_advance` is one line, `unclosed_classifyLines` a run over lines;
* `OpenComponent.exists_line_of_mem_unclosed` is the line of the body, which is no code, and
  `OpenComponent.standsIn_of_mem_unclosed` the place in the body.
-/

namespace MdxPress

/-! ## Tags -/

namespace Tag

theorem exists_of_name? {t name : Text} (reads : name? t = some name) : ∃ rest, t = name ++ rest := by
  unfold name? at reads
  split at reads
  case h_2 => cases reads
  case h_1 c r =>
    split at reads
    · cases reads
      exact ⟨r.dropWhile isNameChar, by simp⟩
    · cases reads

/-- An opening tag begins with its name. -/
theorem exists_of_ofStart? {t name : Text} (reads : ofStart? t = some (false, name)) :
    ∃ rest, t = '<' :: (name ++ rest) := by
  unfold ofStart? at reads
  split at reads
  case h_1 r =>
    obtain ⟨n, -, same⟩ := Option.map_eq_some_iff.1 reads
    cases same
  case h_2 r _ =>
    obtain ⟨n, named, same⟩ := Option.map_eq_some_iff.1 reads
    cases same
    obtain ⟨rest, rfl⟩ := exists_of_name? named
    exact ⟨rest, rfl⟩
  case h_3 => cases reads

theorem exists_of_mem_scan {offset : Nat} {ks : List (Char × Bool)} {t : Tag}
    (mem : t ∈ scan offset ks) : ∃ before rest : Text, ks.map (·.1) = before ++ rest ∧
      t.offset = offset + before.length ∧ ofStart? rest = some (t.closing, t.name) := by
  induction ks generalizing offset with
  | nil => cases mem
  | cons k ks ih =>
    obtain ⟨c, isCode⟩ := k
    have later : t ∈ scan (offset + 1) ks → ∃ before rest : Text,
        ((c, isCode) :: ks).map (·.1) = before ++ rest ∧ t.offset = offset + before.length ∧
          ofStart? rest = some (t.closing, t.name) := by
      intro mem
      obtain ⟨before, rest, same, place, reads⟩ := ih mem
      exact ⟨c :: before, rest, by simp [same], by rw [place, List.length_cons]; omega, reads⟩
    rw [scan] at mem
    split at mem
    case h_2 => exact later mem
    case h_1 closing name starts =>
      rcases List.mem_cons.1 mem with rfl | mem
      · split at starts
        · cases starts
        · exact ⟨[], _, rfl, rfl, starts⟩
      · exact later mem

theorem map_fst_codeMask (line : Text) : line.codeMask.map (·.1) = line := by
  rw [Text.codeMask, List.map_flatMap]
  simpa [Function.comp_def] using Text.flatMap_text_codeSpans line

/-- A tag of a line stands in it. -/
theorem exists_of_mem_ofLine {line : Text} {t : Tag} (mem : t ∈ ofLine line) :
    ∃ before rest : Text, line = before ++ rest ∧ t.offset = before.length ∧
      ofStart? rest = some (t.closing, t.name) := by
  obtain ⟨before, rest, same, place, reads⟩ := exists_of_mem_scan mem
  rw [map_fst_codeMask] at same
  exact ⟨before, rest, same, by omega, reads⟩

end Tag

/-! ## Lines -/

/-- A component is opened on a line, which has the number `lineNo`. -/
def OpenComponent.IsOn (k : OpenComponent) (line : Text) (lineNo : Nat) : Prop :=
  k.line = lineNo ∧ ∃ before rest : Text, line = before ++ '<' :: (k.name ++ rest) ∧
    k.column = before.length + 1

namespace MdxState

theorem fence_tag (s : MdxState) (line : Text) (lineNo : Nat) (t : Tag) :
    (s.tag line lineNo t).1.fence = s.fence := by
  unfold tag
  dsimp only
  repeat' split
  all_goals rfl

theorem fence_tags (s : MdxState) (line : Text) (lineNo resume : Nat) (ts : List Tag) :
    (s.tags line lineNo resume ts).1.fence = s.fence := by
  induction ts generalizing s resume with
  | nil => rfl
  | cons t ts ih =>
    rw [tags]
    split
    · exact ih s resume
    · dsimp only
      split
      · exact fence_tag s line lineNo t
      · exact (ih _ _).trans (fence_tag s line lineNo t)

/-- The fence that a classified line leaves behind. -/
theorem fence_advance (s : MdxState) (line : Text) (lineNo : Nat) :
    (s.advance line lineNo).2.fence = s.fence.next line := by
  rw [advance]
  split
  case isTrue => rfl
  case isFalse =>
    rw [advanceProse]
    dsimp only
    split
    · exact fence_tags _ _ _ _ _
    · split
      · rfl
      · exact fence_tags _ _ _ _ _

variable {s : MdxState} {line : Text} {lineNo : Nat} {k : OpenComponent}

theorem unclosed_tag {t : Tag} (isTag : t ∈ Tag.ofLine line)
    (mem : k ∈ (s.tag line lineNo t).1.unclosed) : k ∈ s.unclosed ∨ k.IsOn line lineNo := by
  simp only [unclosed, List.mem_append, Option.mem_toList] at mem ⊢
  unfold tag at mem
  dsimp only at mem
  split at mem
  case isTrue =>
    split at mem
    · exact .inl (mem.imp_left (List.dropLast_subset _ ·))
    · exact .inl mem
  case isFalse opens =>
    obtain ⟨before, rest, rfl, place, reads⟩ := Tag.exists_of_mem_ofLine isTag
    rw [Bool.not_eq_true] at opens
    rw [opens] at reads
    obtain ⟨behind, rfl⟩ := Tag.exists_of_ofStart? reads
    have opened : OpenComponent.IsOn ⟨t.name, lineNo, t.offset + 1⟩
        (before ++ '<' :: (t.name ++ behind)) lineNo :=
      ⟨rfl, before, behind, rfl, by rw [place]⟩
    split at mem
    case h_1 n selfClosing _ =>
      cases selfClosing with
      | true => exact .inl mem
      | false =>
        rcases mem with stack | pending
        · rcases List.mem_append.1 stack with stack | new
          · exact .inl (.inl stack)
          · exact .inr (List.mem_singleton.1 new ▸ opened)
        · exact .inl (.inr pending)
    case h_2 =>
      rcases mem with stack | pending
      · exact .inl (.inl stack)
      · exact .inr (Option.some.inj pending ▸ opened)

theorem unclosed_tags {resume : Nat} {ts : List Tag} (areTags : ∀ t ∈ ts, t ∈ Tag.ofLine line)
    (mem : k ∈ (s.tags line lineNo resume ts).1.unclosed) :
    k ∈ s.unclosed ∨ k.IsOn line lineNo := by
  induction ts generalizing s resume with
  | nil => exact .inl mem
  | cons t ts ih =>
    obtain ⟨first, rest⟩ := List.forall_mem_cons.1 areTags
    rw [tags] at mem
    split at mem
    case isTrue => exact ih rest mem
    case isFalse =>
      dsimp only at mem
      split at mem
      · exact unclosed_tag first mem
      · exact (ih rest mem).elim (unclosed_tag first) .inr

theorem unclosed_advanceProse (mem : k ∈ (s.advanceProse line lineNo).2.unclosed) :
    k ∈ s.unclosed ∨ k.IsOn line lineNo := by
  unfold advanceProse at mem
  split at mem
  case h_1 => exact unclosed_tags (fun _ => id) mem
  case h_2 p pending =>
    split at mem
    case h_1 => exact .inl mem
    case h_2 n selfClosing _ =>
      refine (unclosed_tags (fun _ => id) mem).imp_left fun mem => ?_
      simp only [unclosed, pending, List.mem_append, Option.mem_toList] at mem ⊢
      cases selfClosing with
      | true => exact .inl (by simpa using mem)
      | false => simpa [eq_comm] using mem

/-- **What is open behind a line** was open before it, or is opened on it, outside of code. -/
theorem unclosed_advance (mem : k ∈ (s.advance line lineNo).2.unclosed) :
    k ∈ s.unclosed ∨ s.fence.covers line = false ∧ k.IsOn line lineNo := by
  rw [advance] at mem
  split at mem
  case isTrue => exact .inl mem
  case isFalse prose =>
    have opened := unclosed_advanceProse mem
    exact opened.imp_right fun isOn => ⟨eq_false_of_ne_true prose, isOn⟩

end MdxState

/-- **What is open behind lines** was open before them, or is opened on one of them, outside of
code. -/
theorem unclosed_classifyLines {s : MdxState} {lineNo : Nat} {ls : List Line} {k : OpenComponent}
    (mem : k ∈ (classifyLines s lineNo ls).2.unclosed) :
    k ∈ s.unclosed ∨ ∃ (above : List FencedLine) (l : FencedLine) (below : List FencedLine),
      fencedLines s.fence ls = above ++ l :: below ∧ l.isCode = false ∧
        k.IsOn l.line.content (lineNo + above.length) := by
  induction ls generalizing s lineNo with
  | nil => exact .inl mem
  | cons l ls ih =>
    rcases ih (s := (s.advance l.content lineNo).2) mem with
      inner | ⟨above, k', below, rest, prose, isOn⟩
    · refine (MdxState.unclosed_advance inner).imp_right fun ⟨prose, isOn⟩ => ?_
      exact ⟨[], ⟨l, s.fence, s.fence.next l.content⟩, _, rfl, prose, isOn⟩
    · rw [MdxState.fence_advance] at rest
      refine .inr ⟨⟨l, s.fence, s.fence.next l.content⟩ :: above, k', below, ?_, prose, ?_⟩
      · rw [fencedLines, rest, List.cons_append]
      · rwa [List.length_cons, Nat.add_comm above.length, ← Nat.add_assoc]

/-! ## Bodies -/

/-- A component that is never closed is opened on a line of prose of the body. -/
theorem OpenComponent.exists_line_of_mem_unclosed {body : Text} {k : OpenComponent}
    (mem : k ∈ (escapeBraces body).unclosed) :
    ∃ (above : List FencedLine) (l : FencedLine) (below : List FencedLine),
      body.fenced = above ++ l :: below ∧ l.isCode = false ∧ k.IsOn l.line.content (above.length + 1) := by
  rcases unclosed_classifyLines (s := .start) mem with start | ⟨above, l, below, lines, prose, isOn⟩
  · simp [MdxState.unclosed, MdxState.start] at start
  · exact ⟨above, l, below, lines, prose, Nat.add_comm 1 _ ▸ isOn⟩

/-- A component stands in a text at the line and the column that were noted. -/
def OpenComponent.StandsIn (k : OpenComponent) (t : Text) : Prop :=
  ∃ before behind : Text, t = before ++ '<' :: (k.name ++ behind) ∧
    Position.IsBehind ⟨none, k.line, k.column⟩ before

/-- **A component that is never closed stands in the body.** -/
theorem OpenComponent.standsIn_of_mem_unclosed {body : Text} {k : OpenComponent}
    (mem : k ∈ (escapeBraces body).unclosed) : k.StandsIn body := by
  obtain ⟨above, l, below, fenced, -, lineNo, left, rest, content, column⟩ :=
    exists_line_of_mem_unclosed mem
  have lines : body.lines = above.map (·.line) ++ l.line :: below.map (·.line) := by
    rw [← map_line_fencedLines none body.lines, ← Text.fenced, fenced, List.map_append, List.map_cons]
  have whole : Line.AreLines (above.map (·.line) ++ l.line :: below.map (·.line)) :=
    lines ▸ Text.areLines_lines body
  have noFeed : '\n' ∉ left := fun feed =>
    (whole.isWhole (by simp)).noFeed (l := l.line) (content ▸ List.mem_append_left _ feed)
  have ended : Line.AllEnded (above.map (·.line)) := by
    rcases whole.allEnded_or_eq_nil with ended | none
    · exact ended
    · cases none
  have first := whole.sublist (List.sublist_append_left _ (l.line :: below.map (·.line)))
  refine ⟨Line.join (above.map (·.line)) ++ left,
    rest ++ l.line.ending.text ++ Line.join (below.map (·.line)), ?_, ?_, ?_⟩
  · rw [← Text.join_lines body, lines]
    simp [Line.text, content]
  · rw [Text.lineCount_join_append first ended noFeed, List.length_map, lineNo]
  · rw [Text.lastLine_join_append ended noFeed, column]

end MdxPress
