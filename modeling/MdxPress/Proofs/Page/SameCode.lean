import MdxPress.Proofs.Fence.SameCode
import MdxPress.Proofs.Link.Rewrite
import MdxPress.Proofs.Mdx.Opened
import MdxPress.Proofs.Mdx.Settled

/-!
Rewriting links and escaping braces cannot be seen from the code of a page: no line is added or lost,
no block is opened, closed or moved, and every line keeps its inline code.

* `sameCode_rewriteLinks` and `sameCode_escapeBraces` are the two passes;
* `sameCode_rewriteLinks_escapeBraces` is the result.
-/

namespace MdxPress

/-! ## Links -/

theorem Ending.tick_not_mem_text (e : Ending) : '\x60' ∉ e.text := by
  cases e <;> decide

theorem Ending.parenthesis_not_mem_text (e : Ending) : ')' ∉ e.text := by
  cases e <;> decide

/-- The content of a line whose links are rewritten: the ending stays, and so does the inline code. -/
theorem Line.exists_relinked (l : Line) :
    ∃ content : Text, content ++ l.ending.text = l.text.mapOutsideCode (Text.rewrite Link.rule) ∧
      Text.Relinked l.content content ∧ content.inlineCode = l.content.inlineCode := by
  obtain ⟨content, same, relinked⟩ :=
    Text.Relinked.of_append l.ending.parenthesis_not_mem_text (Text.relinked_mapOutsideCode l.text)
  have spans : (l.text.mapOutsideCode (Text.rewrite Link.rule)).inlineCode = l.text.inlineCode :=
    Text.inlineCode_mapOutsideCode (fun t => (Text.relinked_rewrite t).count_tick) l.text
  have noTick := l.ending.tick_not_mem_text
  refine ⟨content, same.symm, relinked, ?_⟩
  rwa [same, Text.inlineCode_append content noTick, Line.text, Text.inlineCode_append _ noTick]
    at spans

theorem Line.IsWhole.relinked {l : Line} {content : Text} (whole : l.IsWhole)
    (relinked : Text.Relinked l.content content) : IsWhole ⟨content, l.ending⟩ where
  noFeed mem := whole.noFeed (relinked.subset mem)
  noReturn lf last := whole.noReturn lf (relinked.getLast?_eq ▸ last)

/-- Rewriting links keeps the code of a page. -/
theorem sameCode_rewriteLinks (body : Text) : body.SameCode (rewriteLinks body).1 := by
  have lines : (rewriteLinks body).1 = body.fenced.flatMap fun l => if l.isCode then l.line.text
      else l.line.text.mapOutsideCode (Text.rewrite Link.rule) := Text.mapProse_lines _ body
  rw [lines]
  refine Text.sameCode_of_lines fun l mem whole => ?_
  have noOpener := FencedLine.opener_eq_none mem
  cases code : l.isCode with
  | true => exact ⟨l.line, rfl, .self noOpener, whole, id⟩
  | false =>
    obtain ⟨content, same, relinked, spans⟩ := l.line.exists_relinked
    refine ⟨⟨content, l.line.ending⟩, same, ⟨rfl, by simp [code], fun prose => ?_, fun _ => spans⟩,
      whole.relinked relinked, fun filled empty => filled ?_⟩
    · exact relinked.opener_eq_none (noOpener prose)
    · have last := relinked.getLast?_eq
      rw [show content = [] from empty] at last
      simpa using last.symm

/-! ## Braces -/

namespace Brace

/-- The prose of a line with its unprotected braces escaped. -/
def escapePart (part : Text) : Text :=
  (markerMask false part).flatMap escapeChar

theorem escapeLine_eq_mapOutsideCode (line : Text) :
    escapeLine line = line.mapOutsideCode escapePart := by
  rw [escapeLine, mask, List.flatMap_assoc, Text.mapOutsideCode]
  refine List.flatMap_congr fun s _ => ?_
  cases s.isCode with
  | false => rfl
  | true => simp [List.flatMap_map, escapeChar_of_isProtected]

theorem count_tick_escapeChar (c : Char) (isProtected : Bool) :
    (escapeChar (c, isProtected)).count '\x60' = [c].count '\x60' := by
  by_cases left : c = '{'
  · subst left; cases isProtected <;> rfl
  · by_cases right : c = '}'
    · subst right; cases isProtected <;> rfl
    · rw [escapeChar_of_not_brace left right]

theorem map_fst_markerMask (isOpen : Bool) (part : Text) :
    (markerMask isOpen part).map (·.1) = part := by
  fun_induction markerMask isOpen part <;> simp_all

/-- Escaping adds no backtick to the prose of a line and takes none away. -/
theorem count_tick_escapePart (part : Text) :
    (escapePart part).count '\x60' = part.count '\x60' := by
  conv => rhs; rw [← map_fst_markerMask false part]
  rw [escapePart]
  induction markerMask false part with
  | nil => rfl
  | cons k ks ih =>
    rw [List.flatMap_cons, List.count_append, ih, List.map_cons, count_tick_escapeChar,
      ← List.count_append, List.singleton_append]

theorem inlineCode_escapeLine (line : Text) : (escapeLine line).inlineCode = line.inlineCode := by
  rw [escapeLine_eq_mapOutsideCode]
  exact Text.inlineCode_mapOutsideCode count_tick_escapePart line

end Brace

/-- Escaping a line spares its code, whatever its class. -/
theorem Brace.spares_escapeClassified (s : MdxState) (l : Line) (lineNo : Nat) :
    FencedLine.Spares ⟨l, s.fence, s.fence.next l.content⟩
      (escapeClassified (l, (s.advance l.content lineNo).1)) := by
  have noOpener : FencedLine.isCode ⟨l, s.fence, s.fence.next l.content⟩ = false →
      FenceOpener.ofLine? l.content = none :=
    FencedLine.opener_eq_none (show _ ∈ fencedLines s.fence [l] from .head _)
  cases class_ : (s.advance l.content lineNo).1 with
  | fence | component | exempt => exact .self noOpener
  | prose =>
    obtain ⟨quiet, plain⟩ := MdxState.isPlain_of_prose class_
    have prose : FencedLine.isCode ⟨l, s.fence, s.fence.next l.content⟩ = false := by
      simp [FencedLine.isCode, FenceState.next, quiet.fence, plain.noFence]
    exact ⟨rfl, fun code => absurd (prose.symm.trans code) (by decide),
      fun _ => plain.escapeLine.noFence, fun _ => inlineCode_escapeLine l.content⟩

theorem forall₂_spares_classifyLines (s : MdxState) (lineNo : Nat) (ls : List Line) :
    List.Forall₂ FencedLine.Spares (fencedLines s.fence ls)
      ((classifyLines s lineNo ls).1.map Brace.escapeClassified) := by
  induction ls generalizing s lineNo with
  | nil => exact .nil
  | cons l ls ih =>
    have rest := ih (s.advance l.content lineNo).2 (lineNo + 1)
    rw [MdxState.fence_advance] at rest
    exact .cons (Brace.spares_escapeClassified s l lineNo) rest

/-- Escaping braces keeps the code of a page. -/
theorem sameCode_escapeBraces (body : Text) : body.SameCode (escapeBraces body).text := by
  have whole : Line.AreLines (body.classified.1.map Brace.escapeClassified) :=
    lines_escapeBraces body ▸ Text.areLines_lines _
  exact Text.sameCode_join whole (forall₂_spares_classifyLines MdxState.start 1 body.lines)

/-! ## Both passes -/

/-- **Rewriting links and escaping braces cannot be seen from the code of a page.**  Each leaves as
many lines as it was given, and on every line the ending, what is open behind it, and its code. -/
theorem sameCode_rewriteLinks_escapeBraces (body : Text) :
    body.SameCode (rewriteLinks body).1 ∧ body.SameCode (escapeBraces body).text :=
  ⟨sameCode_rewriteLinks body, sameCode_escapeBraces body⟩

end MdxPress
