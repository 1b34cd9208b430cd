import MdxPress.Proofs.Fence.SameCode
import MdxPress.Proofs.Mdx.HtmlRule

/-!
The code of a page behind the pass over its inline HTML: its fenced lines, and the inline code of its
other lines.  The rules for the prose of a line never touch code.  The rules for figures, spans and
captions look at a whole stretch of prose and do not see code spans, so what they replace has to stand
outside code, and what they leave must not begin a fence.

* `Text.codeLines` and `Text.inlineCodes` are the code of a page;
* `Html.SparesCode` is the condition on a stretch of prose, which can be computed;
* `Html.sameCode_normalize` is the result.
-/

namespace MdxPress

namespace Text

/-- The fenced lines of a page, delimiters included. -/
def codeLines (t : Text) : List Line :=
  (t.fenced.filter (·.isCode)).map (·.line)

/-- The inline code of the lines of a page that are not fenced. -/
def inlineCodes (t : Text) : List Text :=
  (t.fenced.filter fun l => !l.isCode).flatMap fun l => l.line.text.inlineCode

theorem codeLines_append {a : Text} (closed : a.Closed) (b : Text) :
    (a ++ b).codeLines = a.codeLines ++ b.codeLines := by
  simp [codeLines, fenced_append closed]

theorem inlineCodes_append {a : Text} (closed : a.Closed) (b : Text) :
    (a ++ b).inlineCodes = a.inlineCodes ++ b.inlineCodes := by
  simp [inlineCodes, fenced_append closed]

/-! ## Prose -/

section Prose

variable {t : Text} (prose : ∀ l ∈ t.lines, FenceOpener.ofLine? l.content = none)
include prose

/-- Lines that open nothing are prose, one and all. -/
theorem fenced_of_prose : t.fenced = t.lines.map fun l => ⟨l, none, none⟩ := by
  rw [fenced]
  revert prose
  induction t.lines with
  | nil => exact fun _ => rfl
  | cons l ls ih =>
    intro prose
    have first : FenceState.next none l.content = none := by
      simp [FenceState.next, prose l (.head _)]
    rw [fencedLines, first, ih fun k mem => prose k (.tail _ mem)]
    rfl

theorem codeLines_of_prose : t.codeLines = [] := by
  rw [codeLines, fenced_of_prose prose, List.filter_eq_nil_iff.2, List.map_nil]
  simp [FencedLine.isCode]

theorem inlineCodes_of_prose : t.inlineCodes = t.codes := by
  have all : (t.lines.map fun l => (⟨l, none, none⟩ : FencedLine)).filter (fun l => !l.isCode) =
      t.lines.map fun l => ⟨l, none, none⟩ :=
    List.filter_eq_self.2 (by simp [FencedLine.isCode])
  rw [inlineCodes, fenced_of_prose prose, all, List.flatMap_map]
  rfl

end Prose

end Text

namespace Html

open Text (pieces)
open Text.Piece (KeepCode)

/-- A stretch of prose behind the rules for figures and for the prose of lines. -/
def linesDone (site t : Text) : Text :=
  (t.rewrite figureRule).mapLineProse (normalizeInline site)

/-- The rules that look at a whole stretch of prose stay outside its code, and begin no fence. -/
structure SparesCode (site t : Text) : Prop where
  figures : KeepCode [] (pieces figureRule t)
  spans : KeepCode [] (pieces customSpanRule (linesDone site t))
  captions : KeepCode [] (pieces captionRule ((linesDone site t).rewrite customSpanRule))
  figureTags : KeepCode [] (pieces figureTagRule
    (((linesDone site t).rewrite customSpanRule).rewrite captionRule))
  noOpener : ∀ l ∈ (normalizeProse site t).lines, FenceOpener.ofLine? l.content = none

instance (site t : Text) : Decidable (SparesCode site t) :=
  decidable_of_iff
    (KeepCode [] (pieces figureRule t) ∧ KeepCode [] (pieces customSpanRule (linesDone site t)) ∧
      KeepCode [] (pieces captionRule ((linesDone site t).rewrite customSpanRule)) ∧
      KeepCode [] (pieces figureTagRule
        (((linesDone site t).rewrite customSpanRule).rewrite captionRule)) ∧
      ∀ l ∈ (normalizeProse site t).lines, FenceOpener.ofLine? l.content = none)
    ⟨fun ⟨a, b, c, d, e⟩ => ⟨a, b, c, d, e⟩, fun ⟨a, b, c, d, e⟩ => ⟨a, b, c, d, e⟩⟩

section Prose

variable {site t : Text} (noTick : '\x60' ∉ site)
include noTick

/-- The inline code of a stretch of prose. -/
theorem SparesCode.codes_normalizeProse (spares : SparesCode site t) :
    (normalizeProse site t).codes = t.codes := by
  have onLines : (linesDone site t).codes = (t.rewrite figureRule).codes :=
    Text.codes_mapLineProse (ticks_normalizeInline_le noTick)
      (fun _ => getLast?_normalizeInline noTick) _
  calc (normalizeProse site t).codes
      = (((linesDone site t).rewrite customSpanRule).rewrite captionRule).codes :=
        Text.codes_rewrite spares.figureTags
    _ = ((linesDone site t).rewrite customSpanRule).codes := Text.codes_rewrite spares.captions
    _ = (linesDone site t).codes := Text.codes_rewrite spares.spans
    _ = (t.rewrite figureRule).codes := onLines
    _ = t.codes := Text.codes_rewrite spares.figures

/-- Whole lines of prose stay whole. -/
theorem endsLine_normalizeProse (ends : t.EndsLine) : (normalizeProse site t).EndsLine := by
  have rewritten {rule : Text → Option (Text × Nat)} (stops : Text.StopsInLine rule) {u : Text}
      (ends : u.EndsLine) : (u.rewrite rule).EndsLine := by
    rw [← Text.target_pieces]
    exact (Text.ended_pieces stops ends).endsLine_target
  have onLines : (linesDone site t).EndsLine :=
    Text.endsLine_mapLineProse (fun _ => getLast?_normalizeInline noTick)
      (rewritten stopsInLine_figureRule ends)
  exact rewritten stopsInLine_figureTagRule
    (rewritten stopsInLine_captionRule (rewritten stopsInLine_customSpanRule onLines))

end Prose

/-! ## A page -/

section Segments

variable {site : Text} (noTick : '\x60' ∉ site) {s : Segment}
  (spares : s.fenced = false → SparesCode site s.text)
include noTick spares

/-- What the pass makes of a segment of a page has the code of the segment. -/
theorem sameCode_segment (run : s.IsRun) :
    let new := if s.fenced then s.text else normalizeProse site s.text
    new.codeLines = s.text.codeLines ∧ new.inlineCodes = s.text.inlineCodes := by
  intro new
  cases code : s.fenced with
  | true => simp [new, code]
  | false =>
    have before := run.opener_eq_none code
    have behind := (spares code).noOpener
    simp only [new, code, Bool.false_eq_true, if_false]
    rw [Text.codeLines_of_prose behind, Text.codeLines_of_prose before,
      Text.inlineCodes_of_prose behind, Text.inlineCodes_of_prose before]
    exact ⟨rfl, (spares code).codes_normalizeProse noTick⟩

/-- What the pass makes of a closed segment is closed. -/
theorem closed_segment (closed : s.text.Closed) :
    Text.Closed (if s.fenced then s.text else normalizeProse site s.text) := by
  split
  case isTrue => exact closed
  case isFalse prose =>
    have ends := Text.endsLine_of_allEnded closed.ended
    exact ⟨(endsLine_normalizeProse noTick ends).allEnded,
      FenceState.run_of_prose (spares (by simpa using prose)).noOpener⟩

end Segments

theorem sameCode_segments {site : Text} (noTick : '\x60' ∉ site) {ss : List Segment}
    (cut : Segment.AreCut ss) (spares : ∀ s ∈ ss, s.fenced = false → SparesCode site s.text) :
    let new : Text := ss.flatMap fun s => if s.fenced then s.text else normalizeProse site s.text
    new.codeLines = Text.codeLines (ss.flatMap (·.text)) ∧
      new.inlineCodes = Text.inlineCodes (ss.flatMap (·.text)) := by
  induction ss with
  | nil => exact ⟨rfl, rfl⟩
  | cons s ss ih =>
    obtain ⟨run, closed, later⟩ := cut
    obtain ⟨lines, codes⟩ := sameCode_segment noTick (spares s (.head _)) run
    obtain ⟨restLines, restCodes⟩ := ih later fun u mem => spares u (.tail _ mem)
    dsimp only at lines codes restLines restCodes ⊢
    rw [List.flatMap_cons, List.flatMap_cons]
    by_cases last : ss = []
    · subst last
      simpa using ⟨lines, codes⟩
    · have left := closed last
      have right := closed_segment noTick (spares s (.head _)) left
      rw [Text.codeLines_append left, Text.codeLines_append right, Text.inlineCodes_append left,
        Text.inlineCodes_append right, lines, codes, restLines, restCodes]
      exact ⟨rfl, rfl⟩

end Html
end MdxPress
