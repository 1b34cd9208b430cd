import MdxPress.Directive.Listing
import MdxPress.Proofs.Fence.Block
import MdxPress.Proofs.Marker.Written
import MdxPress.Proofs.Text.Case

/-!
Prose without `<` holds no HTML listing.

* `Text.flatMap_text_segments` says that the segments of a page are the page;
* `Text.Tagless` says that no line of prose holds `<`, and is kept when texts are put together;
* `Text.Tagless.rewriteProse` leaves such a text alone, whatever rule for tags rewrites it.
-/

namespace MdxPress

namespace Segment

theorem flatMap_text_ofLines (ls : List FencedLine) :
    (ofLines ls).flatMap (·.text) = Line.join (ls.map (·.line)) := by
  induction ls with
  | nil => rfl
  | cons l ls ih =>
    rw [List.map_cons, Line.join_cons, ← ih, ofLines]
    split
    case h_1 empty => simp [empty]
    case h_2 s ss same =>
      rw [same]
      split <;> simp

/-- What stands in a segment of prose stands on a line of prose. -/
theorem exists_line_of_mem {ls : List FencedLine} {s : Segment} (mem : s ∈ ofLines ls)
    (prose : s.fenced = false) {c : Char} (inside : c ∈ s.text) :
    ∃ l ∈ ls, l.isCode = false ∧ c ∈ l.line.text := by
  induction ls generalizing s with
  | nil => cases mem
  | cons l ls ih =>
    have later : ∀ {s : Segment}, s ∈ ofLines ls → s.fenced = false → c ∈ s.text →
        ∃ k ∈ l :: ls, k.isCode = false ∧ c ∈ k.line.text := by
      intro s mem prose inside
      obtain ⟨k, isIn, rest⟩ := ih mem prose inside
      exact ⟨k, .tail _ isIn, rest⟩
    rw [ofLines] at mem
    split at mem
    case h_1 =>
      rw [List.mem_singleton.1 mem] at prose inside
      exact ⟨l, .head _, prose, inside⟩
    case h_2 first rest same =>
      have isFirst : first ∈ ofLines ls := same ▸ .head _
      split at mem
      case isTrue kind =>
        rcases List.mem_cons.1 mem with rfl | mem
        · rcases List.mem_append.1 inside with own | inside
          · exact ⟨l, .head _, kind ▸ prose, own⟩
          · exact later isFirst prose inside
        · exact later (same ▸ .tail _ mem) prose inside
      case isFalse =>
        rcases List.mem_cons.1 mem with rfl | mem
        · exact ⟨l, .head _, prose, inside⟩
        · exact later (same ▸ mem) prose inside

end Segment

namespace Text

/-- The segments of a page put together are the page. -/
theorem flatMap_text_segments (t : Text) : t.segments.flatMap (·.text) = t := by
  rw [segments, Segment.flatMap_text_ofLines, join_line_fenced]

theorem mapProse_eq_self {f : Text → Text} {t : Text} (same : ∀ s ∈ t.prose, f s = s) :
    t.mapProse f = t := by
  have each : ∀ s ∈ t.segments, (if s.fenced then s.text else f s.text) = s.text := by
    intro s mem
    split
    case isTrue => rfl
    case isFalse prose =>
      exact same s.text (List.mem_map.2 ⟨s, List.mem_filter.2 ⟨mem, by simpa using prose⟩, rfl⟩)
  rw [mapProse, List.flatMap_congr each, flatMap_text_segments]

/-- A text whose prose holds no `<`. -/
def Tagless (t : Text) : Prop :=
  ∀ l ∈ t.fenced, l.isCode = false → '<' ∉ l.line.text

namespace Tagless

variable {a b t : Text}

theorem append (left : a.Tagless) (closed : a.Closed) (right : b.Tagless) : (a ++ b).Tagless := by
  intro l mem
  rw [fenced_append closed] at mem
  exact (List.mem_append.1 mem).elim (left l) (right l)

theorem of_line (one : t.OneLine) (prose : FenceOpener.ofLine? t = none) (outside : '<' ∉ t) :
    (t ++ ['\n']).Tagless := by
  intro l mem _
  rw [fenced_line one prose] at mem
  rw [List.mem_singleton.1 mem]
  simpa [Line.text, Ending.text] using outside

theorem of_block (b : FencedBlock) : b.text.Tagless := by
  intro l mem prose
  rw [FencedBlock.isCode_of_mem_fenced mem] at prose
  cases prose

/-- **A rule that applies at `<` only leaves prose without `<` alone.** -/
theorem rewriteProse (tagless : t.Tagless) {rule : Text → Option (Text × Nat)}
    (starts : ∀ u : Text, u.head? ≠ some '<' → rule u = none) : t.rewriteProse rule = (t, 0) := by
  have nowhere : ∀ s ∈ t.prose, ∀ u, u <:+ s → u ≠ [] → rule u = none := by
    intro s isProse u part _
    refine starts u fun first => ?_
    obtain ⟨segment, mem, rfl⟩ := List.mem_map.1 isProse
    obtain ⟨isIn, prose⟩ := List.mem_filter.1 mem
    obtain ⟨l, line, outside, inside⟩ := Segment.exists_line_of_mem isIn (by simpa using prose)
      (part.mem (List.mem_of_head? first))
    exact tagless l line outside inside
  have hits : ∀ s ∈ t.prose, (Text.hits rule s).length = 0 := fun s mem => by
    rw [Text.hits, hitsFrom_eq_nil (nowhere s mem), List.length_nil]
  have same : t.mapProse (rewrite rule) = t :=
    mapProse_eq_self fun s mem => rewriteFrom_eq_self (nowhere s mem)
  rw [Text.rewriteProse, same, total_eq_zero hits]

end Tagless

/-! ## Listings -/

theorem eq_of_sameLetter_angle {c : Char} (same : sameLetter '<' c = true) : c = '<' := by
  have lower : c.toLower = '<' := by simpa [sameLetter] using same
  rcases toLower_cases c with kept | letter
  · rw [← kept, lower]
  · rw [lower] at letter
    exact absurd letter (by decide)

theorem dropWord?_angle {t : Text} (name : Text) (other : t.head? ≠ some '<') :
    dropWord? ('<' :: name) t = none := by
  cases t with
  | nil => rfl
  | cons c r =>
    rw [dropWord?, if_neg]
    exact fun same => other (by rw [eq_of_sameLetter_angle same]; rfl)

end Text

namespace Listing

theorem optionsRule_eq_none {t : Text} (other : t.head? ≠ some '<') : optionsRule t = none := by
  rw [optionsRule, exactTag?, Text.dropWord?_angle _ other]
  rfl

theorem preRule_eq_none {t : Text} (other : t.head? ≠ some '<') : preRule t = none := by
  rw [preRule, openTag?, Text.dropWord?_angle _ other]
  rfl

end Listing
end MdxPress
