import MdxPress.Fence.Tag
import MdxPress.Proofs.Fence.Block
import MdxPress.Proofs.Marker.Written
import MdxPress.Proofs.Text.Case

/-!
Texts that no pass for directives touches: lines of prose without inline code and without the opening
delimiter of a marker, and fenced blocks.

* `Text.IsProse` is such a line, `Text.Inert` such a text;
* `Text.Inert.markers` finds no marker in it, `Text.Inert.closed` no block left open;
* `Text.Inert.trim` and `Text.Inert.tagBare` keep it so.
-/

namespace MdxPress

namespace Text

/-! ## Lines of prose -/

/-- A text within a line that neither begins inline code nor opens a marker. -/
structure IsPlain (t : Text) : Prop where
  oneLine : t.OneLine
  noTick : '\x60' ∉ t
  noOpener : NoPair '{' '%' t

/-- A line of prose: a plain text with no mark in front. -/
structure IsProse (t : Text) : Prop extends IsPlain t where
  start : ∀ c ∈ t.trimStart.head?, FenceMark.ofChar? c = none

instance (t : Text) : Decidable t.IsPlain :=
  decidable_of_iff (t.OneLine ∧ '\x60' ∉ t ∧ NoPair '{' '%' t)
    ⟨fun h => ⟨h.1, h.2.1, h.2.2⟩, fun h => ⟨h.1, h.2, h.3⟩⟩

instance (t : Text) : Decidable t.IsProse :=
  decidable_of_iff (t.IsPlain ∧ ∀ c ∈ t.trimStart.head?, FenceMark.ofChar? c = none)
    ⟨fun h => ⟨h.1, h.2⟩, fun h => ⟨h.1, h.2⟩⟩

namespace IsPlain

variable {t u : Text}

theorem nil : IsPlain [] :=
  ⟨⟨nofun, nofun⟩, nofun, .nil⟩

theorem of_part (plain : t.IsPlain) (part : u <:+: t) : u.IsPlain :=
  ⟨plain.oneLine.of_part part, fun mem => plain.noTick (part.mem mem), plain.noOpener.of_part part⟩

theorem append (left : t.IsPlain) (right : u.IsPlain)
    (apart : t.getLast? ≠ some '{' ∨ u.head? ≠ some '%') : IsPlain (t ++ u) where
  oneLine := left.oneLine.append right.oneLine
  noTick mem := (List.mem_append.1 mem).elim left.noTick right.noTick
  noOpener := left.noOpener.append right.noOpener apart

theorem recased (plain : t.IsPlain) (form : Recased t u) : u.IsPlain where
  oneLine := ⟨fun mem => plain.oneLine.noFeed (form.mem (by decide) mem),
    fun mem => plain.oneLine.noReturn (form.mem (by decide) mem)⟩
  noTick mem := plain.noTick (form.mem (by decide) mem)
  noOpener := form.noPair (by decide) (by decide) plain.noOpener

end IsPlain

/-- A plain text that begins with a visible character, which is no mark, is a line of prose. -/
theorem IsPlain.isProse {t : Text} {c : Char} (plain : t.IsPlain) (first : t.head? = some c)
    (visible : isBlank c = false) (noMark : FenceMark.ofChar? c = none) : t.IsProse where
  toIsPlain := plain
  start d head := by
    rw [trimStart_eq_self first visible, first] at head
    cases head
    exact noMark

namespace IsProse

variable {t : Text}

theorem nil : IsProse [] :=
  ⟨.nil, nofun⟩

/-- A line of prose opens no block. -/
theorem opener (prose : t.IsProse) : FenceOpener.ofLine? t = none :=
  FenceOpener.ofLine?_eq_none_of_trimStart prose.start

theorem trimStart (prose : t.IsProse) : (Text.trimStart t).IsProse where
  toIsPlain := prose.toIsPlain.of_part (trimStart_suffix t).isInfix
  start := by
    rw [trimStart_trimStart]
    exact prose.start

theorem trimEnd (prose : t.IsProse) : (Text.trimEnd t).IsProse where
  toIsPlain := prose.toIsPlain.of_part (trimEnd_isPrefix t).isInfix
  start c head := by
    obtain ⟨tail, cut, -⟩ := dropEndWhile_append_mem isBlank t
    have filled : (Text.trimEnd t).trimStart ≠ [] := by
      intro empty
      rw [empty] at head
      cases head
    refine prose.start c ?_
    rw [cut, ← Text.trimEnd, trimStart_append_of_filled filled, List.head?_append, head]
    rfl

end IsProse

/-! ## Inert texts -/

/-- A text of lines of prose and fenced blocks. -/
inductive Inert : Text → Prop
  | nil : Inert []
  | line {l r : Text} (prose : l.IsProse) (rest : Inert r) : Inert (l ++ '\n' :: r)
  | block (b : FencedBlock) {r : Text} (rest : Inert r) : Inert (b.text ++ r)

namespace Inert

variable {t u : Text}

theorem append (left : t.Inert) (right : u.Inert) : (t ++ u).Inert := by
  induction left with
  | nil => exact right
  | @line l r prose _ ih =>
    rw [List.append_assoc, List.cons_append]
    exact .line prose ih
  | block b _ ih =>
    rw [List.append_assoc]
    exact .block b ih

theorem flatMap {α : Type} {f : α → Text} {xs : List α} (each : ∀ x ∈ xs, (f x).Inert) :
    Inert (xs.flatMap f) := by
  induction xs with
  | nil => exact .nil
  | cons x xs ih =>
    rw [List.flatMap_cons]
    exact (each x (.head _)).append (ih fun y mem => each y (.tail _ mem))

theorem of_line (prose : t.IsProse) : Inert (t ++ ['\n']) :=
  .line prose .nil

theorem of_lines {ts : List Text} (prose : ∀ t ∈ ts, t.IsProse) : (ofLines ts).Inert := by
  induction ts with
  | nil => exact .nil
  | cons t ts ih =>
    rw [ofLines_cons]
    exact .line (prose t (.head _)) (ih fun u mem => prose u (.tail _ mem))

theorem of_block (b : FencedBlock) : b.text.Inert := by
  have whole : Inert (b.text ++ []) := .block b .nil
  rwa [List.append_nil] at whole

/-- Nothing is left open behind an inert text. -/
theorem closed (inert : t.Inert) : t.Closed := by
  induction inert with
  | nil => exact .nil
  | @line l r prose _ ih =>
    have cut : l ++ '\n' :: r = (l ++ ['\n']) ++ r := by simp
    rw [cut]
    exact (Closed.of_line prose.oneLine prose.opener).append ih
  | block b _ ih => exact b.closed.append ih

theorem markers_block (b : FencedBlock) : b.text.markers = [] := by
  have code : ∀ (pos : Nat) (ls : List FencedLine), (∀ l ∈ ls, l.isCode = true) →
      Marker.inLines pos ls = [] := by
    intro pos ls all
    induction ls generalizing pos with
    | nil => rfl
    | cons l ls ih => simp [Marker.inLines, all l (.head _), ih _ fun m mem => all m (.tail _ mem)]
  exact code 0 _ fun l mem => FencedBlock.isCode_of_mem_fenced mem

/-- **An inert text holds no marker.** -/
theorem markers (inert : t.Inert) : t.markers = [] := by
  induction inert with
  | nil => rfl
  | @line l r prose _ ih =>
    have cut : l ++ '\n' :: r = (l ++ ['\n']) ++ r := by simp
    rw [cut, markers_append (Closed.of_line prose.oneLine prose.opener), ih,
      markers_line prose.oneLine prose.opener prose.noTick,
      Marker.inProse_eq_nil 0 prose.noOpener]
    rfl
  | block b _ ih =>
    rw [markers_append b.closed, ih, markers_block b]
    rfl

/-! ## Trimming -/

theorem trimStart (inert : t.Inert) : (Text.trimStart t).Inert := by
  induction inert with
  | nil => exact .nil
  | @line l r prose rest ih =>
    by_cases empty : l.trimStart = []
    · have blank : ∀ c ∈ l ++ ['\n'], isBlank c = true :=
        List.forall_mem_append.2 ⟨trimStart_eq_nil_iff.1 empty, by decide⟩
      have cut : l ++ '\n' :: r = (l ++ ['\n']) ++ r := by simp
      rw [cut, trimStart_append blank]
      exact ih
    · rw [trimStart_append_of_filled empty]
      exact .line prose.trimStart rest
  | block b rest ih =>
    rw [FencedBlock.trimStart_text_append]
    exact .block _ rest

/-- The blanks at the end of an inert text go, and its last line ends behind what is left. -/
theorem trimEnd (inert : t.Inert) : (Text.trimEnd t ++ ['\n']).Inert := by
  induction inert with
  | nil => exact .of_line .nil
  | @line l r prose rest ih =>
    by_cases blank : r.trimEnd = []
    · have cut : Text.trimEnd ('\n' :: r) = [] := by
        rw [Text.trimEnd] at blank
        rw [Text.trimEnd, dropEndWhile, blank]
        rfl
      rw [trimEnd_append_of_blank l cut]
      exact .of_line prose.trimEnd
    · have filled : Text.trimEnd ('\n' :: r) = '\n' :: r.trimEnd :=
        trimEnd_append_of_filled ['\n'] blank
      rw [trimEnd_append_of_filled l (by rw [filled]; simp), filled, List.append_assoc]
      exact .line prose ih
  | @block b r rest ih =>
    by_cases blank : r.trimEnd = []
    · rw [trimEnd_append_of_blank _ blank, FencedBlock.trimEnd_text]
      exact .of_block _
    · rw [trimEnd_append_of_filled _ blank, List.append_assoc]
      exact .block b ih

/-- An inert text without the blanks at its ends, on lines of its own. -/
theorem trim (inert : t.Inert) : (Text.trim t ++ ['\n']).Inert := by
  by_cases empty : (Text.trimEnd t).trimStart = []
  · rw [Text.trim, empty]
    exact .of_line .nil
  · rw [Text.trim, ← trimStart_append_of_filled empty]
    exact inert.trimEnd.trimStart

/-! ## Tagging -/

theorem tagBare_append (language : Text) {a : Text} (closed : a.Closed) (b : Text) :
    Text.tagBare language (a ++ b) = Text.tagBare language a ++ Text.tagBare language b := by
  rw [Text.tagBare, fenced_append closed, List.map_append, Line.join_append, Text.tagBare,
    Text.tagBare]

theorem tagBare_line (language : Text) {l : Text} (prose : l.IsProse) :
    Text.tagBare language (l ++ ['\n']) = l ++ ['\n'] := by
  rw [Text.tagBare, fenced_line prose.oneLine prose.opener]
  simp [tagBareLine, FencedLine.opener?, prose.opener, Line.text, Ending.text]

/-- A block is tagged on its opening line, if that has no info. -/
theorem tagBare_block (b : FencedBlock) {language : Text} (tag : language.IsTag) :
    Text.tagBare language b.text =
      if b.head.info.isEmpty then (b.retag language tag).text else b.text := by
  have others : ∀ ls : List Text,
      Line.join ((ls.map fun l => (⟨⟨l, .lf⟩, some b.head.fence, some b.head.fence⟩ :
        FencedLine)).map (tagBareLine language)) = ofLines ls := by
    intro ls
    induction ls with
    | nil => rfl
    | cons l ls ih =>
      rw [List.map_cons, List.map_cons, Line.join_cons, ih, ofLines_cons]
      simp [tagBareLine, FencedLine.opener?, Line.text, Ending.text]
  have first : tagBareLine language ⟨⟨b.opener, .lf⟩, none, some b.head.fence⟩ =
      if b.head.info.isEmpty then ⟨(b.retag language tag).opener, .lf⟩
      else ⟨b.opener, .lf⟩ := by
    simp [tagBareLine, FencedLine.opener?, b.opens, FenceOpener.tagged, FencedBlock.retag]
  have last : tagBareLine language ⟨⟨b.closer, .lf⟩, some b.head.fence, none⟩ =
      ⟨b.closer, .lf⟩ := rfl
  rw [Text.tagBare, FencedBlock.fenced_text, List.map_cons, List.map_append, Line.join_cons,
    Line.join_append, others, first, List.map_singleton, last]
  split <;> simp [FencedBlock.text_eq, Line.text, Ending.text, FencedBlock.retag]

theorem tagBare (inert : t.Inert) {language : Text} (tag : language.IsTag) :
    (Text.tagBare language t).Inert := by
  induction inert with
  | nil => exact .nil
  | @line l r prose _ ih =>
    have cut : l ++ '\n' :: r = (l ++ ['\n']) ++ r := by simp
    rw [cut, tagBare_append _ (Closed.of_line prose.oneLine prose.opener),
      tagBare_line language prose]
    exact (of_line prose).append ih
  | block b _ ih =>
    rw [tagBare_append _ b.closed, tagBare_block b tag]
    split
    · exact .block _ ih
    · exact .block _ ih

end Inert

end Text
end MdxPress
