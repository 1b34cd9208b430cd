import MdxPress.Directive.Convert
import MdxPress.Proofs.Directive.ListingRule
import MdxPress.Proofs.Fence.SameCode
import MdxPress.Proofs.Fence.Stands
import MdxPress.Proofs.Text.Piece

/-!
The fences that HTML listings become.  A listing may stand anywhere on a line and hold anything, so the
fence that is put for it is one only if it fits: what stands before it on its line leaves the opening
line one that opens a block, no line of the content closes that block, and what follows it on its line
leaves the closing line one that closes it.

* `Listing.Fits` is that condition on one listing, read off the page as it was;
* `Listing.EmitsBlocks` says of a pass that the page ends as it did, and that every listing stands in
  the new page as one closed block;
* `Listing.emitsBlocks_convert_iff` makes the two equal, for both passes and every page.
-/

namespace MdxPress

open Text (Piece)

/-! ## The pieces of a page -/

namespace Text

/-- The pieces of a page whose prose is rewritten by a rule; its code is kept. -/
def prosePieces (rule : Text → Option (Text × Nat)) (t : Text) : List Piece :=
  t.segments.flatMap fun s => if s.fenced then s.text.map .kept else pieces rule s.text

section Sides

variable {rule : Text → Option (Text × Nat)} (t : Text)

theorem source_prosePieces : Piece.source (t.prosePieces rule) = t := by
  have sides (s : Segment) :
      Piece.source (if s.fenced then s.text.map .kept else pieces rule s.text) = s.text := by
    split <;> simp
  conv => rhs; rw [← flatMap_text_segments t]
  rw [prosePieces, Piece.source, List.flatMap_assoc]
  exact List.flatMap_congr fun s _ => sides s

theorem target_prosePieces : Piece.target (t.prosePieces rule) = (t.rewriteProse rule).1 := by
  have sides (s : Segment) :
      Piece.target (if s.fenced then s.text.map .kept else pieces rule s.text) =
        if s.fenced then s.text else rewrite rule s.text := by
    split <;> simp
  rw [prosePieces, Piece.target, List.flatMap_assoc]
  exact List.flatMap_congr fun s _ => sides s

end Sides

end Text

/-! ## A block on its lines -/

theorem FenceState.closedBy_append_blank (f : Fence) (line : Text) {blanks : Text}
    (blank : ∀ c ∈ blanks, isBlank c = true) :
    closedBy f (line ++ blanks) = closedBy f line := by
  have shorter {l : Text} : closedBy f l.trimEnd = closedBy f l := by
    rw [Bool.eq_iff_iff]
    refine ⟨fun closes => ?_, closedBy_trimEnd⟩
    obtain ⟨before, n, behind, same, indent, near, long, enough, rest⟩ := closedBy_iff.1 closes
    obtain ⟨tail, cut, tailBlank⟩ := Text.dropEndWhile_append_mem isBlank l
    refine closedBy_iff.2 ⟨before, n, behind ++ tail, ?_, indent, near, long, enough, ?_⟩
    · rw [cut, ← Text.trimEnd, same]
      simp
    · rw [Text.allBlank, List.all_append, Bool.and_eq_true]
      exact ⟨rest, List.all_eq_true.2 tailBlank⟩
  rw [← shorter, ← shorter (l := line), Text.trimEnd, Text.dropEndWhile_append line blank]
  rfl

/-- A closing line holds marks and blanks only. -/
theorem FenceState.eq_mark_or_isBlank_of_closedBy {f : Fence} {line : Text}
    (closes : closedBy f line = true) {c : Char} (mem : c ∈ line) :
    c = f.mark.char ∨ isBlank c = true := by
  obtain ⟨before, n, behind, rfl, indent, -, -, -, blank⟩ := closedBy_iff.1 closes
  rcases List.mem_append.1 mem with mem | mem
  · exact .inr (Text.isBlank_of_isIndent (indent c mem))
  · rcases List.mem_append.1 mem with mem | mem
    · exact .inl (List.eq_of_mem_replicate mem)
    · exact .inr (List.all_eq_true.1 blank c mem)

namespace Listing

open FenceState (closedBy)

/-- Content and language of a listing fit the line it stands on: what stands before it, and what
stands behind it. -/
structure Fits (o : FenceOpener) (before language content behind : Text) : Prop where
  opens : FenceOpener.ofLine? (before ++ "\x60\x60\x60".toList ++ language) = some o
  inside : ∀ l ∈ (content.trim ++ ['\n']).lines, closedBy o.fence l.content = false
  closes : closedBy o.fence ("\x60\x60\x60".toList ++ behind) = true

theorem fenced_eq (language content : Text) :
    fenced language content =
      "\x60\x60\x60".toList ++ language ++ '\n' :: content.trim ++ "\n\x60\x60\x60".toList := rfl

theorem isBlock_fenced_iff {before language : Text} (noFeed : '\n' ∉ before) (tag : language.IsTag)
    (content behind : Text) :
    Text.IsBlock (before ++ fenced language content ++ behind.firstLine) ↔
      ∃ o, Fits o before language content behind.firstLine := by
  have headFeed : '\n' ∉ before ++ "\x60\x60\x60".toList ++ language := by
    simp [noFeed, tag.oneLine.noFeed]
  have headReturn : (before ++ "\x60\x60\x60".toList ++ language).getLast? ≠ some '\r' := by
    intro last
    rw [List.append_assoc, List.getLast?_append_of_ne_nil _ (by simp)] at last
    rcases List.mem_append.1 (List.mem_of_getLast? last) with mem | mem
    · simp at mem
    · exact tag.oneLine.noReturn mem
  obtain ⟨last, line, text⟩ : ∃ l : Line, Text.lines ("\x60\x60\x60".toList ++ behind.firstLine) = [l] ∧
      l.text = "\x60\x60\x60".toList ++ behind.firstLine := by
    obtain ⟨rest, cut, ⟨rfl, whole⟩ | ⟨w, feed, whole⟩⟩ := Text.exists_firstLine behind
    · rw [List.append_nil] at cut
      rw [← cut]
      simpa using Text.exists_line_of_noFeed (w := "\x60\x60\x60".toList ++ behind) (e := [])
        (by simpa using whole) (.inl ⟨rfl, by simp⟩)
    · rw [feed, ← List.append_assoc]
      exact Text.exists_line_of_noFeed (by simpa using whole) (.inr rfl)
  have closes (f : Fence) : closedBy f last.content =
      closedBy f ("\x60\x60\x60".toList ++ behind.firstLine) := by
    rw [← text, Line.text]
    refine (FenceState.closedBy_append_blank f _ ?_).symm
    cases last.ending <;> decide
  have lines : Text.lines (before ++ fenced language content ++ behind.firstLine) =
      ⟨before ++ "\x60\x60\x60".toList ++ language, .lf⟩ ::
        ((content.trim ++ ['\n']).lines ++ [last]) := by
    have cut : before ++ fenced language content ++ behind.firstLine =
        before ++ "\x60\x60\x60".toList ++ language ++
          '\n' :: (content.trim ++ ['\n'] ++ ("\x60\x60\x60".toList ++ behind.firstLine)) := by
      have closer : "\n\x60\x60\x60".toList = '\n' :: "\x60\x60\x60".toList := rfl
      simp only [fenced_eq, closer, List.append_assoc, List.cons_append, List.nil_append]
    rw [cut, Text.lines_append_lf _ headFeed headReturn,
      Text.lines_append (Text.allEnded_lines List.getLast?_concat), line]
  rw [Text.isBlock_iff_of_lines lines]
  simp only [closes]
  constructor
  · rintro ⟨o, opens, inside, closes⟩
    exact ⟨o, opens, inside, closes⟩
  · rintro ⟨o, opens, inside, closes⟩
    exact ⟨o, opens, inside, closes⟩

/-! ## Blocks that stand alone on their lines -/

/-- The page ends as it did, and every block that is put stands in the new page. -/
structure EmitsBlocks (t out : Text) (ps : List Piece) : Prop where
  source : Piece.source ps = t
  target : Piece.target ps = out
  outside : FenceState.run none out.lines = FenceState.run none t.lines
  blocks : ∀ a old new b, ps = a ++ Piece.put old new :: b →
    Text.StandsAsBlock (Piece.target a) new (Piece.target b)

/-- Every listing of a page fits the line that it stands on. -/
def AllFit (ps : List Piece) : Prop :=
  ∀ a old new b, ps = a ++ Piece.put old new :: b →
    ∃ (language content : Text) (o : FenceOpener), language.IsTag ∧ new = fenced language content ∧
      Fits o (Piece.source a).lastLine language content (Piece.source b).firstLine

/-- With what stands around it on its lines in the old page, every block that is put is a block. -/
def AllBlocks (ps : List Piece) : Prop :=
  ∀ a old new b, ps = a ++ Piece.put old new :: b →
    Text.IsBlock ((Piece.source a).lastLine ++ new ++ (Piece.source b).firstLine)

/-! ## Whole lines -/

section Pieces

variable {ps qs : List Piece}

theorem AllBlocks.left (all : AllBlocks (ps ++ qs)) (ended : Piece.Ended ps) : AllBlocks ps := by
  rintro a old new b rfl
  obtain ⟨c, rfl⟩ := ended.exists_behind
  have block := all a old new (c ++ [Piece.kept '\n'] ++ qs) (by simp)
  have line : (Piece.source (c ++ [Piece.kept '\n'] ++ qs)).firstLine =
      (Piece.source (c ++ [Piece.kept '\n'])).firstLine := by
    rw [Piece.source_append]
    exact Text.firstLine_append_of_feed (by simp [Piece.source, Piece.old]) _
  rwa [line] at block

theorem AllBlocks.right (all : AllBlocks (ps ++ qs)) (ended : Piece.Ended ps) : AllBlocks qs := by
  rintro a old new b rfl
  have block := all (ps ++ a) old new b (by simp)
  rwa [Piece.source_append, Text.lastLine_append ended.endsLine_source] at block

end Pieces

/-! ## From the new page to the old -/

section Emitted

variable {a b : List Piece} {old new : Text}
  (feeds : ∀ a' old' new' b', a ++ Piece.put old new :: b = a' ++ Piece.put old' new' :: b' → '\n' ∈ new')
  (blocks : ∀ a' old' new' b', a ++ Piece.put old new :: b = a' ++ Piece.put old' new' :: b' →
    Text.StandsAsBlock (Piece.target a') new' (Piece.target b'))
include feeds blocks

/-- What stands before a block on its line was there before. -/
theorem lastLine_target : (Piece.target a).lastLine = (Piece.source a).lastLine := by
  rcases Piece.kept_or_last a with ⟨t, rfl⟩ | ⟨c, old', new', t, rfl⟩
  · simp
  · by_cases feed : '\n' ∈ t
    · have side (u v : Text) : Text.lastLine (u ++ (v ++ t)) = Text.lastLine t := by
        rw [← List.append_assoc, Text.lastLine_append_of_feed feed]
      simp [side]
    · have left := blocks c old' new' (t.map .kept ++ Piece.put old new :: b) (by simp)
      have right := blocks _ old new b rfl
      simp only [Piece.target_append, Piece.target_put, Piece.target_map_kept] at left right
      exact (left.not_on_one_line (feeds c old' new' (t.map .kept ++ Piece.put old new :: b) (by simp))
        (feeds _ old new b rfl) feed right).elim

/-- What stands behind a block on its line was there before. -/
theorem firstLine_target : (Piece.target b).firstLine = (Piece.source b).firstLine := by
  rcases Piece.kept_or_first b with ⟨t, rfl⟩ | ⟨t, old', new', c, rfl⟩
  · simp
  · by_cases feed : '\n' ∈ t
    · simp [Text.firstLine_append_of_feed feed]
    · have left := blocks a old new _ rfl
      have right := blocks (a ++ Piece.put old new :: t.map .kept) old' new' c (by simp)
      simp only [Piece.target_append, Piece.target_put, Piece.target_map_kept] at left right
      exact (left.not_on_one_line (feeds a old new _ rfl)
        (feeds (a ++ Piece.put old new :: t.map .kept) old' new' c (by simp)) feed right).elim

end Emitted

/-- Blocks that stand in the new page are blocks with what stood around them in the old one. -/
theorem allBlocks_of_stand {ps : List Piece}
    (feeds : ∀ a old new b, ps = a ++ Piece.put old new :: b → '\n' ∈ new)
    (blocks : ∀ a old new b, ps = a ++ Piece.put old new :: b →
      Text.StandsAsBlock (Piece.target a) new (Piece.target b)) : AllBlocks ps := by
  rintro a old new b rfl
  have block := (blocks a old new b rfl).alone.2
  rwa [lastLine_target feeds blocks, firstLine_target feeds blocks] at block

/-! ## From the old page to the new -/

/-- Blocks that stand in what pieces become, which ends as the pieces did. -/
structure Stand (ps : List Piece) : Prop where
  outside : FenceState.run none (Piece.target ps).lines = FenceState.run none (Piece.source ps).lines
  blocks : ∀ a old new b, ps = a ++ Piece.put old new :: b →
    Text.StandsAsBlock (Piece.target a) new (Piece.target b)

theorem Stand.map_kept (t : Text) : Stand (t.map .kept) where
  outside := by simp
  blocks _ _ _ _ split := (Piece.map_kept_ne_append_put split).elim

theorem Stand.append {ps qs : List Piece} (left : Stand ps) (right : Stand qs) (ended : Piece.Ended ps)
    (outside : FenceState.run none (Piece.source ps).lines = none) : Stand (ps ++ qs) := by
  have closed : (Piece.target ps).Closed :=
    ⟨ended.endsLine_target.allEnded, left.outside.trans outside⟩
  refine ⟨?_, fun a old new b split => ?_⟩
  · rw [Piece.target_append, Piece.source_append, Text.lines_append closed.ended,
      Text.lines_append ended.endsLine_source.allEnded, FenceState.run_append, FenceState.run_append,
      closed.outside, outside, right.outside]
  · rcases Piece.append_eq_append_put split with ⟨b', rfl, rfl⟩ | ⟨a', rfl, rfl⟩
    · obtain ⟨c, rfl⟩ := ended.exists_behind
      have stands := left.blocks a old new _ rfl
      have line : (Piece.target (c ++ [Piece.kept '\n'] ++ qs)).firstLine =
          (Piece.target (c ++ [Piece.kept '\n'])).firstLine := by
        rw [Piece.target_append]
        exact Text.firstLine_append_of_feed (by simp [Piece.target, Piece.new]) _
      rw [Text.standsAsBlock_iff] at stands ⊢
      rwa [line]
    · have stands := right.blocks a' old new b rfl
      rw [Text.standsAsBlock_iff] at stands ⊢
      obtain ⟨⟨above, cut, closedAbove⟩, block⟩ := stands
      rw [Piece.target_append, Text.lastLine_append ended.endsLine_target]
      refine ⟨⟨Piece.target ps ++ above, ?_, closed.append closedAbove⟩, block⟩
      rw [List.append_assoc, ← cut]

/-- A block on its lines. -/
theorem Stand.of_block {w old new e : Text} (noFeed : '\n' ∉ w)
    (line : Text.firstLine e = e) (block : Text.IsBlock (w ++ new ++ e))
    (outside : FenceState.run none (w ++ old ++ e).lines = none) :
    Stand (w.map .kept ++ Piece.put old new :: e.map .kept) where
  outside := by
    have closes := Text.isBlock_outside block
    rw [List.append_assoc] at closes outside
    simp [closes, outside]
  blocks := by
    intro a old' new' b split
    have only : a = w.map .kept ∧ old' = old ∧ new' = new ∧ b = e.map .kept := by
      rcases Piece.append_eq_append_put split with ⟨b', kept, -⟩ | ⟨a', kept, rfl⟩
      · exact (Piece.map_kept_ne_append_put kept).elim
      · cases a' with
        | nil => cases kept; exact ⟨by simp, rfl, rfl, rfl⟩
        | cons p a' => exact (Piece.map_kept_ne_append_put (List.cons.inj kept).2).elim
    obtain ⟨rfl, rfl, rfl, rfl⟩ := only
    rw [Text.standsAsBlock_iff]
    simp only [Piece.target_map_kept, Text.lastLine_of_noFeed noFeed, line]
    exact ⟨⟨[], rfl, .nil⟩, block⟩

/-! ## A run of prose -/

section Rule

variable {rule : Text → Option (Text × Nat)} (isRule : IsRule rule)
include isRule

theorem IsRule.writes_of_mem {t old new : Text} (mem : Piece.put old new ∈ t.prosePieces rule) :
    ∃ language content, language.IsTag ∧ new = fenced language content := by
  obtain ⟨s, -, mem⟩ := List.mem_flatMap.1 mem
  split at mem
  case isTrue =>
    obtain ⟨c, -, ⟨⟩⟩ := List.mem_map.1 mem
  case isFalse =>
    obtain ⟨u, n, applies, -⟩ := Text.exists_of_put_mem mem
    exact isRule.writes applies

/-- Listings fit exactly when what they become are blocks with what stands around them. -/
theorem IsRule.allFit_iff (t : Text) :
    AllFit (t.prosePieces rule) ↔ AllBlocks (t.prosePieces rule) := by
  constructor
  · intro fit a old new b split
    obtain ⟨language, content, o, tag, rfl, fits⟩ := fit a old new b split
    exact (isBlock_fenced_iff (Text.lastLine_noFeed _) tag content _).2 ⟨o, fits⟩
  · intro all a old new b split
    obtain ⟨language, content, tag, rfl⟩ :=
      isRule.writes_of_mem (t := t) (split ▸ List.mem_append_right a (.head b))
    obtain ⟨o, fits⟩ :=
      (isBlock_fenced_iff (Text.lastLine_noFeed _) tag content _).1 (all a old _ b split)
    exact ⟨language, content, o, tag, rfl, fits⟩

/-- No listing begins on the line on which another one ends as a block. -/
theorem IsRule.pieces_firstLine {before new rest behind : Text} {u : Text} {n : Nat}
    (split : rest = rest.firstLine ++ behind) (noFeed : '\n' ∉ before)
    (applies : rule u = some (new, n)) (block : Text.IsBlock (before ++ new ++ rest.firstLine)) :
    Text.pieces rule rest = rest.firstLine.map .kept ++ Text.pieces rule behind := by
  obtain ⟨language, content, tag, rfl⟩ := isRule.writes applies
  obtain ⟨o, fits⟩ := (isBlock_fenced_iff noFeed tag content rest).1 block
  conv => lhs; rw [split]
  refine Text.pieces_append behind fun v part filled => isRule.starts fun first => ?_
  have mem : '<' ∈ rest.firstLine := by
    obtain ⟨c, r, rfl⟩ := List.exists_cons_of_ne_nil filled
    obtain rfl : c = '<' := by simpa using first
    exact part.mem (.head r)
  rcases FenceState.eq_mark_or_isBlank_of_closedBy fits.closes
    (List.mem_append_right "\x60\x60\x60".toList mem) with mark | blank
  · cases same : o.fence.mark <;> simp [same, FenceMark.char] at mark
  · exact absurd blank (by decide)

/-- The blocks of a run of prose stand in what it becomes. -/
theorem IsRule.stand_pieces {t : Text} (prose : ∀ l ∈ t.lines, FenceOpener.ofLine? l.content = none)
    (all : AllBlocks (Text.pieces rule t)) : Stand (Text.pieces rule t) := by
  induction length : t.length using Nat.strongRecOn generalizing t with
  | ind n ih =>
    subst length
    rcases Text.pieces_cases rule t with kept | ⟨w, old, rest, new, n, rfl, cut, filled, applies, same⟩
    · rw [kept]
      exact .map_kept t
    · obtain ⟨above, line, ends⟩ := Text.exists_lastLine w
      obtain ⟨behind, split, tail⟩ := Text.exists_firstLine rest
      have block := all _ old new _ same
      rw [Piece.source_map_kept, Text.source_pieces] at block
      have later := isRule.pieces_firstLine split (Text.lastLine_noFeed w) applies block
      have pieces : Text.pieces rule (w ++ (old ++ rest)) = above.map .kept ++
          (w.lastLine.map .kept ++ Piece.put old new :: rest.firstLine.map .kept ++
            Text.pieces rule behind) := by
        rw [same, later]
        conv => lhs; rw [line]
        simp
      have text : w ++ (old ++ rest) =
          above ++ (w.lastLine ++ old ++ rest.firstLine ++ behind) := by
        conv => lhs; rw [line, split]
        simp
      rw [text, Text.lines_append ends.allEnded] at prose
      obtain ⟨proseAbove, prose⟩ := List.forall_mem_append.1 prose
      rw [pieces] at all ⊢
      have allBelow := all.right (.map_kept ends)
      refine (Stand.map_kept above).append ?_ (.map_kept ends) (by simpa using FenceState.run_of_prose proseAbove)
      have once : Text.firstLine rest.firstLine = rest.firstLine := by
        rcases tail with ⟨rfl, whole⟩ | ⟨v, feed, whole⟩
        · rw [List.append_nil] at split
          rw [← split, ← split]
        · rw [feed, Text.firstLine_of_noFeed whole]
          rfl
      rcases tail with ⟨rfl, whole⟩ | ⟨v, feed, whole⟩
      · rw [show Text.pieces rule [] = [] from rfl, List.append_nil]
        rw [List.append_nil] at prose
        exact .of_block (Text.lastLine_noFeed w) once block (FenceState.run_of_prose prose)
      · have ended : Piece.Ended (w.lastLine.map .kept ++ Piece.put old new :: rest.firstLine.map .kept) :=
          .inr ⟨w.lastLine.map .kept ++ Piece.put old new :: v.map .kept, by simp [feed]⟩
        have lineEnds : Text.EndsLine (w.lastLine ++ old ++ rest.firstLine) := by
          rw [feed, ← List.append_assoc]
          exact Text.endsLine_append_feed _
        rw [Text.lines_append lineEnds.allEnded] at prose
        obtain ⟨proseLine, proseBehind⟩ := List.forall_mem_append.1 prose
        have outside := FenceState.run_of_prose proseLine
        have shorter : behind.length < (w ++ (old ++ rest)).length := by
          have := List.length_pos_iff.2 filled
          rw [text]
          simp only [List.length_append]
          omega
        refine (Stand.of_block (Text.lastLine_noFeed w) once block outside).append
          (ih _ shorter proseBehind (allBelow.right ended) rfl) ended ?_
        simpa using outside

/-- The blocks of a page stand in what it becomes. -/
theorem IsRule.stand_segments {ss : List Segment} (cut : Segment.AreCut ss)
    (all : AllBlocks (ss.flatMap fun s =>
      if s.fenced then s.text.map .kept else Text.pieces rule s.text)) :
    Stand (ss.flatMap fun s =>
      if s.fenced then s.text.map .kept else Text.pieces rule s.text) := by
  induction ss with
  | nil => exact .map_kept []
  | cons s ss ih =>
    obtain ⟨run, closed, later⟩ := cut
    rw [List.flatMap_cons] at all ⊢
    have source : Piece.source (if s.fenced then s.text.map .kept else Text.pieces rule s.text) =
        s.text := by
      split <;> simp
    have ended (ends : s.text.EndsLine) :
        Piece.Ended (if s.fenced then s.text.map .kept else Text.pieces rule s.text) := by
      split
      case isTrue => exact .map_kept ends
      case isFalse => exact Text.ended_pieces isRule.stopsInLine ends
    have first (all : AllBlocks (if s.fenced then s.text.map .kept else Text.pieces rule s.text)) :
        Stand (if s.fenced then s.text.map .kept else Text.pieces rule s.text) := by
      split at all
      case isTrue code => rw [if_pos code]; exact .map_kept _
      case isFalse prose =>
        rw [if_neg prose]
        exact isRule.stand_pieces (run.opener_eq_none (by simpa using prose)) all
    by_cases last : ss = []
    · subst last
      rw [List.flatMap_nil, List.append_nil] at all ⊢
      exact first all
    · have whole := closed last
      have ends := ended (Text.endsLine_of_allEnded whole.ended)
      exact (first (all.left ends)).append (ih later (all.right ends)) ends
        (by rw [source]; exact whole.outside)

/-- **A pass for listings emits real blocks** exactly when every listing fits the line that it stands
on. -/
theorem IsRule.emitsBlocks_iff (t : Text) :
    EmitsBlocks t (t.rewriteProse rule).1 (t.prosePieces rule) ↔ AllFit (t.prosePieces rule) := by
  have source : Piece.source (t.prosePieces rule) = t := Text.source_prosePieces t
  have target : Piece.target (t.prosePieces rule) = (t.rewriteProse rule).1 :=
    Text.target_prosePieces t
  rw [isRule.allFit_iff]
  constructor
  · intro emits
    refine allBlocks_of_stand (fun a old new b split => ?_) emits.blocks
    obtain ⟨language, content, -, rfl⟩ :=
      isRule.writes_of_mem (t := t) (split ▸ List.mem_append_right a (.head b))
    simp [fenced_eq]
  · intro all
    have stand : Stand (t.prosePieces rule) := isRule.stand_segments (Text.areCut_segments t) all
    have outside := stand.outside
    rw [source, target] at outside
    exact ⟨source, target, outside, stand.blocks⟩

end Rule

/-! ## Both passes -/

/-- **The passes for option blocks and for preformatted blocks emit real fences** exactly when every
listing fits the line that it stands on: the page then ends as it did, inside a block or outside, and
every fence that is put opens a block on its first line, which its last line closes. -/
theorem emitsBlocks_convert_iff (o : DirectiveOptions) (t : Text) (tally : Tally) :
    (EmitsBlocks t (DirectiveKind.options.convert o t tally).text (t.prosePieces optionsRule) ↔
        AllFit (t.prosePieces optionsRule)) ∧
      (EmitsBlocks t (DirectiveKind.preformatted.convert o t tally).text (t.prosePieces preRule) ↔
        AllFit (t.prosePieces preRule)) :=
  ⟨isRule_optionsRule.emitsBlocks_iff t, isRule_preRule.emitsBlocks_iff t⟩

/-- A listing behind other text on its line becomes no block: its opening line is prose, and its
closing line opens a block that nothing closes. -/
theorem not_outside_convert_behindText :
    ¬ ∀ (o : DirectiveOptions) (t : Text) (tally : Tally), FenceState.run none t.lines = none →
      FenceState.run none (DirectiveKind.options.convert o t tally).text.lines = none := by
  intro all
  have outside := all .standard "a <options>x</options>\n".toList .empty (by decide +kernel)
  have inside : (FenceState.run none
      (DirectiveKind.options.convert .standard "a <options>x</options>\n".toList .empty).text.lines).isSome =
        true := by decide +kernel
  rw [outside] at inside
  cases inside

end Listing
end MdxPress
