import MdxPress.Proofs.Directive.Clear
import MdxPress.Proofs.Text.InlineCode

/-!
A line whose leftover markers are each shown in their place.  What is put for a marker meets the
characters beside it, so a marker can be read where there was none before.

* `Leftover.showRule` is the sweep of a line as a rule, `Leftover.splice_inSpans` says that it is;
* `Text.Piece.Seamless` is the condition on what is put and on the characters beside it,
  `Leftover.rule_eq_none_of_seamless` what follows from it for a stretch of prose;
* `Leftover.inSpans_mapOutsideCode` is the line.
-/

namespace MdxPress

/-! ## Edits at the applications of a rule -/

namespace Text

section Hits

variable {α : Type} {rule : Text → Option (Option α × Nat)}

/-- A rule that puts a text for the values of another rule, and copies what has none. -/
def putting (rule : Text → Option (Option α × Nat)) (f : α → Text) (t : Text) : Option (Text × Nat) :=
  (rule t).map fun p => ((p.1.map f).getD (t.take p.2), p.2)

/-- The edits that put a text for the values that a rule gives. -/
def editsOf (f : α → Text) (hs : List (Hit (Option α))) : List Edit :=
  hs.filterMap fun h => h.value.map fun v => ⟨h.start, h.stop, f v⟩

theorem inOrder_editsOf (f : α → Text) {start stop : Nat} {hs : List (Hit (Option α))}
    (ordered : Edit.InOrder start stop (hs.map Hit.span)) : Edit.InOrder start stop (editsOf f hs) := by
  induction hs generalizing start with
  | nil => exact ordered
  | cons h hs ih =>
    obtain ⟨first, within, rest⟩ := ordered
    rw [editsOf, List.filterMap_cons]
    cases h.value with
    | none => exact (ih rest).mono (Nat.le_trans first within)
    | some v => exact ⟨first, within, ih rest⟩

/-- **Carrying out the edits of a rule is rewriting by it.** -/
theorem spliceFrom_editsOf (inside : StaysInside rule) (f : α → Text) (pos : Nat) {skip : Nat} {t : Text}
    (covered : skip ≤ t.length) :
    spliceFrom (pos + skip) (t.drop skip) (editsOf f (hitsFrom rule pos skip t)) =
      rewriteFrom (putting rule f) skip t := by
  induction t generalizing pos skip with
  | nil => cases skip <;> rfl
  | cons c r ih =>
    cases skip with
    | succ skip =>
      have later := ih (pos + 1) (Nat.le_of_succ_le_succ covered)
      rw [show pos + 1 + skip = pos + (skip + 1) by omega] at later
      exact later
    | zero =>
      have ordered {skip : Nat} (fits : skip ≤ r.length) := inOrder_editsOf f (inOrder_hitsFrom inside (pos + 1) fits)
      rw [hitsFrom, rewriteFrom, putting]
      cases applies : rule (c :: r) with
      | none =>
        have later := ih (pos + 1) (Nat.zero_le r.length)
        have behind := spliceFrom_behind pos [c] r (ordered (Nat.zero_le _))
        exact behind.trans (congrArg (c :: ·) later)
      | some hit =>
        obtain ⟨v, n⟩ := hit
        obtain ⟨filled, fits⟩ := inside applies
        rw [List.length_cons] at fits
        obtain ⟨k, rfl⟩ : ∃ k, n = k + 1 := ⟨n - 1, by omega⟩
        have later := ih (pos + 1) (show k ≤ r.length by omega)
        rw [show pos + 1 + k = pos + (k + 1) by omega] at later
        simp only [Option.map_some, Nat.add_sub_cancel, List.take_succ_cons, List.drop_zero, Nat.add_zero]
        cases v with
        | none =>
          have copied : (c :: r.take k).length = k + 1 := by
            rw [List.length_cons, List.length_take_of_le (by omega)]
          have next := ordered (show k ≤ r.length by omega)
          rw [show pos + 1 + k = pos + (c :: r.take k).length by omega] at next
          have behind := spliceFrom_behind pos (c :: r.take k) (r.drop k) next
          rw [copied, later, List.cons_append, List.take_append_drop] at behind
          exact behind
        | some w =>
          have cut : (c :: r).drop (pos + (k + 1) - pos) = r.drop k := by
            rw [Nat.add_sub_cancel_left, List.drop_succ_cons]
          simp only [editsOf, List.filterMap_cons, Option.map_some, spliceFrom, cut, Nat.sub_self,
            List.take_zero, List.nil_append, Option.getD_some]
          exact congrArg (f w ++ ·) later

end Hits

/-! ## Seams -/

/-- Nothing that is put for a marker makes another: it has no more backticks than the marker had, and
together with the character before it and the character behind it holds no `{%`.  The first argument is
the character before the pieces. -/
def Piece.Seamless : Option Char → List Piece → Prop
  | _, [] => True
  | _, .kept c :: ps => Seamless (some c) ps
  | last, .put old new :: ps =>
    (ticks new ≤ ticks old ∧ NoPair '{' '%' (last.toList ++ new ++ (target ps).head?.toList)) ∧
      Seamless (new.getLast?.or last) ps

instance Piece.decidableSeamless : (last : Option Char) → (ps : List Piece) → Decidable (Seamless last ps)
  | _, [] => .isTrue trivial
  | _, .kept c :: ps => decidableSeamless (some c) ps
  | last, .put _ new :: ps =>
    have := decidableSeamless (new.getLast?.or last) ps
    inferInstanceAs (Decidable ((_ ∧ _) ∧ Seamless (new.getLast?.or last) ps))

theorem Piece.seamless_append {last : Option Char} {t : Text} {ps : List Piece} :
    Seamless last (t.map .kept ++ ps) ↔ Seamless (t.getLast?.or last) ps := by
  induction t generalizing last with
  | nil => rfl
  | cons c t ih =>
    rw [List.map_cons, List.cons_append, Seamless, ih, List.getLast?_cons]
    cases t.getLast? <;> rfl

/-- Seamless pieces add no backtick. -/
theorem Piece.Seamless.ticks_le {last : Option Char} {ps : List Piece} (seamless : Seamless last ps) :
    ticks (target ps) ≤ ticks (source ps) := by
  refine ticks_target_le ?_
  induction ps generalizing last with
  | nil => exact nofun
  | cons p ps ih =>
    cases p with
    | kept c => exact List.forall_mem_cons.2 ⟨Nat.le_refl _, ih seamless⟩
    | put old new => exact List.forall_mem_cons.2 ⟨seamless.1.1, ih seamless.2⟩

/-- Where characters are kept, the rule does not apply. -/
theorem eq_none_of_pieces {rule : Text → Option (Text × Nat)} {w x : Text}
    (kept : pieces rule (w ++ x) = w.map .kept ++ pieces rule x) :
    ∀ u, u <:+ w → u ≠ [] → rule (u ++ x) = none := by
  induction w with
  | nil => exact fun u part filled => (filled (List.suffix_nil.1 part)).elim
  | cons c w ih =>
    have here : rule (c :: (w ++ x)) = none := by
      cases applies : rule (c :: (w ++ x)) with
      | none => rfl
      | some hit =>
        have first := pieces_of_applies applies
        rw [List.cons_append, first] at kept
        cases kept
    have first : pieces rule (c :: (w ++ x)) = .kept c :: pieces rule (w ++ x) := by
      rw [pieces, piecesFrom, here]
      rfl
    rw [List.cons_append, first] at kept
    have later := ih (List.cons.inj kept).2
    intro u part filled
    rcases List.suffix_cons_iff.1 part with rfl | part
    · exact here
    · exact later u part filled

/-- The pieces of a text at whose start the rule applies. -/
theorem pieces_of_put {rule : Text → Option (Text × Nat)} {old rest new : Text} {n : Nat}
    (filled : old ≠ []) (cut : old = (old ++ rest).take (n - 1 + 1))
    (applies : rule (old ++ rest) = some (new, n)) :
    pieces rule (old ++ rest) = .put old new :: pieces rule rest := by
  obtain ⟨c, r, rfl⟩ := List.exists_cons_of_ne_nil filled
  rw [List.cons_append] at applies
  rw [List.cons_append, List.take_succ_cons] at cut
  have taken : r = (r ++ rest).take (n - 1) := (List.cons.inj cut).2
  have left : (r ++ rest).drop (n - 1) = rest := by
    have whole := List.take_append_drop (n - 1) (r ++ rest)
    rw [← taken] at whole
    exact List.append_cancel_left whole
  rw [List.cons_append, pieces_of_applies applies, ← taken, left]

/-- A text goes behind another, if it makes no pair behind the last character of that. -/
theorem noPair_append_of_last {x y : Char} {w t : Text} {last : Option Char} (left : NoPair x y w)
    (right : NoPair x y ((w.getLast?.or last).toList ++ t)) : NoPair x y (w ++ t) := by
  refine noPair_append.2 ⟨left, right.of_part (List.suffix_append _ _).isInfix, ?_⟩
  rintro ⟨end_, head⟩
  rw [end_, Option.some_or, Option.toList_some] at right
  exact (noPair_append.1 right).2.2 ⟨rfl, head⟩

theorem isSome_breakOn_append (sub s : Text) {t : Text} (found : (breakOn sub t).isSome) :
    (breakOn sub (s ++ t)).isSome := by
  induction s with
  | nil => exact found
  | cons c s ih =>
    rw [List.cons_append, breakOn]
    split
    · rfl
    · rw [Option.isSome_map]
      exact ih

end Text

namespace Marker

/-- A place that holds no `{%`, in front of one where no marker begins. -/
theorem rule_eq_none_append {x y : Text} (apart : Text.NoPair '{' '%' (x ++ y.head?.toList))
    (behind : ∀ u, u <:+ y → u ≠ [] → rule u = none) :
    ∀ u, u <:+ x ++ y → u ≠ [] → rule u = none := by
  induction x with
  | nil => exact behind
  | cons c x ih =>
    obtain ⟨noOpener, rest⟩ := apart.of_cons
    intro u part filled
    rcases List.suffix_cons_iff.1 part with rfl | part
    · exact rule_cons_eq_none noOpener
    · exact ih rest u part filled

theorem isSome_breakOn_of_rule {x : Text} {v : Option (Text × List Attribute)} {n : Nat}
    (applies : rule x = some (v, n)) : (Text.breakOn ['%', '}'] x).isSome := by
  unfold rule at applies
  split at applies
  case h_2 => cases applies
  case h_1 r =>
    obtain ⟨p, cut, -⟩ := Option.map_eq_some_iff.1 applies
    exact Text.isSome_breakOn_append _ ['{', '%'] (by rw [cut]; rfl)

/-- Where no marker begins before a marker, there is no `{%` either. -/
theorem noPair_before {w x : Text} (closed : (Text.breakOn ['%', '}'] x).isSome)
    (nowhere : ∀ u, u <:+ w → u ≠ [] → rule (u ++ x) = none) : Text.NoPair '{' '%' w := by
  induction w with
  | nil => exact .nil
  | cons c w ih =>
    refine List.isChain_cons.2 ⟨?_, ih fun u part => nowhere u (part.trans (List.suffix_cons c w))⟩
    rintro d head ⟨rfl, rfl⟩
    obtain ⟨s, rfl⟩ := List.head?_eq_some_iff.1 head
    have here := nowhere _ (List.suffix_refl _) (by simp)
    rw [List.cons_append, List.cons_append, rule, Option.map_eq_none_iff] at here
    have found := Text.isSome_breakOn_append ['%', '}'] s closed
    rw [here] at found
    cases found

theorem inSpans_eq_nil_iff {pos : Nat} {ss : List Span} :
    inSpans pos ss = [] ↔ ∀ s ∈ ss, s.isCode = false → inProse 0 s.text = [] := by
  induction ss generalizing pos with
  | nil => simp [inSpans]
  | cons s ss ih =>
    rw [inSpans, List.append_eq_nil_iff, ih, List.forall_mem_cons, inProse_eq]
    cases s.isCode <;> simp

end Marker

namespace Leftover

/-! ## A stretch of prose -/

/-- The text that is put for a single marker. -/
def shownAs (name : Text) (attributes : List Attribute) : Text :=
  ((ofSingle? ⟨name, attributes, 0, 0⟩).map (·.1)).getD []

/-- The rule that puts for every marker what is shown for it. -/
def showRule : Text → Option (Text × Nat) :=
  Text.putting Marker.rule fun p => shownAs p.1 p.2

theorem showRule_eq_none_iff {t : Text} : showRule t = none ↔ Marker.rule t = none :=
  Option.map_eq_none_iff

/-- **Where nothing that is put makes a marker, none is left in a stretch of prose.** -/
theorem rule_eq_none_of_seamless {last : Option Char} {t : Text}
    (seamless : Text.Piece.Seamless last (Text.pieces showRule t)) :
    ∀ u, u <:+ Text.rewrite showRule t → u ≠ [] → Marker.rule u = none := by
  induction length : t.length using Nat.strongRecOn generalizing t last with
  | ind n ih =>
    subst length
    rcases Text.pieces_cases showRule t with kept | ⟨w, old, rest, new, n, rfl, cut, filled, applies, same⟩
    · have whole : Text.pieces showRule (t ++ []) = t.map .kept ++ Text.pieces showRule [] := by
        rw [List.append_nil, kept]
        exact (List.append_nil _).symm
      have nowhere := Text.eq_none_of_pieces whole
      rw [← Text.target_pieces, kept, Text.Piece.target_map_kept]
      intro u part filled
      have none := nowhere u part filled
      rwa [List.append_nil, showRule_eq_none_iff] at none
    · have shorter : rest.length < (w ++ (old ++ rest)).length := by
        have := List.length_pos_iff.2 filled
        simp only [List.length_append]
        omega
      have first := Text.pieces_of_put filled cut applies
      rw [← first] at same
      have nowhere := Text.eq_none_of_pieces same
      have marker : (Marker.rule (old ++ rest)).isSome := by
        by_contra none
        rw [Bool.not_eq_true, Option.isSome_eq_false_iff, Option.isNone_iff_eq_none,
          ← showRule_eq_none_iff, applies] at none
        cases none
      obtain ⟨⟨v, k⟩, found⟩ := Option.isSome_iff_exists.1 marker
      have before : Text.NoPair '{' '%' w :=
        Marker.noPair_before (Marker.isSome_breakOn_of_rule found) fun u part filled =>
          showRule_eq_none_iff.1 (nowhere u part filled)
      rw [same, first, Text.Piece.seamless_append] at seamless
      obtain ⟨⟨-, apart⟩, behind⟩ := seamless
      have later := ih _ shorter behind rfl
      rw [Text.target_pieces] at apart
      rw [← Text.target_pieces, same, first, Text.Piece.target_append, Text.Piece.target_map_kept,
        Text.Piece.target_put, Text.target_pieces, ← List.append_assoc]
      refine Marker.rule_eq_none_append ?_ later
      rw [List.append_assoc] at apart ⊢
      exact Text.noPair_append_of_last before apart

/-- **No marker is left in a stretch of prose where nothing that is put makes one.** -/
theorem inProse_rewrite {t : Text} (seamless : Text.Piece.Seamless none (Text.pieces showRule t)) :
    Marker.inProse 0 (Text.rewrite showRule t) = [] := by
  rw [Marker.inProse, Text.hits, Text.hitsFrom_eq_nil (rule_eq_none_of_seamless seamless)]
  rfl

/-! ## A line -/

/-- In no stretch of prose of a line what is put for a marker makes another. -/
def SeamlessLine (t : Text) : Prop :=
  ∀ s ∈ t.codeSpans, s.isCode = false → Text.Piece.Seamless none (Text.pieces showRule s.text)

instance (t : Text) : Decidable (SeamlessLine t) :=
  List.decidableBAll _ t.codeSpans

/-- A stretch of prose that is rewritten has no more backticks, and no marker. -/
theorem inSpans_prosePart {a : Text}
    (seamless : ∀ s ∈ Text.prosePart a, s.isCode = false →
      Text.Piece.Seamless none (Text.pieces showRule s.text)) :
    let new := if a = [] then [] else Text.rewrite showRule a
    Text.ticks new ≤ a.ticks ∧ ∀ s ∈ Text.prosePart new, Marker.inProse 0 s.text = [] := by
  by_cases empty : a = []
  · simp [empty, Text.prosePart, Text.ticks]
  · rw [Text.prosePart, if_neg empty] at seamless
    have own := seamless _ (.head _) rfl
    simp only [empty, if_false]
    refine ⟨by simpa using own.ticks_le, fun s mem => ?_⟩
    unfold Text.prosePart at mem
    split at mem
    · cases mem
    · rw [List.mem_singleton.1 mem]
      exact inProse_rewrite own

/-- **No marker is left on a line where nothing that is put makes one.** -/
theorem inSpans_mapOutsideCode {t : Text} (seamless : SeamlessLine t) :
    Marker.inSpans 0 (t.mapOutsideCode (Text.rewrite showRule)).codeSpans = [] := by
  rw [Marker.inSpans_eq_nil_iff]
  induction t using Text.codeSpans_induction with
  | span a x rest before inside ih =>
    rw [SeamlessLine, Text.codeSpans_span before inside] at seamless
    obtain ⟨ticks, first⟩ := inSpans_prosePart fun s mem => seamless s (List.mem_append_left _ mem)
    have later := ih (fun s mem => seamless s (List.mem_append_right _ (.tail _ mem)))
    have noTick := Text.ticks_eq_zero.1
      (Nat.le_zero.1 (Nat.le_trans ticks (Text.ticks_eq_zero.2 before).le))
    rw [Text.mapOutsideCode_span before inside, Text.codeSpans_span noTick inside]
    intro s mem prose
    rcases List.mem_append.1 mem with mem | mem
    · exact first s mem
    · rcases List.mem_cons.1 mem with rfl | mem
      · cases prose
      · exact later s mem prose
  | lone t lone =>
    rw [SeamlessLine, Text.codeSpans_of_lone lone] at seamless
    obtain ⟨ticks, own⟩ := inSpans_prosePart seamless
    rw [Text.mapOutsideCode_of_lone lone, Text.codeSpans_of_lone (Nat.le_trans ticks lone)]
    exact fun s mem _ => own s mem

/-! ## Markers shown in their places -/

/-- The edit that shows a single marker in its place. -/
def shownEdit (m : Marker) : Text.Edit :=
  ⟨m.start, m.stop, shownAs m.name m.attributes⟩

/-- Every marker of a text is decided on by itself, and shown in its place: no two of them are taken as
a directive, none is for code in front of a bare fence, and one that shows nothing is not alone on its
line. -/
structure ShowsAll (t : Text) : Prop where
  alone : t.markers.IsChain fun m k => ¬ Joins m k
  noFence : ∀ m ∈ t.markers, m.name = "code".toList → bareFence? (Text.lines (t.drop m.stop)) = none
  inPlace : ∀ m ∈ t.markers,
    (ofSingle? m).isSome ∨ t.lineAround m.start m.stop = (m.start, m.stop)

/-- A code marker shows nothing by itself. -/
theorem ofSingle?_code {m : Marker} (isCode : m.name = "code".toList) : ofSingle? m = none := by
  rw [ofSingle?, isCode]
  rfl

theorem edit_single {t : Text} {m : Marker}
    (noFence : m.name = "code".toList → bareFence? (Text.lines (t.drop m.stop)) = none)
    (inPlace : (ofSingle? m).isSome ∨ t.lineAround m.start m.stop = (m.start, m.stop)) :
    (single t m).edit = shownEdit m := by
  have same : ofSingle? ⟨m.name, m.attributes, 0, 0⟩ = ofSingle? m := rfl
  rw [shownEdit, shownAs, same]
  cases shown : ofSingle? m with
  | some p =>
    have other : m.name ≠ "code".toList := fun isCode => by
      rw [ofSingle?_code isCode] at shown
      cases shown
    rw [single, if_neg other, shown]
    rfl
  | none =>
    rw [shown] at inPlace
    have line := inPlace.resolve_left (by simp)
    by_cases isCode : m.name = "code".toList
    · rw [single, if_pos isCode]
      simp [danglingCode, line, noFence isCode]
    · rw [single, if_neg isCode, shown]
      dsimp only
      rw [line]
      rfl

theorem map_edit_decisionsFrom {t : Text} {ms : List Marker} {first cursor : Nat}
    (ordered : Text.Edit.InOrder first t.length (ms.map Marker.span)) (before : cursor ≤ first)
    (alone : ms.IsChain fun m k => ¬ Joins m k)
    (single : ∀ m ∈ ms, (single t m).edit = shownEdit m) :
    (decisionsFrom t cursor ms).map (·.edit) = ms.map shownEdit := by
  induction ms generalizing first cursor with
  | nil => rfl
  | cons m ms ih =>
    obtain ⟨start, within, rest⟩ := ordered
    obtain ⟨apart, later⟩ := List.isChain_cons.1 alone
    have late : ¬ m.start < cursor := Nat.not_lt.2 (Nat.le_trans before start)
    have chosenAlone : chosen t m ms = Leftover.single t m := by
      cases ms with
      | nil => rfl
      | cons k ms =>
        simp only [chosen, List.head?_cons, Option.bind_some, paired?_eq_none_iff.2 (apart k rfl),
          Option.getD_none]
    have edit := single m (.head _)
    have here : decide t cursor m ms = Leftover.single t m := by
      rw [decide_eq, chosenAlone, if_neg]
      rw [edit]
      exact late
    have behind := ih rest (Nat.le_refl _) later fun k mem => single k (.tail _ mem)
    rw [decisionsFrom, if_neg late]
    dsimp only
    rw [here, List.map_cons, List.map_cons, edit]
    exact congrArg (shownEdit m :: ·) behind

/-- Markers that are shown in their places are all that changes. -/
theorem clear_of_showsAll {t : Text} (shows : ShowsAll t) :
    clear t = t.splice (t.markers.map shownEdit) := by
  rw [clear, decisions, map_edit_decisionsFrom t.inOrder_markers (Nat.le_refl 0) shows.alone]
  exact fun m mem => edit_single (shows.noFence m mem) (shows.inPlace m mem)

theorem map_shownEdit_shift (n : Nat) (ms : List Marker) :
    (ms.map (Marker.shift n)).map shownEdit = (ms.map shownEdit).map (Text.Edit.shift n) := by
  rw [List.map_map, List.map_map]
  rfl

theorem map_shownEdit_inProse (part : Text) :
    (Marker.inProse 0 part).map shownEdit =
      Text.editsOf (fun p => shownAs p.1 p.2) (Text.hits Marker.rule part) := by
  rw [Marker.inProse, Text.editsOf, List.map_filterMap]
  refine List.filterMap_congr fun h _ => ?_
  cases h.value <;> simp [shownEdit]

theorem inOrder_shownEdit {start stop : Nat} {ms : List Marker}
    (ordered : Text.Edit.InOrder start stop (ms.map Marker.span)) :
    Text.Edit.InOrder start stop (ms.map shownEdit) := by
  induction ms generalizing start with
  | nil => exact ordered
  | cons m ms ih => exact ⟨ordered.1, ordered.2.1, ih ordered.2.2⟩

/-- Showing the markers of the parts of a line is rewriting its prose. -/
theorem splice_inSpans (ss : List Span) :
    Text.splice (ss.flatMap (·.text)) ((Marker.inSpans 0 ss).map shownEdit) =
      ss.flatMap fun s => if s.isCode then s.text else Text.rewrite showRule s.text := by
  induction ss with
  | nil => rfl
  | cons s ss ih =>
    have ordered : Text.Edit.InOrder 0 s.text.length
        ((if s.isCode then [] else Marker.inProse 0 s.text).map shownEdit) := by
      split
      · exact Nat.zero_le _
      · exact inOrder_shownEdit (Marker.inOrder_inProse s.text)
    have own : Text.splice s.text ((if s.isCode then [] else Marker.inProse 0 s.text).map shownEdit) =
        if s.isCode then s.text else Text.rewrite showRule s.text := by
      split
      · rfl
      · rw [map_shownEdit_inProse]
        exact Text.spliceFrom_editsOf Marker.staysInside_rule (fun p => shownAs p.1 p.2) 0
          (Nat.zero_le s.text.length)
    rw [Marker.inSpans, Marker.inSpans_eq, Nat.zero_add, List.flatMap_cons, List.map_append,
      map_shownEdit_shift, Text.splice_append ordered (inOrder_shownEdit (Marker.inOrder_inSpans ss)),
      own, ih, List.flatMap_cons]

/-! ## A line by itself -/

section Line

variable {l : Line}

/-- The line with its markers shown. -/
def shownLine (l : Line) : Line :=
  { l with content := l.content.mapOutsideCode (Text.rewrite showRule) }

/-- **A line whose markers are all shown is cleared by rewriting its prose.** -/
theorem clear_text (whole : l.IsWhole) (filled : l.ending = .none → l.content ≠ [])
    (prose : FenceOpener.ofLine? l.content = none) (shows : ShowsAll l.text) :
    clear l.text = (shownLine l).text := by
  have ordered := inOrder_shownEdit (Marker.inOrder_inSpans l.content.codeSpans)
  rw [Text.flatMap_text_codeSpans] at ordered
  have none : Text.Edit.InOrder 0 l.ending.text.length [] := Nat.zero_le _
  have cut := Text.splice_append ordered none
  rw [List.map_nil, List.append_nil] at cut
  have parts := splice_inSpans l.content.codeSpans
  rw [Text.flatMap_text_codeSpans] at parts
  rw [clear_of_showsAll shows, Line.markers_text whole filled prose, Line.text, cut, parts]
  rfl

end Line

end Leftover
end MdxPress
