import MdxPress.Marker
import MdxPress.Proofs.CodeSpan
import MdxPress.Proofs.Fence.Closed
import MdxPress.Proofs.Text.Edit
import MdxPress.Proofs.Text.Part
import MdxPress.Proofs.Text.Search

/-!
What a scanned marker says about the page it was found on, and about the markers beside it.  Scanning goes
line by line, so the markers of two texts put together are those of each, provided the first is closed.

* `Text.markers_append` is that law, with `Marker.shift` for the positions behind the first text;
* `Marker.StandsIn` is the place of a marker: `{%`, an inside on one line, and the first `%}` behind;
* `Text.standsIn_of_mem_markers` finds every marker of a page at its place, and `Text.markers_within`
  inside the page;
* `Text.attributes_part` finds the values of attributes in the inside, so none holds a line feed;
* `Text.Hit.span` and `Marker.span` are the characters that are covered, as an edit that takes them
  away, so that the laws for edits in order hold of them;
* `Text.inOrder_hitsFrom` is the order of the applications of a rule, `Text.inOrder_markers` that of the
  markers of a page: each behind the end of the one before it;
* `Text.exists_hit_covering` says that no place where a rule applies is left out.
-/

namespace MdxPress

/-! ## Positions behind a text -/

namespace Marker

/-- A marker that stands `n` characters further on. -/
def shift (n : Nat) (m : Marker) : Marker :=
  { m with start := n + m.start, stop := n + m.stop }

@[simp]
theorem name_shift (n : Nat) (m : Marker) : (m.shift n).name = m.name := rfl

@[simp]
theorem attributes_shift (n : Nat) (m : Marker) : (m.shift n).attributes = m.attributes := rfl

@[simp]
theorem start_shift (n : Nat) (m : Marker) : (m.shift n).start = n + m.start := rfl

@[simp]
theorem stop_shift (n : Nat) (m : Marker) : (m.shift n).stop = n + m.stop := rfl

@[simp]
theorem attribute?_shift (n : Nat) (m : Marker) (key : Text) :
    (m.shift n).attribute? key = m.attribute? key := rfl

@[simp]
theorem closes_shift (n : Nat) (m : Marker) (name : Text) :
    (m.shift n).closes name = m.closes name := rfl

theorem shift_shift (n k : Nat) (m : Marker) : (m.shift n).shift k = m.shift (k + n) := by
  simp [shift, Nat.add_assoc]

theorem map_shift_shift (n k : Nat) (ms : List Marker) :
    (ms.map (shift n)).map (shift k) = ms.map (shift (k + n)) := by
  simp [Function.comp_def, shift_shift]

/-! ## Positions only move -/

theorem inProse_eq (pos : Nat) (part : Text) :
    inProse pos part = (inProse 0 part).map (shift pos) := by
  simp [inProse, List.map_filterMap, Function.comp_def, shift]

theorem inSpans_eq (pos : Nat) (ss : List Span) :
    inSpans pos ss = (inSpans 0 ss).map (shift pos) := by
  induction ss generalizing pos with
  | nil => rfl
  | cons s ss ih =>
    rw [inSpans, inSpans, List.map_append, ih (pos + s.text.length), ih (0 + s.text.length),
      map_shift_shift, Nat.zero_add]
    cases s.isCode
    · simp only [Bool.false_eq_true, if_false]
      rw [inProse_eq pos]
    · rfl

theorem inLines_eq (pos : Nat) (ls : List FencedLine) :
    inLines pos ls = (inLines 0 ls).map (shift pos) := by
  induction ls generalizing pos with
  | nil => rfl
  | cons l ls ih =>
    rw [inLines, inLines, List.map_append, ih (pos + l.line.text.length),
      ih (0 + l.line.text.length), map_shift_shift, Nat.zero_add]
    cases l.isCode
    · simp only [Bool.false_eq_true, if_false]
      rw [inSpans_eq pos]
    · rfl

theorem inLines_append (pos : Nat) (ls ms : List FencedLine) :
    inLines pos (ls ++ ms) =
      inLines pos ls ++ inLines (pos + (Line.join (ls.map (·.line))).length) ms := by
  induction ls generalizing pos with
  | nil => rfl
  | cons l ls ih =>
    rw [List.cons_append, inLines, inLines, ih, List.append_assoc, List.map_cons, Line.join_cons,
      List.length_append, Nat.add_assoc]

end Marker

/-! ## A line by itself -/

section Line

variable {l : Line}

theorem Line.fenced_text (whole : l.IsWhole) (filled : l.ending = .none → l.content ≠ [])
    (prose : FenceOpener.ofLine? l.content = none) : l.text.fenced = [⟨l, none, none⟩] := by
  rw [Text.fenced, Text.lines_text whole filled, fencedLines, FenceState.next, prose]
  rfl

/-- The markers of a line of prose by itself. -/
theorem Line.markers_text (whole : l.IsWhole) (filled : l.ending = .none → l.content ≠ [])
    (prose : FenceOpener.ofLine? l.content = none) :
    l.text.markers = Marker.inSpans 0 l.content.codeSpans := by
  rw [Text.markers, fenced_text whole filled prose]
  simp [Marker.inLines, FencedLine.isCode]

end Line

namespace Text

theorem join_line_fenced (t : Text) : Line.join (t.fenced.map (·.line)) = t := by
  rw [fenced, map_line_fencedLines, join_lines]

/-- **The markers of two texts put together.** -/
theorem markers_append {a : Text} (closed : a.Closed) (b : Text) :
    (a ++ b).markers = a.markers ++ b.markers.map (Marker.shift a.length) := by
  rw [markers, fenced_append closed, Marker.inLines_append, join_line_fenced, Nat.zero_add,
    Marker.inLines_eq a.length, markers, markers]

end Text

/-! ## Values of attributes -/

namespace Attribute

theorem quoted?_append {quote : Char} {t v r : Text} (ends : quoted? quote t = some (v, r)) :
    t = v ++ quote :: r := by
  induction t generalizing v with
  | nil => cases ends
  | cons c t ih =>
    rw [quoted?] at ends
    split at ends
    case isTrue closes =>
      cases ends
      simp only [Bool.and_eq_true, decide_eq_true_eq] at closes
      rw [closes.1, List.nil_append]
    case isFalse =>
      obtain ⟨p, later, same⟩ := Option.map_eq_some_iff.1 ends
      cases same
      rw [List.cons_append, ← ih later]

/-- A value is a part of what it is read from, and what is left is an end of it. -/
theorem readValue_parts (t : Text) : (readValue t).1 <:+: t ∧ (readValue t).2 <:+ t := by
  unfold readValue
  split
  case h_1 => exact ⟨List.nil_infix, List.nil_suffix⟩
  case h_2 c r =>
    split
    case isTrue =>
      split
      case h_1 p ends =>
        have cut : c :: r = (c :: p.1) ++ c :: p.2 := by rw [quoted?_append ends]; rfl
        refine ⟨⟨[c], c :: p.2, by simp [cut]⟩, ⟨c :: p.1 ++ [c], by simp [cut]⟩⟩
      case h_2 =>
        exact ⟨(Text.trimEnd_isPrefix r).isInfix.trans (List.suffix_cons c r).isInfix,
          List.nil_suffix⟩
    case isFalse => exact ⟨(List.takeWhile_prefix _).isInfix, List.dropWhile_suffix _⟩

end Attribute

namespace Text

/-- **The value of an attribute stands in the text it was read from.** -/
theorem attributes_part {t : Text} {a : Attribute} (mem : a ∈ t.attributes) : a.value <:+: t := by
  fun_induction attributes t with
  | case1 => cases mem
  | case2 t c r cut isKey v behind ih =>
    have tail : (trimStart v) <:+ t := by
      have first : '=' :: v <:+ r := behind ▸ (trimStart_suffix _).trans (List.dropWhile_suffix _)
      exact (trimStart_suffix v).trans ((List.suffix_cons _ v).trans
        (first.trans ((List.suffix_cons c r).trans (cut ▸ trimStart_suffix t))))
    obtain ⟨value, rest⟩ := Attribute.readValue_parts (trimStart v)
    rcases List.mem_cons.1 mem with rfl | mem
    · exact value.trans tail.isInfix
    · exact (ih mem).trans (rest.trans tail).isInfix
  | case3 t c r cut isKey noSign ih =>
    rcases List.mem_cons.1 mem with rfl | mem
    · exact List.nil_infix
    · have tail : trimStart (r.dropWhile isKeyChar) <:+ t :=
        (trimStart_suffix _).trans ((List.dropWhile_suffix _).trans
          ((List.suffix_cons c r).trans (cut ▸ trimStart_suffix t)))
      exact (ih mem).trans tail.isInfix
  | case4 t c r cut noKey ih =>
    exact (ih mem).trans ((List.suffix_cons c r).trans (cut ▸ trimStart_suffix t)).isInfix

end Text

/-! ## Markers at their places -/

namespace Marker

/-- A marker stands in a text: `{%`, an inside on one line that reads as the marker, and the first
`%}` behind it. -/
def StandsIn (m : Marker) (t : Text) : Prop :=
  ∃ before inside behind : Text, t = before ++ '{' :: '%' :: (inside ++ '%' :: '}' :: behind) ∧
    m.start = before.length ∧ m.stop = before.length + (inside.length + 4) ∧
    Text.NoPair '%' '}' inside ∧ '\n' ∉ inside ∧ ofInside? inside = some (m.name, m.attributes)

variable {m : Marker} {t : Text}

theorem StandsIn.append (stands : m.StandsIn t) (u : Text) : m.StandsIn (t ++ u) := by
  obtain ⟨before, inside, behind, rfl, rest⟩ := stands
  exact ⟨before, inside, behind ++ u, by simp, rest⟩

theorem StandsIn.shift (stands : m.StandsIn t) (u : Text) : (m.shift u.length).StandsIn (u ++ t) := by
  obtain ⟨before, inside, behind, rfl, start, stop, rest⟩ := stands
  refine ⟨u ++ before, inside, behind, by simp, ?_, ?_, rest⟩
  · simp [start]
  · simp [stop, Nat.add_assoc]

/-- **An application of the rule**: `{%`, an inside that is read as far as it can be, and the first `%}`
behind it. -/
theorem exists_of_mem_hits {part : Text} {h : Text.Hit (Option (Text × List Attribute))}
    (hit : h ∈ Text.hits rule part) :
    ∃ before inside behind : Text, part = before ++ '{' :: '%' :: (inside ++ '%' :: '}' :: behind) ∧
      h.start = before.length ∧ h.stop = before.length + (inside.length + 4) ∧
      Text.NoPair '%' '}' inside ∧ h.value = ofInside? inside := by
  obtain ⟨before, rest, n, rfl, start, stop, applies⟩ := Text.exists_of_mem_hitsFrom hit
  unfold rule at applies
  split at applies
  case h_2 => cases applies
  case h_1 r =>
    obtain ⟨q, cut, same⟩ := Option.map_eq_some_iff.1 applies
    obtain ⟨value, rfl⟩ := Prod.mk.inj same
    have text : q.1 ++ '%' :: '}' :: q.2 = r := by
      simpa using Text.breakOn_append cut
    exact ⟨before, q.1, q.2, by rw [text], by simp [start], by simp [stop, start],
      Text.noPair_of_breakOn cut, value.symm⟩

/-- **A marker found in prose stands there.** -/
theorem standsIn_of_mem_inProse {part : Text} (noFeed : '\n' ∉ part) (mem : m ∈ inProse 0 part) :
    m.StandsIn part := by
  obtain ⟨h, hit, read⟩ := List.mem_filterMap.1 mem
  obtain ⟨p, value, rfl⟩ := Option.map_eq_some_iff.1 read
  obtain ⟨before, inside, behind, rfl, start, stop, noCloser, reads⟩ := exists_of_mem_hits hit
  refine ⟨before, inside, behind, rfl, by simp [start], by simp [stop], noCloser, fun feed => ?_,
    reads ▸ value⟩
  exact noFeed (by simp [feed])

theorem standsIn_of_mem_inSpans {ss : List Span} (noFeed : '\n' ∉ ss.flatMap (·.text))
    (mem : m ∈ inSpans 0 ss) : m.StandsIn (ss.flatMap (·.text)) := by
  induction ss generalizing m with
  | nil => cases mem
  | cons s ss ih =>
    rw [inSpans, inSpans_eq, Nat.zero_add] at mem
    rw [List.flatMap_cons] at noFeed ⊢
    obtain ⟨first, later⟩ := not_or.1 (mt List.mem_append.2 noFeed)
    rcases List.mem_append.1 mem with mem | mem
    · split at mem
      case isTrue => cases mem
      case isFalse => exact (standsIn_of_mem_inProse first mem).append _
    · obtain ⟨k, inner, rfl⟩ := List.mem_map.1 mem
      exact (ih later inner).shift _

theorem standsIn_of_mem_inLines {ls : List FencedLine}
    (noFeed : ∀ l ∈ ls, '\n' ∉ l.line.content) (mem : m ∈ inLines 0 ls) :
    m.StandsIn (Line.join (ls.map (·.line))) := by
  induction ls generalizing m with
  | nil => cases mem
  | cons l ls ih =>
    rw [inLines, inLines_eq, Nat.zero_add] at mem
    rw [List.map_cons, Line.join_cons]
    rcases List.mem_append.1 mem with mem | mem
    · split at mem
      case isTrue => cases mem
      case isFalse =>
        have parts := Text.flatMap_text_codeSpans l.line.content
        have stands := standsIn_of_mem_inSpans (parts.symm ▸ noFeed l (.head _)) mem
        rw [parts] at stands
        rw [Line.text, List.append_assoc]
        exact stands.append _
    · obtain ⟨k, inner, rfl⟩ := List.mem_map.1 mem
      exact (ih (fun k mem => noFeed k (.tail _ mem)) inner).shift _

end Marker

/-- **Every marker of a page stands in it.** -/
theorem Text.standsIn_of_mem_markers {t : Text} {m : Marker} (mem : m ∈ t.markers) :
    m.StandsIn t := by
  have lines : t.fenced.map (·.line) = t.lines := map_line_fencedLines none t.lines
  have stands := Marker.standsIn_of_mem_inLines (fun l isIn => ?_) mem
  · rwa [join_line_fenced] at stands
  · have whole : Line.AreLines t.lines := areLines_lines t
    exact (whole.isWhole (lines ▸ List.mem_map_of_mem isIn)).noFeed

/-- A marker that ends behind its start and before the position `n`. -/
structure Marker.Within (n : Nat) (m : Marker) : Prop where
  ordered : m.start ≤ m.stop
  inside : m.stop ≤ n

/-- Every marker of a page lies inside it. -/
theorem Text.markers_within {t : Text} {m : Marker} (mem : m ∈ t.markers) : m.Within t.length := by
  obtain ⟨before, inside, behind, rfl, start, stop, -⟩ := standsIn_of_mem_markers mem
  refine ⟨by omega, ?_⟩
  simp only [List.length_append, List.length_cons]
  omega

/-- No attribute of a marker holds a line feed. -/
theorem Marker.StandsIn.noFeed {m : Marker} {t key value : Text} (stands : m.StandsIn t)
    (has : m.attribute? key = some value) : '\n' ∉ value := by
  obtain ⟨before, inside, behind, -, -, -, -, noFeed, read⟩ := stands
  obtain ⟨a, found, rfl⟩ := Option.map_eq_some_iff.1 has
  have mem := List.mem_of_find?_eq_some found
  rw [ofInside?] at read
  split at read
  case isTrue => cases read
  case isFalse =>
    obtain ⟨-, same⟩ := Prod.mk.inj (Option.some.inj read)
    rw [← same] at mem
    have part := (Text.attributes_part mem).trans
      ((List.dropWhile_suffix _).isInfix.trans (Text.trim_part inside))
    exact fun feed => noFeed (part.mem feed)

/-! ## The order of the hits and the markers -/

namespace Text

/-- The characters that an application of a rule covers. -/
def Hit.span {α : Type} (h : Hit α) : Edit :=
  ⟨h.start, h.stop, []⟩

/-- A rule that covers at least one character, and only characters that are there. -/
def StaysInside {α : Type} (rule : Text → Option (α × Nat)) : Prop :=
  ∀ ⦃t : Text⦄ ⦃v : α⦄ ⦃n : Nat⦄, rule t = some (v, n) → 0 < n ∧ n ≤ t.length

/-- **The applications of a rule come one after another.** -/
theorem inOrder_hitsFrom {α : Type} {rule : Text → Option (α × Nat)} (inside : StaysInside rule)
    (pos : Nat) {skip : Nat} {t : Text} (covered : skip ≤ t.length) :
    Edit.InOrder (pos + skip) (pos + t.length) ((hitsFrom rule pos skip t).map Hit.span) := by
  induction t generalizing pos skip with
  | nil => cases skip <;> exact Nat.add_le_add_left covered pos
  | cons c r ih =>
    have length : pos + (c :: r).length = pos + 1 + r.length := by rw [List.length_cons]; omega
    rw [length]
    cases skip with
    | succ skip =>
      have later := ih (pos + 1) (Nat.le_of_succ_le_succ covered)
      exact later.mono (by omega)
    | zero =>
      rw [hitsFrom]
      split
      case h_2 => exact (ih (pos + 1) (Nat.zero_le _)).mono (by omega)
      case h_1 v n applies =>
        obtain ⟨filled, fits⟩ := inside applies
        rw [List.length_cons] at fits
        have later := ih (pos + 1) (show n - 1 ≤ r.length by omega)
        rw [show pos + 1 + (n - 1) = pos + n by omega] at later
        exact ⟨Nat.le_refl _, Nat.le_add_right pos n, later⟩

/-- **Where a rule applies, one of its applications reaches**: the place begins one, unless an earlier
one covers it.  The next `skip` characters are covered by none of those that are counted. -/
theorem exists_hit_covering {α : Type} {rule : Text → Option (α × Nat)} (inside : StaysInside rule)
    (pos : Nat) {skip : Nat} {before rest : Text} (uncovered : skip ≤ before.length) (filled : rest ≠ [])
    (applies : (rule rest).isSome = true) :
    ∃ h ∈ hitsFrom rule pos skip (before ++ rest),
      h.start ≤ pos + before.length ∧ pos + before.length < h.stop := by
  induction before generalizing pos skip with
  | nil =>
    obtain ⟨c, r, rfl⟩ := List.exists_cons_of_ne_nil filled
    obtain ⟨⟨v, n⟩, found⟩ := Option.isSome_iff_exists.1 applies
    obtain rfl : skip = 0 := Nat.le_zero.1 uncovered
    refine ⟨⟨pos, pos + n, v⟩, ?_, Nat.le_refl _, Nat.lt_add_of_pos_right (inside found).1⟩
    rw [List.nil_append, hitsFrom, found]
    exact .head _
  | cons c before ih =>
    have place : pos + 1 + before.length = pos + (c :: before).length := by
      rw [List.length_cons]
      omega
    rw [← place, List.cons_append]
    cases skip with
    | succ skip => exact ih (pos + 1) (Nat.le_of_succ_le_succ uncovered)
    | zero =>
      rw [hitsFrom]
      cases found : rule (c :: (before ++ rest)) with
      | none => exact ih (pos + 1) (Nat.zero_le _)
      | some p =>
        obtain ⟨v, n⟩ := p
        by_cases covered : before.length < n - 1
        · exact ⟨⟨pos, pos + n, v⟩, .head _, by dsimp only; omega, by dsimp only; omega⟩
        · obtain ⟨h, later, reaches⟩ := ih (pos + 1) (Nat.le_of_not_lt covered)
          exact ⟨h, .tail _ later, reaches⟩

end Text

namespace Marker

/-- The characters that a marker covers. -/
def span (m : Marker) : Text.Edit :=
  ⟨m.start, m.stop, []⟩

theorem map_span_shift (n : Nat) (ms : List Marker) :
    (ms.map (shift n)).map span = (ms.map span).map (Text.Edit.shift n) := by
  rw [List.map_map, List.map_map]
  rfl

theorem staysInside_rule : Text.StaysInside rule := by
  intro t v n applies
  unfold rule at applies
  split at applies
  case h_2 => cases applies
  case h_1 r =>
    obtain ⟨p, cut, same⟩ := Option.map_eq_some_iff.1 applies
    cases same
    have whole := congrArg List.length (Text.breakOn_append cut)
    simp only [List.length_append, List.length_cons, List.length_nil] at whole ⊢
    omega

theorem inOrder_inProse (part : Text) :
    Text.Edit.InOrder 0 part.length ((inProse 0 part).map span) := by
  have hits := Text.inOrder_hitsFrom staysInside_rule 0 (Nat.zero_le part.length)
  rw [Nat.zero_add (List.length part)] at hits
  rw [inProse, List.map_filterMap]
  refine hits.filterMap fun h e read => ?_
  obtain ⟨m, found, rfl⟩ := Option.map_eq_some_iff.1 read
  obtain ⟨p, -, rfl⟩ := Option.map_eq_some_iff.1 found
  simp [span, Text.Hit.span]

theorem inOrder_inSpans (ss : List Span) :
    Text.Edit.InOrder 0 (ss.flatMap (·.text)).length ((inSpans 0 ss).map span) := by
  induction ss with
  | nil => exact Nat.le_refl 0
  | cons s ss ih =>
    have later := ih.shift s.text.length
    rw [inSpans, inSpans_eq, Nat.zero_add, List.map_append, map_span_shift, List.flatMap_cons,
      List.length_append]
    refine Text.Edit.InOrder.append ?_ later
    split
    · exact Nat.zero_le _
    · exact inOrder_inProse s.text

theorem inOrder_inLines (ls : List FencedLine) :
    Text.Edit.InOrder 0 (Line.join (ls.map (·.line))).length ((inLines 0 ls).map span) := by
  induction ls with
  | nil => exact Nat.le_refl 0
  | cons l ls ih =>
    have later := ih.shift l.line.text.length
    rw [inLines, inLines_eq, Nat.zero_add, List.map_append, map_span_shift, List.map_cons,
      Line.join_cons, List.length_append]
    refine Text.Edit.InOrder.append ?_ later
    split
    · exact Nat.zero_le _
    · have line := inOrder_inSpans l.line.content.codeSpans
      rw [Text.flatMap_text_codeSpans] at line
      refine Text.Edit.InOrder.weaken line ?_
      rw [Line.text, List.length_append]
      exact Nat.le_add_right _ _

end Marker

/-- **The markers of a page come one after another.** -/
theorem Text.inOrder_markers (t : Text) : Edit.InOrder 0 t.length (t.markers.map Marker.span) := by
  have lines := Marker.inOrder_inLines t.fenced
  rwa [join_line_fenced] at lines

end MdxPress
