import MdxPress.Proofs.Marker.Place
import MdxPress.Proofs.Marker.Replace
import MdxPress.Proofs.Mdx.Stretch

/-!
Escaping and scanning agree on what a marker is.  What the markers of a page say, wherever they stand, is
compared line by line, part by part and stretch by stretch.

* `Text.readings` is what they say: names, attributes and source texts, in order;
* `Text.readings_eq` reads it off the lines of the page, each by itself;
* `Stretch.readings` is what a stretch says, and `Marker.readingsFrom_eq` and
  `Marker.flatMap_spanReadings_eq` read a prose part and a line stretch by stretch;
* `classifyLines_readings` carries the readings over the lines, whatever their classes;
* `readings_escapeBraces` is the result: an escaped body has the markers of the body.
-/

namespace MdxPress

namespace Marker

/-- What a marker says: its name, its attributes, and its text as it stands on the page. -/
structure Reading where
  name : Text
  attributes : List Attribute
  source : Text
  deriving DecidableEq, Repr

/-- What a marker of the text `t` says. -/
def reading (t : Text) (m : Marker) : Reading :=
  ⟨m.name, m.attributes, t.slice m.start m.stop⟩

/-- What the markers of the rest of a prose part say, when the next `skip` characters are covered. -/
def readingsFrom : Nat → Text → List Reading
  | _, [] => []
  | skip + 1, _ :: r => readingsFrom skip r
  | 0, c :: r =>
    match rule (c :: r) with
    | some (v, n) =>
      (v.map fun p => ⟨p.1, p.2, (c :: r).take n⟩).toList ++ readingsFrom (n - 1) r
    | none => readingsFrom 0 r

/-- What the markers of a part of a line say: code has none. -/
def spanReadings (s : Span) : List Reading :=
  if s.isCode then [] else readingsFrom 0 s.text

end Marker

/-- What the markers of a line say. -/
def FencedLine.readings (l : FencedLine) : List Marker.Reading :=
  if l.isCode then [] else l.line.content.codeSpans.flatMap Marker.spanReadings

/-- What the markers of a page say, in order. -/
def Text.readings (t : Text) : List Marker.Reading :=
  t.markers.map (Marker.reading t)

namespace Marker

/-! ## Readings do not depend on positions -/

theorem reading_shift (u t : Text) (m : Marker) :
    reading (u ++ t) (m.shift u.length) = reading t m := by
  simp only [reading, shift, Text.slice_append_right]

theorem reading_append_of_within {t : Text} {m : Marker} (within : m.stop ≤ t.length) (u : Text) :
    reading (t ++ u) m = reading t m := by
  simp only [reading, Text.slice_append_left within]

theorem map_reading_shift (u t : Text) (ms : List Marker) :
    (ms.map (shift u.length)).map (reading (u ++ t)) = ms.map (reading t) := by
  rw [List.map_map]
  apply List.map_congr_left
  intro m _
  exact reading_shift u t m

theorem map_reading_append {t : Text} {ms : List Marker} (within : ∀ m ∈ ms, m.stop ≤ t.length)
    (u : Text) : ms.map (reading (t ++ u)) = ms.map (reading t) := by
  apply List.map_congr_left
  intro m mem
  exact reading_append_of_within (within m mem) u

/-- The marker at an application of the rule, if what it covers reads as one. -/
def ofHit? (h : Text.Hit (Option (Text × List Attribute))) : Option Marker :=
  h.value.map fun p => ⟨p.1, p.2, h.start, h.stop⟩

/-- **The readings of a prose part** are met on one walk along it. -/
theorem map_reading_hitsFrom (before : Text) (skip : Nat) (t : Text) :
    ((Text.hitsFrom rule before.length skip t).filterMap ofHit?).map (reading (before ++ t)) =
      readingsFrom skip t := by
  induction t generalizing before skip with
  | nil => cases skip <;> rfl
  | cons c r ih =>
    have step : before ++ c :: r = (before ++ [c]) ++ r := by simp
    have length : before.length + 1 = (before ++ [c]).length := by simp
    cases skip with
    | succ skip =>
      rw [Text.hitsFrom, readingsFrom, step, length]
      exact ih (before ++ [c]) skip
    | zero =>
      rw [Text.hitsFrom, readingsFrom]
      cases applies : rule (c :: r) with
      | none =>
        rw [step, length]
        exact ih (before ++ [c]) 0
      | some p =>
        obtain ⟨v, n⟩ := p
        have later := ih (before ++ [c]) (n - 1)
        rw [← step, ← length] at later
        have source : (before ++ c :: r).slice before.length (before.length + n) =
            (c :: r).take n := by
          have shifted := Text.slice_append_right before (c :: r) 0 n
          rw [Nat.add_zero] at shifted
          rw [shifted]
          simp [Text.slice]
        dsimp only
        rw [← later]
        cases v with
        | none => rw [List.filterMap_cons_none rfl]; rfl
        | some p => simp [ofHit?, reading, source]

theorem map_reading_inProse (part : Text) :
    (inProse 0 part).map (reading part) = readingsFrom 0 part := by
  have walk := map_reading_hitsFrom [] 0 part
  rw [List.nil_append, List.length_nil] at walk
  rw [← walk, inProse, Text.hits]
  simp only [Nat.zero_add]
  rfl

theorem stop_le_of_mem {ms : List Marker} {m : Marker} {first last : Nat}
    (ordered : Text.Edit.InOrder first last (ms.map span)) (mem : m ∈ ms) : m.stop ≤ last := by
  induction ms generalizing first with
  | nil => cases mem
  | cons k ms ih =>
    obtain ⟨-, -, rest⟩ := ordered
    rcases List.mem_cons.1 mem with rfl | mem
    · exact rest.le
    · exact ih rest mem

theorem map_reading_inSpans (ss : List Span) :
    (inSpans 0 ss).map (reading (ss.flatMap (·.text))) = ss.flatMap spanReadings := by
  induction ss with
  | nil => rfl
  | cons s ss ih =>
    rw [inSpans, inSpans_eq, Nat.zero_add, List.map_append, List.flatMap_cons, List.flatMap_cons,
      map_reading_shift, ih]
    congr 1
    cases prose : s.isCode with
    | true => simp [spanReadings, prose]
    | false =>
      rw [if_neg (by simp), map_reading_append, map_reading_inProse, spanReadings, prose]
      · rfl
      · intro m mem
        exact stop_le_of_mem (inOrder_inProse s.text) mem

theorem map_reading_inLines (ls : List FencedLine) :
    (inLines 0 ls).map (reading (Line.join (ls.map (·.line)))) = ls.flatMap FencedLine.readings := by
  induction ls with
  | nil => rfl
  | cons l ls ih =>
    rw [inLines, inLines_eq, Nat.zero_add, List.map_append, List.map_cons, Line.join_cons,
      List.flatMap_cons, map_reading_shift, ih]
    congr 1
    cases prose : l.isCode with
    | true => simp [FencedLine.readings, prose]
    | false =>
      have parts := Text.flatMap_text_codeSpans l.line.content
      have ordered := inOrder_inSpans l.line.content.codeSpans
      have readings := map_reading_inSpans l.line.content.codeSpans
      rw [parts] at ordered readings
      rw [if_neg (by simp), Line.text, List.append_assoc, map_reading_append, readings,
        FencedLine.readings, prose]
      · rfl
      · intro m mem
        exact stop_le_of_mem ordered mem

end Marker

/-- **The readings of a page, line by line.** -/
theorem Text.readings_eq (t : Text) : t.readings = t.fenced.flatMap FencedLine.readings := by
  have lines := Marker.map_reading_inLines t.fenced
  rw [join_line_fenced] at lines
  exact lines

/-! ## Readings of a stretch -/

/-- What a stretch says: a marker, if its inside reads as one. -/
def Stretch.readings : Stretch → List Marker.Reading
  | marker inside =>
    ((Marker.ofInside? inside).map fun p => ⟨p.1, p.2, Marker.delimited inside⟩).toList
  | _ => []

theorem Stretch.readings_escape (s : Stretch) : s.escape.readings = s.readings := by
  cases s <;> rfl

namespace Marker

theorem readingsFrom_eq_drop (skip : Nat) (t : Text) :
    readingsFrom skip t = readingsFrom 0 (t.drop skip) := by
  induction t generalizing skip with
  | nil => cases skip <;> rfl
  | cons c r ih =>
    cases skip with
    | zero => rfl
    | succ skip => exact ih skip

/-- Up to where a marker begins, nothing is said. -/
theorem readingsFrom_append {gap rest : Text}
    (noOpener : Text.NoPair '{' '%' (gap ++ rest.head?.toList)) :
    readingsFrom 0 (gap ++ rest) = readingsFrom 0 rest := by
  induction gap with
  | nil => rfl
  | cons c gap ih =>
    obtain ⟨first, later⟩ := noOpener.of_cons
    rw [List.cons_append, readingsFrom, rule_cons_eq_none first]
    exact ih later

theorem readingsFrom_delimited {inside : Text} (noCloser : Text.NoPair '%' '}' inside) (rest : Text) :
    readingsFrom 0 (delimited inside ++ rest) =
      (Stretch.marker inside).readings ++ readingsFrom 0 rest := by
  have applies := rule_delimited noCloser rest
  have source : (delimited inside ++ rest).take (inside.length + 4) = delimited inside := by
    rw [← length_delimited, List.take_left]
  have behind : (delimited inside ++ rest).drop (inside.length + 4) = rest := by
    rw [← length_delimited, List.drop_left]
  obtain ⟨r, text⟩ : ∃ r, delimited inside ++ rest = '{' :: r := ⟨_, rfl⟩
  rw [text] at applies source behind ⊢
  rw [readingsFrom, applies]
  dsimp only
  rw [readingsFrom_eq_drop, source, ← List.drop_succ_cons, Nat.add_sub_assoc (by omega), behind]
  rfl

/-- Where no marker ends, nothing is said. -/
theorem readingsFrom_of_noCloser {t : Text} (noCloser : Text.NoPair '%' '}' t) :
    readingsFrom 0 t = [] := by
  induction t with
  | nil => rfl
  | cons c r ih =>
    have nothing : rule (c :: r) = none := by
      unfold rule
      split
      case h_1 rest same =>
        cases same
        rw [Text.breakOn_eq_none_iff.2 (noCloser.of_part ⟨['{', '%'], [], by simp⟩), Option.map_none]
      case h_2 => rfl
    rw [readingsFrom, nothing]
    exact ih (noCloser.of_part (List.suffix_cons c r).isInfix)

/-- **The readings of a prose part**, stretch by stretch. -/
theorem readingsFrom_eq (t : Text) :
    readingsFrom 0 t = t.proseStretches.flatMap Stretch.readings := by
  induction t using Text.prose_induction with
  | plain t noOpener =>
    have whole : readingsFrom 0 (t ++ []) = readingsFrom 0 [] :=
      readingsFrom_append (by simpa using noOpener)
    rw [List.append_nil] at whole
    rw [whole, Text.proseStretches_plain noOpener]
    rfl
  | unended gap behind noOpener noCloser =>
    have absent : rule ('{' :: '%' :: behind) = none := by
      rw [rule, Text.breakOn_eq_none_iff.2 noCloser, Option.map_none]
    rw [readingsFrom_append (noOpener.concat (by decide)), readingsFrom, absent]
    dsimp only
    rw [readingsFrom, rule_cons_eq_none (by simp)]
    dsimp only
    rw [readingsFrom_of_noCloser noCloser, Text.proseStretches_unended noOpener noCloser]
    rfl
  | marker gap inside rest noOpener noCloser ih =>
    rw [readingsFrom_append (noOpener.concat (by decide)), readingsFrom_delimited noCloser,
      Text.proseStretches_marker noOpener noCloser, ih]
    rfl

/-- **The readings of a line**, stretch by stretch. -/
theorem flatMap_spanReadings_eq (line : Text) :
    line.codeSpans.flatMap spanReadings = line.stretches.flatMap Stretch.readings := by
  rw [Text.stretches, List.flatMap_assoc]
  refine List.flatMap_congr fun s _ => ?_
  cases code : s.isCode with
  | true => simp [spanReadings, code, Stretch.readings]
  | false => simp [spanReadings, code, readingsFrom_eq]

/-- Escaping a line keeps the readings of its markers. -/
theorem flatMap_spanReadings_escapeLine (line : Text) :
    (Brace.escapeLine line).codeSpans.flatMap spanReadings = line.codeSpans.flatMap spanReadings := by
  rw [flatMap_spanReadings_eq, flatMap_spanReadings_eq, Brace.stretches_escapeLine, List.flatMap_map]
  exact List.flatMap_congr fun s _ => s.readings_escape

end Marker

/-! ## Readings of a body -/

open Brace

/-- A line as escaping leaves it says what it said, whatever its class. -/
theorem readings_escapeClassified (s : FenceState) (l : Line) (c : LineClass) (after : FenceState) :
    FencedLine.readings ⟨escapeClassified (l, c), s, after⟩ = FencedLine.readings ⟨l, s, after⟩ := by
  cases c with
  | fence | component | exempt => rfl
  | prose =>
    unfold FencedLine.readings
    rw [escapeClassified, Marker.flatMap_spanReadings_escapeLine]
    rfl

/-- **The readings along the lines**, from any state: what is escaped opens no block, so the lines
behind are read as before. -/
theorem classifyLines_readings (s : MdxState) (lineNo : Nat) (ls : List Line) :
    (fencedLines s.fence ((classifyLines s lineNo ls).1.map escapeClassified)).flatMap
        FencedLine.readings =
      (fencedLines s.fence ls).flatMap FencedLine.readings := by
  induction ls generalizing s lineNo with
  | nil => rfl
  | cons l ls ih =>
    have after := (spares_escapeClassified s l lineNo).next
    have later := ih (s.advance l.content lineNo).2 (lineNo + 1)
    rw [MdxState.fence_advance] at later
    simp only [classifyLines, List.map_cons, fencedLines, List.flatMap_cons]
    rw [after, later, readings_escapeClassified]

/-- **Escaping and scanning agree on what a marker is.**  The escaped body has the markers of the
body, in the same order: none is broken, changed, hidden or made, and each has its name, its
attributes and its source text. -/
theorem readings_escapeBraces (body : Text) : (escapeBraces body).text.readings = body.readings := by
  have lines := classifyLines_readings MdxState.start 1 body.lines
  rw [Text.readings_eq, Text.readings_eq, Text.fenced, lines_escapeBraces]
  exact lines

end MdxPress
