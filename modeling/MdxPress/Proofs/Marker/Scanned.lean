import MdxPress.Proofs.Marker.Place
import MdxPress.Proofs.Marker.Written

/-!
The scan for markers finds what there is to find, each marker in one place.

A page is scanned part by part: a part is prose between two spans of inline code, on a line outside
fenced code.  Inside a part the rule is applied from the left, and what it covers is a scanned span.
Positions count whole characters, so none of them falls into a character.

* `Text.ProseAt` is a part of a page and the place where it begins, `Text.mem_markers_iff` takes the
  markers of a page from its parts;
* `Text.ProseAt.exists_inside` reads what a scanned span covers: `{%`, an inside, and the first `%}` behind;
* `Marker.IsScanned` is what a scan promises of a marker: its place, its name, and that it is read
  in the same way without the page around it;
* `Text.markers_scanned` puts together the order of the markers, that each is what it should be, and
  that none is missed.
-/

namespace MdxPress

/-- A part of a page in which markers are looked for, and the place where it begins: a line outside
fenced code holds it as one of its parts that are no inline code. -/
def Text.ProseAt (t : Text) (pos : Nat) (part : Text) : Prop :=
  ∃ (above below : List FencedLine) (l : FencedLine) (left right : List Span),
    t.fenced = above ++ l :: below ∧ l.isCode = false ∧
    l.line.content.codeSpans = left ++ ⟨part, false⟩ :: right ∧
    pos = (Line.join (above.map (·.line))).length + (left.flatMap (·.text)).length

/-! ## Names -/

/-- Characters of names stay such characters in lowercase, and are in lowercase then. -/
theorem isKeyChar_toLower {c : Char} (key : isKeyChar c = true) :
    isKeyChar c.toLower = true ∧ c.toLower.toLower = c.toLower := by
  have small : ∀ n : Fin 128, isKeyChar (Char.ofNat n) = true →
      isKeyChar (Char.ofNat n).toLower = true ∧
        (Char.ofNat n).toLower.toLower = (Char.ofNat n).toLower := by
    decide +kernel
  have bound := (toNat_of_isKeyChar key).2
  have own := small ⟨c.toNat, by omega⟩
  rw [Char.ofNat_toNat] at own
  exact own key

namespace Marker

variable {inside name : Text} {as : List Attribute}

/-- The name of a marker has characters, and they are in lowercase. -/
theorem isKey_of_ofInside? (read : ofInside? inside = some (name, as)) :
    IsKey name ∧ name.asciiLower = name := by
  rw [ofInside?] at read
  split at read
  case isTrue => cases read
  case isFalse filled =>
    obtain ⟨rfl, -⟩ := Prod.mk.inj (Option.some.inj read)
    have lower (c : Char) (mem : c ∈ inside.trim.takeWhile isKeyChar) :=
      isKeyChar_toLower (List.mem_takeWhile_imp mem)
    refine ⟨⟨?_, ?_⟩, ?_⟩
    · simpa [Text.asciiLower] using filled
    · intro c mem
      obtain ⟨d, isIn, rfl⟩ := List.mem_map.1 mem
      exact (lower d isIn).1
    · rw [Text.asciiLower, Text.asciiLower, List.map_map]
      exact List.map_congr_left fun c mem => (lower c mem).2

/-- An inside reads as a marker exactly when a name stands at its front. -/
theorem isSome_ofInside?_iff :
    (ofInside? inside).isSome = true ↔ ∃ c ∈ inside.trim.head?, isKeyChar c = true := by
  rw [ofInside?]
  cases inside.trim with
  | nil => simp
  | cons c r => cases key : isKeyChar c <;> simp [key]

theorem delimited_inj {u v : Text} (same : delimited u = delimited v) : u = v := by
  simpa [delimited] using same

/-! ## Parts of a page -/

variable {m : Marker} {pos : Nat}

theorem mem_inProse_iff {part : Text} : m ∈ inProse pos part ↔
    ∃ h ∈ Text.hits rule part, ∃ p, h.value = some p ∧ m = ⟨p.1, p.2, pos + h.start, pos + h.stop⟩ := by
  rw [inProse, List.mem_filterMap]
  simp only [Option.map_eq_some_iff, eq_comm (b := m)]

theorem mem_inSpans_iff {ss : List Span} : m ∈ inSpans pos ss ↔
    ∃ (left right : List Span) (part : Text), ss = left ++ ⟨part, false⟩ :: right ∧
      m ∈ inProse (pos + (left.flatMap (·.text)).length) part := by
  induction ss generalizing pos with
  | nil => simp [inSpans]
  | cons s ss ih =>
    rw [inSpans, List.mem_append, ih]
    constructor
    · rintro (own | ⟨left, right, part, rfl, mem⟩)
      · split at own
        case isTrue => cases own
        case isFalse prose =>
          obtain ⟨part, isCode⟩ := s
          obtain rfl : isCode = false := by simpa using prose
          exact ⟨[], ss, part, rfl, own⟩
      · exact ⟨s :: left, right, part, rfl, by simpa [Nat.add_assoc] using mem⟩
    · rintro ⟨left, right, part, cut, mem⟩
      cases left with
      | nil =>
        cases cut
        exact .inl mem
      | cons k left =>
        cases cut
        exact .inr ⟨left, right, part, rfl, by simpa [Nat.add_assoc] using mem⟩

theorem mem_inLines_iff {ls : List FencedLine} : m ∈ inLines pos ls ↔
    ∃ (above below : List FencedLine) (l : FencedLine), ls = above ++ l :: below ∧ l.isCode = false ∧
      m ∈ inSpans (pos + (Line.join (above.map (·.line))).length) l.line.content.codeSpans := by
  induction ls generalizing pos with
  | nil => simp [inLines]
  | cons l ls ih =>
    rw [inLines, List.mem_append, ih]
    constructor
    · rintro (own | ⟨above, below, k, rfl, prose, mem⟩)
      · split at own
        case isTrue => cases own
        case isFalse prose => exact ⟨[], ls, l, rfl, by simpa using prose, own⟩
      · exact ⟨l :: above, below, k, rfl, prose, by simpa [Line.join_cons, Nat.add_assoc] using mem⟩
    · rintro ⟨above, below, k, cut, prose, mem⟩
      cases above with
      | nil =>
        cases cut
        exact .inl (by rwa [prose])
      | cons j above =>
        cases cut
        exact .inr ⟨above, below, k, rfl, prose, by simpa [Line.join_cons, Nat.add_assoc] using mem⟩

end Marker

namespace Text

variable {t part : Text} {m : Marker} {pos : Nat}

/-- **The markers of a page are those of its parts.** -/
theorem mem_markers_iff : m ∈ t.markers ↔
    ∃ pos part, t.ProseAt pos part ∧ ∃ h ∈ hits Marker.rule part, ∃ p, h.value = some p ∧
      m = ⟨p.1, p.2, pos + h.start, pos + h.stop⟩ := by
  simp only [markers, Marker.mem_inLines_iff, Marker.mem_inSpans_iff, Marker.mem_inProse_iff, Nat.zero_add]
  constructor
  · rintro ⟨above, below, l, lines, prose, left, right, part, spans, found⟩
    exact ⟨_, part, ⟨above, below, l, left, right, lines, prose, spans, rfl⟩, found⟩
  · rintro ⟨_, part, ⟨above, below, l, left, right, lines, prose, spans, rfl⟩, found⟩
    exact ⟨above, below, l, lines, prose, left, right, part, spans, found⟩

namespace ProseAt

/-- A part stands on the page, on one line, and at most one backtick in it. -/
theorem exists_between (prose : t.ProseAt pos part) :
    ∃ front back : Text, t = front ++ (part ++ back) ∧ pos = front.length ∧ '\n' ∉ part ∧
      part.count '\x60' ≤ 1 := by
  obtain ⟨above, below, l, left, right, lines, -, spans, rfl⟩ := prose
  have content : left.flatMap (·.text) ++ (part ++ right.flatMap (·.text)) = l.line.content := by
    rw [← flatMap_text_codeSpans l.line.content, spans, List.flatMap_append, List.flatMap_cons]
  have whole : l.line.IsWhole := by
    have all : Line.AreLines t.lines := areLines_lines t
    refine all.isWhole ?_
    rw [← map_line_fencedLines none t.lines, ← fenced, lines]
    simp
  refine ⟨Line.join (above.map (·.line)) ++ left.flatMap (·.text),
    right.flatMap (·.text) ++ (l.line.ending.text ++ Line.join (below.map (·.line))), ?_,
    List.length_append.symm, ?_, ?_⟩
  · rw [← join_line_fenced t, lines, List.map_append, Line.join_append, List.map_cons, Line.join_cons,
      Line.text, ← content]
    simp only [List.append_assoc]
  · intro feed
    exact whole.noFeed (content ▸ by simp [feed])
  · have isIn : ⟨part, false⟩ ∈ l.line.content.codeSpans := by simp [spans]
    exact (of_mem_codeSpans isIn).2 rfl

/-- **What a scanned span covers**, in its part and on the page. -/
theorem exists_inside (prose : t.ProseAt pos part) {h : Hit (Option (Text × List Attribute))}
    (hit : h ∈ hits Marker.rule part) :
    ∃ inside : Text, part.slice h.start h.stop = Marker.delimited inside ∧
      t.slice (pos + h.start) (pos + h.stop) = Marker.delimited inside ∧
      h.stop = h.start + (Marker.delimited inside).length ∧ h.stop ≤ part.length ∧
      NoPair '%' '}' inside ∧ '\n' ∉ inside ∧ inside.count '\x60' ≤ 1 ∧
      h.value = Marker.ofInside? inside := by
  obtain ⟨front, back, rfl, rfl, noFeed, lone⟩ := prose.exists_between
  obtain ⟨before, inside, behind, cut, start, stop, noCloser, value⟩ := Marker.exists_of_mem_hits hit
  have length : h.stop = h.start + (Marker.delimited inside).length := by
    rw [stop, start, Marker.length_delimited]
  have text : part = before ++ (Marker.delimited inside ++ behind) := by
    simp [cut, Marker.delimited]
  have within : inside.Sublist part := by
    have part : inside <:+: part := ⟨before ++ ['{', '%'], '%' :: '}' :: behind, by simp [cut]⟩
    exact part.sublist
  have own : part.slice h.start h.stop = Marker.delimited inside := by
    rw [text]
    exact slice_between _ _ _ start length
  have inPart : h.stop ≤ part.length := by
    rw [text, List.length_append, List.length_append, ← start, length]
    omega
  refine ⟨inside, own, ?_, length, inPart, noCloser, fun mem => noFeed (within.subset mem),
    Nat.le_trans (within.count_le _) lone, value⟩
  rw [slice_append_right, slice_append_left inPart, own]

end ProseAt

end Text

/-! ## The scan -/

/-- What a scan promises of a marker of the page `t`: it stands in one part of the page, begins with
`{%` and ends with the first `%}` behind; its name has characters, in lowercase; and its text by itself
holds this one marker. -/
structure Marker.IsScanned (t : Text) (m : Marker) : Prop where
  place : ∃ pos part inside, t.ProseAt pos part ∧ pos ≤ m.start ∧ m.stop ≤ pos + part.length ∧
    t.slice m.start m.stop = delimited inside ∧ m.stop = m.start + (delimited inside).length ∧
    Text.NoPair '%' '}' inside
  name : IsKey m.name
  lower : m.name.asciiLower = m.name
  alone : (t.slice m.start m.stop).markers = [⟨m.name, m.attributes, 0, m.stop - m.start⟩]

namespace Text

variable {t : Text} {m : Marker}

theorem isScanned_of_mem_markers (mem : m ∈ t.markers) : m.IsScanned t := by
  obtain ⟨pos, part, prose, h, hit, ⟨name, as⟩, read, rfl⟩ := mem_markers_iff.1 mem
  obtain ⟨inside, -, text, length, within, noCloser, noFeed, lone, value⟩ := prose.exists_inside hit
  have reads : Marker.ofInside? inside = some (name, as) := by rw [← value, read]
  obtain ⟨key, lower⟩ := Marker.isKey_of_ofInside? reads
  have alone := markers_delimited noCloser noFeed lone .none
  rw [Ending.text, List.append_nil, reads] at alone
  refine ⟨⟨pos, part, inside, prose, Nat.le_add_right _ _, Nat.add_le_add_left within _, text, ?_,
    noCloser⟩, key, lower, ?_⟩
  · dsimp only
    omega
  · dsimp only
    rw [text, alone, length, show pos + (h.start + (Marker.delimited inside).length) - (pos + h.start) =
      (Marker.delimited inside).length by omega]
    rfl

/-- The markers of a page come one after another, and none is empty. -/
theorem pairwise_markers (t : Text) :
    t.markers.Pairwise fun m k => m.start < k.start ∧ m.stop ≤ k.start := by
  have ordered := (inOrder_markers t).pairwise
  rw [List.pairwise_map] at ordered
  refine ordered.imp_of_mem fun {m k} mem _ behind => ⟨?_, behind⟩
  obtain ⟨before, inside, rest, -, start, stop, -⟩ := standsIn_of_mem_markers mem
  have behind : m.stop ≤ k.start := behind
  omega

/-- The span that covers a place where a marker could begin reaches behind its `{%`. -/
theorem exists_hit_of_opener {part before middle behind : Text}
    (cut : part = before ++ '{' :: '%' :: (middle ++ '%' :: '}' :: behind)) :
    ∃ h ∈ hits Marker.rule part, h.start ≤ before.length ∧ before.length + 2 ≤ h.stop := by
  have closes : breakOn ['%', '}'] (middle ++ '%' :: '}' :: behind) ≠ none := by
    rw [Ne, breakOn_eq_none_iff, noPair_append]
    simp [NoPair]
  have applies : (Marker.rule ('{' :: '%' :: (middle ++ '%' :: '}' :: behind))).isSome = true := by
    simpa [Marker.rule, Option.isSome_iff_ne_none] using closes
  obtain ⟨h, hit, first, last⟩ :=
    exists_hit_covering Marker.staysInside_rule 0 (Nat.zero_le before.length) (by simp) applies
  rw [← cut] at hit
  rw [Nat.zero_add] at first last
  refine ⟨h, hit, first, Nat.lt_of_le_of_ne last fun ends => ?_⟩
  -- A span that ends behind the opening brace would have the brace as its closing one.
  obtain ⟨start, inside, rest, again, -, stop, -⟩ := Marker.exists_of_mem_hits hit
  have same : start ++ '{' :: '%' :: inside ++ ['%'] ++ '}' :: rest =
      before ++ '{' :: '%' :: (middle ++ '%' :: '}' :: behind) := by
    rw [← cut, again]
    simp
  have braces := List.append_inj_right same (by simp; omega)
  simp at braces

/-- **The scan is in order, sound and complete.**  The markers of a page come one after another; each
stands in one part of the page, from `{%` to the first `%}` behind, and is read in the same way by itself;
and every `{%` of a part with a `%}` behind it lies in a scanned span, which is a marker exactly when
what it encloses begins with a character of names behind its blanks. -/
theorem markers_scanned (t : Text) :
    t.markers.Pairwise (fun m k => m.start < k.start ∧ m.stop ≤ k.start) ∧
      (∀ m ∈ t.markers, m.IsScanned t) ∧
      ∀ pos part, t.ProseAt pos part → ∀ before middle behind : Text,
        part = before ++ '{' :: '%' :: (middle ++ '%' :: '}' :: behind) →
        ∃ h ∈ hits Marker.rule part, ∃ inside, h.start ≤ before.length ∧ before.length + 2 ≤ h.stop ∧
          part.slice h.start h.stop = Marker.delimited inside ∧
          ((∃ m ∈ t.markers, m.start = pos + h.start ∧ m.stop = pos + h.stop) ↔
            ∃ c ∈ inside.trim.head?, isKeyChar c = true) := by
  refine ⟨pairwise_markers t, fun m => isScanned_of_mem_markers,
    fun pos part prose before middle behind cut => ?_⟩
  obtain ⟨h, hit, first, last⟩ := exists_hit_of_opener cut
  obtain ⟨inside, own, text, length, -, -, -, -, value⟩ := prose.exists_inside hit
  refine ⟨h, hit, inside, first, last, own, ?_⟩
  rw [← Marker.isSome_ofInside?_iff]
  constructor
  · rintro ⟨m, mem, start, stop⟩
    obtain ⟨before, inside', behind, there, first, last, -, -, reads⟩ := standsIn_of_mem_markers mem
    have other : t.slice m.start m.stop = Marker.delimited inside' := by
      have parts : t = before ++ (Marker.delimited inside' ++ behind) := by simp [there, Marker.delimited]
      rw [parts]
      exact slice_between _ _ _ first (by rw [last, first, Marker.length_delimited])
    rw [start, stop, text] at other
    rw [Marker.delimited_inj other, reads]
    rfl
  · intro reads
    obtain ⟨p, found⟩ := Option.isSome_iff_exists.1 reads
    exact ⟨⟨p.1, p.2, pos + h.start, pos + h.stop⟩,
      mem_markers_iff.2 ⟨pos, part, prose, h, hit, p, value.trans found, rfl⟩, rfl, rfl⟩

/-- Inline code has no marker, a span without a name is passed over, and a marker runs on to the first
`%}`, whatever begins inside it. -/
example : (markers "\x60\x7b% x %\x7d\x60 \x7b%%\x7d \x7b% Tip \x7b% %\x7d \x60".toList).map
    (fun m => (m.name, m.start, m.stop)) = [("tip".toList, 15, 27)] := by
  decide +kernel

end Text

end MdxPress
