import MdxPress.Position
import MdxPress.Proofs.Text.Line

/-!
Lines and columns of a place in a text.  A place is what stands before it: the line feeds in it count
the lines, and what follows the last of them the columns.

* `Text.lineCount_join_append` and `Text.lastLine_join_append` are the place inside a line, behind
  the lines that stand before it;
* `Position.IsBehind` says that a position is the one behind a text;
* `Position.Before` is the order of positions, `Position.before_ofIndex` that of the characters of a
  text;
* `Text.IsBoundary` names the byte offsets between characters, and `Text.charsBefore_append` counts the
  characters before an offset;
* `Position.atByte_faithful` says how the positions of byte offsets are ordered and counted.

Caveat: an offset inside a character has the position of the character.
-/

namespace MdxPress

namespace Text

theorem lastLine_of_noFeed {t : Text} (noFeed : '\n' ∉ t) : t.lastLine = t := by
  cases t with
  | nil => rfl
  | cons c r =>
    obtain ⟨first, rest⟩ := not_or.1 (mt List.mem_cons.2 noFeed)
    simp [lastLine, rest, Ne.symm first]

theorem lastLine_append_feed (t u : Text) : lastLine (t ++ '\n' :: u) = lastLine u := by
  induction t with
  | nil =>
    by_cases feed : '\n' ∈ u
    · simp [lastLine, feed]
    · simp [lastLine, feed, lastLine_of_noFeed feed]
  | cons c t ih => simp [lastLine, ih]

/-- Whole lines in front leave the columns alone. -/
theorem lastLine_append {t : Text} (whole : t = [] ∨ t.getLast? = some '\n') (u : Text) :
    lastLine (t ++ u) = lastLine u := by
  rcases whole with rfl | feed
  · rfl
  · obtain ⟨v, rfl⟩ := List.getLast?_eq_some_iff.1 feed
    rw [List.append_assoc]
    exact lastLine_append_feed v u

theorem lineCount_append (t u : Text) : lineCount (t ++ u) = lineCount u + t.count '\n' := by
  rw [lineCount, lineCount, List.count_append]
  omega

/-- A place inside a line, behind lines that have their endings. -/
theorem lastLine_join_append {ls : List Line} (ended : Line.AllEnded ls) {t : Text}
    (noFeed : '\n' ∉ t) : lastLine (Line.join ls ++ t) = t := by
  have whole : Line.join ls = [] ∨ (Line.join ls).getLast? = some '\n' := by
    by_cases none : ls = []
    · exact .inl (by rw [none]; rfl)
    · exact .inr (ended.getLast?_join none)
  rw [lastLine_append whole, lastLine_of_noFeed noFeed]

theorem count_feed_text {l : Line} (whole : l.IsWhole) (ended : l.ending ≠ .none) :
    l.text.count '\n' = 1 := by
  rw [whole.count_feed]
  cases ending : l.ending with
  | none => exact (ended ending).elim
  | lf | crlf => rfl

/-- The number of the line behind lines that have their endings. -/
theorem lineCount_join_append {ls : List Line} (whole : Line.AreLines ls)
    (ended : Line.AllEnded ls) {t : Text} (noFeed : '\n' ∉ t) :
    lineCount (Line.join ls ++ t) = ls.length + 1 := by
  have feeds : (Line.join ls).count '\n' = ls.length := by
    induction ls with
    | nil => rfl
    | cons l ls ih =>
      obtain ⟨first, rest⟩ := List.forall_mem_cons.1 ended
      rw [Line.join_cons, List.count_append, count_feed_text whole.1 first, ih whole.2.2 rest,
        List.length_cons, Nat.add_comm]
  rw [lineCount, List.count_append, feeds, List.count_eq_zero.2 noFeed]

end Text

/-- A text without line feeds goes on with the last line of what stands before it. -/
theorem Text.lastLine_append_of_noFeed {u : Text} (noFeed : '\n' ∉ u) (t : Text) :
    lastLine (t ++ u) = lastLine t ++ u := by
  induction t with
  | nil => exact lastLine_of_noFeed noFeed
  | cons c t ih =>
    by_cases feed : '\n' ∈ t
    · simp [lastLine, feed, ih]
    · by_cases first : c = '\n'
      · simp [lastLine, feed, noFeed, first]
      · simp [lastLine, feed, noFeed, first]

namespace Position

/-- A position is the one right behind a text. -/
def IsBehind (p : Position) (before : Text) : Prop :=
  p.line = before.lineCount ∧ p.column = before.lastLine.length + 1

/-- A position stands before another one: on a line above, or further left on the same line. -/
def Before (p q : Position) : Prop :=
  p.line < q.line ∨ p.line = q.line ∧ p.column < q.column

theorem Before.trans {p q r : Position} (first : p.Before q) (second : q.Before r) : p.Before r := by
  unfold Before at *
  omega

/-- **Characters further behind have later positions.** -/
theorem before_ofIndex {t : Text} {i j : Nat} (earlier : i < j) (inside : j ≤ t.length) :
    (ofIndex t i).Before (ofIndex t j) := by
  obtain ⟨n, rfl⟩ := Nat.exists_eq_add_of_le (Nat.le_of_lt earlier)
  have cut : t.take (i + n) = t.take i ++ (t.drop i).take n := List.take_add
  have filled : 0 < ((t.drop i).take n).length := by
    rw [List.length_take, List.length_drop]
    omega
  rw [ofIndex, ofIndex, cut, behind, behind, Before]
  by_cases feed : '\n' ∈ (t.drop i).take n
  · -- A line ends between the two.
    left
    have feeds := List.count_pos_iff.2 feed
    simp only [Text.lineCount, List.count_append]
    omega
  · right
    constructor
    · simp only [Text.lineCount, List.count_append, List.count_eq_zero.2 feed, Nat.add_zero]
    · simp only [Text.lastLine_append_of_noFeed feed, List.length_append]
      omega

end Position

/-! ## Byte offsets -/

namespace Text

theorem byteLength_append (t u : Text) : byteLength (t ++ u) = byteLength t + byteLength u :=
  total_append Char.utf8Size t u

theorem byteLength_eq_zero_iff {t : Text} : byteLength t = 0 ↔ t = [] := by
  cases t with
  | nil => simp [byteLength]
  | cons c t =>
    have := c.utf8Size_pos
    simp only [byteLength, total_cons, reduceCtorEq, iff_false]
    omega

/-- Two starts of a text with as many bytes are the same. -/
theorem eq_of_byteLength_eq {t u v w : Text} (same : t ++ v = u ++ w)
    (bytes : byteLength t = byteLength u) : t = u := by
  rcases List.append_eq_append_iff.1 same with ⟨r, rfl, -⟩ | ⟨r, rfl, -⟩
  all_goals
    rw [byteLength_append] at bytes
    have empty : r = [] := byteLength_eq_zero_iff.1 (by omega)
    rw [empty, List.append_nil]

/-- A byte offset where a character begins, or where the text ends. -/
def IsBoundary (t : Text) (offset : Nat) : Prop :=
  ∃ before rest, t = before ++ rest ∧ offset = byteLength before

theorem charsBefore_zero (t : Text) : charsBefore 0 t = 0 := by
  cases t with
  | nil => rfl
  | cons c t =>
    have := c.utf8Size_pos
    rw [charsBefore, if_neg (by omega)]

/-- The characters before an offset behind the start of a text. -/
theorem charsBefore_append (before rest : Text) (n : Nat) :
    charsBefore (byteLength before + n) (before ++ rest) = before.length + charsBefore n rest := by
  induction before with
  | nil => simp [byteLength]
  | cons c before ih =>
    have bytes : byteLength (c :: before) + n = c.utf8Size + (byteLength before + n) := by
      simp only [byteLength, total_cons]
      omega
    rw [List.cons_append, charsBefore, bytes, if_pos (Nat.le_add_right _ _), Nat.add_sub_cancel_left,
      ih, List.length_cons]
    omega

end Text

namespace Position

/-- A position behind the start of a text does not depend on the rest. -/
theorem atByte_append (before rest : Text) :
    atByte (before ++ rest) before.byteLength = behind before := by
  have chars := Text.charsBefore_append before rest 0
  rw [Nat.add_zero, Text.charsBefore_zero, Nat.add_zero] at chars
  rw [atByte, chars, ofIndex, List.take_left]

/-- An offset behind the end has the position of the end. -/
theorem atByte_of_le {t : Text} {offset : Nat} (past : t.byteLength ≤ offset) :
    atByte t offset = behind t := by
  obtain ⟨n, rfl⟩ := Nat.exists_eq_add_of_le past
  have chars := Text.charsBefore_append t [] n
  rw [List.append_nil] at chars
  rw [atByte, chars, ofIndex, List.take_of_length_le (Nat.le_add_right _ _)]

/-- **Columns are counted from the start of the line**, one for each character. -/
theorem behind_append {above inside : Text} (starts : above = [] ∨ above.getLast? = some '\n')
    (noFeed : '\n' ∉ inside) :
    behind (above ++ inside) = ⟨none, above.lineCount, inside.length + 1⟩ := by
  have line : (above ++ inside).lineCount = above.lineCount := by
    rw [Text.lineCount, Text.lineCount, List.count_append, List.count_eq_zero.2 noFeed, Nat.add_zero]
  rw [behind, line, Text.lastLine_append starts, Text.lastLine_of_noFeed noFeed]

theorem not_before_self (p : Position) : ¬ p.Before p := by
  unfold Before
  omega

/-- **Offsets further behind have later positions.** -/
theorem before_atByte {t : Text} {m n : Nat} (left : t.IsBoundary m) (right : t.IsBoundary n)
    (earlier : m < n) : (atByte t m).Before (atByte t n) := by
  obtain ⟨a, v, rfl, rfl⟩ := left
  obtain ⟨b, w, parts, rfl⟩ := right
  have longer : a.length < b.length := by
    refine Nat.lt_of_not_le fun short => ?_
    obtain ⟨r, rfl⟩ : b <+: a := List.prefix_of_prefix_length_le ⟨w, parts.symm⟩ ⟨v, rfl⟩ short
    rw [Text.byteLength_append] at earlier
    omega
  have order := before_ofIndex (t := a ++ v) longer (by rw [parts]; simp)
  rw [ofIndex, ofIndex, List.take_left, parts, List.take_left] at order
  rw [atByte_append, parts, atByte_append]
  exact order

theorem before_atByte_iff {t : Text} {m n : Nat} (left : t.IsBoundary m) (right : t.IsBoundary n) :
    (atByte t m).Before (atByte t n) ↔ m < n := by
  refine ⟨fun before => ?_, before_atByte left right⟩
  rcases Nat.lt_trichotomy m n with earlier | rfl | later
  · exact earlier
  · exact (not_before_self _ before).elim
  · exact (not_before_self _ (before.trans (before_atByte right left later))).elim

/-- Different offsets have different positions. -/
theorem atByte_inj {t : Text} {m n : Nat} (left : t.IsBoundary m) (right : t.IsBoundary n) :
    atByte t m = atByte t n ↔ m = n := by
  refine ⟨fun same => ?_, fun same => same ▸ rfl⟩
  have forth := before_atByte_iff left right
  have back := before_atByte_iff right left
  rw [same, iff_false_left (not_before_self _)] at forth back
  omega

/-- **Positions are faithful.**  Of two byte offsets between characters, the one further behind has the
later position, so no two of them share one.  The line is the one that the offset stands on, and the
column is counted in characters, from 1 at the start of the line.  Offsets behind the end of the text
have the position of the end. -/
theorem atByte_faithful (t : Text) :
    (∀ m n, t.IsBoundary m → t.IsBoundary n →
      ((atByte t m).Before (atByte t n) ↔ m < n) ∧ (atByte t m = atByte t n ↔ m = n)) ∧
      (∀ n, (atByte t n).line = t.lineAt n) ∧
      (∀ above inside rest, t = above ++ inside ++ rest →
        (above = [] ∨ above.getLast? = some '\n') → '\n' ∉ inside →
          atByte t (above ++ inside).byteLength = ⟨none, above.lineCount, inside.length + 1⟩) ∧
      ∀ n, t.byteLength ≤ n → atByte t n = atByte t t.byteLength := by
  refine ⟨?_, fun n => rfl, ?_, ?_⟩
  · intro m n left right
    exact ⟨before_atByte_iff left right, atByte_inj left right⟩
  · intro above inside rest parts starts noFeed
    rw [parts, atByte_append, behind_append starts noFeed]
  · intro n past
    rw [atByte_of_le past, atByte_of_le (Nat.le_refl _)]

/-- A character of two bytes, right at and right behind a line feed, at the end, and behind it. -/
example : [0, 2, 3, 4, 9].map (atByte "ä\nb".toList) =
    [⟨none, 1, 1⟩, ⟨none, 1, 2⟩, ⟨none, 2, 1⟩, ⟨none, 2, 2⟩, ⟨none, 2, 2⟩] := by
  decide +kernel

end Position
end MdxPress
