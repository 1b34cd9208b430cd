import Mathlib.Data.List.Basic
import MdxPress.Proofs.Position
import MdxPress.Proofs.Text.Case

/-!
The edges of a place in a text.  The line that it stands on: what the text before the place has of it,
`Text.lastLine`, and what the text behind the place has of it, `Text.firstLine`.  What a reader leaves
there: the rest of the text, behind what it took.

* `Text.exists_lastLine` and `Text.exists_firstLine` take the two off;
* `Text.exists_line_of_noFeed` reads a line that was put together;
* `Text.exists_seek` and `Text.exists_dropWord?` cut a text where a reader found something;
* `Text.exists_inside` says with which character a reading ended.
-/

namespace MdxPress.Text

/-- The part of the first line of a text that the text holds, with its line feed. -/
def firstLine : Text → Text
  | [] => []
  | c :: r => if c = '\n' then [c] else c :: firstLine r

/-- A text behind which a new line begins. -/
def EndsLine (t : Text) : Prop :=
  t = [] ∨ t.getLast? = some '\n'

theorem EndsLine.allEnded {t : Text} (ends : t.EndsLine) : Line.AllEnded t.lines := by
  rcases ends with rfl | feed
  · exact nofun
  · exact allEnded_lines feed

theorem EndsLine.of_append {t u : Text} (ends : EndsLine (t ++ u)) (filled : u ≠ []) :
    u.getLast? = some '\n' := by
  rcases ends with empty | feed
  · exact (filled (List.append_eq_nil_iff.1 empty).2).elim
  · rwa [List.getLast?_append_of_ne_nil t filled] at feed

theorem EndsLine.append {t u : Text} (left : t.EndsLine) (right : u.EndsLine) : EndsLine (t ++ u) := by
  rcases right with rfl | feed
  · simpa using left
  · exact .inr (by simp [List.getLast?_append, feed])

theorem endsLine_append_feed (t : Text) : EndsLine (t ++ ['\n']) :=
  .inr List.getLast?_concat

/-- Lines that all have an ending put together end a line. -/
theorem endsLine_of_allEnded {t : Text} (ended : Line.AllEnded t.lines) : t.EndsLine := by
  by_cases none : t.lines = []
  · refine .inl ?_
    rw [← join_lines t, none]
    rfl
  · exact .inr (join_lines t ▸ ended.getLast?_join none)

theorem lastLine_noFeed (t : Text) : '\n' ∉ t.lastLine := by
  induction t with
  | nil => exact nofun
  | cons c r ih =>
    rw [lastLine]
    split
    case isTrue => exact ih
    case isFalse outside =>
      have noFeed : '\n' ∉ r := by simpa using outside
      split
      case isTrue => exact noFeed
      case isFalse other => simpa using ⟨Ne.symm other, noFeed⟩

/-- Whole lines, and what stands on the last line. -/
theorem exists_lastLine (t : Text) : ∃ above : Text, t = above ++ t.lastLine ∧ above.EndsLine := by
  induction t with
  | nil => exact ⟨[], rfl, .inl rfl⟩
  | cons c r ih =>
    by_cases later : '\n' ∈ r
    · obtain ⟨above, same, ends⟩ := ih
      have line : lastLine (c :: r) = lastLine r := by simp [lastLine, later]
      have filled : above ≠ [] := by
        rintro rfl
        rw [List.nil_append] at same
        exact lastLine_noFeed r (same ▸ later)
      refine ⟨c :: above, by rw [line, List.cons_append, ← same], .inr ?_⟩
      rw [List.getLast?_cons_of_ne_nil filled]
      exact ends.resolve_left filled
    · by_cases here : c = '\n'
      · exact ⟨['\n'], by simp [lastLine, later, here], .inr rfl⟩
      · exact ⟨[], by simp [lastLine, later, here], .inl rfl⟩

/-- What stands on the first line, and what stands behind it. -/
theorem exists_firstLine (t : Text) :
    ∃ rest, t = t.firstLine ++ rest ∧
      ((rest = [] ∧ '\n' ∉ t) ∨ ∃ w, t.firstLine = w ++ ['\n'] ∧ '\n' ∉ w) := by
  induction t with
  | nil => exact ⟨[], rfl, .inl ⟨rfl, nofun⟩⟩
  | cons c r ih =>
    by_cases feed : c = '\n'
    · subst feed
      exact ⟨r, by simp [firstLine], .inr ⟨[], by simp [firstLine], nofun⟩⟩
    · obtain ⟨rest, same, ends⟩ := ih
      refine ⟨rest, by simp [firstLine, feed, ← same], ?_⟩
      rcases ends with ⟨rfl, noFeed⟩ | ⟨w, line, noFeed⟩
      · exact .inl ⟨rfl, by simpa using ⟨Ne.symm feed, noFeed⟩⟩
      · exact .inr ⟨c :: w, by simp [firstLine, feed, line], by simpa using ⟨Ne.symm feed, noFeed⟩⟩

theorem firstLine_of_noFeed {t : Text} (noFeed : '\n' ∉ t) (u : Text) :
    firstLine (t ++ u) = t ++ firstLine u := by
  induction t with
  | nil => rfl
  | cons c t ih =>
    obtain ⟨first, rest⟩ := not_or.1 (mt List.mem_cons.2 noFeed)
    simp [firstLine, Ne.symm first, ih rest]

/-- What follows a line feed does not change the first line. -/
theorem firstLine_append_of_feed {t : Text} (feed : '\n' ∈ t) (u : Text) :
    firstLine (t ++ u) = firstLine t := by
  obtain ⟨w, r, rfl, noFeed⟩ := List.eq_append_cons_of_mem feed
  rw [List.append_assoc, firstLine_of_noFeed noFeed, firstLine_of_noFeed noFeed]
  rfl

theorem lastLine_append_of_feed {u : Text} (feed : '\n' ∈ u) (t : Text) :
    lastLine (t ++ u) = lastLine u := by
  obtain ⟨w, r, rfl⟩ := List.append_of_mem feed
  rw [← List.append_assoc, lastLine_append_feed, lastLine_append_feed]

/-- A line that was put together, with or without its line feed. -/
theorem exists_line_of_noFeed {w e : Text} (noFeed : '\n' ∉ w) (ends : e = [] ∧ w ≠ [] ∨ e = ['\n']) :
    ∃ l : Line, (w ++ e).lines = [l] ∧ l.text = w ++ e := by
  have text {l : Line} (lines : (w ++ e).lines = [l]) : l.text = w ++ e := by
    rw [← join_lines (w ++ e), lines]
    simp [Line.join]
  rcases ends with ⟨rfl, filled⟩ | rfl
  · have lines : (w ++ []).lines = [⟨w, .none⟩] := by
      rw [List.append_nil, lines_of_noFeed filled noFeed]
    exact ⟨_, lines, text lines⟩
  · by_cases last : w.getLast? = some '\r'
    · obtain ⟨v, rfl⟩ := List.getLast?_eq_some_iff.1 last
      have lines : lines (v ++ ['\r'] ++ ['\n']) = [⟨v, .crlf⟩] := by
        rw [List.append_assoc]
        exact lines_append_crlf [] fun mem => noFeed (List.mem_append_left _ mem)
      exact ⟨_, lines, text lines⟩
    · have lines : (w ++ ['\n']).lines = [⟨w, .lf⟩] := lines_append_lf [] noFeed last
      exact ⟨_, lines, text lines⟩

/-! ## What a reader leaves -/

theorem exists_seek {α : Type} {reader : Text → Option α} {t : Text} {p : Text × α}
    (found : seek reader t = some p) : ∃ u, t = p.1 ++ u ∧ reader u = some p.2 := by
  induction t generalizing p with
  | nil =>
    obtain ⟨a, reads, rfl⟩ := Option.map_eq_some_iff.1 found
    exact ⟨[], rfl, reads⟩
  | cons c r ih =>
    rw [seek] at found
    split at found
    case h_1 a reads => cases found; exact ⟨c :: r, rfl, reads⟩
    case h_2 =>
      obtain ⟨q, later, rfl⟩ := Option.map_eq_some_iff.1 found
      obtain ⟨u, cut, reads⟩ := ih later
      exact ⟨u, by rw [cut]; rfl, reads⟩

/-- What follows a word stands behind it, and behind its last character if that is no letter. -/
theorem exists_dropWord? {word t rest : Text} (reads : dropWord? word t = some rest) :
    ∃ v, t = v ++ rest ∧ v.length = word.length ∧
      (word.getLast? = some '>' → v.getLast? = some '>') := by
  induction word generalizing t with
  | nil => cases reads; exact ⟨[], rfl, rfl, nofun⟩
  | cons l word ih =>
    cases t with
    | nil => cases reads
    | cons c r =>
      rw [dropWord?] at reads
      split at reads
      case isFalse => cases reads
      case isTrue same =>
        obtain ⟨v, rfl, length, last⟩ := ih reads
        refine ⟨c :: v, rfl, by simp [length], fun ends => ?_⟩
        cases word with
        | nil =>
          obtain rfl : v = [] := List.length_eq_zero_iff.1 length
          obtain rfl : l = '>' := by simpa using ends
          have lower : c.toLower = '>' := by simpa [sameLetter] using same
          rcases toLower_cases c with kept | letter
          · rw [← kept, lower]
            rfl
          · rw [lower] at letter
            exact absurd letter (by decide)
        | cons d word =>
          have filled : v ≠ [] := by rintro rfl; simp at length
          rw [List.getLast?_cons_of_ne_nil (by simp)] at ends
          rw [List.getLast?_cons_of_ne_nil filled]
          exact last ends

theorem dropWord?_suffix {word t rest : Text} (reads : dropWord? word t = some rest) : rest <:+ t := by
  obtain ⟨v, rfl, -⟩ := exists_dropWord? reads
  exact List.suffix_append v rest

/-- A reading that ended with the `>` of a word took that character last. -/
theorem exists_inside {word t u rest : Text} (part : u <:+ t) (reads : dropWord? word u = some rest)
    (ends : word.getLast? = some '>') : ∃ inside, t = inside ++ '>' :: rest := by
  obtain ⟨before, rfl⟩ := part
  obtain ⟨v, rfl, -, last⟩ := exists_dropWord? reads
  obtain ⟨w, rfl⟩ := List.getLast?_eq_some_iff.1 (last ends)
  exact ⟨before ++ w, by simp⟩

end MdxPress.Text
