import MdxPress.Page.Lead
import MdxPress.Proofs.Text.Blank
import MdxPress.Proofs.Text.Line
import MdxPress.Proofs.Text.Part
import MdxPress.Proofs.Text.ShownLines

/-!
Cutting a page loses nothing, and a page that opens with a delimiter is never taken for one without
a header.  What counts is the first line behind the byte order mark and blank lines, and whether a later
line closes what it opens.

* `HeaderBlock.find_eq_some_iff` is the header of a page by its lines;
* `HeaderBlock.raw_append_body` puts the two parts of a cut page together again, and
  `HeaderBlock.find_raw_append` finds the header in front of another body;
* `HeaderBlock.find_opened` reads the delimiter on the first line, `HeaderBlock.find_between` the header;
* `HeaderBlock.behind` is a page without its header;
* `HeaderBlock.find_answers` is the result, for all three answers and for the header that is found.
-/

namespace MdxPress

namespace HeaderBlock

/-! ## The parts of a cut page -/

theorem splitMark_append (page : Text) : (splitMark page).1 ++ (splitMark page).2 = page := by
  cases page with
  | nil => rfl
  | cons c r =>
    by_cases mark : c = byteOrderMark <;> simp [splitMark, mark]

/-- What stands behind the mark begins a page that is cut at the same place. -/
theorem splitMark_of_append {page a u : Text} (cut : (splitMark page).2 = a ++ u) (filled : a ≠ [])
    (t : Text) : splitMark ((splitMark page).1 ++ (a ++ t)) = ((splitMark page).1, a ++ t) := by
  cases page with
  | nil =>
    obtain rfl := (List.append_eq_nil_iff.1 cut.symm).1
    exact (filled rfl).elim
  | cons c r =>
    by_cases mark : c = byteOrderMark
    · simp [splitMark, mark]
    · obtain ⟨d, a, rfl⟩ := List.exists_cons_of_ne_nil filled
      simp only [splitMark, mark, if_false, List.cons_append, List.cons.injEq] at cut
      simp [splitMark, ← cut.1, mark]

theorem isBlank_of_isDelimiter {l : Line} (delimits : isDelimiter l = true) : l.isBlank = false := by
  refine Bool.eq_false_iff.2 fun blank => ?_
  have trimmed : l.content.trim = [] := Text.trim_of_allBlank blank
  rw [Text.trim, beq_iff_eq.1 delimits] at trimmed
  exact absurd trimmed (by decide)

/-- The lines of a header: blank lines, a delimiter, lines that are none, and a delimiter. -/
structure Delimited (blanks : List Line) (opener : Line) (inner : List Line) (closer : Line) :
    Prop where
  blank : ∀ l ∈ blanks, l.isBlank = true
  opens : isDelimiter opener = true
  inside : ∀ l ∈ inner, isDelimiter l = false
  closes : isDelimiter closer = true

theorem ofLines_eq_ok_iff {before : Text} {ls : List Line} {b : HeaderBlock} :
    ofLines before ls = .ok b ↔ ∃ inner closer behind,
      (∀ l ∈ inner, isDelimiter l = false) ∧ isDelimiter closer = true ∧
        ls = inner ++ closer :: behind ∧
        b = ⟨before ++ Line.join inner ++ closer.text, (Line.join inner).dropBreaksEnd,
          Line.join behind⟩ := by
  constructor
  · intro cut
    obtain ⟨inner, rest, first, last, whole, inside, stops⟩ := Text.exists_cut_of_fails (!isDelimiter ·) ls
    simp only [ofLines, first, last] at cut
    cases rest with
    | nil => cases cut
    | cons closer behind =>
      cases cut
      exact ⟨inner, closer, behind, by simpa using inside, by simpa using stops closer rfl, whole, rfl⟩
  · rintro ⟨inner, closer, behind, inside, closes, rfl, rfl⟩
    have all : ∀ l ∈ inner, (!isDelimiter l) = true := fun l mem => by simp [inside l mem]
    have stops : (!isDelimiter closer) = false := by simp [closes]
    obtain ⟨first, last⟩ := Text.cut_of_fails all stops behind
    rw [ofLines, first, last]

theorem ofLines_of_map_some {before : Text} {ls : List Line} {b : HeaderBlock}
    (cut : (ofLines before ls).map some = .ok (some b)) : ofLines before ls = .ok b := by
  cases result : ofLines before ls with
  | error e => rw [result] at cut; cases cut
  | ok block => rw [result] at cut; cases cut; rfl

/-- **The header of a page by its lines.** -/
theorem find_eq_some_iff {page : Text} {b : HeaderBlock} :
    find page = .ok (some b) ↔ ∃ blanks opener inner closer behind,
      Delimited blanks opener inner closer ∧
        (splitMark page).2.lines = (blanks ++ opener :: (inner ++ [closer])) ++ behind ∧
        b = ⟨(splitMark page).1 ++ Line.join (blanks ++ opener :: (inner ++ [closer])),
          (Line.join inner).dropBreaksEnd, Line.join behind⟩ := by
  constructor
  · intro found
    obtain ⟨blanks, rest, first, last, whole, blank, -⟩ :=
      Text.exists_cut_of_fails Line.isBlank (splitMark page).2.lines
    simp only [find, first, last] at found
    cases rest with
    | nil => cases found
    | cons opener later =>
      dsimp only at found
      split at found
      case isFalse => cases found
      case isTrue opens =>
        obtain ⟨inner, closer, body, inside, closes, rfl, rfl⟩ :=
          ofLines_eq_ok_iff.1 (ofLines_of_map_some found)
        exact ⟨blanks, opener, inner, closer, body, ⟨blank, opens, inside, closes⟩,
          whole.trans (by simp), by simp⟩
  · rintro ⟨blanks, opener, inner, closer, behind, delimited, lines, rfl⟩
    have cut : (splitMark page).2.lines = blanks ++ opener :: (inner ++ closer :: behind) := by
      simp [lines]
    obtain ⟨first, last⟩ := Text.cut_of_fails delimited.blank (isBlank_of_isDelimiter delimited.opens)
      (inner ++ closer :: behind)
    rw [← cut] at first last
    have block : ofLines ((splitMark page).1 ++ Line.join blanks ++ opener.text)
        (inner ++ closer :: behind) = .ok _ :=
      ofLines_eq_ok_iff.2 ⟨inner, closer, behind, delimited.inside, delimited.closes, rfl, rfl⟩
    simp only [find, first, last, delimited.opens, if_true, block]
    simp [Except.map]

/-- The header of a page, with all that precedes it, and its body are the page. -/
theorem raw_append_body {page : Text} {b : HeaderBlock} (found : find page = .ok (some b)) :
    b.raw ++ b.body = page := by
  obtain ⟨blanks, opener, inner, closer, behind, -, lines, rfl⟩ := find_eq_some_iff.1 found
  rw [List.append_assoc, ← Line.join_append, ← lines, Text.join_lines, splitMark_append]

/-! ## Headers with another body -/

/-- The line that closes a header has an ending, or nothing stands behind it. -/
theorem getLast?_raw_or_body_eq_nil {page : Text} {b : HeaderBlock}
    (found : find page = .ok (some b)) : b.raw.getLast? = some '\n' ∨ b.body = [] := by
  obtain ⟨blanks, opener, inner, closer, behind, -, lines, rfl⟩ := find_eq_some_iff.1 found
  have whole := lines ▸ Text.areLines_lines (splitMark page).2
  refine whole.allEnded_or_eq_nil.imp (fun ended => ?_) fun empty => by rw [empty]; rfl
  rw [List.getLast?_append, ended.getLast?_join (by simp)]
  rfl

/-- **A header whose last line has an ending is found again in front of any other body.** -/
theorem find_raw_append {page : Text} {b : HeaderBlock} (found : find page = .ok (some b))
    (feed : b.raw.getLast? = some '\n') (t : Text) :
    find (b.raw ++ t) = .ok (some ⟨b.raw, b.yaml, t⟩) := by
  obtain ⟨blanks, opener, inner, closer, behind, delimited, lines, rfl⟩ := find_eq_some_iff.1 found
  generalize head : blanks ++ opener :: (inner ++ [closer]) = ls at lines feed ⊢
  have filled : Line.join ls ≠ [] := by
    have visible : opener.text ≠ [] := fun empty => by
      have blank := isBlank_of_isDelimiter delimited.opens
      rw [Line.isBlank, (List.append_eq_nil_iff.1 empty).1] at blank
      cases blank
    simp [← head, visible]
  have whole : Line.AreLines ls :=
    (lines ▸ Text.areLines_lines (splitMark page).2).sublist (List.sublist_append_left ls behind)
  have ended : Line.AllEnded ls := by
    rw [← Text.lines_join whole]
    refine Text.allEnded_lines ?_
    rw [List.getLast?_append] at feed
    cases last : (Line.join ls).getLast? with
    | none => exact (filled (List.getLast?_eq_none_iff.1 last)).elim
    | some c => simpa [last] using feed
  have cut : (splitMark page).2 = Line.join ls ++ Line.join behind := by
    rw [← Line.join_append, ← lines, Text.join_lines]
  have same := splitMark_of_append cut filled t
  refine find_eq_some_iff.2 ⟨blanks, opener, inner, closer, t.lines, delimited, ?_, ?_⟩
  · rw [List.append_assoc, same, Text.lines_append ?_, Text.lines_join whole, head]
    rwa [Text.lines_join whole]
  · rw [List.append_assoc, same, head, Text.join_lines]

/-- A page without its header. -/
def behind (page : Text) : Text :=
  match find page with
  | .ok (some b) => b.body
  | _ => page

/-! ## Pages that open with a delimiter -/

/-- The lines of a page whose first line is a delimiter. -/
theorem lines_opened (t : Text) :
    Text.lines ("---\n".toList ++ t) = ⟨"---".toList, .lf⟩ :: t.lines := by
  have cut : "---\n".toList ++ t = "---".toList ++ '\n' :: t := rfl
  rw [cut]
  exact Text.lines_append_lf t (by decide) (by decide)

theorem find_opened (t : Text) :
    find ("---\n".toList ++ t) = (ofLines "---\n".toList t.lines).map some := by
  have noMark : splitMark ("---\n".toList ++ t) = ([], "---\n".toList ++ t) := by
    simp [splitMark, byteOrderMark]
  have filled : Line.isBlank ⟨"---".toList, .lf⟩ = false := by decide
  have opens : isDelimiter ⟨"---".toList, .lf⟩ = true := by decide
  simp only [find, noMark, lines_opened, List.dropWhile_cons, List.takeWhile_cons, filled, opens,
    Bool.false_eq_true, if_false, if_true]
  rfl

/-- Lines between two delimiters are the header of a page, if none of them is a delimiter. -/
theorem find_between {inner : Text} (ended : Line.AllEnded inner.lines)
    (inside : ∀ l ∈ inner.lines, isDelimiter l = false) (body : Text) :
    find ("---\n".toList ++ (inner ++ ("---\n".toList ++ body))) =
      .ok (some ⟨"---\n".toList ++ inner ++ "---\n".toList, inner.dropBreaksEnd, body⟩) := by
  have cut : ofLines "---\n".toList (inner ++ ("---\n".toList ++ body)).lines =
      .ok ⟨"---\n".toList ++ inner ++ "---\n".toList, inner.dropBreaksEnd, body⟩ := by
    refine ofLines_eq_ok_iff.2 ⟨inner.lines, ⟨"---".toList, .lf⟩, body.lines, inside, by decide, ?_, ?_⟩
    · rw [Text.lines_append ended, lines_opened]
    · rw [Text.join_lines, Text.join_lines]
      rfl
  rw [find_opened, cut]
  rfl

/-- A page that opens with a delimiter has a header, or one that is not closed. -/
theorem find_opened_ne_none (t : Text) : find ("---\n".toList ++ t) ≠ .ok none := by
  rw [find_opened]
  cases ofLines "---\n".toList t.lines <;> simp [Except.map]

/-! ## Delimiters -/

theorem isDelimiter_congr {l k : Line} (same : k.content.trimEnd = l.content.trimEnd) :
    isDelimiter k = isDelimiter l := by
  rw [isDelimiter, same, isDelimiter]

/-- Blanks at the end of a text make no delimiter, nor do they hide one. -/
theorem isDelimiter_lines_append_blank (t : Text) {blanks : Text} (blank : ∀ c ∈ blanks, isBlank c = true) :
    (∀ l ∈ (t ++ blanks).lines, isDelimiter l = false) ↔ ∀ l ∈ t.lines, isDelimiter l = false := by
  obtain ⟨ls, ms, lines, same, gone⟩ := Text.exists_lines_append_blank t blank
  have none : ∀ m ∈ ms, isDelimiter m = false := fun m mem => by
    refine Bool.eq_false_iff.2 fun delimits => ?_
    have shown := isBlank_of_isDelimiter delimits
    rw [gone m mem] at shown
    cases shown
  rw [lines, List.forall_mem_append, and_iff_left none]
  clear lines
  generalize t.lines = ks at same
  induction same with
  | nil => rfl
  | cons first _ ih =>
    rw [List.forall_mem_cons, List.forall_mem_cons, isDelimiter_congr first]
    exact and_congr_right' ih

/-! ## The three answers -/

/-- The lines of a page behind its byte order mark and the blank lines there. -/
def remaining (page : Text) : List Line :=
  (splitMark page).2.lines.dropWhile Line.isBlank

theorem ofLines_eq_error_iff {before : Text} {ls : List Line} {e : HeaderError} :
    ofLines before ls = .error e ↔ e = .unterminated ∧ ∀ l ∈ ls, isDelimiter l = false := by
  have open_ : ls.dropWhile (!isDelimiter ·) = [] ↔ ∀ l ∈ ls, isDelimiter l = false := by
    simp [List.dropWhile_eq_nil_iff]
  rw [ofLines, ← open_]
  cases ls.dropWhile (!isDelimiter ·) with
  | nil => simp [eq_comm]
  | cons closer behind => simp

/-- **The three answers**: no header where the first line is no delimiter, an unterminated one where no
later line is, and a header else. -/
theorem find_cases (page : Text) :
    (find page = .ok none ∧ ∀ opener ∈ (remaining page).head?, isDelimiter opener = false) ∨
      ∃ opener later, remaining page = opener :: later ∧ isDelimiter opener = true ∧
        ((find page = .error .unterminated ∧ ∀ l ∈ later, isDelimiter l = false) ∨
          ((∃ b, find page = .ok (some b)) ∧ ∃ l ∈ later, isDelimiter l = true)) := by
  rw [find, remaining]
  dsimp only
  cases (splitMark page).2.lines.dropWhile Line.isBlank with
  | nil => exact .inl ⟨rfl, nofun⟩
  | cons opener later =>
    dsimp only
    cases opens : isDelimiter opener with
    | false => exact .inl ⟨rfl, by simpa using opens⟩
    | true =>
      refine .inr ⟨opener, later, rfl, opens, ?_⟩
      rw [if_pos rfl]
      cases cut : ofLines _ later with
      | error e =>
        obtain ⟨rfl, open_⟩ := ofLines_eq_error_iff.1 cut
        exact .inl ⟨rfl, open_⟩
      | ok b =>
        obtain ⟨inner, closer, behind, -, closes, rfl, -⟩ := ofLines_eq_ok_iff.1 cut
        exact .inr ⟨⟨b, rfl⟩, closer, by simp, closes⟩

/-- Each answer by the lines that give it. -/
theorem find_iff (page : Text) :
    ((∃ b, find page = .ok (some b)) ↔ ∃ opener later, remaining page = opener :: later ∧
        isDelimiter opener = true ∧ ∃ l ∈ later, isDelimiter l = true) ∧
      (find page = .error .unterminated ↔ ∃ opener later, remaining page = opener :: later ∧
        isDelimiter opener = true ∧ ∀ l ∈ later, isDelimiter l = false) ∧
      (find page = .ok none ↔ ∀ opener ∈ (remaining page).head?, isDelimiter opener = false) := by
  have answers := find_cases page
  generalize find page = answer at answers
  generalize remaining page = ls at answers
  obtain ⟨rfl, plain⟩ | ⟨opener, later, rfl, opens, ⟨rfl, open_⟩ | ⟨⟨b, rfl⟩, l, mem, closes⟩⟩ := answers
  · cases ls with
    | nil => simp
    | cons opener later => simp [plain opener rfl]
  · simpa [opens] using open_
  · have closed : ∃ l ∈ later, isDelimiter l = true := ⟨l, mem, closes⟩
    simp [opens, closed]

/-- The YAML of a header that is found holds no delimiter. -/
theorem isDelimiter_yaml {inner : List Line} (whole : Line.AreLines inner)
    (inside : ∀ l ∈ inner, isDelimiter l = false) :
    ∀ l ∈ (Line.join inner).dropBreaksEnd.lines, isDelimiter l = false := by
  obtain ⟨breaks, cut, all⟩ :=
    Text.dropEndWhile_append_mem (fun c => c = '\n' || c = '\r') (Line.join inner)
  have blank : ∀ c ∈ breaks, isBlank c = true := fun c mem => by
    have kind := all c mem
    simp only [Bool.or_eq_true, decide_eq_true_eq] at kind
    rcases kind with rfl | rfl <;> rfl
  rw [← Text.lines_join whole, cut] at inside
  exact (isDelimiter_lines_append_blank _ blank).1 inside

/-- YAML that is written between two delimiters is found again, whatever the body. -/
theorem find_written {yaml : Text} (inside : ∀ l ∈ yaml.lines, isDelimiter l = false)
    (ends : ∀ c ∈ yaml.getLast?, c ≠ '\n' ∧ c ≠ '\r') (body : Text) :
    find ("---\n".toList ++ yaml ++ "\n---\n".toList ++ body) =
      .ok (some ⟨"---\n".toList ++ yaml ++ "\n---\n".toList, yaml, body⟩) := by
  have feed : ∀ c ∈ ['\n'], isBlank c = true := by decide
  have kept : (yaml ++ ['\n']).dropBreaksEnd = yaml := by
    rw [Text.dropBreaksEnd, Text.dropEndWhile_append yaml (by decide)]
    cases last : yaml.getLast? with
    | none => rw [List.getLast?_eq_none_iff.1 last]; rfl
    | some c => exact Text.dropEndWhile_eq_self last (by simpa using ends c last)
  have found := find_between (Text.endsLine_append_feed yaml).allEnded
    ((isDelimiter_lines_append_blank yaml feed).2 inside) body
  rw [kept] at found
  simpa using found

/-- **Which pages have a header, and which header it is.**  Behind the byte order mark and blank lines, the
first line has to be a delimiter, and so has a later one; where only the latter is missing, the header is
unterminated.  The YAML is what stands between the delimiter and the first one behind it, without line
breaks at its end; it holds no delimiter, and the body begins right behind the line that closes the header.
And what is written so is read so. -/
theorem find_answers (page : Text) :
    ((∃ b, find page = .ok (some b)) ↔ ∃ opener later, remaining page = opener :: later ∧
        isDelimiter opener = true ∧ ∃ l ∈ later, isDelimiter l = true) ∧
      (find page = .error .unterminated ↔ ∃ opener later, remaining page = opener :: later ∧
        isDelimiter opener = true ∧ ∀ l ∈ later, isDelimiter l = false) ∧
      (find page = .ok none ↔ ∀ opener ∈ (remaining page).head?, isDelimiter opener = false) ∧
      (∀ b, find page = .ok (some b) → ∃ blanks opener inner closer behind,
        Delimited blanks opener inner closer ∧
        page = (splitMark page).1 ++ Line.join (blanks ++ opener :: (inner ++ closer :: behind)) ∧
        (splitMark page).2.lines = blanks ++ opener :: (inner ++ closer :: behind) ∧
        b.raw = (splitMark page).1 ++ Line.join (blanks ++ opener :: (inner ++ [closer])) ∧
        b.yaml = (Line.join inner).dropBreaksEnd ∧ (∀ l ∈ b.yaml.lines, isDelimiter l = false) ∧
        b.raw ++ b.body = page) ∧
      ∀ yaml body : Text, (∀ l ∈ yaml.lines, isDelimiter l = false) →
        (∀ c ∈ yaml.getLast?, c ≠ '\n' ∧ c ≠ '\r') →
        find ("---\n".toList ++ yaml ++ "\n---\n".toList ++ body) =
          .ok (some ⟨"---\n".toList ++ yaml ++ "\n---\n".toList, yaml, body⟩) := by
  obtain ⟨found, open_, none⟩ := find_iff page
  refine ⟨found, open_, none, fun b found => ?_, fun yaml body inside ends => find_written inside ends body⟩
  obtain ⟨blanks, opener, inner, closer, behind, delimited, lines, rfl⟩ := find_eq_some_iff.1 found
  have cut : (splitMark page).2.lines = blanks ++ opener :: (inner ++ closer :: behind) := by simp [lines]
  have whole : Line.AreLines inner := by
    refine (Text.areLines_lines (splitMark page).2).sublist ?_
    rw [cut]
    exact ((List.sublist_append_left inner _).cons opener).trans (List.sublist_append_right blanks _)
  refine ⟨blanks, opener, inner, closer, behind, delimited, ?_, cut, rfl, rfl,
    isDelimiter_yaml whole delimited.inside, raw_append_body found⟩
  rw [← cut, Text.join_lines, splitMark_append]

/-- A page with a header in which a line of three dashes stands, but with a blank before them. -/
theorem find_answers_indented :
    (∀ l ∈ Text.lines "title: A\n ---".toList, isDelimiter l = false) ∧
      (∀ c ∈ "title: A\n ---".toList.getLast?, c ≠ '\n' ∧ c ≠ '\r') ∧
      find ("---\n".toList ++ "title: A\n ---".toList ++ "\n---\n".toList ++ "# A\n".toList) =
        .ok (some ⟨"---\n".toList ++ "title: A\n ---".toList ++ "\n---\n".toList,
          "title: A\n ---".toList, "# A\n".toList⟩) := by
  have inside : ∀ l ∈ Text.lines "title: A\n ---".toList, isDelimiter l = false := by decide
  have ends : ∀ c ∈ "title: A\n ---".toList.getLast?, c ≠ '\n' ∧ c ≠ '\r' := by decide
  exact ⟨inside, ends, (find_answers "# A\n".toList).2.2.2.2 _ _ inside ends⟩

end HeaderBlock
end MdxPress
