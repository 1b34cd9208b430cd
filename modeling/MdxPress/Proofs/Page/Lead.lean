import MdxPress.Page.Lead
import MdxPress.Proofs.Fence.Breaks
import MdxPress.Proofs.Fence.Trimmed
import MdxPress.Proofs.Text.ShownLines

/-!
Paragraphs that are moved below the title of a page, and the code of the page.

* `Lead.insert_cases` tells where a paragraph goes, and `Lead.exists_codeInPlace_insert` what that does to
  the code of a body, line by line;
* `Lead.codeKept_display` and `Lead.codeKept_moved` keep the code of a page whose description is shown, and
  of one whose first paragraph is moved;
* `SplitPage.ofLead_cases` cuts a page without a header;
* `SplitPage.body_ofText_cases` tells what becomes of the body of a page, and
  `SplitPage.holdsCode_body_ofText` that its code stays in one piece and its lines stay as many.
-/

namespace MdxPress

namespace Lead

/-! ## A paragraph in a body -/

/-- **Where a paragraph goes**: before the body, or behind the first title of the body, with the line
breaks there dropped. -/
theorem insert_cases (paragraph body : Text) :
    insert paragraph body = paragraph ++ '\n' :: '\n' :: body ∨
      ∃ (above behind : Text) (title : Line), body.CutAt above title behind ∧
        insert paragraph body = above ++ (title.text ++ (if title.ending = .none then ['\n'] else []) ++
          '\n' :: (paragraph ++ '\n' :: '\n' :: behind.dropBreaks)) := by
  rw [insert]
  dsimp only
  split
  case h_1 => exact .inl (by simp)
  case h_2 title below rest =>
    have cut : body.fenced = body.fenced.takeWhile (!isTitle ·) ++ title :: below := by
      rw [← rest, List.takeWhile_append_dropWhile]
    have stops : isTitle title = true := by
      have first := List.head?_dropWhile_not (fun l => !isTitle l) body.fenced
      rw [rest] at first
      simpa using first
    simp only [isTitle, Bool.and_eq_true, Bool.not_eq_true'] at stops
    exact .inr ⟨_, _, title.line, .of_fenced cut stops.1, by simp⟩

/-- A line of prose that is given an ending is closed, and a gap. -/
theorem closed_line {l : Line} (whole : l.IsWhole) (prose : FenceOpener.ofLine? l.content = none)
    (filled : l.ending = .none → l.content ≠ []) :
    (l.text ++ (if l.ending = .none then ['\n'] else [])).Closed ∧
      (l.text ++ (if l.ending = .none then ['\n'] else [])).codeInPlace = [none] := by
  obtain ⟨k, lines, ended, plain⟩ : ∃ k : Line,
      (l.text ++ (if l.ending = .none then ['\n'] else [])).lines = [k] ∧ k.ending ≠ .none ∧
        FenceOpener.ofLine? k.content = none := by
    by_cases none_ : l.ending = .none
    · have text : l.text ++ ['\n'] = l.content ++ ['\n'] := by simp [Line.text, none_, Ending.text]
      rw [if_pos none_, text]
      by_cases last : l.content.getLast? = some '\r'
      · obtain ⟨v, same⟩ := List.getLast?_eq_some_iff.1 last
        have noFeed : '\n' ∉ v := fun mem => whole.noFeed (same ▸ List.mem_append_left _ mem)
        refine ⟨⟨v, .crlf⟩, ?_, by simp, ?_⟩
        · rw [same, List.append_assoc]
          exact Text.lines_append_crlf [] noFeed
        · rwa [same, FenceOpener.ofLine?_append_blank v (by decide)] at prose
      · exact ⟨⟨l.content, .lf⟩, Text.lines_append_lf [] whole.noFeed last, by simp, prose⟩
    · rw [if_neg none_, List.append_nil]
      exact ⟨l, Text.lines_text whole filled, none_, prose⟩
  refine ⟨⟨?_, ?_⟩, ?_⟩
  · rw [lines]
    simpa [Line.AllEnded] using ended
  · rw [lines]
    simp [FenceState.run, FenceState.next, plain]
  · rw [Text.codeInPlace, lines, fencedCode_of_prose plain]
    rfl

section Insert

variable {p body : Text}

/-- **The code of a body in its place, before and after a paragraph is put in**: the paragraph goes
into a gap, which may lose lines and gets some. -/
theorem exists_codeInPlace_insert (closed : (p ++ ['\n']).Closed) (shown : body.HidesNone) :
    ∃ (a b : List (Option Line)) (n k : Nat),
      body.codeInPlace = a ++ (List.replicate n none ++ b) ∧
      (insert p body).codeInPlace =
        a ++ (List.replicate k none ++ ((p ++ ['\n']).codeInPlace ++ none :: b)) ∧
      (a = [] ∨ 0 < n ∧ 0 < k) := by
  have inside (t : Text) : (p ++ '\n' :: '\n' :: t).codeInPlace =
      (p ++ ['\n']).codeInPlace ++ none :: t.codeInPlace := by
    have cut : p ++ '\n' :: '\n' :: t = (p ++ ['\n']) ++ '\n' :: t := by simp
    rw [cut, Text.codeInPlace_append closed, Text.codeInPlace_feed]
  rcases insert_cases p body with same | ⟨above, behind, title, cut, same⟩
  · exact ⟨[], body.codeInPlace, 0, 0, rfl, by rw [same, inside]; rfl, .inl rfl⟩
  · have rest : behind.HidesNone := fun l mem => shown l (by simp [cut.lines_eq, mem])
    obtain ⟨n, dropped⟩ := rest.exists_codeInPlace
    obtain ⟨line, gap⟩ := closed_line cut.isWhole cut.prose fun none_ => (cut.last none_).1
    refine ⟨above.codeInPlace, behind.dropBreaks.codeInPlace, n + 1, 2, ?_, ?_, .inr (by simp)⟩
    · rw [cut.codeInPlace_eq, dropped]
      rfl
    · rw [same, Text.codeInPlace_append cut.closed, Text.codeInPlace_append line, gap,
        Text.codeInPlace_feed, inside]
      rfl

/-- The code of a paragraph stays as it is where the paragraph is put. -/
theorem holdsCode_insert (closed : (p ++ ['\n']).Closed) (shown : body.HidesNone) :
    Text.CodeKept (p ++ ['\n']) (insert p body) := by
  intro ls holds
  obtain ⟨a, b, n, k, -, inserted, -⟩ := exists_codeInPlace_insert closed shown
  refine List.IsInfix.trans holds ⟨a ++ List.replicate k none, none :: b, ?_⟩
  rw [inserted]
  simp

/-- **The code of a body stays as it is when a paragraph is put in.** -/
theorem codeKept_insert (closed : (p ++ ['\n']).Closed) (shown : body.HidesNone) :
    Text.CodeKept body (insert p body) := by
  intro ls holds
  obtain ⟨a, b, n, k, before, inserted, gap⟩ := exists_codeInPlace_insert closed shown
  rw [Text.HoldsCode, before] at holds
  rw [Text.HoldsCode, inserted]
  have front : a <:+: a ++ (List.replicate k none ++ ((p ++ ['\n']).codeInPlace ++ none :: b)) :=
    (List.prefix_append _ _).isInfix
  have back : b <:+: a ++ (List.replicate k none ++ ((p ++ ['\n']).codeInPlace ++ none :: b)) :=
    ⟨a ++ List.replicate k none ++ (p ++ ['\n']).codeInPlace ++ [none], [], by simp⟩
  rcases gap with rfl | ⟨more, -⟩
  · exact (Text.infix_gaps n holds).trans back
  · obtain ⟨m, rfl⟩ := Nat.exists_eq_succ_of_ne_zero more.ne'
    rcases Text.infix_gap holds with here | later
    · exact here.trans front
    · exact (Text.infix_gaps m later).trans back

/-- A body shows what it showed, and the paragraph at one place among it. -/
theorem shownLines_insert (p body : Text) :
    ∃ front behind, body.shownLines = front ++ behind ∧
      (insert p body).shownLines = front ++ (p.shownLines ++ behind) := by
  have inside (t : Text) : (p ++ '\n' :: '\n' :: t).shownLines = p.shownLines ++ t.shownLines := by
    rw [Text.shownLines_feed, Text.shownLines_cons_blank rfl]
  rcases insert_cases p body with same | ⟨above, behind, title, cut, same⟩
  · exact ⟨[], body.shownLines, rfl, by rw [same, inside]; rfl⟩
  · have blank : ∀ c ∈ if title.ending = .none then ['\n'] else [], isBlank c = true := by
      split <;> simp [isBlank]
    have line : (title.text ++ (if title.ending = .none then ['\n'] else [])).shownLines =
        title.content.shown := by
      rw [Text.shownLines_append_blank _ blank, Line.text,
        Text.shownLines_append_blank _ fun c => Ending.isBlank_of_mem,
        Text.shownLines_of_noFeed cut.isWhole.noFeed]
    refine ⟨above.shownLines ++ title.content.shown, behind.shownLines, ?_, ?_⟩
    · rw [Text.shownLines_eq_flatMap, cut.lines_eq, List.flatMap_append, List.flatMap_cons,
        ← Text.shownLines_eq_flatMap, ← Text.shownLines_eq_flatMap, List.append_assoc]
    · rw [same, Text.shownLines_append cut.closed.ended, Text.shownLines_feed, line, inside,
        Text.shownLines_dropBreaks, List.append_assoc]

end Insert

/-! ## The description of a header -/

/-- The words of a text stand on one line. -/
theorem oneLine_squash (t : Text) : t.squash.OneLine := by
  have apart {c : Char} (blank : isBlank c = true) (noSpace : c ≠ ' ') : c ∉ t.squash := by
    intro mem
    rcases Text.mem_joinWith mem with space | ⟨word, isWord, inside⟩
    · exact noSpace (List.mem_singleton.1 space)
    · rw [(Text.isBlank_of_mem_words isWord).2 c inside] at blank
      cases blank
  exact ⟨apart rfl (by decide), apart rfl (by decide)⟩

/-- The code of a body stays as it is when a line is put in behind its line breaks. -/
theorem codeKept_display {d body : Text} (one : d.OneLine) (prose : FenceOpener.ofLine? d = none)
    (shown : body.HidesNone) :
    Text.CodeKept body (body.leadingBreaks ++ insert d body.dropBreaks) := by
  have closed : (d ++ ['\n']).Closed := .of_line one prose
  have line : (d ++ ['\n']).codeInPlace = [none] := by
    rw [Text.codeInPlace, one.lines_feed]
    exact fencedCode_of_prose prose _
  intro ls holds
  obtain ⟨n, dropped⟩ := shown.exists_codeInPlace
  have inside : body.dropBreaks.HoldsCode ls := by
    rw [Text.HoldsCode, dropped] at holds
    exact Text.infix_gaps n holds
  have inserted := codeKept_insert closed shown.dropBreaks ls inside
  -- The first line behind the line breaks is the one that was there, or the one that was put in.
  have uncovers : body.leadingBreaks.getLast? = some '\r' →
      ∀ l ∈ (insert d body.dropBreaks).lines.head?, FenceOpener.ofLine? l.content = none := by
    intro last
    obtain ⟨a, b, n, k, before, after, -⟩ := exists_codeInPlace_insert closed shown.dropBreaks
    have first := Text.head?_codeInPlace.2 (shown.uncovers last)
    refine Text.head?_codeInPlace.1 ?_
    rw [after, line]
    rw [before] at first
    cases a with
    | nil => cases k <;> simp [List.replicate_succ]
    | cons x a => simpa using first
  obtain ⟨m, whole⟩ := Text.exists_codeInPlace_breaks (fun c => Text.eq_break_of_mem_leadingBreaks) uncovers
  rw [Text.HoldsCode, whole]
  exact inserted.trans (List.suffix_append _ _).isInfix

/-! ## The first paragraph -/

/-- **The first paragraph** of a page by its lines: blank lines, lines that show something, and a blank line
behind them. -/
theorem firstParagraph?_eq_some_iff {page p rest : Text} :
    firstParagraph? page = some (p, rest) ↔ ∃ (blanks inner : List Line) (blank : Line) (behind : List Line),
      page.lines = blanks ++ (inner ++ blank :: behind) ∧ (∀ l ∈ blanks, l.isBlank = true) ∧ inner ≠ [] ∧
        (∀ l ∈ inner, l.isBlank = false) ∧ blank.isBlank = true ∧ p = Line.join (blanks ++ inner) ∧
        rest = Line.join behind := by
  constructor
  · intro found
    obtain ⟨blanks, behind, lead, shown, cut, isBlank, starts⟩ :=
      Text.exists_cut_of_fails Line.isBlank page.lines
    obtain ⟨inner, after, first, ends, rfl, visible, stops⟩ :=
      Text.exists_cut_of_fails (fun l : Line => !l.isBlank) behind
    simp only [firstParagraph?, lead, shown, first, ends] at found
    split at found
    case h_1 => cases found
    case h_2 blank below =>
      cases found
      have closes : blank.isBlank = true := by simpa using stops blank rfl
      refine ⟨blanks, inner, blank, below, cut, isBlank, ?_, by simpa using visible, closes, rfl, rfl⟩
      rintro rfl
      rw [starts blank rfl] at closes
      cases closes
  · rintro ⟨blanks, inner, blank, behind, cut, isBlank, filled, visible, closes, rfl, rfl⟩
    obtain ⟨l, ls, rfl⟩ := List.exists_cons_of_ne_nil filled
    have shows : ∀ k ∈ l :: ls, (!k.isBlank) = true := fun k mem => by simp [visible k mem]
    have stops : (!blank.isBlank) = false := by simp [closes]
    obtain ⟨lead, shown⟩ := Text.cut_of_fails isBlank (visible l (.head _)) (ls ++ blank :: behind)
    obtain ⟨first, ends⟩ := Text.cut_of_fails shows stops behind
    rw [← List.cons_append, ← cut] at lead shown
    simp only [firstParagraph?, lead, shown, first, ends]

/-- The lines of the first paragraph, and those of the rest. -/
theorem exists_of_firstParagraph? {page p rest : Text} (found : firstParagraph? page = some (p, rest)) :
    ∃ (ls : List Line) (l blank : Line), page.lines = p.lines ++ blank :: rest.lines ∧
      p.lines = ls ++ [l] ∧ l.isBlank = false ∧ blank.isBlank = true ∧ Line.AllEnded p.lines := by
  obtain ⟨blanks, inner, blank, behind, cut, -, filled, visible, closes, rfl, rfl⟩ :=
    firstParagraph?_eq_some_iff.1 found
  obtain ⟨ls, l, rfl⟩ := (List.eq_nil_or_concat' inner).resolve_left filled
  have whole : Line.AreLines ((blanks ++ (ls ++ [l])) ++ blank :: behind) := by
    rw [List.append_assoc, ← cut]
    exact Text.areLines_lines page
  have lines := Text.lines_join (whole.sublist (List.sublist_append_left _ _))
  have rest := Text.lines_join
    (whole.sublist ((List.sublist_cons_self _ _).trans (List.sublist_append_right _ _)))
  refine ⟨blanks ++ ls, l, blank, ?_, ?_, visible l (by simp), closes, ?_⟩
  · rw [lines, rest, cut, ← List.append_assoc]
  · rw [lines, List.append_assoc]
  · rw [lines]
    exact whole.allEnded_or_eq_nil.resolve_right (List.cons_ne_nil _ _)

/-- The code of a page stays as it is when its first paragraph is moved. -/
theorem codeKept_moved {page p rest : Text} (found : firstParagraph? page = some (p, rest)) (tidy : p.IsTidy)
    (shown : page.HidesNone) : Text.CodeKept page (insert p.trim rest) := by
  obtain ⟨ls, l, blank, cut, lines, visible, isBlank, ended⟩ := exists_of_firstParagraph? found
  obtain ⟨kept, closed⟩ := tidy.codeKept_trim lines visible
  have restShown : rest.HidesNone := fun k mem => shown k (by simp [cut, mem])
  have places : page.codeInPlace = p.codeInPlace ++ none :: rest.codeInPlace := by
    rw [Text.codeInPlace, cut, fencedCode_append, tidy.closed,
      fencedCode_of_prose (FenceOpener.ofLine?_of_blank isBlank)]
    rfl
  intro ks holds
  rw [Text.HoldsCode, places] at holds
  rcases Text.infix_gap holds with here | later
  · exact holdsCode_insert closed restShown ks (kept ks here)
  · exact codeKept_insert closed restShown ks later

/-- A page shows its first paragraph and the rest of it. -/
theorem shownLines_of_firstParagraph? {page p rest : Text} (found : firstParagraph? page = some (p, rest)) :
    page.shownLines = p.trim.shownLines ++ rest.shownLines := by
  obtain ⟨ls, l, blank, cut, -, -, isBlank, -⟩ := exists_of_firstParagraph? found
  have nothing : blank.content.shown = [] := by rw [Text.shown, Text.trim_of_allBlank isBlank]; rfl
  rw [Text.shownLines_trim, Text.shownLines_eq_flatMap, cut, List.flatMap_append, List.flatMap_cons,
    ← Text.shownLines_eq_flatMap, ← Text.shownLines_eq_flatMap, nothing, List.nil_append]

end Lead

namespace SplitPage

/-! ## Pages without a header -/

/-- A page whose header is a description that was made. -/
def ofDescription (description header body : Text) : SplitPage :=
  ⟨[(.string "description".toList, .string description)], .synthesized header, body, []⟩

/-- Strings can always be written. -/
theorem exists_render_string (k v : Text) : ∃ text, Header.render [(.string k, .string v)] = .ok text := by
  have writable : (Yaml.Value.mapping [(.string k, .string v)]).isWritable false = true := rfl
  rw [Header.render, Yaml.Mapping.render, writable]
  exact ⟨_, rfl⟩

theorem exists_ofLead_of_isDescription {page p rest : Text}
    (found : Lead.firstParagraph? page = some (p, rest)) (describes : Lead.isDescription p.trim = true) :
    ∃ header, ofLead page = ofDescription p.trim.squash header (Lead.insert p.trim rest) := by
  obtain ⟨header, rendered⟩ := exists_render_string "description".toList p.trim.squash
  refine ⟨header, ?_⟩
  simp only [ofLead, found, describes, rendered]
  rfl

/-- **A page without a header** is all body, or its first paragraph makes one. -/
theorem ofLead_cases (page : Text) :
    ofLead page = whole page [] ∨
      ∃ p rest header, Lead.firstParagraph? page = some (p, rest) ∧ Lead.isDescription p.trim = true ∧
        ofLead page = ofDescription p.trim.squash header (Lead.insert p.trim rest) := by
  cases found : Lead.firstParagraph? page with
  | none => exact .inl (by rw [ofLead, found])
  | some q =>
    obtain ⟨p, rest⟩ := q
    cases describes : Lead.isDescription p.trim with
    | false => exact .inl (by simp [ofLead, found, describes])
    | true =>
      obtain ⟨header, same⟩ := exists_ofLead_of_isDescription found describes
      exact .inr ⟨p, rest, header, rfl, describes, same⟩

/-! ## Bodies -/

/-- The text behind the header of a page. -/
def behindHeader (page : Text) : Text :=
  match HeaderBlock.find page with
  | .ok (some b) => b.body
  | _ => page

/-- The description that is put below the title of a page with a header. -/
def description? (page : Text) : Option Text :=
  match HeaderBlock.find page with
  | .ok (some b) =>
    match Header.parse b.yaml with
    | .ok m => (Lead.ofHeader? m).filter fun d => !(d.isEmpty || Lead.isShown b.body d)
    | .error _ => none
  | _ => none

/-- The paragraph that is moved below the title of a page without a header. -/
def paragraph? (page : Text) : Option Text :=
  match HeaderBlock.find page with
  | .ok none => ((Lead.firstParagraph? page).map (·.1)).filter fun p => Lead.isDescription p.trim
  | _ => none

/-- **What becomes of a body**: it stays, or the description of the header is put into it, or its first
paragraph is moved. -/
theorem body_ofText_cases (page : Text) :
    (ofText page).body = behindHeader page ∨
      (∃ t : Text, description? page = some t.squash ∧ (ofText page).body =
        (behindHeader page).leadingBreaks ++ Lead.insert t.squash (behindHeader page).dropBreaks) ∨
      ∃ p rest, behindHeader page = page ∧ paragraph? page = some p ∧
        Lead.firstParagraph? page = some (p, rest) ∧ (ofText page).body = Lead.insert p.trim rest := by
  rw [ofText, behindHeader, description?, paragraph?]
  cases HeaderBlock.find page with
  | error e => exact .inl rfl
  | ok found =>
    cases found with
    | some b =>
      dsimp only
      rw [ofBlock]
      cases Header.parse b.yaml with
      | error e => exact .inl rfl
      | ok m =>
        dsimp only
        rw [Lead.display]
        cases of : Lead.ofHeader? m with
        | none => exact .inl rfl
        | some d =>
          dsimp only
          split
          case isTrue => exact .inl rfl
          case isFalse displayed =>
            obtain ⟨t, rfl⟩ : ∃ t : Text, d = t.squash := by
              rw [Lead.ofHeader?] at of
              split at of
              case isTrue => cases of
              case isFalse =>
                obtain ⟨t, -, rfl⟩ := Option.map_eq_some_iff.1 of
                exact ⟨t, rfl⟩
            exact .inr (.inl ⟨t, by simpa [Option.filter] using displayed, rfl⟩)
    | none =>
      dsimp only
      rcases ofLead_cases page with absent | ⟨p, rest, header, found, describes, made⟩
      · rw [absent]
        exact .inl rfl
      · rw [made]
        exact .inr (.inr ⟨p, rest, rfl, by simp [found, Option.filter, describes], found, rfl⟩)

/-! ## The code of the page -/

/-- A page whose code the move leaves as it is: no bare carriage return hides a block, the description of
the header opens none, and trimming the first paragraph changes no code. -/
structure LeavesCode (page : Text) : Prop where
  shown : (behindHeader page).HidesNone
  description : ∀ d ∈ description? page, FenceOpener.ofLine? d = none
  paragraph : ∀ p ∈ paragraph? page, p.IsTidy

instance (page : Text) : Decidable (LeavesCode page) :=
  decidable_of_iff ((behindHeader page).HidesNone ∧ (∀ d ∈ description? page, FenceOpener.ofLine? d = none) ∧
      ∀ p ∈ paragraph? page, p.IsTidy)
    ⟨fun ⟨shown, description, paragraph⟩ => ⟨shown, description, paragraph⟩,
      fun h => ⟨h.shown, h.description, h.paragraph⟩⟩

theorem codeKept_ofText {page : Text} (leaves : LeavesCode page) :
    Text.CodeKept (behindHeader page) (ofText page).body := by
  rcases body_ofText_cases page with same | ⟨t, displayed, same⟩ | ⟨p, rest, whole, moved, found, same⟩
  · rw [same]
    exact .refl _
  · rw [same]
    exact Lead.codeKept_display (Lead.oneLine_squash t) (leaves.description _ displayed) leaves.shown
  · have shown := leaves.shown
    rw [same]
    rw [whole] at shown ⊢
    exact Lead.codeKept_moved found (leaves.paragraph p moved) shown

/-- No line of a page is lost, whatever is moved. -/
theorem count_shownLines_le (page line : Text) :
    (behindHeader page).shownLines.count line ≤ (ofText page).body.shownLines.count line := by
  rcases body_ofText_cases page with same | ⟨t, -, same⟩ | ⟨p, rest, whole, -, found, same⟩
  · rw [same]
  · have breaks : ∀ c ∈ (behindHeader page).leadingBreaks, isBlank c = true := by
      intro c mem
      rcases Text.eq_break_of_mem_leadingBreaks mem with rfl | rfl <;> rfl
    obtain ⟨front, behind, before, after⟩ := Lead.shownLines_insert t.squash (behindHeader page).dropBreaks
    rw [same, Text.shownLines_blank_append breaks, after, ← Text.shownLines_dropBreaks, before]
    simp only [List.count_append]
    omega
  · obtain ⟨front, behind, before, after⟩ := Lead.shownLines_insert p.trim rest
    rw [same, whole, Lead.shownLines_of_firstParagraph? found, after, before]
    simp only [List.count_append]
    omega

/-- **A page keeps its code when it is cut into header and body**: every fenced segment behind the header
stands in the body, line by line and as code, and every line is shown as often as before. -/
theorem holdsCode_body_ofText {page : Text} (leaves : LeavesCode page) :
    (∀ s ∈ (behindHeader page).segments, s.fenced = true → (ofText page).body.HoldsCode s.text.lines) ∧
      ∀ line, (behindHeader page).shownLines.count line ≤ (ofText page).body.shownLines.count line :=
  ⟨fun _ mem code => codeKept_ofText leaves _ (Text.holdsCode_of_mem_segments mem code),
    count_shownLines_le page⟩

/-- A paragraph with a block of code, in front of a title and another block. -/
def twoBlocks : Text :=
  "Do\n~~~ sh\n# no title\n~~~\n\n# Title\n\n  \x60\x60\x60\n\n# none\n  \x60\x60\x60\n".toList

theorem holdsCode_body_ofText_twoBlocks :
    (ofText twoBlocks).body.HoldsCode
        [⟨"~~~ sh".toList, .lf⟩, ⟨"# no title".toList, .lf⟩, ⟨"~~~".toList, .lf⟩] ∧
      (ofText twoBlocks).body.HoldsCode
        [⟨"  \x60\x60\x60".toList, .lf⟩, ⟨[], .lf⟩, ⟨"# none".toList, .lf⟩,
          ⟨"  \x60\x60\x60".toList, .lf⟩] := by
  -- A list of characters is evaluated faster than the string that it is read from.
  have chars : twoBlocks = _ := String.toList_ofList
  have leaves : LeavesCode twoBlocks := by
    rw [chars]
    decide +kernel
  have moved : ⟨true, "~~~ sh\n# no title\n~~~\n".toList⟩ ∈ (behindHeader twoBlocks).segments := by
    rw [chars]
    decide +kernel
  have stays : ⟨true, "  \x60\x60\x60\n\n# none\n  \x60\x60\x60\n".toList⟩ ∈
      (behindHeader twoBlocks).segments := by
    rw [chars]
    decide +kernel
  have kept := (holdsCode_body_ofText leaves).1
  exact ⟨kept _ moved rfl, kept _ stays rfl⟩

/-- **A block with a blank line** may be cut there: the first paragraph ends within it, the rest is
searched for a title as if nothing were open, and a line of code is taken for one. -/
theorem not_holdsCode_body_ofText_commentedBlock :
    ¬ ∀ (page : Text) (s : Segment), s ∈ (behindHeader page).segments → s.fenced = true →
      (ofText page).body.HoldsCode s.text.lines := by
  intro all
  have holds := all "text\n\x60\x60\x60\n\n# comment\ncode\n\x60\x60\x60\n".toList
    ⟨true, "\x60\x60\x60\n\n# comment\ncode\n\x60\x60\x60\n".toList⟩ (by decide +kernel) rfl
  revert holds
  decide +kernel

end SplitPage
end MdxPress
