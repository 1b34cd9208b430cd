import MdxPress.Proofs.Page.Header
import MdxPress.Proofs.Page.Lead

/-!
A byte order mark in front of a page.  The search for a header passes over it; the search for the first
paragraph does not, and takes the mark for a character that is shown.

* `HeaderBlock.find_mark` finds the same header behind the mark;
* `SplitPage.SameBehindMark` says that a page is cut as if it had no mark;
* `SplitPage.sameBehindMark_ofText_iff` is the condition.

Caveat: behind the mark, the first line of a page is no blank line and opens no heading, no marker and no
block of code.  So as soon as a blank line follows anywhere, the text up to there is a description, with
the mark in it.
-/

namespace MdxPress

open HeaderBlock (byteOrderMark)

/-! ## Headers behind the mark -/

namespace HeaderBlock

theorem isBlank_byteOrderMark : isBlank byteOrderMark = false := by decide

theorem splitMark_mark (page : Text) : splitMark (byteOrderMark :: page) = ([byteOrderMark], page) := by
  rw [splitMark, if_pos rfl]

theorem splitMark_of_plain {page : Text} (plain : page.head? ≠ some byteOrderMark) :
    splitMark page = ([], page) := by
  cases page with
  | nil => rfl
  | cons c r => rw [splitMark, if_neg fun mark => plain (by rw [mark]; rfl)]

theorem ofLines_cons (c : Char) (before : Text) (ls : List Line) :
    ofLines (c :: before) ls = (ofLines before ls).map fun b => { b with raw := c :: b.raw } := by
  rw [ofLines, ofLines]
  cases ls.dropWhile (!isDelimiter ·) <;> rfl

/-- **A header is found behind the mark as without it**; the mark stands in front of it. -/
theorem find_mark {page : Text} (plain : page.head? ≠ some byteOrderMark) :
    find (byteOrderMark :: page) =
      (find page).map (Option.map fun b => { b with raw := byteOrderMark :: b.raw }) := by
  simp only [find, splitMark_mark, splitMark_of_plain plain]
  cases page.lines.dropWhile Line.isBlank with
  | nil => rfl
  | cons opener behind =>
    dsimp only
    split
    case isFalse => rfl
    case isTrue =>
      simp only [List.cons_append, List.nil_append, ofLines_cons]
      cases ofLines _ behind <;> rfl

end HeaderBlock

/-! ## Paragraphs behind the mark -/

namespace Text

theorem isBlank_or_mem_visible {t : Text} {c : Char} (mem : c ∈ t) : isBlank c = true ∨ c ∈ visible t := by
  cases blank : isBlank c with
  | true => exact .inl rfl
  | false => exact .inr (List.mem_filter.2 ⟨mem, by simp [blank]⟩)

/-- What is visible of a text is one character: trimmed, the text is that character. -/
theorem trim_of_visible {t : Text} {c : Char} (one : visible t = [c]) : t.trim = [c] := by
  obtain ⟨before, behind, rfl, left, shown, rest⟩ := List.filter_eq_cons_iff.1 one
  have right := List.filter_eq_nil_iff.1 rest
  have noBlank : isBlank c = false := by simpa using shown
  have cut : before ++ c :: behind = before ++ [c] ++ behind := by simp
  rw [cut]
  exact trim_between (fun d mem => by simpa using left d mem) (fun d mem => by simpa using right d mem) rfl
    noBlank rfl noBlank

theorem visible_mark (t : Text) : visible (byteOrderMark :: t) = byteOrderMark :: visible t :=
  List.filter_cons_of_pos (by decide)

theorem lines_mark {page : Text} {first : Line} {ls : List Line} (lines : page.lines = first :: ls) :
    Text.lines (byteOrderMark :: page) = first.cons byteOrderMark :: ls := by
  rw [lines_cons (by decide) (fun same => absurd same (by decide)), lines]

theorem trim_mark (t : Text) : Text.trim (byteOrderMark :: t) = byteOrderMark :: t.trimEnd := by
  have ends : trimEnd (byteOrderMark :: t) = byteOrderMark :: t.trimEnd := by
    rw [trimEnd, dropEndWhile, trimEnd]
    cases dropEndWhile isBlank t <;> rfl
  rw [trim, ends, trimStart_of_visible HeaderBlock.isBlank_byteOrderMark]

/-- The mark stands on the first line. -/
theorem tail_lines_mark (page : Text) : (Text.lines (byteOrderMark :: page)).tail = page.lines.tail := by
  rw [lines_cons (by decide) fun same => absurd same (by decide)]
  cases page.lines <;> rfl

end Text

namespace Lead

/-- The mark is shown, so a paragraph begins with it and goes on to the first blank line behind its line. -/
theorem firstParagraph?_mark {page : Text} {first blank : Line} {inner behind : List Line}
    (lines : page.lines = first :: (inner ++ blank :: behind)) (shown : ∀ l ∈ inner, l.isBlank = false)
    (closes : blank.isBlank = true) :
    firstParagraph? (byteOrderMark :: page) =
      some (byteOrderMark :: Line.join (first :: inner), Line.join behind) := by
  have marked : (first.cons byteOrderMark).isBlank = false := by
    simp [Line.isBlank, Line.cons, Text.allBlank, HeaderBlock.isBlank_byteOrderMark]
  refine firstParagraph?_eq_some_iff.2 ⟨[], first.cons byteOrderMark :: inner, blank, behind, ?_,
    List.forall_mem_nil _, List.cons_ne_nil _ _, List.forall_mem_cons.2 ⟨marked, shown⟩, closes, rfl, rfl⟩
  rw [Text.lines_mark lines]
  rfl

/-- A page without a blank line behind its first line has no paragraph to move. -/
theorem firstParagraph?_eq_none {page : Text} (shown : ∀ l ∈ page.lines.tail, l.isBlank = false) :
    firstParagraph? page = none := by
  refine Option.eq_none_iff_forall_ne_some.2 fun ⟨p, rest⟩ found => ?_
  obtain ⟨blanks, inner, blank, behind, lines, -, filled, -, closes, -⟩ := firstParagraph?_eq_some_iff.1 found
  obtain ⟨l, ls, rfl⟩ := List.exists_cons_of_ne_nil filled
  have mem : blank ∈ page.lines.tail := by
    rw [lines]
    cases blanks <;> simp
  rw [shown blank mem] at closes
  cases closes

/-- Lines that are shown are the same up to the first blank line. -/
theorem shown_inj {as bs xs ys : List Line} {x y : Line} (same : as ++ x :: xs = bs ++ y :: ys)
    (left : ∀ l ∈ as, l.isBlank = false) (right : ∀ l ∈ bs, l.isBlank = false) (blank : x.isBlank = true)
    (blank' : y.isBlank = true) : as = bs := by
  have shows (ls : List Line) (shown : ∀ l ∈ ls, l.isBlank = false) : ∀ l ∈ ls, (!l.isBlank) = true :=
    fun l mem => by simp [shown l mem]
  calc as
      = (as ++ x :: xs).takeWhile (!·.isBlank) :=
        (Text.cut_of_fails (shows as left) (by simp [blank]) xs).1.symm
    _ = (bs ++ y :: ys).takeWhile (!·.isBlank) := by rw [same]
    _ = bs := (Text.cut_of_fails (shows bs right) (by simp [blank']) ys).1

/-- **Where the first paragraph ends**, seen from the second line on: at the first blank line there, unless
no line above that one is shown. -/
theorem paragraph_cases {page p rest : Text} {first blank : Line} {inner behind : List Line}
    (found : firstParagraph? page = some (p, rest)) (lines : page.lines = first :: (inner ++ blank :: behind))
    (shown : ∀ l ∈ inner, l.isBlank = false) (closes : blank.isBlank = true) :
    p = Line.join (first :: inner) ∨
      first.isBlank = true ∧ inner = [] ∧ ∃ (blanks ls : List Line) (blank' : Line) (below : List Line),
        ls ≠ [] ∧ (∀ l ∈ ls, l.isBlank = false) ∧ blank'.isBlank = true ∧
          behind = blanks ++ (ls ++ blank' :: below) ∧
          p = Line.join (first :: blank :: (blanks ++ ls)) ∧ rest = Line.join below := by
  obtain ⟨blanks, ls, blank', below, cut, isBlank, filled, visible, closes', rfl, rfl⟩ :=
    firstParagraph?_eq_some_iff.1 found
  rw [lines] at cut
  match blanks, isBlank with
  | [], _ =>
    obtain ⟨l, ls, rfl⟩ := List.exists_cons_of_ne_nil filled
    obtain ⟨rfl, tail⟩ := List.cons.inj cut
    obtain rfl := shown_inj tail shown (fun k mem => visible k (.tail _ mem)) closes closes'
    exact .inl rfl
  | [b], _ =>
    obtain ⟨rfl, tail⟩ := List.cons.inj cut
    obtain rfl := shown_inj tail shown visible closes closes'
    exact .inl rfl
  | b :: b' :: blanks, isBlank =>
    obtain ⟨rfl, tail⟩ := List.cons.inj cut
    have above : first.isBlank = true := isBlank first (.head _)
    have here : b'.isBlank = true := isBlank b' (.tail _ (.head _))
    have same : inner ++ blank :: behind = [] ++ b' :: (blanks ++ (ls ++ blank' :: below)) := tail
    obtain rfl := shown_inj same shown (List.forall_mem_nil _) closes here
    obtain ⟨rfl, rfl⟩ := List.cons.inj same
    exact .inr ⟨above, rfl, blanks, ls, blank', below, filled, visible, closes', rfl, rfl, rfl⟩

theorem isDescription_mark (t : Text) : isDescription (byteOrderMark :: t) = true := by
  have noOpener : FenceOpener.ofLine? (byteOrderMark :: t) = none := by
    refine FenceOpener.ofLine?_eq_none_of_trimStart fun c first => ?_
    rw [Text.trimStart_of_visible HeaderBlock.isBlank_byteOrderMark] at first
    cases first
    decide
  rw [isDescription, noOpener]
  rfl

/-- Blanks and marks open nothing, and are no title. -/
theorem plain_of_marks {t : Text} (only : ∀ c ∈ t, isBlank c = true ∨ c = byteOrderMark) :
    FenceOpener.ofLine? t = none ∧ t.trimStart.startsWith "# ".toList = false := by
  have start : ∀ c ∈ t.trimStart.head?, isBlank c = true ∨ c = byteOrderMark := fun c first =>
    only c ((Text.trimStart_suffix t).mem (List.mem_of_mem_head? first))
  constructor
  · refine FenceOpener.ofLine?_eq_none_of_trimStart fun c first => ?_
    rcases start c first with blank | rfl
    · exact Text.ofChar?_of_isBlank blank
    · decide
  · refine Bool.eq_false_iff.2 fun starts => ?_
    obtain ⟨rest, cut⟩ := List.isPrefixOf_iff_prefix.1 starts
    have sign := start '#' (by rw [← cut]; rfl)
    exact absurd sign (by decide)

/-- Lines in which nothing opens and no title stands stay where they are when a paragraph is put in. -/
theorem length_insert_join {xs ys : List Line} (whole : Line.AreLines (xs ++ ys))
    (prose : ∀ l ∈ xs, FenceOpener.ofLine? l.content = none)
    (noTitle : ∀ l ∈ xs, l.content.trimStart.startsWith "# ".toList = false) (p : Text) :
    (insert p (Line.join (xs ++ ys))).length = (Line.join xs).length + (insert p (Line.join ys)).length := by
  have below := Text.lines_join (whole.sublist (List.sublist_append_right xs ys))
  have fenced : Text.fenced (Line.join (xs ++ ys)) = fencedLines none xs ++ Text.fenced (Line.join ys) := by
    rw [Text.fenced, Text.lines_join whole, fencedLines_append, FenceState.run_of_prose prose, Text.fenced,
      below]
  have passed : ∀ l ∈ fencedLines none xs, (!isTitle l) = true := by
    intro l mem
    have line : l.line ∈ xs := by
      rw [← map_line_fencedLines none xs]
      exact List.mem_map_of_mem mem
    rw [isTitle, noTitle _ line, Bool.and_false, Bool.not_false]
  rw [insert, insert, fenced, List.takeWhile_append_of_pos passed, List.dropWhile_append_of_pos passed,
    List.map_append, map_line_fencedLines]
  dsimp only
  cases (Text.fenced (Line.join ys)).dropWhile (!isTitle ·) with
  | nil =>
    simp only [Line.join_append, List.length_append]
    omega
  | cons title behind =>
    simp only [Line.join_append, List.length_append, List.length_cons]
    omega

/-- A shown line that is not the last of a text has a character and an ending. -/
theorem two_le_length_join {ls : List Line} {blank : Line} {below : List Line}
    (whole : Line.AreLines (ls ++ blank :: below)) (filled : ls ≠ []) (shown : ∀ l ∈ ls, l.isBlank = false) :
    2 ≤ (Line.join ls).length := by
  obtain ⟨l, ls, rfl⟩ := List.exists_cons_of_ne_nil filled
  have ended : l.ending ≠ .none := whole.allEnded_or_eq_nil.resolve_right (List.cons_ne_nil _ _) l (.head _)
  have content : l.content ≠ [] := fun empty => by
    have visible := shown l (.head _)
    rw [Line.isBlank, empty] at visible
    cases visible
  have one := List.length_pos_of_ne_nil content
  have other : 0 < l.ending.text.length := by
    cases ending : l.ending with
    | none => exact (ended ending).elim
    | lf | crlf => simp [Ending.text]
  rw [Line.join_cons, List.length_append, Line.text, List.length_append]
  omega

/-- A body with marks on lines of their own above it gets longer by these lines, so by more than one mark. -/
theorem length_insert_marks {blanks ls below : List Line} {blank : Line}
    (whole : Line.AreLines (blanks ++ (ls ++ blank :: below))) (filled : ls ≠ [])
    (shown : ∀ l ∈ ls, l.isBlank = false) (closes : blank.isBlank = true)
    (only : ∀ c ∈ Line.join (blanks ++ ls), isBlank c = true ∨ c = byteOrderMark) (p : Text) :
    (insert p (Line.join below)).length + 2 ≤
      (insert p (Line.join (blanks ++ (ls ++ blank :: below)))).length := by
  have two := two_le_length_join (whole.sublist (List.sublist_append_right _ _)) filled shown
  have plain : ∀ l ∈ blanks ++ ls ++ [blank], ∀ c ∈ l.content, isBlank c = true ∨ c = byteOrderMark := by
    intro l mem c inside
    rcases List.mem_append.1 mem with mem | mem
    · exact only c (List.mem_flatMap.2 ⟨l, mem, List.mem_append_left _ inside⟩)
    · obtain rfl := List.mem_singleton.1 mem
      exact .inl (List.all_eq_true.1 closes c inside)
  have regrouped : blanks ++ (ls ++ blank :: below) = (blanks ++ ls ++ [blank]) ++ below := by simp
  rw [regrouped] at whole ⊢
  rw [length_insert_join whole (fun l mem => (plain_of_marks (plain l mem)).1)
    fun l mem => (plain_of_marks (plain l mem)).2, Line.join_append, Line.join_append, List.length_append,
    List.length_append]
  omega

end Lead

/-! ## Pages behind the mark -/

/-- Two headers come from the same place. -/
def HeaderSource.SameKind : HeaderSource → HeaderSource → Prop
  | .absent, .absent | .parsed _, .parsed _ | .unparseable _, .unparseable _
  | .synthesized _, .synthesized _ => True
  | _, _ => False

/-- Two faults are of one kind. -/
def Fault.SameKind : Fault → Fault → Prop
  | .malformedDirective .., .malformedDirective .. | .unclosedComponent _, .unclosedComponent _
  | .unparseableHeader _, .unparseableHeader _ | .unterminatedHeader, .unterminatedHeader => True
  | _, _ => False

namespace SplitPage

/-- A page with a byte order mark is cut as without it: the mapping, the kind of header and the kinds of
diagnostics are the same, and so is the body, apart from the mark. -/
structure SameBehindMark (marked plain : SplitPage) : Prop where
  frontmatter : marked.frontmatter = plain.frontmatter
  header : marked.header.SameKind plain.header
  diagnostics : List.Forall₂ (fun d e => d.fault.SameKind e.fault) marked.diagnostics plain.diagnostics
  body : marked.body = plain.body ∨ marked.body = byteOrderMark :: plain.body

/-- **A paragraph behind the mark is another one**: with a blank line behind its first line, a page is cut
differently. -/
theorem not_sameBehindMark_ofLead {first blank : Line} {inner behind : List Line} {page : Text}
    (lines : page.lines = first :: (inner ++ blank :: behind)) (shown : ∀ l ∈ inner, l.isBlank = false)
    (closes : blank.isBlank = true) :
    ¬ (ofLead (byteOrderMark :: page)).SameBehindMark (ofLead page) := by
  intro same
  obtain ⟨header, marked⟩ : ∃ header, ofLead (byteOrderMark :: page) = ofDescription
      (Text.trim (byteOrderMark :: Line.join (first :: inner))).squash header
      (Lead.insert (Text.trim (byteOrderMark :: Line.join (first :: inner))) (Line.join behind)) := by
    refine exists_ofLead_of_isDescription (Lead.firstParagraph?_mark lines shown closes) ?_
    rw [Text.trim_mark]
    exact Lead.isDescription_mark _
  rw [marked] at same
  rcases ofLead_cases page with absent | ⟨p, rest, header', found, -, made⟩
  · rw [absent] at same
    exact same.header
  rw [made] at same
  have one : Text.visible (byteOrderMark :: Line.join (first :: inner)) = Text.visible p := by
    obtain ⟨entry, -⟩ := List.cons.inj same.frontmatter
    have words := congrArg Text.visible (Yaml.Value.string.inj (Prod.mk.inj entry).2)
    rwa [Text.visible_squash, Text.visible_squash, Text.visible_trim, Text.visible_trim] at words
  rw [Text.visible_mark] at one
  rcases Lead.paragraph_cases found lines shown closes with
    rfl | ⟨nothing, rfl, blanks, ls, blank', below, filled, visible, closes', rfl, rfl, rfl⟩
  · exact absurd (congrArg List.length one) (by simp)
  -- Both descriptions are the mark alone, so both bodies are given the same paragraph; but the marked body
  -- still has the lines of the plain one.
  · have hidden : Text.visible (Line.join [first]) = [] :=
      Text.visible_of_blank (by simpa using fun c => Line.isBlank_of_mem_text nothing)
    rw [hidden] at one
    have left : Text.trim (byteOrderMark :: Line.join [first]) = [byteOrderMark] :=
      Text.trim_of_visible (by rw [Text.visible_mark, hidden])
    have right := Text.trim_of_visible one.symm
    have only : ∀ c ∈ Line.join (blanks ++ ls), isBlank c = true ∨ c = byteOrderMark := by
      intro c mem
      have inside : c ∈ Line.join (first :: blank :: (blanks ++ ls)) :=
        List.mem_append_right _ (List.mem_append_right _ mem)
      refine (Text.isBlank_or_mem_visible inside).imp_right fun shows => ?_
      rw [← one] at shows
      exact List.mem_singleton.1 shows
    have whole := lines ▸ Text.areLines_lines page
    have longer := Lead.length_insert_marks whole.2.2.2.2 filled visible closes' only [byteOrderMark]
    have body := same.body
    simp only [ofDescription, left, right] at body
    rcases body with body | body
    · rw [body] at longer
      omega
    · rw [body, List.length_cons] at longer
      omega

theorem sameBehindMark_ofLead_iff (page : Text) :
    (ofLead (byteOrderMark :: page)).SameBehindMark (ofLead page) ↔
      ∀ l ∈ page.lines.tail, l.isBlank = false := by
  constructor
  · intro same
    cases lines : page.lines with
    | nil => exact List.forall_mem_nil _
    | cons first ls =>
      obtain ⟨inner, behind, -, -, rfl, shown, stops⟩ :=
        Text.exists_cut_of_fails (fun l : Line => !l.isBlank) ls
      replace shown : ∀ l ∈ inner, l.isBlank = false := fun l mem => by simpa using shown l mem
      cases behind with
      | nil => simpa using shown
      | cons blank behind =>
        have closes : blank.isBlank = true := by simpa using stops blank rfl
        exact (not_sameBehindMark_ofLead lines shown closes same).elim
  · intro shown
    rw [ofLead, ofLead, Lead.firstParagraph?_eq_none shown,
      Lead.firstParagraph?_eq_none (Text.tail_lines_mark page ▸ shown)]
    exact ⟨rfl, trivial, .nil, .inr rfl⟩

theorem sameBehindMark_of_ne_none {page : Text} (plain : page.head? ≠ some byteOrderMark)
    (header : HeaderBlock.find page ≠ .ok none) :
    (ofText (byteOrderMark :: page)).SameBehindMark (ofText page) := by
  rw [ofText, ofText, HeaderBlock.find_mark plain]
  cases found : HeaderBlock.find page with
  | error e => exact ⟨rfl, trivial, .cons trivial .nil, .inr rfl⟩
  | ok b? =>
    cases b? with
    | none => exact (header found).elim
    | some b =>
      change (ofBlock { b with raw := byteOrderMark :: b.raw }).SameBehindMark (ofBlock b)
      rw [ofBlock, ofBlock]
      cases Header.parse b.yaml with
      | error e => exact ⟨rfl, trivial, .cons trivial .nil, .inl rfl⟩
      | ok m => exact ⟨rfl, trivial, .nil, .inl rfl⟩

/-- **When a byte order mark makes no difference**: exactly when the page has a header, or one that is not
closed, or no blank line behind its first line. -/
theorem sameBehindMark_ofText_iff {page : Text} (plain : page.head? ≠ some byteOrderMark) :
    (ofText (byteOrderMark :: page)).SameBehindMark (ofText page) ↔
      HeaderBlock.find page ≠ .ok none ∨ ∀ l ∈ page.lines.tail, l.isBlank = false := by
  by_cases missing : HeaderBlock.find page = .ok none
  · have marked : HeaderBlock.find (byteOrderMark :: page) = .ok none := by
      rw [HeaderBlock.find_mark plain, missing]
      rfl
    rw [ofText, ofText, marked, missing]
    simpa using sameBehindMark_ofLead_iff page
  · exact ⟨fun _ => .inl missing, fun _ => sameBehindMark_of_ne_none plain missing⟩

/-- A header behind the mark, with a blank line in the body. -/
theorem sameBehindMark_ofText_delimited :
    "---\ntitle: A\n---\n# A\n\nText\n".toList.head? ≠ some byteOrderMark ∧
      (ofText (byteOrderMark :: "---\ntitle: A\n---\n# A\n\nText\n".toList)).SameBehindMark
        (ofText "---\ntitle: A\n---\n# A\n\nText\n".toList) := by
  have plain : "---\ntitle: A\n---\n# A\n\nText\n".toList.head? ≠ some byteOrderMark := by decide
  exact ⟨plain, (sameBehindMark_ofText_iff plain).2
    (.inl (HeaderBlock.find_opened_ne_none "title: A\n---\n# A\n\nText\n".toList))⟩

/-- A title behind the mark is no title any more, but a description. -/
theorem not_sameBehindMark_ofText_title :
    ¬ ∀ page : Text, page.head? ≠ some byteOrderMark →
      (ofText (byteOrderMark :: page)).SameBehindMark (ofText page) := by
  intro all
  have same := (all "# Title\n\nBody".toList (by decide)).frontmatter
  have plain : (ofText "# Title\n\nBody".toList).frontmatter.isEmpty = true := by decide +kernel
  have marked : (ofText (byteOrderMark :: "# Title\n\nBody".toList)).frontmatter.isEmpty = false := by
    decide +kernel
  rw [same, plain] at marked
  cases marked

end SplitPage

end MdxPress
