import MdxPress.Proofs.Site.SchemaPlace
import MdxPress.Proofs.Text.Edge

/-!
The headings of a page whose header lacks its opening delimiter.  Such a header ends above the first
line that stands at the left and has no colon.  A heading stands at the left, so one without a colon
begins the body, or stands in it, and no later step of the metadata pass takes it out again.

* `PageHeader.exists_splitBare` says what the lines of such a header are;
* `Text.headings` are the headings of a text, and `Schema.headings_insert` and
  `Text.headings_dropBreaks` say that they are kept;
* `PageHeader.headings_of_bare` is the result.

Caveat: a heading with a colon passes for an entry of the header, and for a comment in its YAML.
-/

namespace MdxPress

namespace Text

/-! ## Headings -/

/-- Whether a line is a heading: one to six signs at the left, and a space. -/
def isHeading (line : Text) : Bool :=
  let signs := line.takeWhile (· = '#')
  1 ≤ signs.length && signs.length ≤ 6 && (line.drop signs.length).head? == some ' '

/-- The headings of a text. -/
def headings (t : Text) : List Text :=
  (t.lines.map (·.content)).filter isHeading

theorem head?_of_isHeading {line : Text} (heading : isHeading line = true) : line.head? = some '#' := by
  cases line with
  | nil => cases heading
  | cons c r =>
    by_cases sign : c = '#'
    · rw [sign]
      rfl
    · simp [isHeading, sign] at heading

/-- The blanks that a heading ends with are all that trimming takes off it. -/
theorem exists_trim_of_isHeading {line : Text} (heading : isHeading line = true) :
    ∃ r, line.trim = '#' :: r := by
  obtain ⟨r, rfl⟩ := List.head?_eq_some_iff.1 (head?_of_isHeading heading)
  have visible : isBlank '#' = false := by decide
  obtain ⟨tail, cut, -⟩ := dropEndWhile_append_mem isBlank ('#' :: r)
  have inside : '#' ∈ trimEnd ('#' :: r) := (mem_trimEnd visible).2 (.head _)
  rw [← trimEnd] at cut
  cases kept : trimEnd ('#' :: r) with
  | nil => rw [kept] at inside; cases inside
  | cons c s =>
    rw [kept] at cut
    obtain ⟨rfl, -⟩ := List.cons.inj cut
    exact ⟨s, by rw [trim, kept, trimStart_of_visible visible]⟩

theorem isHeading_cons_of_ne {c : Char} (other : c ≠ '#') (line : Text) : isHeading (c :: line) = false := by
  rw [Bool.eq_false_iff]
  intro heading
  exact other (Option.some.inj (head?_of_isHeading heading))

/-- The headings of a text behind which a new line begins, and those of what stands there. -/
theorem headings_append {t : Text} (ends : t.EndsLine) (u : Text) :
    headings (t ++ u) = headings t ++ headings u := by
  simp only [headings, lines_append ends.allEnded, List.map_append, List.filter_append]

theorem headings_join {ls : List Line} (whole : Line.AreLines ls) :
    headings (Line.join ls) = (ls.map (·.content)).filter isHeading := by
  rw [headings, lines_join whole]

/-- Taking a line break off the front of a text takes no heading away. -/
theorem headings_cons_break {c : Char} (break_ : c = '\n' ∨ c = '\r') (t : Text) :
    (headings (c :: t)).Sublist (headings t) := by
  rcases break_ with rfl | rfl
  · exact List.Sublist.refl _
  · by_cases feed : t.head? = some '\n'
    · obtain ⟨r, rfl⟩ := List.head?_eq_some_iff.1 feed
      exact List.Sublist.refl _
    · have lines := lines_cons (c := '\r') (t := t) (by decide) fun _ => feed
      rw [headings, headings, lines]
      have other (line : Text) : isHeading ('\r' :: line) = false := isHeading_cons_of_ne (by decide) line
      cases t.lines with
      | nil => exact List.Sublist.refl _
      | cons l ls =>
        simp only [List.map_cons, Line.cons, List.filter_cons, other, Bool.false_eq_true, if_false]
        split
        · exact List.sublist_cons_self _ _
        · exact List.Sublist.refl _

theorem headings_dropBreaks (t : Text) : (headings t).Sublist (headings t.dropBreaks) := by
  induction t with
  | nil => exact List.Sublist.refl _
  | cons c t ih =>
    rw [dropBreaks, List.dropWhile_cons]
    split
    case isTrue break_ => exact (headings_cons_break (by simpa using break_) t).trans ih
    case isFalse => exact List.Sublist.refl _

end Text

/-! ## Headings behind a schema component -/

namespace Schema

/-- A heading is neither an import nor blank. -/
theorem isHeading_of_import {l : Line} (import_ : isImport l = true ∨ l.isBlank = true) :
    Text.isHeading l.content = false := by
  rw [Bool.eq_false_iff]
  intro heading
  obtain ⟨r, trimmed⟩ := Text.exists_trim_of_isHeading heading
  rcases import_ with import_ | blank
  · rw [isImport, trimmed] at import_
    cases import_
  · rw [Text.trim_of_allBlank blank] at trimmed
    cases trimmed

/-- **A schema component takes no heading away.** -/
theorem headings_insert (body block : Text) : body.headings.Sublist (insert body block).headings := by
  obtain ⟨blanks, behind, cut, imports, -, -, -⟩ := exists_importLines body.lines
  have whole : Line.AreLines (blanks ++ behind) :=
    (Text.areLines_lines body).sublist (cut ▸ List.sublist_append_right _ _)
  have rest : body.headings = (Line.join (blanks ++ behind)).headings := by
    have none : ((importLines body.lines).map (·.content)).filter Text.isHeading = [] := by
      simpa using fun l mem => isHeading_of_import (imports l mem)
    conv => lhs; rw [Text.headings, cut, List.map_append, List.filter_append, none, List.nil_append]
    rw [Text.headings_join whole]
  rw [rest, insert_eq cut block]
  generalize (if (importLines body.lines).isEmpty then [] else
    tidy (importLines body.lines) ++ "\n\n".toList : Text) = lead
  have ends : Text.EndsLine (lead ++ (block ++ "\n\n".toList)) :=
    .inr (by rw [← List.append_assoc, List.getLast?_append_of_ne_nil _ (by decide)]; rfl)
  have parts : lead ++ (block ++ ("\n\n".toList ++ (Line.join (blanks ++ behind)).dropBreaks)) =
      lead ++ (block ++ "\n\n".toList) ++ (Line.join (blanks ++ behind)).dropBreaks := by
    simp only [List.append_assoc]
  rw [parts, Text.headings_append ends]
  exact (Text.headings_dropBreaks _).trans (List.sublist_append_right _ _)

end Schema

/-! ## The lines of a header without its opening delimiter -/

namespace PageHeader

/-- A line at the left without a colon ends a header. -/
theorem colon_of_isHeading {l : Line} (goesOn : endsBare l = false)
    (heading : Text.isHeading l.content = true) : ':' ∈ l.content := by
  obtain ⟨r, trimmed⟩ := Text.exists_trim_of_isHeading heading
  rw [endsBare, Text.head?_of_isHeading heading, trimmed] at goesOn
  have colon : Text.contains ('#' :: r) [':'] = true := by simpa using goesOn
  rw [← trimmed] at colon
  exact (Text.mem_trim (by decide)).1 (Text.contains_singleton.1 colon)

theorem isHeading_of_isBareDelimiter {l : Line} (delimits : isBareDelimiter l = true) :
    Text.isHeading l.content = false := by
  rw [Bool.eq_false_iff]
  intro heading
  obtain ⟨r, trimmed⟩ := Text.exists_trim_of_isHeading heading
  rw [isBareDelimiter, trimmed] at delimits
  cases delimits

/-- The lines behind the first of a header: each goes on with it, and the one that ends it either
delimits it or belongs to the body. -/
theorem exists_splitBare {ls inner body : List Line} (cut : splitBare ls = some (inner, body)) :
    ∃ closer : Option Line, ls = inner ++ (closer.toList ++ body) ∧
      (∀ l ∈ inner, endsBare l = false) ∧ ∀ l ∈ closer, isBareDelimiter l = true := by
  induction ls generalizing inner with
  | nil => cases cut
  | cons l ls ih =>
    rw [splitBare] at cut
    split at cut
    case isTrue delimits =>
      cases cut
      exact ⟨some l, rfl, List.forall_mem_nil _, fun k same => Option.mem_some.1 same ▸ delimits⟩
    case isFalse =>
      split at cut
      case isTrue =>
        cases cut
        exact ⟨Option.none, rfl, List.forall_mem_nil _, fun k same => by cases same⟩
      case isFalse goesOn =>
        obtain ⟨⟨inner, body⟩, later, same⟩ := Option.map_eq_some_iff.1 cut
        cases same
        obtain ⟨closer, rfl, all, delimits⟩ := ih later
        exact ⟨closer, rfl, List.forall_mem_cons.2 ⟨Bool.eq_false_iff.2 goesOn, all⟩, delimits⟩

variable {page : Text}

theorem ofBare?_of_form (bare : (read page).form = .bare) : ofBare? page = some (read page) := by
  cases found : HeaderBlock.find page with
  | error e => simp [read, found, PageHeader.none] at bare
  | ok b =>
    cases b with
    | some b => simp [read, found, form_ofYaml] at bare
    | none =>
      cases cut : ofBare? page with
      | none => simp [read, found, cut, PageHeader.none] at bare
      | some header => simp [read, found, cut]

/-- The lines of a header without its opening delimiter, and those of the body. -/
theorem exists_lines_of_bare (bare : (read page).form = .bare) :
    ∃ header body : List Line, page.lines = header ++ body ∧ (read page).body = Line.join body ∧
      ∀ l ∈ header, Text.isHeading l.content = true → ':' ∈ l.content := by
  have read_ := ofBare?_of_form bare
  unfold ofBare? at read_
  split at read_
  case isFalse => cases read_
  case isTrue opens =>
    split at read_
    case h_1 => cases read_
    case h_2 l ls lines =>
      obtain ⟨⟨inner, body⟩, cut, same⟩ := Option.map_eq_some_iff.1 read_
      obtain ⟨closer, rfl, all, delimits⟩ := exists_splitBare cut
      refine ⟨l :: inner ++ closer.toList, body, ?_, ?_, ?_⟩
      · rw [lines, List.append_assoc, List.cons_append]
      · rw [← same, body_ofYaml]
      · intro k mem heading
        rcases List.mem_append.1 mem with mem | mem
        · rcases List.mem_cons.1 mem with rfl | mem
          · obtain ⟨rest, page_⟩ := List.isPrefixOf_iff_prefix.1 opens
            have first := Text.join_lines page
            rw [lines, ← page_, Line.join_cons, Line.text] at first
            obtain ⟨r, content⟩ := List.head?_eq_some_iff.1 (Text.head?_of_isHeading heading)
            rw [content] at first
            cases first
          · exact colon_of_isHeading (all k mem) heading
        · rw [isHeading_of_isBareDelimiter (delimits k (by simpa using mem))] at heading
          cases heading

/-! ## The headings of the page -/

/-- **A header without its opening delimiter takes no heading without a colon.**  What stands before the
body of its page holds headings with a colon only, and the page that is written keeps, behind the header
that was made for it, every heading of the body, and so every heading of the page that has no colon. -/
theorem headings_of_bare (bare : (read page).form = .bare) :
    ∃ before : Text, page = before ++ (read page).body ∧
      page.headings = before.headings ++ (read page).body.headings ∧
      (∀ heading ∈ before.headings, ':' ∈ heading) ∧
      ∀ c path s, (Synthesis.ofPage c path page).2 = .ok s →
        ∃ head written : Text, Synthesis.headerOf page s.metadata = .ok head ∧
          s.text = head ++ "\n\n".toList ++ written ∧
          (read page).body.headings.Sublist written.headings ∧
          (page.headings.filter fun heading => ':' ∉ heading).Sublist written.headings := by
  obtain ⟨header, body, lines, rest, colons⟩ := exists_lines_of_bare bare
  have whole : Line.AreLines (header ++ body) := lines ▸ Text.areLines_lines page
  have above : (Line.join header).headings = (header.map (·.content)).filter Text.isHeading :=
    Text.headings_join (whole.sublist (List.sublist_append_left _ _))
  have below : (read page).body.headings = (body.map (·.content)).filter Text.isHeading := by
    rw [rest, Text.headings_join (whole.sublist (List.sublist_append_right _ _))]
  have all : page.headings = (Line.join header).headings ++ (read page).body.headings := by
    rw [Text.headings, lines, List.map_append, List.filter_append, above, below]
  have taken : ∀ heading ∈ (Line.join header).headings, ':' ∈ heading := by
    intro heading mem
    rw [above] at mem
    obtain ⟨line, sign⟩ := List.mem_filter.1 mem
    obtain ⟨l, inside, rfl⟩ := List.mem_map.1 line
    exact colons l inside sign
  have kept : ((page.headings).filter fun heading => ':' ∉ heading).Sublist
      (read page).body.headings := by
    have none : ((Line.join header).headings.filter fun heading => ':' ∉ heading) = [] := by
      simpa using taken
    rw [all, List.filter_append, none, List.nil_append]
    exact List.filter_sublist
  refine ⟨Line.join header, ?_, all, taken, fun c path s completed => ?_⟩
  · conv => lhs; rw [← Text.join_lines page, lines, Line.join_append, ← rest]
  · rcases Synthesis.ofPage_cases completed with ⟨isWhole, -⟩ | ⟨-, head, rendered, rfl⟩
    · rw [Synthesis.form_of_isWhole isWhole] at bare
      cases bare
    · have written : (read page).body.headings.Sublist
          (Synthesis.bodyOf c path page (Synthesis.metadataOf c path page)).dropBreaks.headings := by
        refine List.Sublist.trans ?_ (Text.headings_dropBreaks _)
        unfold Synthesis.bodyOf
        split
        · exact List.Sublist.refl _
        · exact Schema.headings_insert _ _
      exact ⟨head, _, rendered, rfl, written, kept.trans written⟩

/-- A page whose header ends above a heading, with a colon in its prose. -/
def titled : Text :=
  "description: Intro\nslug: a\n# Title\nBody: text\n".toList

theorem headings_of_bare_titled :
    (read titled).form = .bare ∧
    ∃ before : Text, titled = before ++ (read titled).body ∧
      titled.headings = before.headings ++ (read titled).body.headings ∧
      (∀ heading ∈ before.headings, ':' ∈ heading) ∧
      ∀ c path s, (Synthesis.ofPage c path titled).2 = .ok s →
        ∃ head written : Text, Synthesis.headerOf titled s.metadata = .ok head ∧
          s.text = head ++ "\n\n".toList ++ written ∧
          (read titled).body.headings.Sublist written.headings ∧
          (titled.headings.filter fun heading => ':' ∉ heading).Sublist written.headings :=
  have bare : (read titled).form = .bare := by decide +kernel
  ⟨bare, headings_of_bare bare⟩

/-- A heading with a colon stands before the body. -/
theorem not_headings_of_bare_setup :
    ¬ ∀ page : Text, (read page).form = .bare →
      ∀ before : Text, page = before ++ (read page).body → before.headings = [] := by
  intro none
  -- A list of characters is evaluated faster than the string that it is read from.
  have taken := none "description: hi\n# Setup: first steps\nText\n".toList
    (by rw [String.toList_ofList]; decide +kernel)
    "description: hi\n# Setup: first steps\n".toList (by decide +kernel)
  rw [String.toList_ofList] at taken
  revert taken
  decide +kernel

end PageHeader

end MdxPress
