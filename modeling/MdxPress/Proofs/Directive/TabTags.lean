import MdxPress.Proofs.Directive.Enclosing
import MdxPress.Proofs.Marker.Place
import MdxPress.Proofs.Mdx.Nested

/-!
Groups of tabs as the escaping of braces reads them: a component with one element for each tab, around
the contents of the tabs.  Titles stand in quotation marks, and no quotation mark and no line feed is
left in them, so that the opener of a tab is one tag whatever its title is.

* `TabEntry.opens_opener` is the opener of a tab;
* `TabGroup.escapeBraces_group` is the whole group: if the contents leave nothing open, the group
  leaves nothing open, and if they hold no tags, it stays as it is.
-/

namespace MdxPress

open MdxState

/-! ## The opener of a tab -/

/-- An entry as groups have them: a title on one line and a value of letters and digits. -/
structure TabEntry.IsWritable (e : TabEntry) : Prop where
  title : '\n' ∉ e.title
  value : ∀ c ∈ e.value, Text.isAsciiAlnum c = true

namespace TabEntry

/-- The opener of a tab. -/
def opener (e : TabEntry) : Text :=
  "<TabItem value=\"".toList ++ e.value ++ "\" label=\"".toList ++
    Text.replaceChar '"' ['\''] e.title ++ "\">".toList

/-- The name of the component of a tab. -/
def component : Text :=
  ['T', 'a', 'b', 'I', 't', 'e', 'm']

/-- The closer of a tab. -/
def closer : Text :=
  '<' :: '/' :: (component ++ ['>'])

/-- The attributes of the opener. -/
def attributes (e : TabEntry) : Text :=
  ([' ', 'v', 'a', 'l', 'u', 'e', '='] ++ '"' :: (e.value ++ ['"'])) ++
    ([' ', 'l', 'a', 'b', 'e', 'l', '='] ++ '"' :: (Text.replaceChar '"' ['\''] e.title ++ ['"']))

theorem opener_eq (e : TabEntry) : e.opener = '<' :: (component ++ (e.attributes ++ ['>'])) := by
  have shape : e.opener = ['<', 'T', 'a', 'b', 'I', 't', 'e', 'm', ' ', 'v', 'a', 'l', 'u', 'e', '=', '"'] ++
      e.value ++ ['"', ' ', 'l', 'a', 'b', 'e', 'l', '=', '"'] ++
      Text.replaceChar '"' ['\''] e.title ++ ['"', '>'] := rfl
  rw [shape, component, attributes]
  simp

variable {e : TabEntry}

/-- **The opener of a tab** is one tag, whatever the title is. -/
theorem opens_opener (writable : e.IsWritable) : Opens e.opener component := by
  have noQuote : '"' ∉ Text.replaceChar '"' ['\''] e.title := fun mem =>
    (Text.mem_replaceChar mem).elim (by decide) fun other => other.2 rfl
  have noQuoteValue : '"' ∉ e.value := fun mem => absurd (writable.value _ mem) (by decide)
  have plain : (∀ c ∈ [' ', 'v', 'a', 'l', 'u', 'e', '='], c ∉ ['>', '"', '\'', '\x7b', '\x7d']) ∧
      ∀ c ∈ [' ', 'l', 'a', 'b', 'e', 'l', '='], c ∉ ['>', '"', '\'', '\x7b', '\x7d'] := by
    decide
  have value := TagEndState.along_value plain.1 noQuoteValue none
  have label := TagEndState.along_value plain.2 noQuote (some '"')
  have stays : TagEndState.start.along e.attributes = some ⟨none, 0, some '"'⟩ := by
    rw [attributes, TagEndState.along_append, TagEndState.start, value]
    exact label
  have reads : Tag.ofStart? ('<' :: (component ++ (e.attributes ++ ['>']))) =
      some (false, component) := rfl
  rw [opener_eq]
  exact opens_of_tag reads stays (by decide)

theorem noFeed_opener (writable : e.IsWritable) : '\n' ∉ e.opener := by
  have noFeedTitle : '\n' ∉ Text.replaceChar '"' ['\''] e.title := fun mem =>
    (Text.mem_replaceChar mem).elim (by decide) fun other => writable.title other.1
  have noFeedValue : '\n' ∉ e.value := fun mem => absurd (writable.value _ mem) (by decide)
  simp [opener_eq, component, attributes, noFeedTitle, noFeedValue]

end TabEntry

/-! ## The content of a tab -/

namespace Text

/-- A text without blanks at its ends does not end in one. -/
theorem isBlank_getLast?_trim {t : Text} {c : Char} (last : t.trim.getLast? = some c) :
    isBlank c = false := by
  obtain ⟨front, whole⟩ : t.trim <:+ t.trimEnd := List.dropWhile_suffix _
  have filled : t.trim ≠ [] := by
    intro empty
    rw [empty] at last
    cases last
  refine getLast?_dropEndWhile (p := isBlank) (t := t) ?_
  change t.trimEnd.getLast? = some c
  rw [← whole, List.getLast?_append_of_ne_nil front filled, last]

/-- A text without blanks at its ends, and the same with a line feed behind it, leave the same. -/
theorem trim_feed_cases (t : Text) :
    t.trim = [] ∨ (t.trim ++ ['\n']).lines.map (·.content) = t.trim.lines.map (·.content) := by
  cases last : t.trim.getLast? with
  | none => exact .inl (List.getLast?_eq_none_iff.1 last)
  | some c =>
    have visible := isBlank_getLast?_trim last
    refine .inr (map_content_append_feed last ?_ ?_)
    · rintro rfl
      cases visible
    · rintro rfl
      cases visible

end Text

namespace TabEntry

variable {e : TabEntry}

/-- The lines of the content, where it stands in the group. -/
def contentLines (e : TabEntry) : List Line :=
  ⟨[], .lf⟩ :: ((e.content.trim ++ ['\n']).lines ++ [⟨[], .lf⟩])

/-- The lines of a tab: its opener, its content between blank lines, and its closer. -/
theorem lines_renderEntry (writable : e.IsWritable) :
    (TabGroup.renderEntry e ++ ['\n']).lines =
      ⟨e.opener, .lf⟩ :: (e.contentLines ++ [⟨closer, .lf⟩]) := by
  have shape : TabGroup.renderEntry e ++ ['\n'] =
      Text.joinWith ['\n'] ([e.opener, [], e.content.trim, []] ++ [closer ++ ['\n']]) := by
    have text : TabGroup.renderEntry e = ['<', 'T', 'a', 'b', 'I', 't', 'e', 'm', ' ', 'v', 'a', 'l',
        'u', 'e', '=', '"'] ++ e.value ++ ['"', ' ', 'l', 'a', 'b', 'e', 'l', '=', '"'] ++
        Text.replaceChar '"' ['\''] e.title ++ ['"', '>', '\n', '\n'] ++ e.content.trim ++
        ['\n', '\n', '<', '/', 'T', 'a', 'b', 'I', 't', 'e', 'm', '>'] := rfl
    rw [text, opener_eq]
    simp [Text.joinWith, closer, component, attributes]
  have opening : Text.lines (e.opener ++ ['\n']) = [⟨e.opener, .lf⟩] := by
    have last : e.opener.getLast? = some '>' := by
      rw [opener_eq, ← List.append_assoc, ← List.cons_append]
      exact List.getLast?_concat
    refine Text.lines_append_lf [] (noFeed_opener writable) ?_
    simp [last]
  have closing : Text.lines (closer ++ ['\n']) = [⟨closer, .lf⟩] := by decide
  have blank : Text.lines ([] ++ ['\n']) = [⟨[], .lf⟩] := rfl
  rw [shape, Text.lines_joinWith_feed, closing]
  simp only [List.flatMap_cons, List.flatMap_nil, opening, blank, contentLines]
  simp

theorem balanced_contentLines (quiet : e.content.trim.classified.2.IsQuiet) :
    Line.Balanced e.contentLines := by
  have content : Line.Balanced (e.content.trim ++ ['\n']).lines := by
    rcases e.content.trim_feed_cases with empty | contents
    · rw [empty]
      exact .blank .lf
    · refine .of_quiet ?_
      rw [classifyLines_congr contents]
      exact quiet
  exact (Line.Balanced.blank .lf).append (content.append (.blank .lf))

theorem steady_contentLines (quiet : e.content.trim.classified.2.IsQuiet)
    (noTag : ∀ l ∈ e.content.trim.fenced, l.isCode = false → Tag.ofLine l.line.content = []) :
    Line.Steady e.contentLines := by
  have content : Line.Steady (e.content.trim ++ ['\n']).lines := by
    rcases e.content.trim_feed_cases with empty | contents
    · rw [empty]
      exact .blank .lf
    · refine .of_noTag (.of_quiet ?_) (forall_fencedLines_congr (P := fun t => Tag.ofLine t = [])
        contents.symm noTag)
      rw [classifyLines_congr contents]
      exact quiet
  exact (Line.Steady.blank .lf).append (content.append (.blank .lf))

theorem closes_closer : Closes closer component := by
  have line : closer = [] ++ '<' :: '/' :: (component ++ ['>']) := rfl
  rw [line]
  exact closes_tagLine (List.forall_mem_nil _) (by decide) (by decide)

end TabEntry

/-! ## The group -/

namespace TabGroup

/-- The name of the component of a group. -/
def component : Text :=
  ['T', 'a', 'b', 's']

theorem opens_tabs : Opens ('<' :: (component ++ ([] ++ ['>']))) component := by
  have stays : TagEndState.start.along [] = some ⟨none, 0, none⟩ := rfl
  exact opens_of_tag (by decide) stays (by decide)

theorem closes_tabs : Closes ('<' :: '/' :: (component ++ ['>'])) component := by
  rw [← List.nil_append ('<' :: '/' :: (component ++ ['>']))]
  exact closes_tagLine (List.forall_mem_nil _) (by decide) (by decide)

variable {es : List TabEntry}

/-- The lines of a group: those of its tabs, inside of one element. -/
theorem lines_render (filled : es ≠ []) (writable : ∀ e ∈ es, e.IsWritable) :
    (render es).lines = ⟨'<' :: (component ++ ([] ++ ['>'])), .lf⟩ ::
      ((es.flatMap fun e => ⟨e.opener, .lf⟩ :: (e.contentLines ++ [⟨TabEntry.closer, .lf⟩])) ++
        [⟨'<' :: '/' :: (component ++ ['>']), .none⟩]) := by
  have shape : render es = Text.joinWith ['\n'] ((('<' :: (component ++ ([] ++ ['>']))) ::
      es.map renderEntry) ++ ['<' :: '/' :: (component ++ ['>'])]) := by
    have text : render es = ['<', 'T', 'a', 'b', 's', '>', '\n'] ++
        Text.joinWith ['\n'] (es.map renderEntry) ++
        ['\n', '<', '/', 'T', 'a', 'b', 's', '>'] := rfl
    have some_ : es.map renderEntry ≠ [] := by simpa using filled
    have items := Text.joinWith_feed some_
    rw [text, Text.joinWith_concat_feed, Text.ofLines_cons, ← items]
    simp [component]
  have opening : Text.lines ('<' :: (component ++ ([] ++ ['>'])) ++ ['\n']) =
      [⟨'<' :: (component ++ ([] ++ ['>'])), .lf⟩] := by decide
  have closing : Text.lines ('<' :: '/' :: (component ++ ['>'])) =
      [⟨'<' :: '/' :: (component ++ ['>']), .none⟩] := by decide
  have tabs : (es.flatMap fun e => Text.lines (renderEntry e ++ ['\n'])) =
      es.flatMap fun e => ⟨e.opener, .lf⟩ :: (e.contentLines ++ [⟨TabEntry.closer, .lf⟩]) :=
    List.flatMap_congr fun e mem => TabEntry.lines_renderEntry (writable e mem)
  rw [shape, Text.lines_joinWith_feed, List.flatMap_cons, opening, closing, List.flatMap_map, tabs]
  rfl

/-! ## What groups are read as -/

/-- The title of a marker stands on one line. -/
theorem noFeed_title {t : Text} {m : Marker} (isIn : m ∈ t.markers) :
    '\n' ∉ Text.trim ((m.attribute? "title".toList).getD []) := by
  intro feed
  have stands := (Text.trim_part _).mem feed
  cases has : m.attribute? "title".toList with
  | none =>
    rw [has] at stands
    cases stands
  | some value =>
    rw [has] at stands
    exact (Text.standsIn_of_mem_markers isIn).noFeed has stands

/-- A group has tabs, and each of them has a title on one line and a value of letters and digits. -/
theorem isWritable_of_entries? {inner : Text} (read : entries? inner = some es) :
    es ≠ [] ∧ ∀ e ∈ es, e.IsWritable := by
  obtain ⟨tabs, claimed⟩ := of_entries? read
  constructor
  · rintro rfl
    have some_ := ((entries?_ne_none_iff inner).1 (by simp [read])).1
    exact some_ (List.forall₂_nil_right_iff.1 tabs)
  · intro e mem
    obtain ⟨m, k, next, -, shape⟩ := exists_isOf_of_mem tabs mem
    refine ⟨?_, fun c isIn => ?_⟩
    · rw [shape]
      exact noFeed_title (next.mem (.head _))
    · have value := isTame_of_mem_values (claimed ▸ List.mem_map_of_mem mem)
      exact (value.2 c isIn).isAsciiAlnum

/-- **Groups of tabs are read as they are written.**  If by itself the content of every tab leaves no
fence, component or tag open, then so does the group, whatever the titles are; and if, code aside, no
content holds a tag of a component, escaping leaves the group as it is. -/
theorem escapeBraces_group {inner : Text} (read : entries? inner = some es)
    (quiet : ∀ e ∈ es, e.content.trim.classified.2.IsQuiet) :
    (render es).classified.2.IsQuiet ∧
      ((∀ e ∈ es, ∀ l ∈ e.content.trim.fenced, l.isCode = false →
          Tag.ofLine l.line.content = []) →
        (escapeBraces (render es)).text = render es) := by
  obtain ⟨filled, writable⟩ := isWritable_of_entries? read
  have lines := lines_render filled writable
  constructor
  · have tabs : Line.Balanced (es.flatMap fun e =>
        ⟨e.opener, .lf⟩ :: (e.contentLines ++ [⟨TabEntry.closer, .lf⟩])) :=
      .flatMap fun e mem => .element (TabEntry.opens_opener (writable e mem))
        (TabEntry.balanced_contentLines (quiet e mem)) TabEntry.closes_closer
    have group : Line.Balanced (render es).lines := by
      rw [lines]
      exact .element opens_tabs tabs closes_tabs
    obtain ⟨between, part⟩ := group .start 1 ⟨rfl, rfl⟩
    have stack := List.map_eq_nil_iff.1 (List.prefix_nil.1 part)
    exact ⟨between.fence, stack, between.pending⟩
  · intro noTag
    have tabs : Line.Steady (es.flatMap fun e =>
        ⟨e.opener, .lf⟩ :: (e.contentLines ++ [⟨TabEntry.closer, .lf⟩])) :=
      .flatMap fun e mem => .element (TabEntry.opens_opener (writable e mem))
        (TabEntry.steady_contentLines (quiet e mem) (noTag e mem)) TabEntry.closes_closer
    obtain ⟨fences, carried⟩ : ∃ fences, Carries 1 (render es).lines .start
        { MdxState.start with fences := fences } := by
      rw [lines]
      exact @Line.Steady.carries_element _ _ ⟨_, _⟩ ⟨_, _⟩ opens_tabs tabs closes_tabs _ 1 ⟨rfl, rfl⟩
    exact carried.escapeBraces.1

/-- Two tabs: a title with quotation marks, a slash, an angle bracket and a brace above a fenced block
with a tag in it, and a title with a backtick above stray braces. -/
theorem escapeBraces_group_twoTabs :
    ∃ es, entries? ("\x7b% tab title='\"a\" /> \x7b' %\x7d\n~~~\n<A>\n~~~\n\x7b% endtab %\x7d\n".toList ++
          "\x7b% tab title=\"b\x60\" %\x7d\n\x7bx\x7d y\n\x7b% endtab %\x7d\n".toList) = some es ∧
      (∀ e ∈ es, e.content.trim.classified.2.IsQuiet) ∧
      (∀ e ∈ es, ∀ l ∈ e.content.trim.fenced, l.isCode = false →
        Tag.ofLine l.line.content = []) ∧
      (render es).classified.2.IsQuiet ∧ (escapeBraces (render es)).text = render es := by
  obtain ⟨es, tabs⟩ : ∃ es : List TabEntry,
      es = [⟨"\"a\" /> \x7b".toList, "a".toList, "\n~~~\n<A>\n~~~\n".toList⟩,
        ⟨"b\x60".toList, "b".toList, "\n\x7bx\x7d y\n".toList⟩] := ⟨_, rfl⟩
  have read : entries? ("\x7b% tab title='\"a\" /> \x7b' %\x7d\n~~~\n<A>\n~~~\n\x7b% endtab %\x7d\n".toList ++
      "\x7b% tab title=\"b\x60\" %\x7d\n\x7bx\x7d y\n\x7b% endtab %\x7d\n".toList) = some es := by
    rw [tabs]
    -- A list of characters is evaluated faster than the string that it is read from.
    conv_lhs =>
      enter [1]
      congr <;> rw [String.toList_ofList]
    decide +kernel
  have quiet : ∀ e ∈ es, e.content.trim.classified.2.IsQuiet := by
    rw [tabs]
    decide +kernel
  have noTag : ∀ e ∈ es, ∀ l ∈ e.content.trim.fenced, l.isCode = false →
      Tag.ofLine l.line.content = [] := by
    rw [tabs]
    decide +kernel
  have understood := escapeBraces_group read quiet
  exact ⟨es, read, quiet, noTag, understood.1, understood.2 noTag⟩

end TabGroup
end MdxPress
