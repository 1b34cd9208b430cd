import MdxPress.Proofs.Mdx.Run
import MdxPress.Site.Schema

/-!
The schema component as the escaping of braces reads it: an import, and one tag over several lines,
whose attributes hold text of the page.  The end of a tag is searched line by line, and a search
knows nothing of the quotation marks that are open on the lines before.  So the tag is read as it is
written if no line of an attribute ends it, as it stands there by itself, and no attribute leaves a
fence open.

* `Schema.staysOpen_line`: an attribute on one line is such a one;
* `Schema.escapeBraces_component` is the whole component;
* `Schema.not_understood_brokenTitle`: a title of two lines ends the tag.
-/

namespace MdxPress

/-! ## Attributes -/

/-- A stretch of a tag, on lines of its own, that the tag goes on behind: it leaves no fence open, and
no line of it, code aside, ends the tag. -/
structure Text.StaysOpen (t : Text) : Prop where
  outside : FenceState.run none t.lines = none
  noEnd : ∀ l ∈ t.fenced, l.isCode = false → tagEnd? l.line.content = none

instance (t : Text) : Decidable t.StaysOpen :=
  decidable_of_iff (FenceState.run none t.lines = none ∧
      ∀ l ∈ t.fenced, l.isCode = false → tagEnd? l.line.content = none)
    ⟨fun h => ⟨h.1, h.2⟩, fun h => ⟨h.outside, h.noEnd⟩⟩

namespace Schema

/-- The first line of the tag of a component. -/
def opener : SchemaKind → Text
  | .main => "<SoftwareDocumentationSchema".toList
  | .faq | .tutorial | .article => "<TechnicalArticleSchema".toList

/-- What a component of a kind imports. -/
def importNames : SchemaKind → String
  | .main => "SoftwareDocumentationSchema"
  | .faq => "FAQSchema, TechnicalArticleSchema"
  | .tutorial | .article => "TechnicalArticleSchema"

/-- The attributes of a component. -/
def attributes (kind : SchemaKind) (f : Fields) : List Text :=
  match kind with
  | .main => [line "description" (value f.description), line "dateModified" f.date]
  | .faq | .tutorial | .article =>
    [line "headline" (value f.title), line "description" (value f.description), line "url" f.url,
      line "datePublished" f.date, line "dateModified" f.date]

/-- A component is its import, a blank line and a tag with one line for each attribute. -/
theorem render_eq (kind : SchemaKind) (module : Text) (f : Fields) :
    render kind module f = Text.joinWith ['\n'] ((importLine (importNames kind) module :: [] ::
      opener kind :: attributes kind f) ++ ["/>".toList]) := by
  cases kind <;> rfl

/-- What holds of five lines holds of all attributes of a component. -/
theorem forall_mem_attributes (kind : SchemaKind) {f : Fields} {P : Text → Prop}
    (headline : P (line "headline" (value f.title)))
    (describes : P (line "description" (value f.description))) (leads : P (line "url" f.url))
    (published : P (line "datePublished" f.date)) (modified : P (line "dateModified" f.date)) :
    ∀ a ∈ attributes kind f, P a := by
  cases kind with
  | main => exact List.forall_mem_cons.2 ⟨describes, List.forall_mem_singleton.2 modified⟩
  | faq | tutorial | article =>
    exact List.forall_mem_cons.2 ⟨headline, List.forall_mem_cons.2 ⟨describes,
      List.forall_mem_cons.2 ⟨leads, List.forall_mem_cons.2 ⟨published,
        List.forall_mem_singleton.2 modified⟩⟩⟩⟩

theorem getLast?_of_mem_attributes {kind : SchemaKind} {f : Fields} {a : Text}
    (mem : a ∈ attributes kind f) : a.getLast? = some '"' := by
  have last (name : String) (t : Text) : (line name t).getLast? = some '"' := List.getLast?_concat
  exact forall_mem_attributes kind (P := fun a => a.getLast? = some '"') (last _ _) (last _ _)
    (last _ _) (last _ _) (last _ _) a mem

/-- An attribute, character by character around the name and the value. -/
theorem line_eq (name : String) (t : Text) :
    line name t = [' ', ' '] ++ name.toList ++ ['=', '"'] ++ t ++ ['"'] := rfl

section

variable {name : String} {t : Text} (letters : ∀ c ∈ name.toList, Text.isAsciiAlnum c = true)
include letters

theorem ne_of_mem_name {c d : Char} (mem : c ∈ name.toList) (odd : Text.isAsciiAlnum d = false) :
    c ≠ d := by
  intro same
  rw [← same, letters c mem] at odd
  cases odd

theorem tagEnd?_line (noQuote : '"' ∉ t) : tagEnd? (line name t) = none := by
  have shape : line name t = ([' ', ' '] ++ name.toList ++ ['=']) ++ '"' :: (t ++ ['"']) := by
    rw [line_eq]
    simp
  have plain : ∀ c ∈ [' ', ' '] ++ name.toList ++ ['='], c ∉ ['>', '"', '\'', '\x7b', '\x7d'] := by
    intro c mem special
    simp only [List.mem_append] at mem
    rcases mem with (space | letter) | sign
    · revert c
      decide
    · simp [ne_of_mem_name letters letter (d := '>') rfl, ne_of_mem_name letters letter (d := '"') rfl,
        ne_of_mem_name letters letter (d := '\'') rfl, ne_of_mem_name letters letter (d := '{') rfl,
        ne_of_mem_name letters letter (d := '}') rfl] at special
    · rw [List.mem_singleton.1 sign] at special
      revert special
      decide
  rw [shape]
  exact TagEndState.find?_eq_none (TagEndState.along_value plain noQuote none)

theorem opener_line : FenceOpener.ofLine? (line name t) = none := by
  have shape : line name t = [' ', ' '] ++ (name.toList ++ '=' :: '"' :: (t ++ ['"'])) := by
    rw [line_eq]
    simp
  rw [shape]
  refine FenceOpener.ofLine?_eq_none_of_head (by decide) fun c head => ?_
  cases first : name.toList with
  | nil =>
    rw [first] at head
    obtain rfl : '=' = c := Option.some.inj head
    decide
  | cons d r =>
    rw [first] at head
    obtain rfl : d = c := Option.some.inj head
    have mem : d ∈ name.toList := first ▸ .head _
    simp [Text.isIndent, FenceMark.ofChar?, ne_of_mem_name letters mem (d := ' ') rfl,
      ne_of_mem_name letters mem (d := '\t') rfl, ne_of_mem_name letters mem (d := '\x60') rfl,
      ne_of_mem_name letters mem (d := '~') rfl]

theorem noFeed_line (noFeed : '\n' ∉ t) : '\n' ∉ line name t := by
  intro mem
  rw [line_eq] at mem
  simp only [List.mem_append] at mem
  rcases mem with (((space | letter) | sign) | value) | quote
  · revert space
    decide
  · exact ne_of_mem_name letters letter rfl rfl
  · revert sign
    decide
  · exact noFeed value
  · revert quote
    decide

/-- **An attribute on one line** does not end the tag, whatever else its value holds, if no quotation
mark in it ends the value. -/
theorem staysOpen_line (noFeed : '\n' ∉ t) (noQuote : '"' ∉ t) : (line name t).StaysOpen := by
  have one : (line name t).lines = [⟨line name t, .none⟩] :=
    Text.lines_of_noFeed (by simp [line_eq]) (noFeed_line letters noFeed)
  constructor
  · rw [one]
    simp [FenceState.run, FenceState.next, opener_line letters]
  · rw [Text.fenced, one]
    exact List.forall_mem_singleton.2 fun _ => tagEnd?_line letters noQuote

end

/-- **Attributes on one line each.**  Quotation marks are taken out of titles and descriptions, so
these need only be without line feeds. -/
theorem staysOpen_of_mem_attributes {kind : SchemaKind} {f : Fields} {a : Text}
    (title : '\n' ∉ f.title) (description : '\n' ∉ f.description)
    (url : '\n' ∉ f.url ∧ '"' ∉ f.url) (date : '\n' ∉ f.date ∧ '"' ∉ f.date)
    (mem : a ∈ attributes kind f) : a.StaysOpen := by
  have noQuote (t : Text) : '"' ∉ value t := fun mem =>
    (Text.mem_replaceChar mem).elim (by decide) fun other => other.2 rfl
  have noFeed {t : Text} (one : '\n' ∉ t) : '\n' ∉ value t := fun mem =>
    (Text.mem_replaceChar mem).elim (by decide) fun other => one other.1
  exact forall_mem_attributes kind (staysOpen_line (by decide) (noFeed title) (noQuote _))
    (staysOpen_line (by decide) (noFeed description) (noQuote _))
    (staysOpen_line (by decide) url.1 url.2) (staysOpen_line (by decide) date.1 date.2)
    (staysOpen_line (by decide) date.1 date.2) a mem

/-! ## The component, line by line -/

/-- The import, character by character around the names and the module. -/
theorem importLine_eq (names : String) (module : Text) :
    importLine names module = ['i', 'm', 'p', 'o', 'r', 't', ' ', '\x7b', ' '] ++ names.toList ++
      [' ', '\x7d', ' ', 'f', 'r', 'o', 'm', ' ', '\''] ++ module ++ ['\'', ';'] := rfl

/-- A line feed or an angle bracket in the import would be one in the name of the module. -/
theorem not_mem_importLine (kind : SchemaKind) {module : Text} {c : Char} (odd : c ∈ ['\n', '<'])
    (absent : c ∉ module) : c ∉ importLine (importNames kind) module := by
  have around : ∀ d ∈ ['\n', '<'], d ∉ ['i', 'm', 'p', 'o', 'r', 't', ' ', '\x7b', ' '] ∧
      d ∉ [' ', '\x7d', ' ', 'f', 'r', 'o', 'm', ' ', '\''] ∧ d ∉ ['\'', ';'] := by
    decide
  have names : ∀ d ∈ ['\n', '<'], d ∉ (importNames kind).toList := by
    cases kind <;> decide
  obtain ⟨before, between, behind⟩ := around c odd
  rw [importLine_eq]
  intro mem
  simp only [List.mem_append] at mem
  rcases mem with (((first | name) | middle) | named) | last
  · exact before first
  · exact names c odd name
  · exact between middle
  · exact absent named
  · exact behind last

/-- The lines of a component: every attribute begins a line of its own. -/
theorem lines_render (kind : SchemaKind) {module : Text} (f : Fields) (noFeed : '\n' ∉ module) :
    (render kind module f).lines =
      ⟨importLine (importNames kind) module, .lf⟩ :: ⟨[], .lf⟩ :: ⟨opener kind, .lf⟩ ::
        (((attributes kind f).flatMap fun a => Text.lines (a ++ ['\n'])) ++
          [⟨"/>".toList, .none⟩]) := by
  have imports : Text.lines (importLine (importNames kind) module ++ ['\n']) =
      [⟨importLine (importNames kind) module, .lf⟩] := by
    refine Text.lines_append_lf [] (not_mem_importLine kind (.head _) noFeed) ?_
    rw [importLine_eq, List.getLast?_append_of_ne_nil _ (by simp)]
    simp
  have first : Text.lines (opener kind ++ ['\n']) = [⟨opener kind, .lf⟩] := by
    cases kind <;> rfl
  rw [render_eq, Text.lines_joinWith_feed, List.flatMap_cons, List.flatMap_cons, List.flatMap_cons,
    imports, first]
  rfl

/-- From the tag on, the attributes lead to where they began. -/
theorem carries_attributes {ts : List Text} (each : ∀ a ∈ ts, a.StaysOpen ∧ a.getLast? = some '"')
    {s : MdxState} (outside : s.fence = none) (pending : s.pending.isSome = true) (lineNo : Nat) :
    ∃ fences, MdxState.Carries lineNo (ts.flatMap fun a => Text.lines (a ++ ['\n'])) s
      { s with fences := fences } := by
  induction ts generalizing s lineNo with
  | nil => exact ⟨s.fences, .nil⟩
  | cons a ts ih =>
    obtain ⟨⟨stays, last⟩, rest⟩ := List.forall_mem_cons.1 each
    have contents : a.lines.map (·.content) = (Text.lines (a ++ ['\n'])).map (·.content) :=
      (Text.map_content_append_feed last (by decide) (by decide)).symm
    have busy : s.unclosed ≠ [] := by
      obtain ⟨p, open_⟩ := Option.isSome_iff_exists.1 pending
      simp [MdxState.unclosed, open_]
    have idle : ∀ l ∈ fencedLines s.fence (Text.lines (a ++ ['\n'])), l.isCode = false →
        s.Idle l.line.content := by
      rw [outside]
      refine forall_fencedLines_congr contents fun l mem prose => ?_
      rw [MdxState.Idle, if_pos pending]
      exact stays.noEnd l mem prose
    obtain ⟨fences, first⟩ := MdxState.carries_idle lineNo busy idle
    have closed : s.fence.run (Text.lines (a ++ ['\n'])) = s.fence := by
      rw [outside, ← FenceState.run_congr contents, stays.outside]
    rw [closed] at first
    obtain ⟨more, later⟩ := ih rest (s := { s with fences := fences }) outside pending _
    exact ⟨more, first.append later⟩

theorem advance_import (kind : SchemaKind) {module : Text} (noAngle : '<' ∉ module) (lineNo : Nat) :
    MdxState.start.advance (importLine (importNames kind) module) lineNo = (.exempt, .start) := by
  have noFence : FenceOpener.ofLine? (importLine (importNames kind) module) = none := rfl
  have noTag : Tag.ofLine (importLine (importNames kind) module) = [] :=
    Tag.ofLine_eq_nil (not_mem_importLine kind (by simp) noAngle)
  rw [MdxState.advance_of_noFence rfl noFence, MdxState.advanceProse_of_noTag rfl noTag]
  rfl

theorem advance_opener (kind : SchemaKind) : MdxState.start.advance (opener kind) 3 =
    (.component, { MdxState.start with pending := some ⟨(opener kind).tail, 3, 1⟩ }) := by
  cases kind <;> decide +kernel

/-- The last line of a tag that closes itself takes it away. -/
theorem advance_end {s : MdxState} (outside : s.fence = none) (pending : s.pending.isSome = true)
    (lineNo : Nat) : s.advance "/>".toList lineNo = (.component, { s with pending := none }) := by
  obtain ⟨p, open_⟩ := Option.isSome_iff_exists.1 pending
  have ends : tagEnd? "/>".toList = some (2, true) := rfl
  have noTag : Tag.ofLine "/>".toList = [] := rfl
  rw [MdxState.advance_of_noFence outside rfl, MdxState.advanceProse, open_]
  simp only [ends, noTag]
  rfl

/-- **The component is read as it is written.**  If the tag goes on behind every attribute, escaping
leaves the component as it is, closes its tag and reports nothing. -/
theorem escapeBraces_component (kind : SchemaKind) {module : Text} (f : Fields) (noFeed : '\n' ∉ module)
    (noAngle : '<' ∉ module) (open_ : ∀ a ∈ attributes kind f, a.StaysOpen) :
    (escapeBraces (render kind module f)).text = render kind module f ∧
      (escapeBraces (render kind module f)).report.unclosed = [] ∧
      (escapeBraces (render kind module f)).diagnostics = [] := by
  have each : ∀ a ∈ attributes kind f, a.StaysOpen ∧ a.getLast? = some '"' :=
    fun a mem => ⟨open_ a mem, getLast?_of_mem_attributes mem⟩
  obtain ⟨fences, inner⟩ := carries_attributes each
    (s := { MdxState.start with pending := some ⟨(opener kind).tail, 3, 1⟩ }) rfl rfl 4
  have last (lineNo : Nat) := MdxState.Carries.line (l := ⟨"/>".toList, .none⟩)
    (advance_end (s := { MdxState.start with
      pending := some ⟨(opener kind).tail, 3, 1⟩, fences := fences }) rfl rfl lineNo) rfl
  have carried : MdxState.Carries 1 (render kind module f).lines .start
      { MdxState.start with fences := fences } := by
    rw [lines_render kind f noFeed]
    refine .cons (advance_import kind noAngle 1) rfl ?_
    refine .cons (MdxState.advance_blank rfl rfl) (MdxState.escapeClassified_blank _ _) ?_
    refine .cons (advance_opener kind) rfl ?_
    exact inner.append (last _)
  obtain ⟨text, unclosed⟩ := carried.escapeBraces
  have none : (escapeBraces (render kind module f)).unclosed = [] := unclosed
  have names : (escapeBraces (render kind module f)).report.unclosed =
      (escapeBraces (render kind module f)).unclosed.map (·.name) := rfl
  rw [names, Escaped.diagnostics, none]
  exact ⟨text, rfl, rfl⟩

/-- A title with quotation marks, braces, an angle bracket, backticks and a tag, and a description
with a fenced block in it. -/
theorem escapeBraces_component_marked :
    (∀ a ∈ attributes .faq ⟨"\"a\" > <B> \x7bc\x7d ```".toList, "d\n~~~\n>\n~~~\n".toList,
        "https://x.io/a b".toList, "2024-05-01".toList⟩, a.StaysOpen) ∧
      (escapeBraces (render .faq "@site/Schema".toList ⟨"\"a\" > <B> \x7bc\x7d ```".toList,
        "d\n~~~\n>\n~~~\n".toList, "https://x.io/a b".toList, "2024-05-01".toList⟩)).diagnostics =
        [] := by
  have stays : ∀ a ∈ attributes .faq ⟨"\"a\" > <B> \x7bc\x7d ```".toList,
      "d\n~~~\n>\n~~~\n".toList, "https://x.io/a b".toList, "2024-05-01".toList⟩,
      a.StaysOpen := by
    decide +kernel
  have noFeed : '\n' ∉ "@site/Schema".toList := by decide +kernel
  have noAngle : '<' ∉ "@site/Schema".toList := by decide +kernel
  have read := escapeBraces_component .faq _ noFeed noAngle stays
  exact ⟨stays, read.2.2⟩

/-- **A title of two lines.**  The end of the tag is searched anew on the second line, outside of the
quotation marks that the first one opened, so its angle bracket ends the tag, and the component is
never closed. -/
theorem not_understood_brokenTitle :
    ¬∀ (kind : SchemaKind) (module title description base stem date : Text),
      (∀ c ∈ module, c ∉ ['"', '\'', '\x7b', '\x7d', '<', '>', '\n', '\r']) →
        (escapeBraces (render kind module ⟨title, description, base ++ '/' :: stem, date⟩)).text =
            render kind module ⟨title, description, base ++ '/' :: stem, date⟩ ∧
          (escapeBraces (render kind module
            ⟨title, description, base ++ '/' :: stem, date⟩)).report.unclosed = [] ∧
          (escapeBraces (render kind module
            ⟨title, description, base ++ '/' :: stem, date⟩)).diagnostics = [] := by
  intro understood
  have left : (escapeBraces (render .article "@site/Schema".toList ⟨"a\n>b".toList, "D".toList,
      "https://x.io".toList ++ '/' :: "a".toList, "2024-05-01".toList⟩)).report.unclosed =
        ["TechnicalArticleSchema".toList] := by
    decide +kernel
  have read := understood .article "@site/Schema".toList "a\n>b".toList "D".toList
    "https://x.io".toList "a".toList "2024-05-01".toList (by decide +kernel)
  rw [left] at read
  cases read.2.1

end Schema
end MdxPress
