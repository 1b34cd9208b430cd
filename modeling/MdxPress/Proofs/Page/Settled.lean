import MdxPress.Page.Conversion
import MdxPress.Proofs.Page.Header
import MdxPress.Site.Content

/-!
When converting a page changes nothing, and when a later reader finds the header that a conversion kept.
A conversion writes the header as it found it and passes the body through six stages, so a converted page
is settled exactly when it has a header of its own, or needs none, and the six stages leave its body alone.
The converted body stands right behind the header, so the two stay apart exactly when the header ends with
a line ending, or there is no body.

* `convertPage_text` separates header and body;
* `convertPage_text_eq_self_iff` is the condition for any page to be settled;
* `convertPage_convertPage_text_iff` is the condition for a second conversion;
* `HeaderSource.isKept` says that the header of a page is its own;
* `Conversion.IsReadBack` is what a later reader should find, `convertPage_isReadBack_iff` the condition.

Caveat: a second conversion can change what the first one wrote, in two ways.  Glyphs are decoded once
for each conversion, so an ampersand that was escaped twice is settled by the second conversion only;
and the imports that the first conversion adds to a page without a header can become the first
paragraph that the second one makes a header of.  A page may also end with the line that closes its header,
without a line ending.  It has no body then, but is given one when the description in its header has to be
shown, and the body begins on the closing line.
-/

namespace MdxPress

/-! ## Headers made for a page -/

/-- Whether a header was made for a page that had none. -/
def HeaderSource.isMade : HeaderSource → Bool
  | .synthesized _ => true
  | _ => false

theorem Header.render_opened {m : Yaml.Mapping} {text : Text} (rendered : render m = .ok text) :
    ∃ rest, text = "---\n".toList ++ rest := by
  unfold render at rendered
  split at rendered
  case h_1 yaml _ =>
    cases rendered
    exact ⟨yaml ++ "---\n\n".toList, by simp⟩
  case h_2 => cases rendered

namespace SplitPage

theorem isMade_ofBlock (b : HeaderBlock) : (ofBlock b).header.isMade = false := by
  unfold ofBlock
  split <;> rfl

theorem text_ofBlock (b : HeaderBlock) : (ofBlock b).header.text = b.raw := by
  unfold ofBlock
  split <;> rfl

/-- A page without a header gets one that opens with a delimiter, or none. -/
theorem header_ofLead (page : Text) :
    (∃ rest, (ofLead page).header = .synthesized ("---\n".toList ++ rest)) ∨
      (ofLead page).header = .absent := by
  unfold ofLead
  split
  case h_1 => exact .inr rfl
  case h_2 paragraph rest _ =>
    dsimp only
    split
    case isTrue => exact .inr rfl
    case isFalse =>
      split
      case h_1 text rendered =>
        obtain ⟨rest, rfl⟩ := Header.render_opened rendered
        exact .inl ⟨rest, rfl⟩
      case h_2 => exact .inr rfl

/-- A header is made only for a page in which none is found, and it opens with a delimiter. -/
theorem exists_of_isMade {page : Text} (made : (ofText page).header.isMade) :
    HeaderBlock.find page = .ok none ∧
      ∃ rest, (ofText page).header.text = "---\n".toList ++ rest := by
  unfold ofText at made ⊢
  split at made
  case h_1 b _ => simp [isMade_ofBlock] at made
  case h_2 missing =>
    refine ⟨missing, ?_⟩
    rcases header_ofLead page with ⟨rest, header⟩ | header
    · exact ⟨rest, by simp [header, HeaderSource.text]⟩
    · simp [header, HeaderSource.isMade] at made
  case h_3 => simp [whole, HeaderSource.isMade] at made

/-- A header that was not made stands before the rest of its page. -/
theorem header_append_behind {page : Text} (kept : (ofText page).header.isMade = false) :
    (ofText page).header.text ++ HeaderBlock.behind page = page := by
  unfold ofText HeaderBlock.behind at *
  split at kept
  case h_1 b found => simpa [text_ofBlock, found] using HeaderBlock.raw_append_body found
  case h_2 missing =>
    rcases header_ofLead page with ⟨rest, header⟩ | header
    · simp [header, HeaderSource.isMade] at kept
    · simp [header, missing, HeaderSource.text]
  case h_3 failed => simp [failed, whole, HeaderSource.text]

end SplitPage

/-! ## The stages behind the first -/

/-- What a stage makes of a body; the first makes it of a whole page. -/
def Stage.body (o : Options) (body : Text) : Stage → Text
  | .frontmatter => (SplitPage.ofText body).body
  | .directives => (convertDirectives o.directives body).text
  | .inlineHtml => Html.normalize o.html body
  | .prose => Glyph.normalize body
  | .escape => (escapeBraces body).text
  | .links => (rewriteLinks body).1
  | .imports => (hoistImports body).text

theorem Stage.body_run (o : Options) (c : Conversion) (s : Stage) :
    (s.run o c).body = s.body o c.body := by
  cases s <;> simp only [run, apply, Conversion.note, Conversion.located, Stage.body]

theorem Stage.header_run (o : Options) (c : Conversion) {s : Stage} (later : s ≠ .frontmatter) :
    (s.run o c).header = c.header := by
  cases s
  case frontmatter => exact (later rfl).elim
  all_goals simp only [run, apply, Conversion.note, Conversion.located]

/-- A body after several stages. -/
def bodyAfter (o : Options) (stages : List Stage) (body : Text) : Text :=
  stages.foldl (Stage.body o) body

theorem header_foldl_run (o : Options) {stages : List Stage} (later : .frontmatter ∉ stages)
    (c : Conversion) : (stages.foldl (Stage.run o) c).header = c.header := by
  induction stages generalizing c with
  | nil => rfl
  | cons s stages ih =>
    obtain ⟨this, others⟩ := not_or.1 (mt List.mem_cons.2 later)
    rw [List.foldl_cons, ih others, Stage.header_run o c (Ne.symm this)]

theorem body_foldl_run (o : Options) (stages : List Stage) (c : Conversion) :
    (stages.foldl (Stage.run o) c).body = bodyAfter o stages c.body := by
  induction stages generalizing c with
  | nil => rfl
  | cons s stages ih => rw [List.foldl_cons, ih, Stage.body_run, bodyAfter, bodyAfter, List.foldl_cons]

/-- The body that the stages behind the first make. -/
def convertBody (o : Options) (body : Text) : Text :=
  bodyAfter o Stage.order.tail body

/-- The header of a conversion is that of its first stage. -/
theorem convertPage_header (o : Options) (path page : Text) :
    (convertPage o path page).header = (SplitPage.ofText page).header := by
  have first : Stage.order = .frontmatter :: Stage.order.tail := rfl
  rw [convertPage, first, List.foldl_cons, header_foldl_run o (by decide)]
  simp only [Stage.run, Stage.apply, Conversion.note, Conversion.located, Conversion.start]

theorem convertPage_body (o : Options) (path page : Text) :
    (convertPage o path page).body = convertBody o (SplitPage.ofText page).body := by
  have first : Stage.order = .frontmatter :: Stage.order.tail := rfl
  rw [convertPage, first, List.foldl_cons, body_foldl_run, Stage.body_run]
  rfl

/-- A conversion keeps the header of the first stage and converts the body. -/
theorem convertPage_text (o : Options) (path page : Text) :
    (convertPage o path page).text =
      (SplitPage.ofText page).header.text ++ convertBody o (SplitPage.ofText page).body := by
  rw [Conversion.text, convertPage_header, convertPage_body]

/-- A page with a header made for it is changed. -/
theorem convertPage_text_ne_of_isMade (o : Options) (path : Text) {page : Text}
    (made : (SplitPage.ofText page).header.isMade) : (convertPage o path page).text ≠ page := by
  intro same
  obtain ⟨missing, rest, opened⟩ := SplitPage.exists_of_isMade made
  rw [convertPage_text, opened, List.append_assoc] at same
  rw [← same] at missing
  exact HeaderBlock.find_opened_ne_none _ missing

/-- A conversion changes nothing exactly when no header is made and the stages behind the first give
back what stands behind the header. -/
theorem convertPage_text_eq_self_iff (o : Options) (path page : Text) :
    (convertPage o path page).text = page ↔
      (SplitPage.ofText page).header.isMade = false ∧
        convertBody o (SplitPage.ofText page).body = HeaderBlock.behind page := by
  constructor
  · intro same
    have kept : (SplitPage.ofText page).header.isMade = false :=
      Bool.eq_false_iff.2 fun made => convertPage_text_ne_of_isMade o path made same
    refine ⟨kept, ?_⟩
    have parts := SplitPage.header_append_behind kept
    rw [convertPage_text] at same
    exact List.append_cancel_left (same.trans parts.symm)
  · rintro ⟨kept, body⟩
    rw [convertPage_text, body, SplitPage.header_append_behind kept]

/-- Whether a header stood in the page: it was read, or could not be. -/
def HeaderSource.isKept : HeaderSource → Bool
  | .parsed _ | .unparseable _ => true
  | _ => false

/-- A later reader of a conversion of `page` finds the header with the YAML it had in the page; it
ends where the header that was written ends, and the body behind it is the converted body. -/
def Conversion.IsReadBack (page : Text) (c : Conversion) : Prop :=
  ∃ b found, HeaderBlock.find page = .ok (some b) ∧ HeaderBlock.find c.text = .ok (some found) ∧
    found.yaml = b.yaml ∧ Text.byteLength found.raw = Text.byteLength c.header.text ∧
    (PageHeader.read c.text).body = c.body

/-- A header that stood in the page is one that is found in it. -/
theorem SplitPage.exists_block_of_isKept {page : Text}
    (kept : (ofText page).header.isKept = true) :
    ∃ b, HeaderBlock.find page = .ok (some b) ∧ (ofText page).header.text = b.raw := by
  unfold ofText at kept ⊢
  split at kept
  case h_1 b found => exact ⟨b, found, text_ofBlock b⟩
  case h_2 =>
    rcases header_ofLead page with ⟨rest, header⟩ | header
    · simp [header, HeaderSource.isKept] at kept
    · simp [header, HeaderSource.isKept] at kept
  case h_3 => simp [whole, HeaderSource.isKept] at kept

theorem PageHeader.body_read {page : Text} {b : HeaderBlock}
    (found : HeaderBlock.find page = .ok (some b)) : (read page).body = b.body := by
  simp only [read, found, ofYaml]
  split <;> rfl

/-- **When a later reader finds the header that was kept:** exactly when the header ends with a line
ending, or the conversion leaves no body behind it. -/
theorem convertPage_isReadBack_iff (o : Options) (path page : Text)
    (kept : (convertPage o path page).header.isKept = true) :
    (convertPage o path page).IsReadBack page ↔
      (convertPage o path page).header.text.getLast? = some '\n' ∨
        (convertPage o path page).body = [] := by
  generalize written : convertPage o path page = c at kept ⊢
  have header : c.header = (SplitPage.ofText page).header := by
    rw [← written, convertPage_header]
  obtain ⟨b, found, raw⟩ := SplitPage.exists_block_of_isKept (header ▸ kept)
  rw [← header] at raw
  have text : c.text = b.raw ++ c.body := by rw [Conversion.text, raw]
  constructor
  · rintro ⟨_, again, -, foundAgain, -, bytes, -⟩
    have parts := HeaderBlock.raw_append_body foundAgain
    rw [text] at parts
    rw [raw] at bytes ⊢
    have same : again.raw = b.raw := Text.eq_of_byteLength_eq parts bytes
    rw [same] at parts
    refine (HeaderBlock.getLast?_raw_or_body_eq_nil foundAgain).imp (same ▸ ·) fun empty => ?_
    rw [← List.append_cancel_left parts, empty]
  · intro apart
    have foundAgain : HeaderBlock.find c.text = .ok (some ⟨b.raw, b.yaml, c.body⟩) := by
      rcases apart with feed | empty
      · rw [text]
        exact HeaderBlock.find_raw_append found (raw ▸ feed) c.body
      · rcases HeaderBlock.getLast?_raw_or_body_eq_nil found with feed | bodiless
        · rw [text]
          exact HeaderBlock.find_raw_append found feed c.body
        · have page_ := HeaderBlock.raw_append_body found
          rw [bodiless] at page_
          rw [text, empty, page_, found]
          cases b
          subst bodiless
          rfl
    exact ⟨b, _, found, foundAgain, rfl, by rw [raw], PageHeader.body_read foundAgain⟩

/-- A header whose last line has an ending. -/
theorem convertPage_isReadBack_iff_ended :
    (convertPage .standard "a.md".toList "---\ndescription: hi\n---\n".toList).header.isKept = true ∧
      (convertPage .standard "a.md".toList "---\ndescription: hi\n---\n".toList).IsReadBack
        "---\ndescription: hi\n---\n".toList := by
  have kept : (convertPage .standard "a.md".toList
      "---\ndescription: hi\n---\n".toList).header.isKept = true := by decide +kernel
  refine ⟨kept, (convertPage_isReadBack_iff _ _ _ kept).2 (.inl ?_)⟩
  decide +kernel

/-- A description that is shown below a header without a last line ending stands on the line that
closes the header. -/
theorem not_isReadBack_convertPage_unended :
    ¬ ∀ (o : Options) (path page : Text), (convertPage o path page).header.isKept = true →
      (convertPage o path page).IsReadBack page := by
  intro all
  have kept : (convertPage .standard "a.md".toList
      "---\ndescription: hi\n---".toList).header.isKept = true := by decide +kernel
  have text : (convertPage .standard "a.md".toList "---\ndescription: hi\n---".toList).text =
      "---\ndescription: hi\n---hi\n\n".toList := by decide +kernel
  obtain ⟨b, found, -, read, -⟩ := all _ _ _ kept
  rw [text] at read
  have unclosed : HeaderBlock.find "---\ndescription: hi\n---hi\n\n".toList =
      .error .unterminated := by rfl
  rw [unclosed] at read
  cases read

end MdxPress
