import Mathlib.Data.List.DropRight
import MdxPress.Proofs.Site.Completed
import MdxPress.Proofs.Site.Metadata
import MdxPress.Proofs.Site.ReadBack

/-!
What the metadata pass makes of a page that it completed before.  The body has the import of the
schema components then, so only the header decides.

* `Synthesis.imports_bodyOf` says that a completed body has the import;
* `Metadata.isComplete_iff_isShown` says when the header of a completed page has all metadata;
* `Synthesis.isSettled_text_iff` is the condition.

Caveat: a value that is not found again in the header is made anew, from a body that has changed.
-/

namespace MdxPress

open Yaml

/-! ## Imports -/

namespace Text

/-- What begins inside a line stays where line breaks in front are dropped. -/
theorem infix_dropBreaks {c : Char} {r t : Text} (inLine : isBreak c = false) (part : c :: r <:+: t) :
    c :: r <:+: t.dropBreaks := by
  induction t with
  | nil => exact part
  | cons d t ih =>
    rw [dropBreaks, List.dropWhile_cons]
    split
    · rename_i break_
      rcases List.infix_cons_iff.1 part with ⟨later, same⟩ | part
      · obtain ⟨rfl, -⟩ := List.cons.inj same
        simp only [Bool.or_eq_true, decide_eq_true_eq] at break_
        rcases break_ with rfl | rfl <;> cases inLine
      · exact ih part
    · exact part

end Text

namespace Schema

theorem imports_iff {body module : Text} : imports body module = true ↔
    "from '".toList ++ module ++ ['\''] <:+: body ∨ "from \"".toList ++ module ++ ['"'] <:+: body := by
  rw [imports, Bool.or_eq_true, Text.contains_iff, Text.contains_iff]

theorem imports_of_infix {t u module : Text} (has : imports t module = true) (part : t <:+: u) :
    imports u module = true :=
  imports_iff.2 ((imports_iff.1 has).imp (·.trans part) (·.trans part))

theorem imports_dropBreaks {body module : Text} (has : imports body module = true) :
    imports body.dropBreaks module = true := by
  have inLine : isBreak 'f' = false := rfl
  exact imports_iff.2 ((imports_iff.1 has).imp (Text.infix_dropBreaks inLine) (Text.infix_dropBreaks inLine))

theorem imports_importLine (names : String) (module : Text) :
    imports (importLine names module) module = true := by
  have line : importLine names module = "import \x7b ".toList ++ names.toList ++
      (" \x7d ".toList ++ "from '".toList) ++ module ++ (['\''] ++ [';']) := rfl
  have part : "from '".toList ++ module ++ ['\''] <:+: importLine names module := by
    rw [line]
    generalize "import \x7b ".toList ++ names.toList = before
    generalize "from '".toList = word
    have cut : before ++ (" \x7d ".toList ++ word) ++ module ++ (['\''] ++ [';']) =
        (before ++ " \x7d ".toList) ++ (word ++ module ++ ['\'']) ++ [';'] := by
      simp only [List.append_assoc]
    rw [cut]
    exact List.infix_append _ _ _
  exact imports_iff.2 (.inl part)

/-- A component stands below its own import. -/
theorem imports_render (kind : SchemaKind) (module : Text) (f : Fields) :
    imports (render kind module f) module = true := by
  have below (names : String) (l : Text) (ls : List Text) :
      imports (Text.joinWith ['\n'] (importLine names module :: l :: ls)) module = true := by
    refine imports_of_infix (imports_importLine names module) ?_
    rw [Text.joinWith, List.append_assoc]
    exact (List.prefix_append _ _).isInfix
  cases kind <;> exact below _ _ _

theorem insert_infix (body block : Text) : block <:+: insert body block := by
  obtain ⟨imports, rest, -, inserted⟩ := exists_insert body block
  generalize (if imports.isEmpty then [] else (Line.join imports).dropBreaks.trimEnd ++
    "\n\n".toList : Text) = lead at inserted
  rw [inserted, List.append_assoc]
  exact (List.prefix_append _ _).isInfix.trans (List.suffix_append _ _).isInfix

end Schema

namespace Synthesis

/-- **A completed body has the import.** -/
theorem imports_bodyOf (c : SiteConfig) (path page : Text) (m : Metadata) :
    Schema.imports (bodyOf c path page m) c.schemaModule = true := by
  unfold bodyOf
  split
  · assumption
  · exact Schema.imports_of_infix (Schema.imports_render _ _ _) (Schema.insert_infix _ _)

end Synthesis

/-! ## Metadata found again -/

namespace Metadata

theorem extraEntries_extraEntries (frontmatter : Mapping) :
    extraEntries (extraEntries frontmatter) = extraEntries frontmatter := by
  simp [extraEntries]

theorem keywords_ne_nil (c : SiteConfig) (family : Option Archetype) (stem : Text)
    (frontmatter : Mapping) (info : ContentInfo) :
    (ofPage c family stem frontmatter info).keywords.value ≠ [] := by
  simp only [ofPage]
  cases found : (frontmatter.get? "keywords".toList).bind keywords? with
  | none => simp [Provided.orElse, makeKeywords, distinct, maxKeywords]
  | some ks =>
    obtain ⟨v, -, listed⟩ := Option.bind_eq_some_iff.1 found
    exact (keywords?_eq_some_iff.1 listed).2

/-- Metadata all three of which show in a header: a title and a description that are not blank, and
keywords that can be read, one of them as a scalar that is not blank. -/
structure IsShown (m : Metadata) : Prop where
  title : m.title.value.allBlank = false
  description : m.description.value.allBlank = false
  keywords : ∃ vs, keywordValues m.keywords.value = .ok vs ∧ vs.filterMap scalarText? ≠ []

theorem isPresent_orElse {α : Type} (found : Option α) (made : α) :
    (Provided.orElse found made).isPresent = found.isSome := by
  cases found <;> rfl

theorem isSome_scalarText?_string (t : Text) : (scalarText? (.string t)).isSome = !t.allBlank := by
  cases blank : t.allBlank <;> simp [scalarText?, blank]

theorem isSome_keywords?_sequence (vs : List Value) :
    (keywords? (.sequence vs)).isSome = !(vs.filterMap scalarText?).isEmpty := by
  simp only [keywords?]
  split
  · rename_i none
    rw [none]
    rfl
  · rename_i filled
    rw [Bool.eq_false_iff.2 filled]
    rfl

/-- **When a header that was written has all metadata**, given what its YAML says. -/
theorem isComplete_iff_isShown {m : Metadata} {extra : Mapping} {yaml : Text}
    (means : Header.parse yaml = ((keywordValues m.keywords.value).map fun vs =>
      headMapping m vs ++ extra).mapError .unreadable)
    (c : SiteConfig) (family : Option Archetype) (stem : Text) (info : ContentInfo) (body : Text) :
    (ofPage c family stem (PageHeader.ofYaml .delimited yaml body).frontmatter info).isComplete = true ↔
      m.IsShown := by
  rw [PageHeader.ofYaml, means]
  cases values : keywordValues m.keywords.value with
  | error e =>
    constructor
    · intro complete
      cases complete
    · intro shown
      obtain ⟨vs, read, -⟩ := shown.keywords
      rw [values] at read
      cases read
  | ok vs =>
    obtain ⟨title, description, keywords⟩ := get?_headMapping m vs extra
    simp only [Except.map, Except.mapError, isComplete, ofPage, isPresent_orElse, title, description,
      keywords, Option.bind_some, isSome_scalarText?_string, isSome_keywords?_sequence,
      Bool.and_eq_true, Bool.not_eq_true']
    constructor
    · rintro ⟨⟨titleShown, descriptionShown⟩, keywordsShown⟩
      exact ⟨titleShown, descriptionShown, vs, values, by simpa using keywordsShown⟩
    · rintro ⟨titleShown, descriptionShown, vs', read, keywordsShown⟩
      rw [values] at read
      cases read
      exact ⟨⟨titleShown, descriptionShown⟩, by simpa using keywordsShown⟩

end Metadata

/-! ## The second run -/

theorem PageHeader.body_ofYaml (form : HeaderForm) (yaml body : Text) :
    (ofYaml form yaml body).body = body := by
  unfold ofYaml
  split <;> rfl

namespace Synthesis

/-- A page that the metadata pass leaves as it is, and says so. -/
def IsSettled (c : SiteConfig) (path page : Text) : Prop :=
  ∃ s, (ofPage c path page).2 = .ok s ∧ IsLeft page s

variable {c : SiteConfig} {path page : Text} {s : Synthesis}

/-- A page with the import is settled if it lacks nothing, or if it is made of itself. -/
theorem isSettled_iff (has : Schema.imports (PageHeader.read page).body c.schemaModule = true) :
    IsSettled c path page ↔ isWhole c page (metadataOf c path page) = true ∨
      ∃ head, headerOf page (metadataOf c path page) = .ok head ∧ textOf c path page head = page := by
  rw [IsSettled, ofPage_eq]
  cases whole : isWhole c page (metadataOf c path page) with
  | true => exact ⟨fun _ => .inl rfl, fun _ => ⟨_, rfl, rfl, rfl, rfl⟩⟩
  | false =>
    cases rendered : headerOf page (metadataOf c path page) with
    | error e => simp [Except.map]
    | ok head =>
      constructor
      · rintro ⟨s, completed, left⟩
        cases completed
        exact .inr ⟨head, rfl, left.text⟩
      · rintro (lacking | ⟨head', same, text⟩)
        · cases lacking
        · cases same
          exact ⟨_, rfl, text, by simp [made, text], by simp [made, has]⟩

/-- How a completed page is read. -/
theorem exists_read_textOf (kept : (metadataOf c path page).IsKept)
    (carried : Metadata.Carried (Metadata.extraEntries (PageHeader.read page).frontmatter)) :
    ∃ head yaml, headerOf page (metadataOf c path page) = .ok head ∧
      Header.parse yaml = ((Metadata.keywordValues (metadataOf c path page).keywords.value).map fun vs =>
        Metadata.headMapping (metadataOf c path page) vs ++
          Metadata.extraEntries (PageHeader.read page).frontmatter).mapError .unreadable ∧
      PageHeader.read (textOf c path page head) = .ofYaml .delimited yaml
        ('\n' :: (bodyOf c path page (metadataOf c path page)).dropBreaks) := by
  obtain ⟨head, yaml, rendered, means, reads⟩ := Metadata.exists_yaml_renderHeader kept
    (Metadata.keywords_ne_nil _ _ _ _ _) (Metadata.extraEntries_extraEntries _) carried
  exact ⟨head, yaml, rendered, means, reads _⟩

section

variable {head yaml : Text}
  (reads : PageHeader.read (textOf c path page head) = .ofYaml .delimited yaml
    ('\n' :: (bodyOf c path page (metadataOf c path page)).dropBreaks))
include reads

theorem body_read_textOf : (PageHeader.read (textOf c path page head)).body =
    '\n' :: (bodyOf c path page (metadataOf c path page)).dropBreaks := by
  rw [reads, PageHeader.body_ofYaml]

theorem imports_read_textOf :
    Schema.imports (PageHeader.read (textOf c path page head)).body c.schemaModule = true := by
  rw [body_read_textOf reads]
  exact Schema.imports_of_infix (Schema.imports_dropBreaks (imports_bodyOf c path page _))
    (List.suffix_cons _ _).isInfix

/-- A completed page lacks nothing if its header shows all metadata. -/
theorem isWhole_textOf_iff
    (means : Header.parse yaml =
      ((Metadata.keywordValues (metadataOf c path page).keywords.value).map fun vs =>
        Metadata.headMapping (metadataOf c path page) vs ++
          Metadata.extraEntries (PageHeader.read page).frontmatter).mapError .unreadable) :
    isWhole c (textOf c path page head) (metadataOf c path (textOf c path page head)) = true ↔
      (metadataOf c path page).IsShown := by
  have form : (PageHeader.read (textOf c path page head)).form = .delimited := by
    rw [reads, PageHeader.form_ofYaml]
  simp only [isWhole, form, imports_read_textOf reads, decide_true, Bool.true_and, Bool.and_true]
  rw [metadataOf, reads]
  exact Metadata.isComplete_iff_isShown means _ _ _ _ _

/-- A second run keeps the body of a completed page, so its header makes the difference. -/
theorem textOf_textOf_iff (head' : Text) :
    textOf c path (textOf c path page head) head' = textOf c path page head ↔ head' = head := by
  have behind : (bodyOf c path (textOf c path page head)
      (metadataOf c path (textOf c path page head))).dropBreaks =
        (bodyOf c path page (metadataOf c path page)).dropBreaks := by
    rw [bodyOf, if_pos (imports_read_textOf reads), body_read_textOf reads]
    exact List.dropWhile_idempotent _ _
  rw [textOf, behind, textOf, List.append_left_inj, List.append_left_inj]

end

/-- **When a completed page is settled:** exactly when its header shows all metadata, or when what is
made in place of the missing ones gives the same header. -/
theorem isSettled_text_iff (completed : (ofPage c path page).2 = .ok s)
    (written : isWhole c page (metadataOf c path page) = false → (metadataOf c path page).IsKept ∧
      Metadata.Carried (Metadata.extraEntries (PageHeader.read page).frontmatter)) :
    IsSettled c path s.text ↔ s.metadata.IsShown ∨
      headerOf s.text (metadataOf c path s.text) = headerOf page (metadataOf c path page) := by
  rcases ofPage_cases completed with ⟨whole, left⟩ | ⟨lacks, head, rendered, rfl⟩
  · have settled : IsSettled c path s.text := by
      rw [left.text]
      exact ⟨s, completed, left⟩
    exact iff_of_true settled (.inr (by rw [left.text]))
  · obtain ⟨kept, carried⟩ := written lacks
    obtain ⟨head', yaml, rendered', means, reads⟩ := exists_read_textOf kept carried
    obtain rfl := Except.ok.inj (rendered.symm.trans rendered')
    change IsSettled c path (textOf c path page head) ↔ (metadataOf c path page).IsShown ∨
      headerOf (textOf c path page head) (metadataOf c path (textOf c path page head)) = _
    rw [isSettled_iff (imports_read_textOf reads), isWhole_textOf_iff reads means, rendered]
    simp only [textOf_textOf_iff reads, exists_eq_right]

/-- A page with another entry in its header, and with keywords that are read as a number and as null. -/
def numbered : Text :=
  "---\ntitle: T\nkeywords: [\"1e3\", \"null\"]\nslug: 7\n---\nimport A\n\ntext\n".toList

theorem isSettled_text_iff_numbered :
    ∃ s, (ofPage fixedDay "a.md".toList numbered).2 = .ok s ∧
      (metadataOf fixedDay "a.md".toList numbered).IsKept ∧
      Metadata.Carried (Metadata.extraEntries (PageHeader.read numbered).frontmatter) ∧
      (IsSettled fixedDay "a.md".toList s.text ↔ s.metadata.IsShown ∨
        headerOf s.text (metadataOf fixedDay "a.md".toList s.text) =
          headerOf numbered (metadataOf fixedDay "a.md".toList numbered)) := by
  -- A list of characters is evaluated faster than the string that it is read from.
  have chars : numbered = _ := String.toList_ofList
  have writes : (ofPage fixedDay "a.md".toList numbered).2.isOk := by
    rw [chars]
    decide +kernel
  have kept : (metadataOf fixedDay "a.md".toList numbered).IsKept := by
    rw [chars]
    exact ⟨by decide +kernel, by decide +kernel, by decide +kernel⟩
  have carried : Metadata.Carried (Metadata.extraEntries (PageHeader.read numbered).frontmatter) := by
    rw [chars]
    exact ⟨"slug: 7\n".toList, by decide +kernel, by decide +kernel⟩
  cases completed : (ofPage fixedDay "a.md".toList numbered).2 with
  | error e => rw [completed] at writes; cases writes
  | ok s => exact ⟨s, rfl, kept, carried, isSettled_text_iff completed fun _ => ⟨kept, carried⟩⟩

/-- A keyword that is written without quotation marks and read as null makes way for others. -/
theorem not_isSettled_null :
    ¬ ∀ (c : SiteConfig) (path page : Text) (s : Synthesis), c.today.isSome = true →
      (ofPage c path page).2 = .ok s → IsSettled c path s.text := by
  intro settles
  have changed : (ofPage fixedDay "a.md".toList
      "---\ntitle: T\ndescription: D\nkeywords: [\"null\"]\n---\nx".toList).2.toOption.any fun s =>
        (ofPage fixedDay "a.md".toList s.text).2.toOption.any fun again => again.text != s.text := by
    decide +kernel
  cases completed : (ofPage fixedDay "a.md".toList
      "---\ntitle: T\ndescription: D\nkeywords: [\"null\"]\n---\nx".toList).2 with
  | error e => rw [completed] at changed; cases changed
  | ok s =>
    obtain ⟨again, same, left⟩ := settles _ _ _ s (by decide) completed
    rw [completed] at changed
    simp only [Except.toOption, Option.any_some, same, left.text, bne_self_eq_false] at changed
    cases changed

end Synthesis
end MdxPress
