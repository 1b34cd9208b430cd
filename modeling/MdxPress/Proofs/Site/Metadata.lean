import Mathlib.Data.List.Nodup
import MdxPress.Proofs.Text.Blank
import MdxPress.Site.Metadata

/-!
What the metadata of a page is.  Each of the three values is kept where the header has it in a form that
can be read, whatever its length is, and is made otherwise; and what is made stays within its bounds.

* `Metadata.scalarText?_eq_some_iff` and `Metadata.keywords?_eq_some_iff` say what can be read;
* `Metadata.isCut_truncate` is the cutting of a text, `Metadata.distinct_eq_firstOccurrences` the
  leaving out of keywords that were there before;
* `Metadata.ofPage_isFrom` puts them together.

Caveat: a header can have a value that cannot be read, such as a title that is blank or a sequence.  Such
a value is replaced.
-/

namespace MdxPress

open Yaml

/-! ## Values that are kept or made -/

/-- A value that is kept where one is given, and made where none is. -/
structure Provided.IsFrom {α : Type} (given made : α → Prop) (p : Provided α) : Prop where
  present : p.isPresent = true ↔ ∃ v, given v
  kept : ∀ v, given v → p.value = v
  made : p.isPresent = false → made p.value

theorem Provided.IsFrom.orElse {α : Type} {given made : α → Prop} {found : Option α} {v : α}
    (reads : ∀ w, found = some w ↔ given w) (makes : made v) :
    (Provided.orElse found v).IsFrom given made := by
  cases found with
  | none =>
    have absent (w : α) : ¬ given w := fun isGiven => nomatch (reads w).2 isGiven
    refine ⟨⟨nofun, fun ⟨w, isGiven⟩ => (absent w isGiven).elim⟩, ?_, fun _ => makes⟩
    exact fun w isGiven => (absent w isGiven).elim
  | some w =>
    refine ⟨⟨fun _ => ⟨w, (reads w).1 rfl⟩, fun _ => rfl⟩, fun u isGiven => ?_, nofun⟩
    exact Option.some.inj ((reads u).2 isGiven)

/-- The text of a scalar. -/
inductive Yaml.Value.Shows : Value → Text → Prop
  | string (t : Text) : Shows (.string t) t
  | int (n : Int) : Shows (.int n) (Text.ofInt n)
  | float (f : Binary) : Shows (.float f) f.render
  | true : Shows (.bool true) "true".toList
  | false : Shows (.bool false) "false".toList

namespace Metadata

/-! ## What a header has -/

theorem scalarText?_eq_some_iff {v : Value} {t : Text} :
    scalarText? v = some t ↔ v.Shows t ∧ t.allBlank = false := by
  have visible (u : Text) :
      (some u).filter (fun t => !t.allBlank) = some t ↔ u = t ∧ t.allBlank = false := by
    rw [Option.filter_eq_some_iff, Option.some.injEq, Bool.not_eq_true']
  cases v with
  | null | sequence vs | mapping es | tagged tag v =>
    exact iff_of_false nofun fun shown => nomatch shown.1
  | string u =>
    refine (visible u).trans (and_congr_left fun _ => ⟨?_, ?_⟩)
    · rintro rfl; exact .string u
    · rintro ⟨⟩; rfl
  | int n =>
    refine (visible _).trans (and_congr_left fun _ => ⟨?_, ?_⟩)
    · rintro rfl; exact .int n
    · rintro ⟨⟩; rfl
  | float f =>
    refine (visible _).trans (and_congr_left fun _ => ⟨?_, ?_⟩)
    · rintro rfl; exact .float f
    · rintro ⟨⟩; rfl
  | bool b =>
    refine (visible _).trans (and_congr_left fun _ => ⟨?_, ?_⟩)
    · rintro rfl; cases b; exacts [.false, .true]
    · rintro ⟨⟩ <;> rfl

/-- A header has a scalar that is not blank. -/
def HasText (frontmatter : Mapping) (key t : Text) : Prop :=
  ∃ v, frontmatter.get? key = some v ∧ v.Shows t ∧ t.allBlank = false

theorem get?_bind_scalarText?_eq_some_iff {frontmatter : Mapping} {key t : Text} :
    (frontmatter.get? key).bind scalarText? = some t ↔ HasText frontmatter key t := by
  simp only [Option.bind_eq_some_iff, scalarText?_eq_some_iff, HasText]

/-- The texts that a value lists: the scalars of a sequence that are not blank, or the parts of a text
between commas that are not. -/
inductive Lists : Value → List Text → Prop
  | sequence (vs : List Value) : Lists (.sequence vs) (vs.filterMap scalarText?)
  | string (t : Text) : Lists (.string t) (commaParts t)

theorem keywords?_eq_some_iff {v : Value} {ks : List Text} :
    keywords? v = some ks ↔ Lists v ks ∧ ks ≠ [] := by
  have filled (found : List Text) :
      (if found.isEmpty then none else some found) = some ks ↔ found = ks ∧ ks ≠ [] := by
    split
    case isTrue empty =>
      refine iff_of_false nofun fun ⟨same, some_⟩ => some_ ?_
      rw [← same, List.isEmpty_iff.1 empty]
    case isFalse some_ =>
      rw [Option.some.injEq, List.isEmpty_iff] at *
      exact ⟨fun same => ⟨same, same ▸ some_⟩, And.left⟩
  refine (filled _).trans (and_congr_left fun some_ => ?_)
  cases v with
  | sequence vs => exact ⟨fun same => same ▸ .sequence vs, fun | .sequence _ => rfl⟩
  | string t => exact ⟨fun same => same ▸ .string t, fun | .string _ => rfl⟩
  | null | bool b | int n | float f | mapping es | tagged tag v =>
    exact iff_of_false some_.symm nofun

/-- A header has keywords, one at least. -/
def HasKeywords (frontmatter : Mapping) (ks : List Text) : Prop :=
  ∃ v, frontmatter.get? "keywords".toList = some v ∧ Lists v ks ∧ ks ≠ []

theorem get?_bind_keywords?_eq_some_iff {frontmatter : Mapping} {ks : List Text} :
    (frontmatter.get? "keywords".toList).bind keywords? = some ks ↔ HasKeywords frontmatter ks := by
  simp only [Option.bind_eq_some_iff, keywords?_eq_some_iff, HasKeywords]

/-! ## What is made -/

/-- A text of at most `max` characters: the whole, or as many of its first characters as are kept with
three dots behind them. -/
structure IsCut (max kept : Nat) (whole t : Text) : Prop where
  atMost : t.length ≤ max
  short : whole.length ≤ max → t = whole
  long : max < whole.length → t = whole.take kept ++ "...".toList

theorem isCut_truncate {max : Nat} (room : 3 ≤ max) (whole : Text) :
    IsCut max (max - 3) whole (truncate max whole) := by
  unfold truncate
  split
  case isTrue short => exact ⟨short, fun _ => rfl, fun long => absurd short (by omega)⟩
  case isFalse long =>
    refine ⟨?_, fun short => absurd short long, fun _ => rfl⟩
    simp only [List.length_append, List.length_take, String.length_toList]
    have dots : "...".length = 3 := rfl
    omega

variable (c : SiteConfig) (stem : Text)

/-- A title before it is cut: of the family of the page, of its heading, or of its file. -/
inductive IsTitle : Option Archetype → Option Text → Text → Prop
  | family (a : Archetype) (heading : Option Text) :
    IsTitle (some a) heading (fillTemplate a.titleTemplate c.projectName c.language)
  | heading (h : Text) (named : c.projectName <:+: h) : IsTitle none (some h) h
  | unnamed (h : Text) (unnamed : ¬ c.projectName <:+: h) :
    IsTitle none (some h) (h ++ " - ".toList ++ (c.projectName ++ ' ' :: c.language))
  | file : IsTitle none none
      (Name.humanize (Text.lower stem) ++ " - ".toList ++ (c.projectName ++ ' ' :: c.language))

/-- A description before it is cut: of the family of the page, of its first paragraph if that is short
enough, or of its file. -/
inductive IsDescription : Option Archetype → Option Text → Text → Prop
  | family (a : Archetype) (paragraph : Option Text) :
    IsDescription (some a) paragraph (fillTemplate a.descriptionTemplate c.projectName c.language)
  | paragraph (p : Text) (short : p.length < 160) : IsDescription none (some p) p
  | file (paragraph : Option Text) (long : ∀ p ∈ paragraph, 160 ≤ p.length) :
    IsDescription none paragraph (Text.replace "\x7btopic\x7d".toList (topic stem)
      (fillTemplate c.fallbackDescription c.projectName c.language))

variable (family : Option Archetype) (info : ContentInfo)

theorem exists_isTitle : ∃ whole, IsTitle c stem family info.heading whole ∧
    makeTitle c family stem info = truncate 60 whole := by
  unfold makeTitle
  cases family with
  | some a => exact ⟨_, .family a _, rfl⟩
  | none =>
    cases info.heading with
    | none => exact ⟨_, .file, rfl⟩
    | some h =>
      cases named : h.contains c.projectName with
      | true => exact ⟨_, .heading h (Text.contains_iff.1 named), by simp [named, maxTitle]⟩
      | false =>
        have lacks : ¬ c.projectName <:+: h := fun part =>
          Bool.false_ne_true (named.symm.trans (Text.contains_iff.2 part))
        exact ⟨_, .unnamed h lacks, by simp [named, maxTitle, site]⟩

theorem exists_isDescription : ∃ whole, IsDescription c stem family info.paragraph whole ∧
    makeDescription c family stem info = truncate 160 whole := by
  unfold makeDescription
  cases family with
  | some a => exact ⟨_, .family a _, rfl⟩
  | none =>
    cases info.paragraph with
    | none => exact ⟨_, .file none nofun, rfl⟩
    | some p =>
      by_cases short : p.length < 160
      · exact ⟨_, .paragraph p short, by simp [Option.filter, maxDescription, short]⟩
      · refine ⟨_, .file (some p) ?_, by simp [Option.filter, maxDescription, short]⟩
        rintro _ ⟨⟩
        omega

/-! ## Keywords -/

/-- The texts that do not stand before their place. -/
def firstOccurrences (ts : List Text) : List Text :=
  (ts.zipIdx.filter fun k => k.1 ∉ ts.take k.2).map (·.1)

theorem firstOccurrences_cons (t : Text) (ts : List Text) :
    firstOccurrences (t :: ts) = t :: (firstOccurrences ts).filter (· != t) := by
  rw [firstOccurrences, firstOccurrences, List.zipIdx_cons', List.filter_cons_of_pos (by simp),
    List.map_cons, List.filter_map, List.map_map, List.filter_map, List.filter_filter]
  refine congrArg (t :: ·) (congrArg (List.map Prod.fst) (List.filter_congr fun k _ => ?_))
  simp [bne, Bool.beq_eq_decide_eq]

theorem distinct_eq_firstOccurrences (ts : List Text) : distinct ts = firstOccurrences ts := by
  induction ts with
  | nil => rfl
  | cons t ts ih => rw [distinct, firstOccurrences_cons, ih]

theorem nodup_distinct (ts : List Text) : (distinct ts).Nodup := by
  induction ts with
  | nil => exact .nil
  | cons t ts ih => exact List.nodup_cons.2 ⟨by simp, ih.filter _⟩

/-! ## The metadata of a page -/

/-- **What the metadata of a page is.**  A title, a description and keywords that the header has and that
can be read are kept as they are.  Otherwise a title of at most 60 characters and a description of at most
160 are made, each the whole text or its first 57 (157) characters and three dots, and up to six keywords:
the first occurrences of the name of the project in lower case, the keywords of its language, those of
the site, and those of the page. -/
theorem ofPage_isFrom (frontmatter : Mapping) :
    let m := ofPage c family stem frontmatter info
    m.title.IsFrom (HasText frontmatter "title".toList)
        (fun t => ∃ whole, IsTitle c stem family info.heading whole ∧ IsCut 60 57 whole t) ∧
      m.description.IsFrom (HasText frontmatter "description".toList)
        (fun t => ∃ whole, IsDescription c stem family info.paragraph whole ∧ IsCut 160 157 whole t) ∧
      m.keywords.IsFrom (HasKeywords frontmatter) fun ks =>
        ks = (firstOccurrences (Text.lower c.projectName :: c.keywords ++ c.baseKeywords ++
            family.elim (stemWords stem) Archetype.keywords)).take 6 ∧
          ks.Nodup ∧ 1 ≤ ks.length ∧ ks.length ≤ 6 := by
  intro m
  refine ⟨.orElse (fun _ => get?_bind_scalarText?_eq_some_iff) ?_,
    .orElse (fun _ => get?_bind_scalarText?_eq_some_iff) ?_,
    .orElse (fun _ => get?_bind_keywords?_eq_some_iff) ?_⟩
  · obtain ⟨whole, isTitle, made⟩ := exists_isTitle c stem family info
    exact ⟨whole, isTitle, made ▸ isCut_truncate (by decide) whole⟩
  · obtain ⟨whole, isDescription, made⟩ := exists_isDescription c stem family info
    exact ⟨whole, isDescription, made ▸ isCut_truncate (by decide) whole⟩
  · refine ⟨?_, (nodup_distinct _).sublist (List.take_sublist _ _), ?_, List.length_take_le _ _⟩
    · rw [← distinct_eq_firstOccurrences]
      cases family <;> rfl
    · have some_ : 0 < (makeKeywords c family stem).length := by
        simp [makeKeywords, distinct, maxKeywords]
      exact some_

/-- A header with a title that is a sequence and a description that is blank: both are replaced, and the
first keyword is not the name of the project as it is written. -/
theorem ofPage_unreadable :
    let c := SiteConfig.standard
    let frontmatter : Mapping := [(.string "title".toList, .sequence [.string "Guide".toList]),
      (.string "description".toList, .string [])]
    let m := ofPage c none ['a'] frontmatter ⟨none, none⟩
    frontmatter.get? "title".toList = some (.sequence [.string "Guide".toList]) ∧
      m.title = ⟨false, "A - ObjectBox C++".toList⟩ ∧
      frontmatter.get? "description".toList = some (.string []) ∧
      m.description =
        ⟨false, "Learn about a in ObjectBox C++ database for high-performance applications".toList⟩ ∧
      m.keywords = ⟨false, ["objectbox", "c++", "cpp", "cmake", "database"].map String.toList⟩ ∧
      m.keywords.value ≠ (firstOccurrences
        (c.projectName :: c.keywords ++ c.baseKeywords ++ stemWords ['a'])).take 6 := by
  refine ⟨rfl, ?title, rfl, ?description, ?keywords, ?other⟩
  case description =>
    -- A list of characters is evaluated faster than the string that it is read from.
    conv_rhs => rw [String.toList_ofList]
    decide +kernel
  all_goals decide +kernel

end Metadata
end MdxPress
