import MdxPress.Proofs.Link.Tags
import MdxPress.Proofs.Mdx.Hoisted
import MdxPress.Proofs.Page.Settled

/-!
The stray braces of a finished page.  Braces are escaped by the fifth stage of a conversion, and two stages
follow: links are rewritten and imports are gathered.

* `unbracedBody` is the body that the two stages are given;
* `countProseBraces_convertPage` says that they bring no brace back;
* `not_forall_countProseBraces_convertPage` is a page on which they do.

Caveat: the two stages read neither tags nor blocks.  A link whose target reads as a tag changes that tag
with its extension, an import that holds a tag takes it along, and a carriage return that is dropped can
open a block.  In all three cases a component or a block that was open over later lines is so no more.
-/

namespace MdxPress

/-- The body of a page behind the stage that escapes its braces. -/
def unbracedBody (o : Options) (page : Text) : Text :=
  bodyAfter o [.directives, .inlineHtml, .prose, .escape] (SplitPage.ofText page).body

/-- Two stages follow. -/
theorem convertPage_body_eq (o : Options) (path page : Text) :
    (convertPage o path page).body = (hoistImports (rewriteLinks (unbracedBody o page)).1).text := by
  rw [convertPage_body]
  rfl

theorem countProseBraces_unbracedBody (o : Options) (page : Text) :
    countProseBraces (unbracedBody o page) = 0 :=
  countProseBraces_escapeBraces _

/-- **A finished page has no stray braces**, whatever its path, its text and the options: no link that is
rewritten reads as a tag, no import holds one or ends one, and no carriage return hides a block. -/
theorem countProseBraces_convertPage (o : Options) (path page : Text)
    (spares : ∀ l ∈ (unbracedBody o page).links, l.rewritten?.isSome = true → l.SparesTags)
    (inert : ∀ t ∈ Import.statements (Text.fenced (rewriteLinks (unbracedBody o page)).1.dropBreaks),
      Import.IsInert t)
    (shown : (rewriteLinks (unbracedBody o page)).1.HidesNone) :
    countProseBraces (convertPage o path page).body = 0 :=
  calc countProseBraces (convertPage o path page).body
      = countProseBraces (hoistImports (rewriteLinks (unbracedBody o page)).1).text := by
        rw [convertPage_body_eq]
    _ = countProseBraces (rewriteLinks (unbracedBody o page)).1 := countProseBraces_hoistImports inert shown
    _ = countProseBraces (unbracedBody o page) := countProseBraces_rewriteLinks spares
    _ = 0 := countProseBraces_unbracedBody o page

/-- A page with a brace, a link to a document and an import behind its first paragraph. -/
def gatheredPage : Text :=
  "Set {x} as [here](b.md#c).\n\nimport Box from 'box'\n\n<Box>\n</Box>\n".toList

theorem countProseBraces_convertPage_gathered :
    (∀ l ∈ (unbracedBody .standard gatheredPage).links, l.rewritten?.isSome = true → l.SparesTags) ∧
      (∀ t ∈ Import.statements
          (Text.fenced (rewriteLinks (unbracedBody .standard gatheredPage)).1.dropBreaks),
        Import.IsInert t) ∧
      (rewriteLinks (unbracedBody .standard gatheredPage)).1.HidesNone ∧
      countProseBraces (convertPage .standard "a.md".toList gatheredPage).body = 0 := by
  -- A list of characters is evaluated faster than the string that it is read from.
  have chars : gatheredPage = _ := String.toList_ofList
  have body : unbracedBody .standard gatheredPage =
      "Set &#123;x&#125; as [here](b.md#c).\n\nimport Box from 'box'\n\n<Box>\n</Box>\n".toList := by
    rw [chars, String.toList_ofList]
    decide +kernel
  have spares : ∀ l ∈ (unbracedBody .standard gatheredPage).links,
      l.rewritten?.isSome = true → l.SparesTags := by
    rw [body, String.toList_ofList]
    decide +kernel
  have inert : ∀ t ∈ Import.statements
      (Text.fenced (rewriteLinks (unbracedBody .standard gatheredPage)).1.dropBreaks),
      Import.IsInert t := by
    rw [body, String.toList_ofList]
    decide +kernel
  have shown : (rewriteLinks (unbracedBody .standard gatheredPage)).1.HidesNone := by
    rw [body, String.toList_ofList]
    decide +kernel
  exact ⟨spares, inert, shown,
    countProseBraces_convertPage .standard "a.md".toList gatheredPage spares inert shown⟩

/-- A target reads as the tag of `Card.md`, which nothing closes; without its extension, the next line
closes it, and the braces behind it are prose again. -/
theorem not_forall_countProseBraces_convertPage :
    ¬ ∀ (o : Options) (path page : Text), countProseBraces (convertPage o path page).body = 0 := by
  intro none
  have strays : countProseBraces (convertPage .standard "a.md".toList
      "[a](<Card.md>)\n</Card>\n{b}\n".toList).body = 2 := by
    decide +kernel
  rw [none] at strays
  exact absurd strays (by decide)

end MdxPress
