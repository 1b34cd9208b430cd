import MdxPress.CodeBlock
import MdxPress.Directive.Leftover
import MdxPress.Directive.Listing
import MdxPress.Directive.TabGroup
import MdxPress.Directive.Tally
import MdxPress.Fence.Repair

/-!
# Converting directives

The passes for the kinds of directives, and the conversion of a whole body: every pass in the order
of `DirectiveKind.conversionOrder`, then the leftover markers, fence repair, and the languages of
`text` blocks.

* `DirectiveKind.convert` is the pass for one kind;
* `convertDirectives` is the conversion of a body.
-/

namespace MdxPress

/-- A text after a pass, with the tally it adds to. -/
structure Tallied where
  text : Text
  tally : Tally
  deriving DecidableEq, Repr

/-- The block that a code directive becomes, if it holds one fenced block and nothing else. -/
def CodeBlock.ofDirective? (opener : Marker) (inner : Text) : Option Text :=
  (CodeBlock.wrapped? inner).map fun (o, content) =>
    CodeBlock.render (opener.attribute? "title".toList) o.language? o.fence.run content

namespace DirectiveKind

/-- Counts a pass for one kind. -/
def countPass (k : DirectiveKind) (r : Replaced) (tally : Tally) : Tallied :=
  ⟨r.text, tally.addPass k r.found r.converted⟩

/-- Counts a pass that converts all it finds. -/
def countRewrite (k : DirectiveKind) (r : Text × Nat) (tally : Tally) : Tallied :=
  ⟨r.1, tally.addPass k r.2 r.2⟩

/-- Converts the groups of tabs, and counts the tabs with them. -/
def convertTabs (t : Text) (tally : Tally) : Tallied :=
  let r := t.replacePairs "tabs".toList fun _ inner =>
    (TabGroup.entries? inner).map TabGroup.render
  let inners := (t.pairs "tabs".toList).map (·.inner)
  let found := total TabGroup.declared inners
  let converted := total (fun i => ((TabGroup.entries? i).getD []).length) inners
  ⟨r.text, (tally.addPass tabs r.found r.converted).addPass tab found converted⟩

/-- The pass for one kind.  Tabs, files and unknown markers have none of their own. -/
def convert (k : DirectiveKind) (o : DirectiveOptions) (t : Text) (tally : Tally) : Tallied :=
  match k with
  | options => countRewrite k (t.rewriteProse Listing.optionsRule) tally
  | preformatted => countRewrite k (t.rewriteProse Listing.preRule) tally
  | code => countPass k (t.replacePairs k.name CodeBlock.ofDirective?) tally
  | contentRef => countPass k (t.replacePairs k.name (Reference.ofContentRef? o)) tally
  | embed =>
    let r := countPass k (t.replaceSingles k.name (Reference.ofEmbed? o)) tally
    { r with text := r.text.removeSingles "endembed".toList }
  | pageRef => countPass k (t.replaceSingles k.name Reference.ofPageRef?) tally
  | hint => countPass k (t.replacePairs k.name fun m i => some (Admonition.ofHint m i)) tally
  | tabs => convertTabs t tally
  | tab | file | unknown => ⟨t, tally⟩

end DirectiveKind

/-- Counts decisions about leftover markers. -/
def Tally.addLeftovers (tally : Tally) (ds : List Leftover) : Tally :=
  ds.foldl (fun y d => y.addFallback (DirectiveKind.ofMarkerName d.marker.name)) tally

/-- The counts of a conversion of directives. -/
structure DirectiveReport where
  tally : Tally
  /-- `text` blocks that got a language. -/
  retagged : Nat
  /-- Fences repaired. -/
  repaired : Nat
  deriving DecidableEq, Repr

/-- Nothing counted yet. -/
def DirectiveReport.empty : DirectiveReport := ⟨.empty, 0, 0⟩

/-- A body without directives, and how it came about. -/
structure ConvertedDirectives where
  text : Text
  report : DirectiveReport
  /-- The body behind the passes for kinds, in which the leftover markers stand. -/
  passed : Text
  leftovers : List Leftover
  diagnostics : List Diagnostic
  deriving DecidableEq, Repr

/-- Every pass of `DirectiveKind.conversionOrder`, one after another. -/
def convertKinds (o : DirectiveOptions) (body : Text) : Tallied :=
  DirectiveKind.conversionOrder.foldl (fun r k => k.convert o r.text r.tally) ⟨body, .empty⟩

/-- Converts every directive of a body. -/
def convertDirectives (o : DirectiveOptions) (body : Text) : ConvertedDirectives :=
  let passed := convertKinds o body
  let leftovers := Leftover.decisions passed.text
  let (repaired, repairs) := (Leftover.clear passed.text).repairFences
  let (refined, retagged) := if o.refineTextFences then repaired.refineText else (repaired, 0)
  { text := refined
    report := ⟨passed.tally.addLeftovers leftovers, retagged, repairs⟩
    passed := passed.text
    leftovers := leftovers
    diagnostics := leftovers.map (Leftover.diagnostic passed.text) }

end MdxPress
