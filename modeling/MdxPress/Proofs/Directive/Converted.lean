import MdxPress.Proofs.Directive.Enclosing
import MdxPress.Proofs.Directive.Leftover

/-!
Every document is converted as a whole.  Each pass converts all the directives of its kind, leaves
the others as they stand, and what it writes is inert to every later pass.

* `Leaf.after` is a leaf when some kinds are still to come, `Leaf.after_pass` one pass over it;
* `Document.write_through` carries a pass from the blocks of a document to the document;
* `Document.reaches_convertKinds` runs the passes one after another;
* `Document.convertDirectives_text` is the report: nothing is left over.
-/

namespace MdxPress

/-! ## Names -/

namespace DirectiveKind

theorem isName (k : DirectiveKind) : Text.IsName k.name := by
  cases k <;> exact ⟨by decide, by decide⟩

/-- The kinds of leaves, in the order of their passes. -/
def leafKinds : List DirectiveKind :=
  [code, contentRef, embed, pageRef]

/-- Neither marker of one kind is the opener of another. -/
theorem apart {j k : DirectiveKind} (differ : j ≠ k) :
    j.name ≠ k.name ∧ Text.closerName j.name ≠ k.name := by
  revert differ
  cases j <;> cases k <;> decide

end DirectiveKind

/-! ## Leaves -/

namespace Leaf

theorem isKey_title : IsKey "title".toList := by decide

theorem isKey_url : IsKey "url".toList := by decide

theorem isKey_page : IsKey "page".toList := by decide

/-- The passes for the kinds of leaves convert them, and what they write is inert. -/
theorem exists_code (title : AttributeText) (block : TickBlock) :
    ∃ new, CodeBlock.ofDirective? (Text.openerOf DirectiveKind.code.name (title.under "title"))
      ('\n' :: block.text) = some new ∧ Text.Inert (new ++ ['\n']) :=
  CodeBlock.exists_ofDirective? block.ticks (by rintro t ⟨⟩; exact title.isInfo)

theorem exists_contentRef (url label : AttributeText) :
    ∃ new, Reference.ofContentRef? .standard
      (Text.openerOf DirectiveKind.contentRef.name (url.under "url"))
      ('\n' :: (Reference.link label.text url.text ++ ['\n'])) = some new ∧
        Text.Inert (new ++ ['\n']) :=
  Reference.exists_ofContentRef? rfl (Reference.linkLabel?_line label.noBracket url.text ['\n'])
    url.isPlain label.isPlain

theorem exists_embed (url : AttributeText) :
    ∃ new, Reference.ofEmbed? .standard
      (Text.openerOf DirectiveKind.embed.name (url.under "url")) = some new ∧
        Text.Inert (new ++ ['\n']) :=
  Reference.exists_ofEmbed? rfl url.isPlain

theorem exists_pageRef (page : AttributeText) :
    ∃ new, Reference.ofPageRef?
      (Text.openerOf DirectiveKind.pageRef.name (page.under "page")) = some new ∧
        Text.Inert (new ++ ['\n']) :=
  Reference.exists_ofPageRef? rfl page.isPlain

theorem inert_converted (l : Leaf) : l.converted.Inert := by
  cases l with
  | prose line => exact .of_line line.isProse
  | fence block => exact .of_block block.toFencedBlock
  | code title block =>
    obtain ⟨new, converts, inert⟩ := exists_code title block
    rw [converted, converts]
    exact inert
  | contentRef url label =>
    obtain ⟨new, converts, inert⟩ := exists_contentRef url label
    rw [converted, converts]
    exact inert
  | embed url =>
    obtain ⟨new, converts, inert⟩ := exists_embed url
    rw [converted, converts]
    exact inert
  | pageRef page =>
    obtain ⟨new, converts, inert⟩ := exists_pageRef page
    rw [converted, converts]
    exact inert

/-! ## Passes over leaves -/

section Passes

open Text (ReplacesPairs ReplacesSingles)

theorem inert_link (url label : AttributeText) :
    Text.Inert (Reference.link label.text url.text ++ ['\n']) :=
  .of_line (Reference.isProse_link label.isPlain url.isPlain)

theorem isOf_of_inert {t name : Text} (inert : t.Inert) :
    ∀ m ∈ t.markers, m.isOf name = false := by
  rw [inert.markers]
  exact nofun

theorem pass_code {l : Leaf} (kind : l.kind? = some .code) :
    ReplacesPairs DirectiveKind.code.name CodeBlock.ofDirective? l.text l.converted := by
  cases l <;> cases kind
  case code title block =>
    obtain ⟨new, converts, _⟩ := exists_code title block
    rw [converted, converts]
    exact .of_pair (DirectiveKind.isName _) (title.writable_under isKey_title)
      block.toFencedBlock.closed (isOf_of_inert (.of_block block.toFencedBlock)) converts

theorem pass_contentRef {l : Leaf} (kind : l.kind? = some .contentRef) :
    ReplacesPairs DirectiveKind.contentRef.name (Reference.ofContentRef? .standard) l.text
      l.converted := by
  cases l <;> cases kind
  case contentRef url label =>
    obtain ⟨new, converts, _⟩ := exists_contentRef url label
    rw [converted, converts]
    exact .of_pair (DirectiveKind.isName _) (url.writable_under isKey_url)
      (inert_link url label).closed (isOf_of_inert (inert_link url label)) converts

theorem pass_embed {l : Leaf} (kind : l.kind? = some .embed) :
    ReplacesSingles DirectiveKind.embed.name (Reference.ofEmbed? .standard) l.text
      l.converted := by
  cases l <;> cases kind
  case embed url =>
    obtain ⟨new, converts, _⟩ := exists_embed url
    rw [converted, converts]
    exact .of_marker (DirectiveKind.isName _) (url.writable_under isKey_url) converts

theorem pass_pageRef {l : Leaf} (kind : l.kind? = some .pageRef) :
    ReplacesSingles DirectiveKind.pageRef.name Reference.ofPageRef? l.text l.converted := by
  cases l <;> cases kind
  case pageRef page =>
    obtain ⟨new, converts, _⟩ := exists_pageRef page
    rw [converted, converts]
    exact .of_marker (DirectiveKind.isName _) (page.writable_under isKey_page) converts

end Passes

theorem closed_text (l : Leaf) : l.text.Closed := by
  cases l with
  | prose line => exact (inert_converted (.prose line)).closed
  | fence block => exact block.toFencedBlock.closed
  | code title block =>
    exact Text.closed_pairLines (DirectiveKind.isName _) (title.writable_under isKey_title)
      block.toFencedBlock.closed
  | contentRef url label =>
    exact Text.closed_pairLines (DirectiveKind.isName _) (url.writable_under isKey_url)
      (inert_link url label).closed
  | embed url =>
    exact Text.closed_markerLine (DirectiveKind.isName _).key (url.writable_under isKey_url)
  | pageRef page =>
    exact Text.closed_markerLine (DirectiveKind.isName _).key (page.writable_under isKey_page)

/-- The markers of a leaf are those of its kind. -/
theorem name_of_mem_markers {l : Leaf} {k : DirectiveKind} (kind : l.kind? = some k) {m : Marker}
    (mem : m ∈ l.text.markers) : m.name = k.name ∨ m.name = Text.closerName k.name := by
  have pair : ∀ {k : DirectiveKind} {as : List Attribute} {inner : Text},
      (∀ a ∈ as, a.Writable) → inner.Inert → m ∈ (Text.pairLines k.name as inner).markers →
        m.name = k.name ∨ m.name = Text.closerName k.name := by
    intro k as inner writable inert mem
    rw [Text.markers_pairLines k.isName writable inert.closed, Text.markersBehind,
      inert.markers] at mem
    simp only [List.map_nil, List.nil_append, List.mem_cons, List.not_mem_nil, or_false] at mem
    rcases mem with rfl | rfl
    · exact .inl rfl
    · exact .inr rfl
  have single : ∀ {k : DirectiveKind} {as : List Attribute}, (∀ a ∈ as, a.Writable) →
      m ∈ (Text.markerLine k.name as).markers → m.name = k.name := by
    intro k as writable mem
    rw [Text.markers_markerLine k.isName.key writable, k.isName.lower] at mem
    rw [List.mem_singleton.1 mem]
  cases l <;> cases kind
  case code title block =>
    exact pair (title.writable_under isKey_title) (.of_block block.toFencedBlock) mem
  case contentRef url label =>
    exact pair (url.writable_under isKey_url) (inert_link url label) mem
  case embed url => exact .inl (single (url.writable_under isKey_url) mem)
  case pageRef page => exact .inl (single (page.writable_under isKey_page) mem)

/-- A leaf while some kinds of directives are still to come. -/
def after (left : List DirectiveKind) (l : Leaf) : Text :=
  if ∃ k ∈ left, l.kind? = some k then l.text else l.converted

theorem after_leafKinds (l : Leaf) : l.after DirectiveKind.leafKinds = l.text := by
  unfold after
  cases l <;> rfl

theorem after_nil (l : Leaf) : l.after [] = l.converted :=
  if_neg (by simp)

section Passes

variable {name : Text} {pass : Text → Text → Prop} {k : DirectiveKind}
  {left : List DirectiveKind}

theorem after_keep (isPass : Text.IsPass name pass)
    (apart : ∀ j ∈ left, j.name ≠ name ∧ Text.closerName j.name ≠ name) (l : Leaf) :
    pass (l.after left) (l.after left) := by
  unfold after
  split
  case isTrue coming =>
    obtain ⟨j, mem, kind⟩ := coming
    refine isPass.keep l.closed_text fun m isIn => ?_
    rcases name_of_mem_markers kind isIn with opens | closes
    · rw [opens]; exact (apart j mem).1
    · rw [closes]; exact (apart j mem).2
  case isFalse =>
    refine isPass.keep l.inert_converted.closed ?_
    rw [l.inert_converted.markers]
    exact nofun

/-- **One pass over a leaf** converts it when it is of the kind, and leaves it as it is otherwise. -/
theorem after_pass (isPass : Text.IsPass k.name pass) (fresh : k ∉ left)
    (own : ∀ l : Leaf, l.kind? = some k → pass l.text l.converted) (l : Leaf) :
    pass (l.after (k :: left)) (l.after left) := by
  by_cases kind : l.kind? = some k
  · have now : l.after (k :: left) = l.text := if_pos ⟨k, .head _, kind⟩
    have later : l.after left = l.converted := by
      refine if_neg ?_
      rintro ⟨j, mem, same⟩
      obtain rfl : k = j := Option.some.inj (kind.symm.trans same)
      exact fresh mem
    rw [now, later]
    exact own l kind
  · have same : l.after (k :: left) = l.after left := by
      unfold after
      refine if_congr ?_ rfl rfl
      simp [kind]
    rw [same]
    refine after_keep isPass (fun j mem => DirectiveKind.apart ?_) l
    rintro rfl
    exact fresh mem

end Passes

end Leaf
/-! ## Passes over the directives that enclose blocks -/

namespace Text

/-- A relation between texts that goes through directives of the kinds `ks`: it holds around them
when it holds inside. -/
structure GoesThrough (ks : List DirectiveKind) (rel : Text → Text → Prop) : Prop
    extends Partwise rel where
  around : ∀ k ∈ ks, ∀ {as : List Attribute}, (∀ a ∈ as, a.Writable ∧ '<' ∉ a.value) →
    ∀ {t u : Text}, rel t u → rel (pairLines k.name as t) (pairLines k.name as u)

theorem IsPass.goesThrough {name : Text} {pass : Text → Text → Prop} {ks : List DirectiveKind}
    (isPass : IsPass name pass)
    (apart : ∀ k ∈ ks, k.name ≠ name ∧ closerName k.name ≠ name) : GoesThrough ks pass where
  toPartwise := isPass.toPartwise
  around k mem _ safe _ _ inside :=
    isPass.pairLines k.isName (fun a isIn => (safe a isIn).1) (apart k mem) inside

end Text

theorem AttributeText.safe_under (v : AttributeText) {key : String} (isKey : IsKey key.toList) :
    ∀ a ∈ v.under key, a.Writable ∧ '<' ∉ a.value :=
  fun a mem => ⟨v.writable_under isKey a mem, v.noAngle_under key a mem⟩

theorem isKey_style : IsKey "style".toList := by decide

section Through

variable {rel : Text → Text → Prop}

theorem Block.write_through (through : Text.GoesThrough [.hint] rel) {f g : Leaf → Text}
    (leaf : ∀ l, rel (f l) (g l)) (b : Block) : rel (b.write f) (b.write g) := by
  cases b with
  | leaf l => exact leaf l
  | hint style body =>
    exact through.around .hint (.head _) (style.safe_under isKey_style)
      (through.flatMap fun l _ => leaf l)

theorem Part.write_through (through : Text.GoesThrough [.tab, .tabs] rel) {f g : Block → Text}
    (block : ∀ b, rel (f b) (g b)) (p : Part) : rel (p.write f) (p.write g) := by
  cases p with
  | block b => exact block b
  | tabs first others =>
    refine through.around .tabs (by simp) (by simp) (through.flatMap fun t _ => ?_)
    exact through.around .tab (.head _) (t.title.safe_under Leaf.isKey_title)
      (through.flatMap fun b _ => block b)

/-- **What holds of the blocks of a document holds of the document.** -/
theorem Document.write_through (through : Text.GoesThrough [.tab, .tabs] rel)
    {f g : Block → Text} (block : ∀ b, rel (f b) (g b)) (d : Document) :
    rel (d.write f) (d.write g) :=
  through.flatMap fun p _ => p.write_through through block

end Through

/-! ## Hints -/

namespace Block

theorem inert_body (body : List Leaf) : Text.Inert (body.flatMap Leaf.converted) :=
  .flatMap fun l _ => l.inert_converted

theorem inert_converted (b : Block) : b.converted.Inert := by
  cases b with
  | leaf l => exact l.inert_converted
  | hint style body => exact Admonition.inert_ofHint _ (inert_body body)

/-- The pass for hints over a block whose leaves are converted. -/
theorem pass_hint (b : Block) :
    Text.ReplacesPairs DirectiveKind.hint.name (fun m i => some (Admonition.ofHint m i))
      (b.write Leaf.converted) b.converted := by
  cases b with
  | leaf l =>
    refine .of_absent l.inert_converted.closed ?_
    rw [write, l.inert_converted.markers]
    exact nofun
  | hint style body =>
    exact .of_pair (DirectiveKind.isName _) (style.writable_under isKey_style)
      (inert_body body).closed (Leaf.isOf_of_inert (inert_body body)) rfl

end Block

/-! ## Groups of tabs -/

/-- A tab whose blocks are converted. -/
def Tab.toInert (t : Tab) : InertTab where
  title := t.title.text
  body := t.body.flatMap Block.converted
  writable := t.title.writable Leaf.isKey_title
  plain := t.title.isPlain
  inert := .flatMap fun b _ => b.inert_converted

theorem Tab.write_converted (ts : List Tab) :
    ts.flatMap (Tab.write Block.converted) = tabLines (ts.map Tab.toInert) := by
  rw [tabLines, List.flatMap_map]
  rfl

namespace Part

/-- What a part becomes. -/
def converted : Part → Text
  | .block b => b.converted
  | .tabs first others =>
    TabGroup.render (TabGroup.entriesOf ((first :: others).map Tab.toInert)) ++ ['\n']

theorem inert_converted (p : Part) : p.converted.Inert := by
  cases p with
  | block b => exact b.inert_converted
  | tabs first others => exact TabGroup.inert_render (by simp)

/-- The conversion of a group. -/
def convertGroup (_ : Marker) (inner : Text) : Option Text :=
  (TabGroup.entries? inner).map TabGroup.render

/-- The pass for groups of tabs over a part whose blocks are converted. -/
theorem pass_tabs (p : Part) :
    Text.ReplacesPairs DirectiveKind.tabs.name convertGroup (p.write Block.converted)
      p.converted := by
  cases p with
  | block b =>
    refine .of_absent b.inert_converted.closed ?_
    rw [write, b.inert_converted.markers]
    exact nofun
  | tabs first others =>
    rw [write, Tab.write_converted]
    refine .of_pair (DirectiveKind.isName _) (by simp) (TabGroup.closed_tabLines _)
      (fun m => TabGroup.isOf_of_mem_tabLines) ?_
    have entries := TabGroup.entries?_inside ((first :: others).map Tab.toInert) (by simp)
    rw [TabGroup.inside] at entries
    rw [convertGroup, entries]
    rfl

/-- Inside every group all the tabs are found. -/
theorem declared_of_mem_pairs {p : Part} {q : MarkerPair}
    (mem : q ∈ (p.write Block.converted).pairs DirectiveKind.tabs.name) :
    TabGroup.declared q.inner = ((TabGroup.entries? q.inner).getD []).length := by
  cases p with
  | block b =>
    rw [write, Text.pairs, b.inert_converted.markers] at mem
    cases mem
  | tabs first others =>
    rw [write, Tab.write_converted, Text.pairs_pairLines (DirectiveKind.isName _) (by simp)
      (TabGroup.closed_tabLines _) (fun m => TabGroup.isOf_of_mem_tabLines)] at mem
    obtain rfl := List.mem_singleton.1 mem
    have declared := TabGroup.declared_inside ((first :: others).map Tab.toInert)
    have entries := TabGroup.entries?_inside ((first :: others).map Tab.toInert) (by simp)
    rw [TabGroup.inside] at declared entries
    rw [declared, entries, Option.getD_some, TabGroup.length_entriesOf]

end Part
/-! ## Tags -/

namespace Text.Tagless

theorem markerLine {k : DirectiveKind} {as : List Attribute}
    (safe : ∀ a ∈ as, a.Writable ∧ '<' ∉ a.value) : (Text.markerLine k.name as).Tagless := by
  have writable : ∀ a ∈ as, a.Writable := fun a mem => (safe a mem).1
  exact .of_line (Marker.written_oneLine k.isName.key writable) (Marker.opener_written k.name as)
    (Marker.not_mem_written k.isName.key (fun a mem => (writable a mem).key) (by decide)
      (fun a mem => (safe a mem).2) (by decide))

theorem pairLines {k : DirectiveKind} {as : List Attribute}
    (safe : ∀ a ∈ as, a.Writable ∧ '<' ∉ a.value) {inner : Text} (closed : inner.Closed)
    (tagless : inner.Tagless) : (Text.pairLines k.name as inner).Tagless := by
  have opener := closed_markerLine k.isName.key fun a mem => (safe a mem).1
  have closer : (Text.markerLine (closerName k.name) []).Tagless :=
    .of_line (Marker.written_oneLine k.isName.closer.key (by simp)) (Marker.opener_written _ [])
      (Marker.not_mem_written k.isName.closer.key (by simp) (by decide) (by simp) (by decide))
  exact ((markerLine safe).append opener tagless).append (opener.append closed) closer

theorem goesThrough (ks : List DirectiveKind) :
    GoesThrough ks fun t _ => t.Closed ∧ t.Tagless where
  nil := ⟨.nil, nofun⟩
  append left right := ⟨left.1.append right.1, left.2.append left.1 right.2⟩
  around k _ _ safe _ _ inside :=
    ⟨closed_pairLines k.isName (fun a mem => (safe a mem).1) inside.1,
      pairLines safe inside.1 inside.2⟩

end Text.Tagless

theorem Leaf.tagless (l : Leaf) : l.text.Tagless := by
  cases l with
  | prose line => exact .of_line line.oneLine line.isProse.opener line.noAngle
  | fence block => exact .of_block block.toFencedBlock
  | code title block =>
    exact .pairLines (title.safe_under isKey_title) block.toFencedBlock.closed
      (.of_block block.toFencedBlock)
  | contentRef url label =>
    have outside : '<' ∉ Reference.link label.text url.text := by
      simp [Reference.link, label.noAngle, url.noAngle]
    have line := Reference.isProse_link label.isPlain url.isPlain
    exact .pairLines (url.safe_under isKey_url) (inert_link url label).closed
      (.of_line line.oneLine line.opener outside)
  | embed url => exact .markerLine (url.safe_under isKey_url)
  | pageRef page => exact .markerLine (page.safe_under isKey_page)

theorem Document.tagless (d : Document) : d.text.Tagless :=
  (d.write_through (g := Block.write Leaf.text) (Text.Tagless.goesThrough _) fun b =>
    b.write_through (g := Leaf.text) (Text.Tagless.goesThrough _) fun l =>
      ⟨l.closed_text, l.tagless⟩).2

/-! ## Tallies -/

namespace Tally

/-- Every directive that was found was converted by its pass. -/
def Even (t : Tally) : Prop :=
  ∀ k, (t.get k).converted = (t.get k).found ∧ (t.get k).fallback = 0

theorem even_empty : Even .empty :=
  fun _ => ⟨rfl, rfl⟩

theorem Even.addPass {t : Tally} (even : t.Even) (k : DirectiveKind) (n : Nat) :
    (t.addPass k n n).Even := by
  intro j
  rw [Tally.addPass, get_modify]
  split
  · exact ⟨congrArg (· + n) (even k).1, (even k).2⟩
  · exact even j

theorem Even.fallbacks {t : Tally} (even : t.Even) : t.fallbacks = 0 := by
  refine total_eq_zero fun e mem => ?_
  obtain ⟨k, -, counted⟩ := List.mem_filterMap.1 mem
  obtain ⟨c, found, rfl⟩ := Option.map_eq_some_iff.1 counted
  have same : t.get k = c := by rw [get, found, Option.getD_some]
  exact same ▸ (even k).2

end Tally

/-! ## All the passes -/

/-- The passes so far made `t` of a body, and converted all they found. -/
structure Tallied.Reaches (r : Tallied) (t : Text) : Prop where
  text : r.text = t
  even : r.tally.Even

namespace Tallied.Reaches

variable {r : Tallied} {t u : Text}

theorem countPass (reaches : r.Reaches t) (k : DirectiveKind) {replaced : Replaced}
    (made : replaced.text = u ∧ replaced.found = replaced.converted) :
    (k.countPass replaced r.tally).Reaches u where
  text := made.1
  even := by
    rw [DirectiveKind.countPass, made.2]
    exact reaches.even.addPass k _

theorem countPairs (reaches : r.Reaches t) {k : DirectiveKind}
    {convert : Marker → Text → Option Text} (pass : Text.ReplacesPairs k.name convert t u) :
    (k.countPass (r.text.replacePairs k.name convert) r.tally).Reaches u := by
  rw [reaches.text]
  exact reaches.countPass k pass.replacePairs

theorem countSingles (reaches : r.Reaches t) {k : DirectiveKind}
    {convert : Marker → Option Text} (pass : Text.ReplacesSingles k.name convert t u) :
    (k.countPass (r.text.replaceSingles k.name convert) r.tally).Reaches u := by
  rw [reaches.text]
  exact reaches.countPass k pass.replaceSingles

theorem countRewrite (reaches : r.Reaches t) (tagless : t.Tagless) (k : DirectiveKind)
    {rule : Text → Option (Text × Nat)} (starts : ∀ u : Text, u.head? ≠ some '<' → rule u = none) :
    (k.countRewrite (r.text.rewriteProse rule) r.tally).Reaches t := by
  rw [reaches.text, tagless.rewriteProse starts]
  exact ⟨rfl, reaches.even.addPass k 0⟩

end Tallied.Reaches
namespace Document

/-- A document while some kinds of leaves are still to come. -/
def after (left : List DirectiveKind) (d : Document) : Text :=
  d.write (Block.write (Leaf.after left))

/-- What a document becomes. -/
def converted (d : Document) : Text :=
  d.parts.flatMap Part.converted

theorem inert_converted (d : Document) : d.converted.Inert :=
  .flatMap fun p _ => p.inert_converted

theorem after_leafKinds (d : Document) : d.after DirectiveKind.leafKinds = d.text := by
  have leaves : Leaf.after DirectiveKind.leafKinds = Leaf.text := funext Leaf.after_leafKinds
  rw [after, leaves, text]

theorem after_nil (d : Document) : d.after [] = d.write (Block.write Leaf.converted) := by
  have leaves : Leaf.after [] = Leaf.converted := funext Leaf.after_nil
  rw [after, leaves]

section Passes

variable {pass : Text → Text → Prop} {k : DirectiveKind} {left : List DirectiveKind}

/-- One pass for a kind of leaves over a document. -/
theorem after_pass (isPass : Text.IsPass k.name pass) (isLeaf : k ∈ DirectiveKind.leafKinds)
    (fresh : k ∉ left) (own : ∀ l : Leaf, l.kind? = some k → pass l.text l.converted)
    (d : Document) : pass (d.after (k :: left)) (d.after left) := by
  have apart : ∀ j ∈ [DirectiveKind.hint, .tab, .tabs], j.name ≠ k.name ∧
      Text.closerName j.name ≠ k.name := by
    intro j encloses
    refine DirectiveKind.apart ?_
    rintro rfl
    revert isLeaf encloses
    cases j <;> decide
  refine d.write_through (isPass.goesThrough fun j mem => apart j (.tail _ mem)) fun b => ?_
  refine b.write_through (isPass.goesThrough fun j mem => apart j ?_) fun l => ?_
  · rw [List.mem_singleton.1 mem]
    exact .head _
  · exact l.after_pass isPass fresh own

/-- A document with page references to come holds no closer of embedded URLs. -/
theorem removeSingles_after (d : Document) :
    (d.after [.pageRef]).removeSingles "endembed".toList = d.after [.pageRef] := by
  have isPass := Text.isPass_lacks "endembed".toList
  have lacks : Text.Lacks "endembed".toList (d.after [.pageRef]) (d.after [.pageRef]) := by
    refine d.write_through (isPass.goesThrough (by decide)) fun b => ?_
    refine b.write_through (isPass.goesThrough (by decide)) fun l => ?_
    exact l.after_keep isPass (by decide)
  exact Text.removeSingles_eq_self lacks.2.2

theorem pass_hint (d : Document) :
    Text.ReplacesPairs DirectiveKind.hint.name (fun m i => some (Admonition.ofHint m i))
      (d.write (Block.write Leaf.converted)) (d.write Block.converted) :=
  d.write_through ((Text.isPass_replacesPairs fun _ _ _ => rfl).goesThrough (by decide))
    Block.pass_hint

theorem pass_tabs (d : Document) :
    Text.ReplacesPairs DirectiveKind.tabs.name Part.convertGroup (d.write Block.converted)
      d.converted :=
  (Text.isPass_replacesPairs fun _ _ _ => rfl).flatMap fun p _ => p.pass_tabs

/-- Inside the groups of a document all the tabs are found. -/
theorem declared_of_mem_pairs {d : Document} {q : MarkerPair}
    (mem : q ∈ (d.write Block.converted).pairs DirectiveKind.tabs.name) :
    TabGroup.declared q.inner = ((TabGroup.entries? q.inner).getD []).length := by
  obtain ⟨p, -, r, inside, same⟩ := Text.exists_of_mem_pairs_flatMap
    (fun p _ => p.pass_tabs.closed) (fun p _ => p.pass_tabs.paired) mem
  rw [← same]
  exact Part.declared_of_mem_pairs inside

end Passes

section Conversion

variable {d : Document} {r : Tallied}

theorem convert_options (reaches : r.Reaches d.text) :
    (DirectiveKind.options.convert .standard r.text r.tally).Reaches d.text :=
  reaches.countRewrite d.tagless .options fun _ => Listing.optionsRule_eq_none

theorem convert_preformatted (reaches : r.Reaches d.text) :
    (DirectiveKind.preformatted.convert .standard r.text r.tally).Reaches d.text :=
  reaches.countRewrite d.tagless .preformatted fun _ => Listing.preRule_eq_none

theorem convert_code (reaches : r.Reaches d.text) :
    (DirectiveKind.code.convert .standard r.text r.tally).Reaches
      (d.after [.contentRef, .embed, .pageRef]) := by
  rw [← d.after_leafKinds] at reaches
  exact reaches.countPairs (d.after_pass (Text.isPass_replacesPairs fun _ _ _ => rfl) (by decide)
    (by decide) fun _ => Leaf.pass_code)

theorem convert_contentRef (reaches : r.Reaches (d.after [.contentRef, .embed, .pageRef])) :
    (DirectiveKind.contentRef.convert .standard r.text r.tally).Reaches
      (d.after [.embed, .pageRef]) :=
  reaches.countPairs (d.after_pass (Text.isPass_replacesPairs fun _ _ _ => rfl) (by decide)
    (by decide) fun _ => Leaf.pass_contentRef)

theorem convert_embed (reaches : r.Reaches (d.after [.embed, .pageRef])) :
    (DirectiveKind.embed.convert .standard r.text r.tally).Reaches (d.after [.pageRef]) := by
  have counted := reaches.countSingles (d.after_pass
    (Text.isPass_replacesSingles fun _ _ => rfl) (by decide) (by decide) fun _ => Leaf.pass_embed)
  exact ⟨(congrArg (Text.removeSingles · _) counted.text).trans d.removeSingles_after,
    counted.even⟩

theorem convert_pageRef (reaches : r.Reaches (d.after [.pageRef])) :
    (DirectiveKind.pageRef.convert .standard r.text r.tally).Reaches
      (d.write (Block.write Leaf.converted)) := by
  rw [← d.after_nil]
  exact reaches.countSingles (d.after_pass (Text.isPass_replacesSingles fun _ _ => rfl) (by decide)
    (by decide) fun _ => Leaf.pass_pageRef)

theorem convert_hint (reaches : r.Reaches (d.write (Block.write Leaf.converted))) :
    (DirectiveKind.hint.convert .standard r.text r.tally).Reaches (d.write Block.converted) :=
  reaches.countPairs d.pass_hint

theorem convert_tabs (reaches : r.Reaches (d.write Block.converted)) :
    (DirectiveKind.tabs.convert .standard r.text r.tally).Reaches d.converted := by
  have groups := reaches.countPairs d.pass_tabs
  have inners : total TabGroup.declared
      ((r.text.pairs DirectiveKind.tabs.name).map (·.inner)) =
        total (fun i => ((TabGroup.entries? i).getD []).length)
          ((r.text.pairs DirectiveKind.tabs.name).map (·.inner)) := by
    refine total_congr fun inner mem => ?_
    obtain ⟨q, isIn, rfl⟩ := List.mem_map.1 mem
    rw [reaches.text] at isIn
    exact declared_of_mem_pairs isIn
  refine ⟨groups.text, ?_⟩
  have even := groups.even.addPass .tab (total TabGroup.declared
      ((r.text.pairs DirectiveKind.tabs.name).map (·.inner)))
  nth_rewrite 2 [inners] at even
  exact even

end Conversion

/-- **The passes make of a document what it becomes**, and convert all they find. -/
theorem reaches_convertKinds (d : Document) :
    (convertKinds .standard d.text).Reaches d.converted := by
  have start : Tallied.Reaches ⟨d.text, .empty⟩ d.text := ⟨rfl, Tally.even_empty⟩
  have leaves := convert_pageRef (convert_embed (convert_contentRef (convert_code
    (convert_preformatted (convert_options start)))))
  exact convert_tabs (convert_hint leaves)

/-- **Every document is converted without fallback.**  Of each kind as many directives are converted
as found, no marker is left to the fallback or comes out of the conversion, and nothing is
reported. -/
theorem convertDirectives_text (d : Document) :
    let result := convertDirectives .standard d.text
    (∀ k, (result.report.tally.get k).converted = (result.report.tally.get k).found) ∧
      result.report.tally.fallbacks = 0 ∧ result.diagnostics = [] ∧ result.text.markers = [] := by
  have reaches := d.reaches_convertKinds
  have quiet : (convertKinds .standard d.text).text.markers = [] := by
    rw [reaches.text]
    exact d.inert_converted.markers
  obtain ⟨tally, diagnostics, markers⟩ := convertDirectives_of_quiet quiet
  refine ⟨fun k => ?_, ?_, diagnostics, markers⟩
  · rw [tally]
    exact (reaches.even k).1
  · rw [tally]
    exact reaches.even.fallbacks

end Document
end MdxPress
