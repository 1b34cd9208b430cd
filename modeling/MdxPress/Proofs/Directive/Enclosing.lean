import MdxPress.Directive.Admonition
import MdxPress.Proofs.CodeBlock
import MdxPress.Proofs.Directive.Reference
import MdxPress.Proofs.Directive.TabValues
import MdxPress.Proofs.Fence.Segment
import MdxPress.Proofs.Fence.Tag
import MdxPress.Proofs.Marker.Replace

/-!
Documents that are written as the syntax of directives has it, and the directives that enclose other
blocks in them.  A hint around an inert text becomes an inert admonition, and a group whose tabs hold inert
texts becomes an inert component with one item for each tab.  Every part of a document carries the proof
that it may stand there, so a document needs no condition.

* `Admonition.inert_ofHint` is the admonition;
* `TabGroup.entries?_inside` reads the tabs of a group, `TabGroup.inert_render` writes them;
* `Leaf` is a block that encloses no other: prose, code, a reference;
* `Block` adds hints around leaves, `Part` groups of tabs around blocks, `Document` is a sequence;
* `Document.text` is the source, `Document.converted` the same with every directive converted.
-/

namespace MdxPress

/-! ## Hints -/

theorem Admonition.isPlain_typeOf (style : Option Text) : (typeOf style).IsPlain := by
  simp only [typeOf]
  split
  case isTrue same => rw [same]; decide
  case isFalse =>
    split
    case isTrue same => rw [same]; decide
    case isFalse => split <;> decide

theorem Admonition.ofHint_eq (opener : Marker) (inner : Text) :
    ofHint opener inner = ":::".toList ++ typeOf (opener.attribute? "style".toList) ++
      '\n' :: inner.trim ++ "\n:::".toList := rfl

/-- **An admonition around an inert text is inert.** -/
theorem Admonition.inert_ofHint (opener : Marker) {inner : Text} (inert : inner.Inert) :
    (ofHint opener ('\n' :: inner) ++ ['\n']).Inert := by
  have colons : Text.IsPlain ":::".toList := by decide
  have first : Text.IsProse (":::".toList ++ typeOf (opener.attribute? "style".toList)) :=
    (colons.append (isPlain_typeOf _) (.inl (by decide))).isProse rfl (by decide) (by decide)
  have body := (Text.Inert.line .nil inert).trim
  have last : Text.Inert (":::".toList ++ ['\n']) := .of_line (by decide)
  have lines := Text.Inert.line first (body.append last)
  simpa [ofHint_eq] using lines

/-! ## Tabs -/

theorem Text.isPlain_of_alnum {t : Text} (alnum : ∀ c ∈ t, isAsciiAlnum c = true) : t.IsPlain where
  oneLine := ⟨fun mem => absurd (alnum _ mem) (by decide), fun mem => absurd (alnum _ mem) (by decide)⟩
  noTick mem := absurd (alnum _ mem) (by decide)
  noOpener := noPair_of_not_mem (.inl fun mem => absurd (alnum _ mem) (by decide))

/-- A tab with an inert body, and a title that can be written in a marker. -/
structure InertTab where
  title : Text
  body : Text
  writable : Attribute.Writable ⟨"title".toList, title⟩
  plain : title.IsPlain
  inert : body.Inert

namespace InertTab

/-- The name of the markers of tabs. -/
theorem isName_tab : Text.IsName "tab".toList :=
  ⟨by decide, by decide⟩

/-- The attributes of the opener. -/
def attributes (e : InertTab) : List Attribute :=
  [⟨"title".toList, e.title⟩]

theorem writable_attributes (e : InertTab) : ∀ a ∈ e.attributes, a.Writable := by
  rintro a (_ | ⟨_, ⟨⟩⟩)
  exact e.writable

/-- A tab as it is written. -/
def text (e : InertTab) : Text :=
  Text.pairLines "tab".toList e.attributes e.body

theorem closed_text (e : InertTab) : e.text.Closed :=
  Text.closed_pairLines isName_tab e.writable_attributes e.inert.closed

theorem markers_text (e : InertTab) :
    e.text.markers =
      [Text.openerOf "tab".toList e.attributes,
        (Text.openerOf (Text.closerName "tab".toList) []).shift
          (Text.markerLine "tab".toList e.attributes ++ e.body).length] := by
  rw [text, Text.markers_pairLines isName_tab e.writable_attributes e.inert.closed,
    Text.markersBehind, e.inert.markers]
  rfl

/-- The title and the body of a tab, as a group shows them. -/
def shown (e : InertTab) : Text × Text :=
  (e.title.trim, '\n' :: e.body)

end InertTab

/-- Tabs one after another. -/
def tabLines (tabs : List InertTab) : Text :=
  tabs.flatMap InertTab.text

theorem tabLines_cons (e : InertTab) (tabs : List InertTab) :
    tabLines (e :: tabs) = e.text ++ tabLines tabs :=
  List.flatMap_cons

namespace TabGroup

variable {tabs : List InertTab}

theorem closed_tabLines (tabs : List InertTab) : (tabLines tabs).Closed :=
  .flatMap fun e _ => e.closed_text

/-- No tab is a group of tabs. -/
theorem isOf_of_mem_tabLines {m : Marker} (mem : m ∈ (tabLines tabs).markers) :
    m.isOf "tabs".toList = false := by
  induction tabs generalizing m with
  | nil => cases mem
  | cons e tabs ih =>
    rw [tabLines_cons, Text.markers_append e.closed_text, e.markers_text] at mem
    rcases List.mem_append.1 mem with own | later
    · simp only [List.mem_cons, List.not_mem_nil, or_false] at own
      rcases own with rfl | rfl
      · rfl
      · rfl
    · obtain ⟨k, isIn, rfl⟩ := List.mem_map.1 later
      rw [Marker.isOf_shift]
      exact ih isIn

/-- **The tabs of a group are read one after another**, wherever the group begins. -/
theorem bodies?_tabs (before : Text) (tabs : List InertTab) :
    bodies? (before ++ tabLines tabs)
        ((tabLines tabs).markers.map (Marker.shift before.length)) =
      some (tabs.map InertTab.shown) := by
  induction tabs generalizing before with
  | nil => rfl
  | cons e tabs ih =>
    have rest := ih (before ++ e.text)
    rw [List.append_assoc, List.length_append] at rest
    have body : Text.slice (before ++ (e.text ++ tabLines tabs))
        (before.length + (Marker.written "tab".toList e.attributes).length)
        (before.length + (Text.markerLine "tab".toList e.attributes ++ e.body).length) =
          '\n' :: e.body := by
      rw [Text.slice_append_right, Text.slice_append_left, InertTab.text, Text.slice_pairLines]
      simp only [InertTab.text, Text.pairLines, List.length_append]
      omega
    have title : ((Text.openerOf "tab".toList e.attributes).attribute? "title".toList) =
        some e.title := rfl
    have closes := Text.closes_closer "tab".toList
      (before.length + (Text.markerLine "tab".toList e.attributes ++ e.body).length)
    rw [tabLines_cons, Text.markers_append e.closed_text, e.markers_text, List.map_append,
      Marker.map_shift_shift, List.map_cons, List.map_singleton, Marker.shift_shift,
      List.cons_append, List.cons_append, List.nil_append, bodies?,
      if_pos (by rfl), if_pos closes, rest]
    simp only [Option.map_some, Marker.attribute?_shift, title, Option.getD_some,
      Marker.stop_shift, Marker.start_shift, List.map_cons, InertTab.shown]
    simp only [Text.openerOf, Nat.add_zero, body]

/-- The inside of a group of tabs, as it stands behind its opener. -/
def inside (tabs : List InertTab) : Text :=
  '\n' :: tabLines tabs

theorem markers_inside (tabs : List InertTab) :
    (inside tabs).markers = (tabLines tabs).markers.map (Marker.shift 1) := by
  have feed : Text.Closed ['\n'] := .of_line (t := []) (by decide) (by decide)
  exact Text.markers_append feed _

/-- The entries of a group. -/
def entriesOf (tabs : List InertTab) : List TabEntry :=
  List.zipWith (fun p v => entry p.1 p.2 v) (tabs.map InertTab.shown)
    (values (tabs.map fun e => e.title.trim))

theorem length_entriesOf (tabs : List InertTab) : (entriesOf tabs).length = tabs.length := by
  simp [entriesOf]

theorem entries?_inside (tabs : List InertTab) (filled : tabs ≠ []) : entries? (inside tabs) = some (entriesOf tabs) := by
  have bodies : bodies? (inside tabs) (inside tabs).markers = some (tabs.map InertTab.shown) := by
    rw [markers_inside]
    exact bodies?_tabs ['\n'] tabs
  rw [entries?, bodies, Option.bind_some, if_neg (by simpa using filled), List.map_map]
  rfl

/-- A group opens as many tabs as it has entries. -/
theorem declared_inside (tabs : List InertTab) : declared (inside tabs) = tabs.length := by
  have all : ((tabLines tabs).singles "tab".toList).length = tabs.length := by
    induction tabs with
    | nil => rfl
    | cons e tabs ih =>
      have own : (e.text.singles "tab".toList).length = 1 := by
        rw [Text.singles, e.markers_text]
        rfl
      rw [tabLines_cons, Text.singles_append e.closed_text, List.length_append,
        List.length_map, own, ih, List.length_cons, Nat.add_comm]
  have feed : Text.Closed ['\n'] := .of_line (t := []) (by decide) (by decide)
  have cut : Text.singles (['\n'] ++ tabLines tabs) "tab".toList = _ :=
    Text.singles_append feed (tabLines tabs)
  rw [declared, inside]
  change (Text.singles (['\n'] ++ tabLines tabs) "tab".toList).length = tabs.length
  rw [cut, List.length_append, List.length_map, all]
  exact Nat.zero_add _

/-! ## Items -/

theorem isPlain_replaceQuote {t : Text} (plain : t.IsPlain) :
    (Text.replaceChar '"' ['\''] t).IsPlain := by
  refine plain.recased (.flatMap (fun c => ?_) t)
  split
  · exact .of_not_sign (by decide)
  · exact .self c

theorem inert_entry_content (title value : Text) {body : Text} (inert : body.Inert) :
    (entry title body value).content.Inert := by
  unfold entry
  split
  case h_1 language told => exact inert.tagBare (Language.isTag_of_ofTab? told)
  case h_2 => exact inert

theorem isProse_itemLine {value title : Text} (shown : value.IsPlain) (named : title.IsPlain) :
    Text.IsProse ("<TabItem value=\"".toList ++ value ++ "\" label=\"".toList ++ title ++
      "\">".toList) := by
  have left : Text.IsPlain "<TabItem value=\"".toList := by decide
  have middle : Text.IsPlain "\" label=\"".toList := by decide
  have right : Text.IsPlain "\">".toList := by decide
  have line := named.between (shown.between left middle (by decide) (by decide)) right
    (by rw [List.getLast?_append]; simp) (by decide)
  have first : ("<TabItem value=\"".toList ++ value ++ "\" label=\"".toList ++ title ++
      "\">".toList).head? = some '<' := by simp
  exact line.isProse first (by decide) (by decide)

/-- An item with a plain value, a plain title and an inert body is inert. -/
theorem inert_renderEntry {e : TabEntry} (value : e.value.IsPlain) (title : e.title.IsPlain)
    (content : e.content.Inert) : Text.Inert (renderEntry e ++ ['\n']) := by
  have closing : Text.IsProse "</TabItem>".toList := by decide
  have body := Text.Inert.line .nil (content.trim.append (.line .nil (.of_line closing)))
  have lines := Text.Inert.line (isProse_itemLine value (isPlain_replaceQuote title)) body
  unfold renderEntry
  simpa using lines

theorem of_mem_entriesOf {e : TabEntry} (mem : e ∈ entriesOf tabs) :
    ∃ tab ∈ tabs, ∃ value, (∀ c ∈ value, Text.isAsciiAlnum c = true) ∧
      e = entry tab.title.trim ('\n' :: tab.body) value := by
  rw [entriesOf, ← List.map_uncurry_zip_eq_zipWith] at mem
  obtain ⟨⟨p, value⟩, both, rfl⟩ := List.mem_map.1 mem
  obtain ⟨shown, claimed⟩ := List.of_mem_zip both
  obtain ⟨tab, isIn, rfl⟩ := List.mem_map.1 shown
  exact ⟨tab, isIn, value, fun c isIn => ((isTame_of_mem_values claimed).2 c isIn).isAsciiAlnum, rfl⟩

/-- **A group of inert tabs is inert.** -/
theorem inert_render (filled : tabs ≠ []) : Text.Inert (render (entriesOf tabs) ++ ['\n']) := by
  have items : Text.Inert ((entriesOf tabs).flatMap fun e => renderEntry e ++ ['\n']) := by
    refine .flatMap fun e mem => ?_
    obtain ⟨tab, isIn, value, alnum, rfl⟩ := of_mem_entriesOf mem
    exact inert_renderEntry (Text.isPlain_of_alnum alnum) tab.plain.trim
      (inert_entry_content _ _ (.line .nil tab.inert))
  have some : (entriesOf tabs).map renderEntry ≠ [] := by
    rw [Ne, List.map_eq_nil_iff, ← List.length_eq_zero_iff, length_entriesOf,
      List.length_eq_zero_iff]
    exact filled
  have joined := Text.joinWith_feed some
  rw [Text.ofLines, List.flatMap_map] at joined
  have opening : Text.IsProse "<Tabs>".toList := by decide
  have closing : Text.IsProse "</Tabs>".toList := by decide
  have lines := Text.Inert.line opening (items.append (.of_line closing))
  rw [← joined] at lines
  unfold render
  simpa using lines

end TabGroup

/-! ## Texts -/

/-- The value of an attribute, or the text of a link. -/
structure AttributeText where
  text : Text
  oneLine : text.OneLine
  noQuote : '"' ∉ text
  noTick : '\x60' ∉ text
  noAngle : '<' ∉ text
  noBracket : ']' ∉ text
  noOpener : Text.NoPair '{' '%' text
  noCloser : Text.NoPair '%' '}' text

namespace AttributeText

/-- The value as the only attribute of a marker. -/
def under (v : AttributeText) (key : String) : List Attribute :=
  [⟨key.toList, v.text⟩]

theorem writable (v : AttributeText) {key : Text} (isKey : IsKey key) :
    Attribute.Writable ⟨key, v.text⟩ :=
  ⟨isKey, v.oneLine, v.noQuote, v.noTick, v.noCloser⟩

theorem writable_under (v : AttributeText) {key : String} (isKey : IsKey key.toList) :
    ∀ a ∈ v.under key, a.Writable := by
  rintro a (_ | ⟨_, ⟨⟩⟩)
  exact v.writable isKey

theorem noAngle_under (v : AttributeText) (key : String) : ∀ a ∈ v.under key, '<' ∉ a.value := by
  rintro a (_ | ⟨_, ⟨⟩⟩)
  exact v.noAngle

theorem isPlain (v : AttributeText) : v.text.IsPlain :=
  ⟨v.oneLine, v.noTick, v.noOpener⟩

theorem isInfo (v : AttributeText) : v.text.IsInfo :=
  ⟨v.oneLine, v.noTick⟩

end AttributeText

/-- A line of prose. -/
structure ProseText where
  text : Text
  oneLine : text.OneLine
  noTick : '\x60' ∉ text
  noTilde : '~' ∉ text
  noAngle : '<' ∉ text
  noOpener : Text.NoPair '{' '%' text

theorem ProseText.isProse (p : ProseText) : p.text.IsProse where
  toIsPlain := ⟨p.oneLine, p.noTick, p.noOpener⟩
  start c head := by
    have mem : c ∈ p.text := (Text.trimStart_suffix p.text).mem (List.mem_of_mem_head? head)
    rw [Option.eq_none_iff_forall_ne_some]
    intro m mark
    rw [FenceMark.ofChar?_eq_some_iff.1 mark] at mem
    cases m with
    | backtick => exact p.noTick mem
    | tilde => exact p.noTilde mem

/-- A block of backticks. -/
structure TickBlock extends FencedBlock where
  ticks : head.fence.mark = .backtick

/-! ## Blocks -/

/-- A block that encloses no other. -/
inductive Leaf where
  | prose (line : ProseText)
  | fence (block : TickBlock)
  | code (title : AttributeText) (block : TickBlock)
  | contentRef (url label : AttributeText)
  | embed (url : AttributeText)
  | pageRef (page : AttributeText)

/-- A leaf, or a hint around leaves. -/
inductive Block where
  | leaf (l : Leaf)
  | hint (style : AttributeText) (body : List Leaf)

/-- A tab around blocks. -/
structure Tab where
  title : AttributeText
  body : List Block

/-- A block, or a group of one tab or more. -/
inductive Part where
  | block (b : Block)
  | tabs (first : Tab) (others : List Tab)

/-- A sequence of parts. -/
structure Document where
  parts : List Part

namespace Leaf

/-- The kind of directive that a leaf is. -/
def kind? : Leaf → Option DirectiveKind
  | prose _ | fence _ => none
  | code _ _ => some .code
  | contentRef _ _ => some .contentRef
  | embed _ => some .embed
  | pageRef _ => some .pageRef

/-- The source of a leaf. -/
def text : Leaf → Text
  | prose line => line.text ++ ['\n']
  | fence block => block.text
  | code title block => Text.pairLines DirectiveKind.code.name (title.under "title") block.text
  | contentRef url label =>
    Text.pairLines DirectiveKind.contentRef.name (url.under "url")
      (Reference.link label.text url.text ++ ['\n'])
  | embed url => Text.markerLine DirectiveKind.embed.name (url.under "url")
  | pageRef page => Text.markerLine DirectiveKind.pageRef.name (page.under "page")

/-- What a leaf becomes. -/
def converted : Leaf → Text
  | prose line => line.text ++ ['\n']
  | fence block => block.text
  | code title block =>
    (CodeBlock.ofDirective? (Text.openerOf DirectiveKind.code.name (title.under "title"))
      ('\n' :: block.text)).getD [] ++ ['\n']
  | contentRef url label =>
    (Reference.ofContentRef? .standard
      (Text.openerOf DirectiveKind.contentRef.name (url.under "url"))
      ('\n' :: (Reference.link label.text url.text ++ ['\n']))).getD [] ++ ['\n']
  | embed url =>
    (Reference.ofEmbed? .standard
      (Text.openerOf DirectiveKind.embed.name (url.under "url"))).getD [] ++ ['\n']
  | pageRef page =>
    (Reference.ofPageRef?
      (Text.openerOf DirectiveKind.pageRef.name (page.under "page"))).getD [] ++ ['\n']

end Leaf

namespace Block

/-- The source of a block, its leaves written by `leaf`. -/
def write (leaf : Leaf → Text) : Block → Text
  | .leaf l => leaf l
  | .hint style body =>
    Text.pairLines DirectiveKind.hint.name (style.under "style") (body.flatMap leaf)

/-- What a block becomes. -/
def converted : Block → Text
  | .leaf l => l.converted
  | .hint style body =>
    Admonition.ofHint (Text.openerOf DirectiveKind.hint.name (style.under "style"))
      ('\n' :: body.flatMap Leaf.converted) ++ ['\n']

end Block

/-- The source of a tab, its blocks written by `block`. -/
def Tab.write (block : Block → Text) (t : Tab) : Text :=
  Text.pairLines DirectiveKind.tab.name (t.title.under "title") (t.body.flatMap block)

/-- The source of a part, its blocks written by `block`. -/
def Part.write (block : Block → Text) : Part → Text
  | .block b => block b
  | .tabs first others =>
    Text.pairLines DirectiveKind.tabs.name [] ((first :: others).flatMap (Tab.write block))

namespace Document

/-- The source of a document, its blocks written by `block`. -/
def write (block : Block → Text) (d : Document) : Text :=
  d.parts.flatMap (Part.write block)

/-- The source of a document. -/
def text (d : Document) : Text :=
  d.write (Block.write Leaf.text)

example :
    let style : AttributeText := ⟨"info".toList, by decide, by decide, by decide, by decide,
      by decide, by decide, by decide⟩
    let line : ProseText := ⟨"Go on.".toList, by decide, by decide, by decide, by decide, by decide⟩
    (Document.mk [.block (.hint style [.prose line])]).text =
      "\x7b% hint style=\"info\" %\x7d\nGo on.\n\x7b% endhint %\x7d\n".toList :=
  rfl

end Document
end MdxPress
