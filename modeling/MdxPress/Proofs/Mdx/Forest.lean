import MdxPress.Proofs.Mdx.Escape
import MdxPress.Proofs.Mdx.Pared

/-!
Bodies that are made of components and lines of text, as deep and as wide as one likes, with every tag
on a line of its own.

* `Tag.IsAttributes` is what may stand in a tag behind the name, and `tagEnd?_attributes` finds the
  end of the tag behind it;
* `ComponentTag.advance` and `ComponentTag.closes` read the lines that a component begins and ends
  with;
* `Forest.steady` goes through a forest inside of a component, and `Forest.escapesTo` outside of all;
* `escapeBraces_forest` is the body as a whole.
-/

namespace MdxPress

/-! ## What stands in a tag -/

namespace Tag

/-- The inside of an expression: every brace has its partner. -/
inductive IsBalanced : Text → Prop
  | nil : IsBalanced []
  | char {c : Char} {t : Text} (left : c ≠ '{') (right : c ≠ '}') (rest : IsBalanced t) :
      IsBalanced (c :: t)
  | braces {v t : Text} (inner : IsBalanced v) (rest : IsBalanced t) :
      IsBalanced ('{' :: (v ++ '}' :: t))

/-- The attributes of a tag: values in quotation marks, expressions in braces, and other characters,
of which none ends the tag. -/
inductive IsAttributes : Text → Prop
  | nil : IsAttributes []
  | char {c : Char} {t : Text} (plain : c ∉ ['>', '"', '\'', '\x7b']) (rest : IsAttributes t) :
      IsAttributes (c :: t)
  | value {q : Char} {v t : Text} (mark : q = '"' ∨ q = '\'') (inner : q ∉ v)
      (rest : IsAttributes t) : IsAttributes (q :: (v ++ q :: t))
  | expression {v t : Text} (inner : IsBalanced v) (rest : IsAttributes t) :
      IsAttributes ('{' :: (v ++ '}' :: t))

end Tag

namespace TagEndState

theorem last_next (s : TagEndState) (c : Char) :
    (s.next c).last = if isBlank c then s.last else some c := by
  simp only [next]
  repeat' split
  all_goals rfl

/-- Behind a stretch of a tag, its last visible character is known. -/
theorem last_along {s s' : TagEndState} {t : Text} (stays : s.along t = some s') :
    s'.last = t.trimEnd.getLast?.or s.last := by
  induction t generalizing s with
  | nil =>
    cases stays
    rfl
  | cons c t ih =>
    rw [along] at stays
    split at stays
    · cases stays
    · rw [ih stays, last_next, Text.trimEnd, Text.trimEnd, Text.dropEndWhile]
      cases Text.dropEndWhile isBlank t with
      | nil =>
        cases isBlank c <;> rfl
      | cons d r => simp [List.getLast?_cons]

/-- Within braces, the search for the end of a tag comes out of balanced ones where it went in. -/
theorem along_balanced {v : Text} (balanced : Tag.IsBalanced v) (depth : Nat)
    (last : Option Char) :
    ∃ last', along ⟨none, depth + 1, last⟩ v = some ⟨none, depth + 1, last'⟩ := by
  induction balanced generalizing depth last with
  | nil => exact ⟨last, rfl⟩
  | @char c t left right rest ih =>
    have step : next ⟨none, depth + 1, last⟩ c =
        ⟨none, depth + 1, if isBlank c then last else some c⟩ := by
      simp [next, left, right]
    rw [along, if_neg (by simp [isEnd]), step]
    exact ih depth _
  | @braces v t inner rest ihInner ihRest =>
    obtain ⟨_, within⟩ := ihInner (depth + 1) (some '{')
    obtain ⟨last', behind⟩ := ihRest depth (some '}')
    refine ⟨last', ?_⟩
    have opens : along ⟨none, depth + 1, last⟩ ('{' :: (v ++ '}' :: t)) =
        along ⟨none, depth + 1 + 1, some '{'⟩ (v ++ '}' :: t) := by
      simp [along, isEnd, next, isBlank]
    rw [opens, along_append, within, Option.bind_some, ← behind]
    simp [along, isEnd, next, isBlank]

/-- **Attributes** are passed over as a whole. -/
theorem along_attributes {t : Text} (isAttributes : Tag.IsAttributes t) (last : Option Char) :
    ∃ last', along ⟨none, 0, last⟩ t = some ⟨none, 0, last'⟩ := by
  induction isAttributes generalizing last with
  | nil => exact ⟨last, rfl⟩
  | @char c t plain rest ih =>
    obtain ⟨angle, double, single, left⟩ : c ≠ '>' ∧ c ≠ '"' ∧ c ≠ '\'' ∧ c ≠ '{' := by
      simpa using plain
    have step : next ⟨none, 0, last⟩ c = ⟨none, 0, if isBlank c then last else some c⟩ := by
      simp [next, double, single, left]
    rw [along, if_neg (by simp [isEnd, angle]), step]
    exact ih _
  | @value q v t mark inner rest ih =>
    obtain ⟨l, within⟩ := along_quoted inner 0 (some q)
    obtain ⟨last', behind⟩ := ih (some q)
    refine ⟨last', ?_⟩
    have opens : along ⟨none, 0, last⟩ (q :: (v ++ q :: t)) =
        along ⟨some q, 0, some q⟩ (v ++ q :: t) := by
      rcases mark with rfl | rfl <;> rfl
    have closes : along ⟨some q, 0, l⟩ (q :: t) = along ⟨none, 0, some q⟩ t := by
      rcases mark with rfl | rfl <;> rfl
    rw [opens, along_append, within, Option.bind_some, closes, behind]
  | @expression v t inner rest ih =>
    obtain ⟨l, within⟩ := along_balanced inner 0 (some '{')
    obtain ⟨last', behind⟩ := ih (some '}')
    refine ⟨last', ?_⟩
    have opens : along ⟨none, 0, last⟩ ('{' :: (v ++ '}' :: t)) =
        along ⟨none, 1, some '{'⟩ (v ++ '}' :: t) := rfl
    have closes : along ⟨none, 1, l⟩ ('}' :: t) = along ⟨none, 0, some '}'⟩ t := rfl
    rw [opens, along_append, within, Option.bind_some, closes, behind]

end TagEndState

/-- **The end of a tag** stands behind its attributes, and a slash that they end with closes the
component at once. -/
theorem tagEnd?_attributes {t : Text} (isAttributes : Tag.IsAttributes t) (tail : Text) :
    tagEnd? (t ++ '>' :: tail) = some (t.length + 1, t.trimEnd.getLast? == some '/') := by
  obtain ⟨last, stays⟩ := TagEndState.along_attributes isAttributes none
  have seen : last = t.trimEnd.getLast? := by
    simpa using TagEndState.last_along stays
  rw [tagEnd?, TagEndState.start, TagEndState.find?_append stays, ← seen]
  simp [TagEndState.find?, TagEndState.isEnd, Nat.add_comm]

/-! ## Tags on lines of their own -/

/-- A tag of a component as it is written: the name is read up to the attributes. -/
structure ComponentTag where
  name : Text
  attributes : Text
  isName : Tag.IsName name
  apart : ∀ c ∈ attributes.head?, Tag.isNameChar c = false
  isAttributes : Tag.IsAttributes attributes

/-- What stands around a tag that has a line of its own: blanks, and the end of the line. -/
structure Margin where
  before : Text
  behind : Text
  ending : Ending
  blankBefore : ∀ c ∈ before, isBlank c = true
  blankBehind : ∀ c ∈ behind, isBlank c = true

/-- The line of a tag. -/
def Margin.line (m : Margin) (tag : Text) : Line :=
  ⟨m.before ++ (tag ++ m.behind), m.ending⟩

namespace Margin

theorem noAngle (m : Margin) : '<' ∉ m.behind := by
  intro mem
  cases m.blankBehind '<' mem

end Margin

namespace ComponentTag

variable (g : ComponentTag)

/-- The tag that begins a component, or is all of it. -/
def opener : Text :=
  '<' :: (g.name ++ (g.attributes ++ ['>']))

/-- The tag that ends the component. -/
def closer : Text :=
  '<' :: '/' :: (g.name ++ ['>'])

/-- Whether the component ends with the tag that begins it: the last visible character before the
bracket is a slash. -/
def closesItself : Bool :=
  g.attributes.trimEnd.getLast? == some '/'

/-- **The line that begins a component**, between lines: it opens the component, unless that ends
with the tag. -/
theorem advance (m : Margin) {s : MdxState} (between : s.IsBetween) (lineNo : Nat) :
    s.advance (m.line g.opener).content lineNo = (.component,
      { s with stack := if g.closesItself then s.stack
          else s.stack ++ [⟨g.name, lineNo, m.before.length + 1⟩] }) := by
  have content : (m.line g.opener).content =
      m.before ++ '<' :: (g.name ++ ((g.attributes ++ ['>']) ++ m.behind)) := by
    simp [Margin.line, opener]
  have stops : ∀ c ∈ ((g.attributes ++ ['>']) ++ m.behind).head?, Tag.isNameChar c = false := by
    cases attributes : g.attributes with
    | nil => rintro c ⟨⟩; rfl
    | cons d r =>
      rintro c ⟨⟩
      exact g.apart d (by rw [attributes]; rfl)
  have reads : Tag.ofStart? ('<' :: (g.name ++ ((g.attributes ++ ['>']) ++ m.behind))) =
      some (false, g.name) :=
    Tag.ofStart?_eq_some_iff.2 ⟨(g.attributes ++ ['>']) ++ m.behind, rfl, g.isName, stops⟩
  have ends : tagEnd? ((g.attributes ++ ['>']) ++ m.behind) =
      some ((g.attributes ++ ['>']).length, g.closesItself) := by
    rw [List.append_assoc, List.singleton_append, tagEnd?_attributes g.isAttributes,
      List.length_append]
    rfl
  rw [content]
  exact MdxState.advance_tagLine m.blankBefore reads ends m.noAngle between lineNo

theorem opens (m : Margin) (stays : g.closesItself = false) :
    MdxState.Opens (m.line g.opener).content g.name := by
  intro s lineNo between
  refine ⟨m.before.length + 1, ?_⟩
  rw [g.advance m between, stays]
  rfl

/-- **The line that ends a component.** -/
theorem closes (m : Margin) : MdxState.Closes (m.line g.closer).content g.name := by
  have content : (m.line g.closer).content =
      m.before ++ '<' :: ('/' :: (g.name ++ ('>' :: m.behind))) := by
    simp [Margin.line, closer]
  have reads : Tag.ofStart? ('<' :: ('/' :: (g.name ++ ('>' :: m.behind)))) = some (true, g.name) :=
    Tag.ofStart?_eq_some_iff.2 ⟨'>' :: m.behind, rfl, g.isName, by rintro c ⟨⟩; rfl⟩
  rw [content]
  exact MdxState.closes_tagLine m.blankBefore reads (by simp [m.noAngle])

end ComponentTag

/-! ## Lines of text -/

/-- A line of text in which braces mean nothing: it holds no tag, no code and no marker, and is no
statement and no delimiter. -/
structure TextLine where
  line : Line
  noAngle : '<' ∉ line.content
  noTick : '\x60' ∉ line.content
  noTilde : '~' ∉ line.content
  noMarker : Text.NoPair '{' '%' line.content
  noPrefix : ∀ w ∈ ["import ", "export ", ":::", "@tab "], ¬ w.toList <+: line.content.trimStart

/-- A text without the marks of fences opens no block. -/
theorem FenceOpener.ofLine?_eq_none_of_noMark {line : Text} (noTick : '\x60' ∉ line)
    (noTilde : '~' ∉ line) : ofLine? line = none := by
  refine ofLine?_eq_none_of_trimStart fun c head => ?_
  refine Option.eq_none_iff_forall_ne_some.2 fun m mark => ?_
  have mem : m.char ∈ line := by
    rw [← FenceMark.ofChar?_eq_some_iff.1 mark]
    exact (Text.trimStart_suffix line).mem (List.mem_of_mem_head? head)
  cases m with
  | backtick => exact noTick mem
  | tilde => exact noTilde mem

/-- Where no marker begins, no character is protected. -/
theorem Brace.markerMask_of_noPair {t : Text} (noMarker : Text.NoPair '{' '%' t) :
    markerMask false t = t.map fun c => (c, false) := by
  induction t with
  | nil => rfl
  | cons c t ih =>
    obtain ⟨apart, rest⟩ := List.isChain_cons.1 noMarker
    have first : markerMask false (c :: t) = (c, false) :: markerMask false t :=
      markerMask_cons (fun _ left percent => apart '%' percent ⟨left, rfl⟩) nofun
    rw [first, ih rest, List.map_cons]

theorem Brace.mask_of_noMarker {t : Text} (noTick : '\x60' ∉ t)
    (noMarker : Text.NoPair '{' '%' t) : mask t = t.map fun c => (c, false) := by
  cases t with
  | nil => rfl
  | cons c r =>
    rw [mask, Text.codeSpans_of_noTick (by simp) noTick, List.flatMap_singleton]
    exact markerMask_of_noPair noMarker

namespace TextLine

variable (l : TextLine)

/-- The line with a reference for every brace. -/
def written : Line :=
  { l.line with
    content := Text.replaceChar '}' Brace.rightReference
      (Text.replaceChar '{' Brace.leftReference l.line.content) }

theorem isPlain : MdxState.IsPlain l.line.content where
  noFence := FenceOpener.ofLine?_eq_none_of_noMark l.noTick l.noTilde
  noTag := Tag.ofLine_eq_nil l.noAngle
  notExempt := by
    rw [MdxState.isExempt, List.any_eq_false]
    intro w mem starts
    exact l.noPrefix w mem (List.isPrefixOf_iff_prefix.1 starts)

theorem escapeLine_eq : Brace.escapeLine l.line.content = l.written.content := by
  rw [Brace.escapeLine, Brace.mask_of_noMarker l.noTick l.noMarker, written, Text.replaceChar,
    Text.replaceChar, List.flatMap_map, List.flatMap_assoc]
  refine List.flatMap_congr fun c _ => ?_
  by_cases left : c = '{'
  · subst left; rfl
  by_cases right : c = '}'
  · subst right; rfl
  simp [left, right, Brace.escapeChar_of_not_brace left right]

end TextLine

/-! ## Runs that leave nothing open -/

/-- Where nothing is open, lines are written as `out`, and nothing is open behind them. -/
def Line.EscapesTo (ls out : List Line) : Prop :=
  ∀ (s : MdxState) (lineNo : Nat), s.IsQuiet →
    (classifyLines s lineNo ls).1.map Brace.escapeClassified = out ∧
      (classifyLines s lineNo ls).2.IsQuiet

namespace Line.EscapesTo

open MdxState

variable {ls ms out out' : List Line}

theorem nil : EscapesTo [] [] :=
  fun _ _ quiet => ⟨rfl, quiet⟩

theorem append (left : EscapesTo ls out) (right : EscapesTo ms out') :
    EscapesTo (ls ++ ms) (out ++ out') := by
  intro s lineNo quiet
  obtain ⟨first, middle⟩ := left s lineNo quiet
  obtain ⟨second, last⟩ := right _ (lineNo + ls.length) middle
  rw [classifyLines_append, List.map_append, first, second]
  exact ⟨rfl, last⟩

theorem text (l : TextLine) : EscapesTo [l.line] [l.written] := by
  intro s lineNo quiet
  rw [classifyLines, quiet.advance l.isPlain]
  refine ⟨?_, quiet⟩
  change [{ l.line with content := Brace.escapeLine l.line.content }] = [l.written]
  rw [l.escapeLine_eq]
  rfl

/-- Lines that stay as they are. -/
theorem of_carries
    (carries : ∀ (s : MdxState) (lineNo : Nat), s.IsBetween →
      ∃ fences, Carries lineNo ls s { s with fences := fences }) : EscapesTo ls ls := by
  intro s lineNo quiet
  obtain ⟨fences, state, kept⟩ := carries s lineNo ⟨quiet.fence, quiet.pending⟩
  constructor
  · rw [List.map_congr_left kept, classifyLines_lines]
  · rw [state]
    exact ⟨quiet.fence, quiet.stack, quiet.pending⟩

/-- A body of such lines is written as they are, and nothing is reported. -/
theorem escapeBraces {body : Text} (escapes : EscapesTo body.lines out) :
    (escapeBraces body).text = Line.join out ∧ (MdxPress.escapeBraces body).unclosed = [] := by
  obtain ⟨written, quiet⟩ := escapes .start 1 ⟨rfl, rfl, rfl⟩
  refine ⟨congrArg Line.join written, ?_⟩
  change (classifyLines .start 1 body.lines).2.unclosed = []
  rw [unclosed, quiet.stack, quiet.pending]
  rfl

end Line.EscapesTo

/-! ## Forests -/

/-- Components and lines of text one after another; `single` is a component that ends with the tag
that begins it. -/
inductive Forest where
  | nil
  | text (l : TextLine) (rest : Forest)
  | single (g : ComponentTag) (m : Margin) (ends : g.closesItself = true) (rest : Forest)
  | element (g : ComponentTag) (stays : g.closesItself = false) (above : Margin) (inner : Forest)
      (below : Margin) (rest : Forest)

namespace Forest

/-- The lines of a forest. -/
def lines : Forest → List Line
  | nil => []
  | text l rest => l.line :: rest.lines
  | single g m _ rest => m.line g.opener :: rest.lines
  | element g _ above inner below rest =>
    above.line g.opener :: (inner.lines ++ [below.line g.closer]) ++ rest.lines

/-- The lines of a forest with a reference for every brace of the text outside of components. -/
def escaped : Forest → List Line
  | nil => []
  | text l rest => l.written :: rest.escaped
  | single g m _ rest => m.line g.opener :: rest.escaped
  | element g _ above inner below rest =>
    above.line g.opener :: (inner.lines ++ [below.line g.closer]) ++ rest.escaped

/-- A component that ends with its tag stays as it is, and leaves nothing open. -/
theorem carries_single {g : ComponentTag} (m : Margin) (ends : g.closesItself = true)
    (s : MdxState) (lineNo : Nat) (between : s.IsBetween) :
    ∃ fences, MdxState.Carries lineNo [m.line g.opener] s { s with fences := fences } := by
  have step := g.advance m between lineNo
  rw [ends] at step
  exact ⟨s.fences, .line step rfl⟩

/-- **Inside of a component**, a forest stays as it is, and leaves open what is open. -/
theorem steady (F : Forest) : Line.Steady F.lines := by
  induction F with
  | nil => exact .nil
  | text l rest ih =>
    have line : Line.Steady [l.line] := by
      intro s lineNo between inside
      have busy : s.unclosed ≠ [] := by simp [MdxState.unclosed, inside]
      have idle : s.Idle l.line.content := by
        rw [MdxState.Idle, between.pending]
        exact l.isPlain.noTag
      have step : s.advance l.line.content lineNo = (.component, s) := by
        rw [MdxState.advance_of_noFence between.fence l.isPlain.noFence,
          MdxState.advanceProse_idle busy idle]
      exact ⟨s.fences, .line step rfl⟩
    exact line.append ih
  | single g m ends rest ih =>
    have line : Line.Steady [m.line g.opener] :=
      fun s lineNo between _ => carries_single m ends s lineNo between
    exact line.append ih
  | element g stays above inner below rest ihInner ihRest =>
    exact (Line.Steady.element (g.opens above stays) ihInner (g.closes below)).append ihRest

/-- **Outside of all components**, the text of a forest is escaped, its components stay as they are,
and nothing is left open. -/
theorem escapesTo (F : Forest) : Line.EscapesTo F.lines F.escaped := by
  induction F with
  | nil => exact .nil
  | text l rest ih => exact (Line.EscapesTo.text l).append ih
  | single g m ends rest ih =>
    have line : Line.EscapesTo [m.line g.opener] [m.line g.opener] :=
      .of_carries (carries_single m ends)
    exact line.append ih
  | element g stays above inner below rest _ ih =>
    have whole := Line.EscapesTo.of_carries fun s lineNo between =>
      Line.Steady.carries_element (g.opens above stays) inner.steady (g.closes below) lineNo between
    exact whole.append ih

end Forest

/-- **Balanced components are transparent.**  If a body is a forest, what stands in its components is
left as it is, all braces of the text outside of them are escaped, and no component is reported. -/
theorem escapeBraces_forest (F : Forest) {body : Text} (lines : body.lines = F.lines) :
    (escapeBraces body).text = Line.join F.escaped ∧
      (escapeBraces body).report.unclosed = [] ∧ (escapeBraces body).diagnostics = [] := by
  have escapes := F.escapesTo
  rw [← lines] at escapes
  obtain ⟨written, closed⟩ := escapes.escapeBraces
  refine ⟨written, ?_, by rw [Escaped.diagnostics, closed]; rfl⟩
  change (escapeBraces body).unclosed.map (·.name) = []
  rw [closed]
  rfl

theorem escapeBraces_forest_tabs :
    ∃ (F : Forest) (body : Text),
      body = "{a}\n<Tabs id={b}>\n{c}\n  <Tab k='>'/>\n</Tabs>\n{d}".toList ∧
      body.lines = F.lines ∧
      (escapeBraces body).text =
        "&#123;a&#125;\n<Tabs id={b}>\n{c}\n  <Tab k='>'/>\n</Tabs>\n&#123;d&#125;".toList ∧
      (escapeBraces body).report.unclosed = [] ∧ (escapeBraces body).diagnostics = [] := by
  let tabs : ComponentTag :=
    ⟨"Tabs".toList, " id={b}".toList, And.intro rfl (by decide), by decide,
      .char (by decide) <| .char (by decide) <| .char (by decide) <| .char (by decide) <|
        .expression (.char (t := []) (by decide) (by decide) .nil) .nil⟩
  let tab : ComponentTag :=
    ⟨"Tab".toList, " k='>'/".toList, And.intro rfl (by decide), by decide,
      .char (by decide) <| .char (by decide) <| .char (by decide) <|
        .value (v := ['>']) (.inr rfl) (by decide) <| .char (by decide) .nil⟩
  let bare : Margin := ⟨[], [], .lf, List.forall_mem_nil _, List.forall_mem_nil _⟩
  let F : Forest :=
    .text ⟨⟨"{a}".toList, .lf⟩, by decide, by decide, by decide, by decide, by decide⟩ <|
      .element tabs (by decide) bare
        (.text ⟨⟨"{c}".toList, .lf⟩, by decide, by decide, by decide, by decide, by decide⟩ <|
          .single tab ⟨[' ', ' '], [], .lf, by decide, List.forall_mem_nil _⟩ (by decide) .nil)
        bare <|
      .text ⟨⟨"{d}".toList, .none⟩, by decide, by decide, by decide, by decide, by decide⟩ .nil
  have lines :
      Text.lines "{a}\n<Tabs id={b}>\n{c}\n  <Tab k='>'/>\n</Tabs>\n{d}".toList = F.lines := by
    -- A list of characters is evaluated faster than the string that it is read from.
    conv_lhs => rw [String.toList_ofList]
    decide +kernel
  have result := escapeBraces_forest F lines
  refine ⟨F, _, rfl, lines, result.1.trans ?_, result.2⟩
  conv_rhs => rw [String.toList_ofList]
  decide +kernel

end MdxPress
