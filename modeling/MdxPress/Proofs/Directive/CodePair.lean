import MdxPress.Proofs.CodeBlock
import MdxPress.Proofs.Fence.Stands
import MdxPress.Proofs.Marker.Calls

/-!
What a code directive becomes, whatever stands in it: one closed block, as long as its title, its
language and its content fit the fence it is written with.

* `CodeBlock.Fits` is that condition, `CodeBlock.isBlock_render_iff` says that it is exact;
* `Text.isBlock_codePair_iff` is the result, for the regular pass and for the sweep behind it.
-/

namespace MdxPress

/-! ## What fits a fence -/

namespace CodeBlock

/-- Title, language and content fit a fence: the opening line reads as one that opens the fence, and
no line of the content closes it. -/
structure Fits (f : Fence) (title language : Option Text) (content : Text) : Prop where
  title : f.mark = .backtick → ∀ t ∈ title, '\x60' ∉ t
  language : ∀ l ∈ language, l.head? ≠ some f.mark.char
  content : ∀ l ∈ (content ++ ['\n']).lines, FenceState.closedBy f l.content = false

/-- A language that is a word, as one that was read from an opening line with the fence `f`. -/
structure IsWordFor (f : Fence) (language : Text) : Prop where
  filled : language ≠ []
  visible : ∀ c ∈ language, isBlank c = false
  noTick : f.mark = .backtick → '\x60' ∉ language

section Opening

variable {title language : Option Text} {f : Fence} {content : Text}

theorem mem_titleInfo {c : Char} (other : c ∉ " title=\"".toList) :
    c ∈ titleInfo title ↔ ∃ shown ∈ shownTitle? title, c ∈ shown := by
  have noQuote : c ≠ '"' := by rintro rfl; exact other (by decide)
  unfold titleInfo
  cases shownTitle? title with
  | none => simp
  | some shown =>
    simp only [List.mem_append, List.mem_singleton, other, noQuote, false_or, or_false,
      Option.mem_some_iff, exists_eq_left']

/-- A line feed on the opening line would be one of the title. -/
theorem feed_not_mem_titleInfo (noFeed : ∀ t ∈ title, '\n' ∉ t) : '\n' ∉ titleInfo title := by
  rw [mem_titleInfo (by decide)]
  rintro ⟨shown, shows, mem⟩
  obtain ⟨t, has, sub⟩ := exists_title_of_shownTitle? shows
  exact noFeed t has (sub mem)

/-- A title shows the backticks it has. -/
theorem tick_mem_titleInfo : '\x60' ∈ titleInfo title ↔ ∃ t ∈ title, '\x60' ∈ t := by
  rw [mem_titleInfo (by decide)]
  constructor
  · rintro ⟨shown, shows, mem⟩
    obtain ⟨t, has, sub⟩ := exists_title_of_shownTitle? shows
    exact ⟨t, has, sub mem⟩
  · rintro ⟨t, rfl, mem⟩
    have kept : '\x60' ∈ Text.trim (t.filter (· ≠ '"')) :=
      (Text.mem_trim (by decide)).2 (List.mem_filter.2 ⟨mem, by decide⟩)
    have filled : (Text.trim (t.filter (· ≠ '"'))).isEmpty = false :=
      List.isEmpty_eq_false_iff.2 (List.ne_nil_of_mem kept)
    exact ⟨_, by simp only [shownTitle?, filled]; rfl, kept⟩

theorem getLast?_titleInfo {c : Char} (last : c ∈ (titleInfo title).getLast?) : c = '"' := by
  unfold titleInfo at last
  split at last
  case h_1 => rw [List.getLast?_concat] at last; exact (Option.some.inj last).symm
  case h_2 => cases last

theorem head?_titleInfo {c : Char} (first : c ∈ (titleInfo title).head?) : c = ' ' := by
  unfold titleInfo at first
  split at first
  case h_1 => exact (Option.some.inj first).symm
  case h_2 => cases first

/-- The language in front of the title stays on the line, and holds no backtick behind backticks. -/
theorem language_plain (word : ∀ l ∈ language, IsWordFor f l) (title : Option Text) :
    (language.getD (toldLanguage title)).OneLine ∧
      (f.mark = .backtick → '\x60' ∉ language.getD (toldLanguage title)) := by
  cases language with
  | some l =>
    have visible := (word l rfl).visible
    exact ⟨⟨fun mem => absurd (visible _ mem) (by decide),
      fun mem => absurd (visible _ mem) (by decide)⟩, (word l rfl).noTick⟩
  | none =>
    have tag := (isTag_toldLanguage title).isInfo
    exact ⟨tag.oneLine, fun _ => tag.noTick⟩

/-- The run of the fence is longer on the opening line if the language given begins with its mark. -/
theorem head?_info_eq_mark_iff (word : ∀ l ∈ language, IsWordFor f l) :
    (info title language).head? = some f.mark.char ↔ ∃ l ∈ language, l.head? = some f.mark.char := by
  have space : (titleInfo title).head? ≠ some f.mark.char := by
    intro first
    have mark := head?_titleInfo first
    cases same : f.mark <;> simp [same, FenceMark.char] at mark
  unfold info
  cases language with
  | some l =>
    obtain ⟨c, r, rfl⟩ := List.exists_cons_of_ne_nil (word l rfl).filled
    simp
  | none =>
    have tag := isTag_toldLanguage title
    rw [Option.getD_none, List.head?_append]
    cases first : (toldLanguage title).head? with
    | none => simpa using space
    | some c =>
      have noMark := tag.noMark c (List.mem_of_mem_head? first)
      have other : c ≠ f.mark.char := by
        rintro rfl
        rw [FenceMark.ofChar?_char] at noMark
        cases noMark
      simpa using other

/-- **A block that is written is one closed block exactly when all of it fits.** -/
theorem isBlock_render_iff (three : 3 ≤ f.length) (noFeed : ∀ t ∈ title, '\n' ∉ t)
    (word : ∀ l ∈ language, IsWordFor f l) :
    (render title language f.run content).IsBlock ↔ Fits f title language content := by
  obtain ⟨oneLine, noTick⟩ := language_plain word title
  have infoFeed : '\n' ∉ info title language := fun mem =>
    (List.mem_append.1 mem).elim oneLine.noFeed (feed_not_mem_titleInfo noFeed)
  have infoReturn : (info title language).getLast? ≠ some '\r' := by
    intro last
    rw [info, List.getLast?_append] at last
    cases ends : (titleInfo title).getLast? with
    | none =>
      rw [ends, Option.none_or] at last
      exact oneLine.noReturn (List.mem_of_getLast? last)
    | some c =>
      obtain rfl := getLast?_titleInfo ends
      simp [ends] at last
  have ticks (mark : f.mark = .backtick) : '\x60' ∉ info title language ↔ ∀ t ∈ title, '\x60' ∉ t := by
    rw [info, List.mem_append, or_iff_right (noTick mark), tick_mem_titleInfo]
    simp
  rw [render_eq, Text.isBlock_written_iff three infoFeed infoReturn, ne_eq,
    head?_info_eq_mark_iff word]
  constructor
  · rintro ⟨head, noTicks, inside⟩
    exact ⟨fun mark => (ticks mark).1 (noTicks mark), fun l given first => head ⟨l, given, first⟩,
      inside⟩
  · rintro ⟨noTicks, head, inside⟩
    exact ⟨fun ⟨l, given, first⟩ => head l given first, fun mark => (ticks mark).2 (noTicks mark),
      inside⟩

end Opening

/-! ## The block in a directive -/

/-- What a text that is one block was read from. -/
theorem exists_ofLine?_of_wrapped? {inner content : Text} {o : FenceOpener}
    (wrapped : wrapped? inner = some (o, content)) : ∃ line, FenceOpener.ofLine? line = some o := by
  unfold wrapped? at wrapped
  split at wrapped
  case h_1 => cases wrapped
  case h_2 first rest _ =>
    obtain ⟨opener, opens, kept⟩ := Option.bind_eq_some_iff.1 wrapped
    split at kept
    · cases kept
    · split at kept
      · cases kept
        exact ⟨first, opens⟩
      · cases kept

/-- The language on an opening line is a word. -/
theorem isWordFor_language? {line : Text} {o : FenceOpener}
    (opens : FenceOpener.ofLine? line = some o) : ∀ l ∈ o.language?, IsWordFor o.fence l := by
  intro l first
  obtain ⟨before, behind, rfl, reads⟩ := FenceOpener.ofLine?_eq_some_iff.1 opens
  have mem : l ∈ o.info.words := List.mem_of_mem_head? first
  obtain ⟨filled, visible⟩ := Text.isBlank_of_mem_words mem
  refine ⟨filled, visible, fun mark tick => reads.noTick mark ?_⟩
  rw [reads.info] at mem
  exact (Text.trim_part behind).mem ((Text.words_part mem).mem tick)

end CodeBlock

namespace Leftover

/-- The fence of a block that the sweep writes: the one that the inside begins with, else three
backticks. -/
def textFence (inner : Text) : Fence :=
  (((CodeBlock.lineContents inner.trim).head?.bind FenceOpener.ofLine?).map (·.fence)).getD
    ⟨.backtick, 0, 3⟩

/-- The content of a block that the sweep writes: the inside without the fence lines around it. -/
def textContent (inner : Text) : Text :=
  let lines := CodeBlock.lineContents inner.trim
  let rest := if (lines.head?.bind FenceOpener.ofLine?).isSome then lines.tail else lines
  (Text.joinWith ['\n'] (if rest.getLast?.any isFenceRun then rest.dropLast else rest)).trimEnd

theorem textBlock_eq (title : Option Text) (inner : Text) :
    textBlock title inner =
      CodeBlock.render title (some "text".toList) (textFence inner).run (textContent inner) := by
  have run : ((((CodeBlock.lineContents inner.trim).head?.bind FenceOpener.ofLine?).map
      (·.fence.run)).getD "\x60\x60\x60".toList) = (textFence inner).run := by
    unfold textFence
    cases (CodeBlock.lineContents inner.trim).head?.bind FenceOpener.ofLine? <;> rfl
  rw [← run]
  rfl

theorem three_le_textFence (inner : Text) : 3 ≤ (textFence inner).length := by
  unfold textFence
  cases opener : (CodeBlock.lineContents inner.trim).head?.bind FenceOpener.ofLine? with
  | none => exact Nat.le_refl 3
  | some o =>
    obtain ⟨line, -, opens⟩ := Option.bind_eq_some_iff.1 opener
    exact FenceOpener.three_le_length opens

theorem isBlock_textBlock_iff {title : Option Text} (noFeed : ∀ t ∈ title, '\n' ∉ t)
    (inner : Text) :
    (textBlock title inner).IsBlock ↔
      CodeBlock.Fits (textFence inner) title (some "text".toList) (textContent inner) := by
  rw [textBlock_eq]
  refine CodeBlock.isBlock_render_iff (three_le_textFence inner) noFeed ?_
  rintro l ⟨⟩
  exact ⟨by decide, by decide, fun _ => by decide⟩

end Leftover

/-! ## The directive -/

namespace Text

/-- An opener and the closer right behind it are a pair. -/
theorem mem_pairsAmong {t name : Text} {before behind : List Marker} {opener closer : Marker}
    (isOpener : opener.name = name) (closes : closer.closes name = true) :
    ⟨opener, closer, t.slice opener.stop closer.start⟩ ∈
      t.pairsAmong name (before ++ opener :: closer :: behind) :=
  mem_pairsAmong_iff.2 ⟨before, [], behind, rfl, isOpener, closes, nofun, rfl⟩

/-- **A code directive becomes one closed block** exactly when its title, its language and its
content fit the fence: in the pass for code, if it takes the directive, and in the sweep behind it,
which takes every directive that has no other marker in it. -/
theorem isBlock_codePair_iff {t : Text} {before behind : List Marker} {opener closer : Marker}
    (adjacent : t.markers = before ++ opener :: closer :: behind)
    (isCode : opener.name = "code".toList) (closes : closer.closes "code".toList = true) :
    let inner := t.slice opener.stop closer.start
    let title := opener.attribute? "title".toList
    ⟨opener, closer, inner⟩ ∈ t.pairs "code".toList ∧
      (∀ new, CodeBlock.ofDirective? opener inner = some new →
        ∃ o content, CodeBlock.wrapped? inner = some (o, content) ∧
          (new.IsBlock ↔ CodeBlock.Fits o.fence title o.language? content)) ∧
      ∃ d, Leftover.paired? t opener closer = some d ∧
        d.edit.start = opener.start ∧ d.edit.stop = closer.stop ∧
        (d.edit.new.IsBlock ↔
          CodeBlock.Fits (Leftover.textFence inner) title (some "text".toList)
            (Leftover.textContent inner)) := by
  intro inner title
  have stands : opener.StandsIn t := standsIn_of_mem_markers (by simp [adjacent])
  have noFeed : ∀ u ∈ title, '\n' ∉ u := fun u has => stands.noFeed has
  refine ⟨?_, fun new converts => ?_, ?_⟩
  · rw [pairs, adjacent]
    exact mem_pairsAmong isCode closes
  · obtain ⟨⟨o, content⟩, wrapped, rfl⟩ := Option.map_eq_some_iff.1 converts
    obtain ⟨line, opens⟩ := CodeBlock.exists_ofLine?_of_wrapped? wrapped
    exact ⟨o, content, wrapped, CodeBlock.isBlock_render_iff (FenceOpener.three_le_length opens) noFeed
      (CodeBlock.isWordFor_language? opens)⟩
  · have taken : Leftover.paired? t opener closer =
        some ⟨opener, ⟨opener.start, closer.stop, Leftover.textBlock title inner⟩,
          "converted to a text code block".toList⟩ := by
      rw [Leftover.paired?, isCode, if_pos closes, Leftover.ofPair?, if_pos isCode,
        Option.map_some]
    exact ⟨_, taken, rfl, rfl, Leftover.isBlock_textBlock_iff noFeed inner⟩

/-- A title without backticks, and a content that closes nothing. -/
theorem isBlock_codePair_iff_named :
    let t : Text := "\x7b% code title=\"a.c\" %\x7d\n\x60\x60\x60\nx\n\x60\x60\x60\n\x7b% endcode %\x7d\n".toList
    let opener : Marker := ⟨"code".toList, [⟨"title".toList, "a.c".toList⟩], 0, 22⟩
    let closer : Marker := ⟨"endcode".toList, [], 33, 46⟩
    (t.markers = [] ++ opener :: closer :: [] ∧ opener.name = "code".toList ∧
      closer.closes "code".toList = true) ∧
      ∃ new, CodeBlock.ofDirective? opener (t.slice opener.stop closer.start) = some new ∧
        new.IsBlock := by
  intro t opener closer
  have adjacent : t.markers = [] ++ opener :: closer :: [] := by decide +kernel
  have closes : closer.closes "code".toList = true := by decide
  obtain ⟨-, takes, -⟩ := isBlock_codePair_iff adjacent rfl closes
  have converts : CodeBlock.ofDirective? opener (t.slice opener.stop closer.start) =
      some "\x60\x60\x60c title=\"a.c\"\nx\n\x60\x60\x60".toList := by decide +kernel
  obtain ⟨o, content, wrapped, isBlock⟩ := takes _ converts
  have read : CodeBlock.wrapped? (t.slice opener.stop closer.start) =
      some (⟨⟨.backtick, 0, 3⟩, []⟩, ['x']) := by decide +kernel
  rw [read] at wrapped
  cases wrapped
  refine ⟨⟨adjacent, rfl, closes⟩, _, converts, isBlock.2 ⟨fun _ => ?_, nofun, by decide⟩⟩
  rintro u ⟨⟩
  decide

/-- A backtick in the title keeps the opening line from opening a block. -/
theorem not_isBlock_codePair_tickedTitle :
    ¬ ∀ (t : Text) (before behind : List Marker) (opener closer : Marker),
      t.markers = before ++ opener :: closer :: behind → opener.name = "code".toList →
      closer.closes "code".toList = true →
      (∀ new, CodeBlock.ofDirective? opener (t.slice opener.stop closer.start) = some new →
        new.IsBlock) ∧
      ∀ d, Leftover.paired? t opener closer = some d → d.edit.new.IsBlock := by
  intro all
  have block := (all
    "\x7b% code title=\"a\x60b.c\" %\x7d\n\x60\x60\x60\nx\n\x60\x60\x60\n\x7b% endcode %\x7d\n".toList
    [] [] ⟨"code".toList, [⟨"title".toList, "a\x60b.c".toList⟩], 0, 24⟩
    ⟨"endcode".toList, [], 35, 48⟩ (by decide +kernel) rfl (by decide)).1
    "\x60\x60\x60c title=\"a\x60b.c\"\nx\n\x60\x60\x60".toList (by decide +kernel)
  obtain ⟨first, inner, last, lines, opens, -⟩ := block
  have head : (Text.fenced "\x60\x60\x60c title=\"a\x60b.c\"\nx\n\x60\x60\x60".toList).head?.map
      (·.after) = some none := by decide +kernel
  rw [lines] at head
  have outside : first.after = none := Option.some.inj head
  rw [outside] at opens
  cases opens

end Text
end MdxPress
