import MdxPress.Directive.Convert
import MdxPress.Proofs.Fence.Repair
import MdxPress.Proofs.Marker.Inert

/-!
A fenced block that is read and written again is a fenced block: its content stays, its indentation
goes, and its opening line shows a language and maybe a title.

* `FencedBlock.wrapped?_text` reads a block that stands alone on its lines;
* `FencedBlock.rewrap` is the block that is written, `CodeBlock.render_eq` its text;
* `CodeBlock.exists_ofDirective?` puts the two together.
-/

namespace MdxPress

/-! ## Reading a block -/

namespace FencedBlock

theorem joinWith_lines (b : FencedBlock) :
    Text.joinWith ['\n'] b.lines =
      b.opener ++ '\n' :: Text.joinWith ['\n'] (b.content ++ [b.closer]) := by
  rw [lines, List.cons_append, Text.joinWith_cons _ _ (by simp), List.append_assoc,
    List.singleton_append]

theorem text_eq_joinWith (b : FencedBlock) : b.text = Text.joinWith ['\n'] b.lines ++ ['\n'] :=
  (Text.joinWith_feed (by simp [lines])).symm

/-- A block that stands alone on its lines, without the blanks around it. -/
theorem trim_text (b : FencedBlock) :
    Text.trim ('\n' :: b.text) = Text.joinWith ['\n'] b.trimEnd.trimStart.lines := by
  have ends : b.text.trimEnd = Text.joinWith ['\n'] b.trimEnd.lines :=
    List.append_cancel_right (b.trimEnd_text.trans b.trimEnd.text_eq_joinWith)
  have starts : Text.trimStart (Text.joinWith ['\n'] b.trimEnd.lines) =
      Text.joinWith ['\n'] b.trimEnd.trimStart.lines := by
    rw [joinWith_lines, joinWith_lines,
      Text.trimStart_append_of_filled b.trimEnd.opener_trimStart_ne_nil]
    rfl
  have filled : b.text.trimEnd ≠ [] := by
    rw [ends, joinWith_lines]
    simp
  have feed : Text.trimEnd ('\n' :: b.text) = ['\n'] ++ b.text.trimEnd :=
    Text.trimEnd_append_of_filled ['\n'] filled
  rw [Text.trim, feed, Text.trimStart_append (by decide), ends, starts]

end FencedBlock

namespace CodeBlock

/-- The lines that were put together, when the last of them is not empty. -/
theorem lineContents_joinWith {ls : List Text} {last : Text} (one : ∀ l ∈ ls, l.OneLine)
    (oneLast : last.OneLine) (filled : last ≠ []) :
    lineContents (Text.joinWith ['\n'] (ls ++ [last])) = ls ++ [last] := by
  induction ls with
  | nil => simp [lineContents, Text.joinWith, Text.lines_of_noFeed filled oneLast.noFeed]
  | cons l ls ih =>
    have rest := ih fun m mem => one m (.tail _ mem)
    rw [lineContents] at rest ⊢
    rw [List.cons_append, Text.joinWith_cons _ _ (by simp), List.append_assoc,
      List.singleton_append, (one l (.head _)).lines_feed, List.map_cons, rest]

theorem isClosing_of_closedBy {f : Fence} {line : Text}
    (closes : FenceState.closedBy f line = true) : isClosing f line = true := by
  obtain ⟨before, n, behind, rfl, indent, -, long, enough, blank⟩ :=
    FenceState.closedBy_iff.1 closes
  obtain ⟨k, rfl⟩ : ∃ k, n = k + 1 := ⟨n - 1, by omega⟩
  have trimmed : Text.trim (before ++ (List.replicate (k + 1) f.mark.char ++ behind)) =
      List.replicate (k + 1) f.mark.char := by
    rw [← List.append_assoc]
    refine Text.trim_between (fun c mem => Text.isBlank_of_isIndent (indent c mem))
      (List.all_eq_true.1 blank) rfl (Text.isBlank_char f.mark) ?_ (Text.isBlank_char f.mark)
    rw [List.replicate_succ', List.getLast?_concat]
  rw [isClosing, trimmed]
  simp [enough]

end CodeBlock

namespace FencedBlock

/-- **A block that stands alone on its lines is read as it is.** -/
theorem wrapped?_text (b : FencedBlock) :
    CodeBlock.wrapped? ('\n' :: b.text) =
      some (⟨{ b.head.fence with indent := 0 }, b.head.info⟩,
        Text.joinWith ['\n'] b.content) := by
  have lines : CodeBlock.lineContents (Text.trim ('\n' :: b.text)) =
      b.opener.trimStart :: (b.content ++ [b.closer.trimEnd]) := by
    rw [trim_text]
    refine CodeBlock.lineContents_joinWith (List.forall_mem_cons.2 ⟨?_, b.contentLines⟩) ?_
      b.closer_trimEnd_ne_nil
    · exact b.trimStart.openerLine
    · exact b.trimEnd.closerLine
  have closes : CodeBlock.isClosing { b.head.fence with indent := 0 } b.closer.trimEnd = true :=
    CodeBlock.isClosing_of_closedBy (f := b.head.fence) (FenceState.closedBy_trimEnd b.closes)
  rw [CodeBlock.wrapped?, lines]
  simp [FenceOpener.ofLine?_trimStart b.opens, closes]

end FencedBlock

/-! ## Writing a block -/

namespace Text

/-- A text that can stand behind the backticks of an opening line. -/
structure IsInfo (t : Text) : Prop where
  oneLine : t.OneLine
  noTick : '\x60' ∉ t

instance (t : Text) : Decidable t.IsInfo :=
  decidable_of_iff (t.OneLine ∧ '\x60' ∉ t) ⟨fun h => ⟨h.1, h.2⟩, fun h => ⟨h.1, h.2⟩⟩

theorem IsInfo.append {t u : Text} (left : t.IsInfo) (right : u.IsInfo) : (t ++ u).IsInfo where
  oneLine := left.oneLine.append right.oneLine
  noTick mem := (List.mem_append.1 mem).elim left.noTick right.noTick

theorem IsInfo.of_subset {t u : Text} (isInfo : t.IsInfo) (sub : u ⊆ t) : u.IsInfo where
  oneLine := ⟨fun mem => isInfo.oneLine.noFeed (sub mem),
    fun mem => isInfo.oneLine.noReturn (sub mem)⟩
  noTick mem := isInfo.noTick (sub mem)

theorem IsTag.isInfo {t : Text} (tag : t.IsTag) : t.IsInfo where
  oneLine := tag.oneLine
  noTick mem := absurd (tag.noMark _ mem) (by decide)

end Text

namespace FencedBlock

variable {b : FencedBlock} {info : Text}

/-- The info of a block of backticks. -/
theorem isInfo_info (ticks : b.head.fence.mark = .backtick) : b.head.info.IsInfo := by
  obtain ⟨before, behind, line, reads⟩ := FenceOpener.ofLine?_eq_some_iff.1 b.opens
  have part : behind.trim <:+: b.opener := by
    rw [line, ← List.append_assoc]
    exact (Text.trim_part behind).trans (List.suffix_append _ _).isInfix
  rw [reads.info]
  exact ⟨b.openerLine.of_part part,
    fun mem => reads.noTick ticks ((Text.trim_part behind).mem mem)⟩

/-- The content of a block when it is written: one empty line at least. -/
def shownContent (b : FencedBlock) : List Text :=
  if b.content = [] then [[]] else b.content

theorem joinWith_shownContent (b : FencedBlock) :
    Text.joinWith ['\n'] b.content ++ ['\n'] = Text.ofLines b.shownContent := by
  unfold shownContent
  split
  case isTrue empty => rw [empty]; rfl
  case isFalse filled => exact Text.joinWith_feed filled

theorem of_mem_shownContent {b : FencedBlock} {l : Text} (mem : l ∈ b.shownContent) :
    l = [] ∨ l ∈ b.content := by
  unfold shownContent at mem
  split at mem
  · exact .inl (List.mem_singleton.1 mem)
  · exact .inr mem

/-- The block between two runs of `n` backticks, without indentation. -/
def ticked (n : Nat) (three : 3 ≤ n) (info : Text) (isInfo : info.IsInfo) (content : List Text)
    (inside : ∀ l ∈ content, FenceState.closedBy ⟨.backtick, 0, n⟩ l = false)
    (contentLines : ∀ l ∈ content, l.OneLine) : FencedBlock where
  opener := List.replicate n '\x60' ++ info
  head := ⟨⟨.backtick, 0, n⟩, info.trim⟩
  content := content
  closer := List.replicate n '\x60'
  opens := FenceOpener.ofLine?_eq_some_iff.2 ⟨[], info, rfl, nofun, rfl, Nat.zero_le 3, three,
    fun head => isInfo.noTick (List.mem_of_head? head), rfl, fun _ => isInfo.noTick⟩
  inside := inside
  closes := FenceState.closedBy_iff.2 ⟨[], n, [], (List.append_nil _).symm, nofun, Nat.zero_le 3,
    three, Nat.le_refl n, rfl⟩
  openerLine := (Text.oneLine_run ⟨.backtick, 0, n⟩).append isInfo.oneLine
  contentLines := contentLines
  closerLine := Text.oneLine_run ⟨.backtick, 0, n⟩

/-- The block of backticks with another info, without indentation. -/
def rewrap (b : FencedBlock) (ticks : b.head.fence.mark = .backtick) (info : Text)
    (isInfo : info.IsInfo) : FencedBlock :=
  ticked b.head.fence.length (FenceOpener.three_le_length b.opens) info isInfo b.shownContent
    (by
      intro l mem
      rcases of_mem_shownContent mem with rfl | mem
      · exact FenceState.closedBy_of_blank rfl
      · have same := FenceState.closedBy_congr (f := ⟨.backtick, 0, b.head.fence.length⟩)
          (g := b.head.fence) ticks.symm rfl l
        exact same.trans (b.inside l mem))
    (by
      intro l mem
      rcases of_mem_shownContent mem with rfl | mem
      · exact ⟨nofun, nofun⟩
      · exact b.contentLines l mem)

theorem rewrap_text (b : FencedBlock) (ticks : b.head.fence.mark = .backtick) (info : Text)
    (isInfo : info.IsInfo) :
    (b.rewrap ticks info isInfo).text = b.head.fence.run ++ info ++
      '\n' :: Text.joinWith ['\n'] b.content ++ '\n' :: b.head.fence.run ++ ['\n'] := by
  have run : b.head.fence.run = List.replicate b.head.fence.length '\x60' := by
    rw [Fence.run, ticks]
    rfl
  have content := b.joinWith_shownContent
  rw [text_eq]
  simp only [rewrap, ticked, ← content, run]
  simp

end FencedBlock

namespace CodeBlock

/-- The title that a block shows has no characters of its own. -/
theorem exists_title_of_shownTitle? {title : Option Text} {shown : Text}
    (shows : shownTitle? title = some shown) : ∃ t ∈ title, shown ⊆ t := by
  cases title with
  | none => cases shows
  | some t =>
    simp only [shownTitle?] at shows
    split at shows
    case isTrue => cases shows
    case isFalse =>
      cases shows
      exact ⟨t, rfl, fun c mem => (List.mem_filter.1 ((Text.trim_part _).mem mem)).1⟩

theorem isInfo_shownTitle? {title : Option Text} {shown : Text}
    (plain : ∀ t ∈ title, t.IsInfo) (shows : shownTitle? title = some shown) : shown.IsInfo := by
  obtain ⟨t, has, sub⟩ := exists_title_of_shownTitle? shows
  exact (plain t has).of_subset sub

theorem isTag_ofFile? {title language : Text} (told : Language.ofFile? title = some language) :
    language.IsTag := by
  have files : ∀ row ∈ Language.fileEndings, row.2.IsTag := by decide
  have scripts : ∀ row ∈ Language.scriptEndings, row.2.IsTag := by decide
  have ending : ∀ {rows : List (List Text × Text)} {name l : Text}, (∀ row ∈ rows, row.2.IsTag) →
      Language.ofEnding? rows name = some l → l.IsTag := by
    intro rows name l all found
    obtain ⟨row, first, rfl⟩ := Option.map_eq_some_iff.1 found
    exact all row (List.mem_of_find?_eq_some first)
  simp only [Language.ofFile?] at told
  split at told
  case h_1 l found => cases told; exact ending files found
  case h_2 =>
    split at told
    · cases told; decide
    · exact ending scripts told

/-- The language that a title tells, or else `text`. -/
def toldLanguage (title : Option Text) : Text :=
  ((shownTitle? title).bind Language.ofFile?).getD "text".toList

theorem isTag_toldLanguage (title : Option Text) : (toldLanguage title).IsTag := by
  unfold toldLanguage
  cases told : (shownTitle? title).bind Language.ofFile? with
  | none => decide
  | some l =>
    obtain ⟨t, -, told⟩ := Option.bind_eq_some_iff.1 told
    exact isTag_ofFile? told

/-- The language of a block that is written: the one given, else one that its title tells. -/
theorem isInfo_language {language : Option Text} (known : ∀ l ∈ language, l.IsInfo)
    (title : Option Text) : (language.getD (toldLanguage title)).IsInfo := by
  cases language with
  | some l => exact known l rfl
  | none => exact (isTag_toldLanguage title).isInfo

/-- What the opening line of a block that is written says of its title. -/
def titleInfo (title : Option Text) : Text :=
  match shownTitle? title with
  | some shown => " title=\"".toList ++ shown ++ ['"']
  | none => []

/-- What stands behind the fence on the opening line of a block that is written. -/
def info (title language : Option Text) : Text :=
  language.getD (toldLanguage title) ++ titleInfo title

/-- **A block that is written** is its fence, its info, its content, and its fence again. -/
theorem render_eq (title language : Option Text) (fence content : Text) :
    render title language fence content =
      fence ++ info title language ++ '\n' :: content ++ '\n' :: fence := by
  unfold render info toldLanguage titleInfo
  cases language <;> cases shownTitle? title <;> simp

theorem isInfo_info {title language : Option Text} (plain : ∀ t ∈ title, t.IsInfo)
    (known : ∀ l ∈ language, l.IsInfo) : (info title language).IsInfo := by
  refine (isInfo_language known title).append ?_
  unfold titleInfo
  split
  case h_1 shown shows =>
    have opening : Text.IsInfo " title=\"".toList := by decide
    exact (opening.append (isInfo_shownTitle? plain shows)).append (by decide)
  case h_2 => decide

/-- **What is written is a block.** -/
theorem inert_render {title language : Option Text} {b : FencedBlock}
    (ticks : b.head.fence.mark = .backtick) (plain : ∀ t ∈ title, t.IsInfo)
    (known : ∀ l ∈ language, l.IsInfo) :
    (render title language b.head.fence.run (Text.joinWith ['\n'] b.content) ++ ['\n']).Inert := by
  rw [render_eq, ← b.rewrap_text ticks _ (isInfo_info plain known)]
  exact .of_block _

/-- **The block in a code directive becomes a block.** -/
theorem exists_ofDirective? {m : Marker} {b : FencedBlock}
    (ticks : b.head.fence.mark = .backtick)
    (plain : ∀ t ∈ m.attribute? "title".toList, t.IsInfo) :
    ∃ new, ofDirective? m ('\n' :: b.text) = some new ∧ (new ++ ['\n']).Inert := by
  refine ⟨_, by rw [ofDirective?, b.wrapped?_text]; rfl, inert_render ticks plain ?_⟩
  intro l word
  have mem : l ∈ b.head.info.words := List.mem_of_mem_head? word
  exact (FencedBlock.isInfo_info ticks).of_subset fun c isIn => (Text.words_part mem).mem isIn

end CodeBlock
end MdxPress
