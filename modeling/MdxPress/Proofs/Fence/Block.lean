import MdxPress.Proofs.Fence.Closed
import MdxPress.Proofs.Fence.Opener
import MdxPress.Proofs.Text.Part

/-!
Fenced blocks with the proof that they are: an opening line, lines that do not close it, and one that
does.  A block is closed, whatever its content, and stays a block when blanks are taken off its ends
or its info is changed.
-/

namespace MdxPress

/-- A fenced block, line by line. -/
structure FencedBlock where
  opener : Text
  /-- What the opening line says. -/
  head : FenceOpener
  content : List Text
  closer : Text
  opens : FenceOpener.ofLine? opener = some head
  inside : ∀ l ∈ content, FenceState.closedBy head.fence l = false
  closes : FenceState.closedBy head.fence closer = true
  openerLine : opener.OneLine
  contentLines : ∀ l ∈ content, l.OneLine
  closerLine : closer.OneLine

namespace FencedBlock

/-- The lines of a block. -/
def lines (b : FencedBlock) : List Text :=
  b.opener :: b.content ++ [b.closer]

/-- A block as it stands in a page. -/
def text (b : FencedBlock) : Text :=
  Text.ofLines b.lines

theorem lines_oneLine (b : FencedBlock) : ∀ l ∈ b.lines, l.OneLine := by
  intro l mem
  rcases List.mem_append.1 mem with mem | mem
  · rcases List.mem_cons.1 mem with rfl | mem
    · exact b.openerLine
    · exact b.contentLines l mem
  · rw [List.mem_singleton.1 mem]
    exact b.closerLine

theorem text_eq (b : FencedBlock) :
    b.text = b.opener ++ '\n' :: (Text.ofLines b.content ++ (b.closer ++ ['\n'])) := by
  simp [text, lines, Text.ofLines_append]

/-- The lines of a block with what is open around them. -/
theorem fenced_text (b : FencedBlock) :
    b.text.fenced = ⟨⟨b.opener, .lf⟩, none, some b.head.fence⟩ ::
      (b.content.map (fun l => ⟨⟨l, .lf⟩, some b.head.fence, some b.head.fence⟩) ++
        [⟨⟨b.closer, .lf⟩, some b.head.fence, none⟩]) := by
  have inner : ∀ ls : List Text, (∀ l ∈ ls, FenceState.closedBy b.head.fence l = false) →
      fencedLines (some b.head.fence) ((ls ++ [b.closer]).map fun l => ⟨l, .lf⟩) =
        ls.map (fun l => ⟨⟨l, .lf⟩, some b.head.fence, some b.head.fence⟩) ++
          [⟨⟨b.closer, .lf⟩, some b.head.fence, none⟩] := by
    intro ls inside
    induction ls with
    | nil => simp [fencedLines, FenceState.next, b.closes]
    | cons l ls ih =>
      have stays : FenceState.next (some b.head.fence) l = some b.head.fence := by
        simp [FenceState.next, inside l (.head _)]
      simp only [List.cons_append, List.map_cons, fencedLines, stays]
      rw [ih fun m mem => inside m (.tail _ mem)]
  have opened : FenceState.next none b.opener = some b.head.fence := by
    simp [FenceState.next, b.opens]
  rw [Text.fenced, text, Text.lines_ofLines b.lines_oneLine, lines, List.cons_append, List.map_cons,
    fencedLines]
  simp only [opened]
  rw [inner b.content b.inside]

theorem isCode_of_mem_fenced {b : FencedBlock} {l : FencedLine} (mem : l ∈ b.text.fenced) :
    l.isCode = true := by
  rw [fenced_text] at mem
  simp only [List.mem_cons, List.mem_append, List.mem_map, List.not_mem_nil, or_false] at mem
  rcases mem with rfl | ⟨l, _, rfl⟩ | rfl <;> rfl

theorem closed (b : FencedBlock) : b.text.Closed where
  ended := by
    rw [text, Text.lines_ofLines b.lines_oneLine]
    simp [Line.AllEnded]
  outside := by
    have opened : FenceState.next none b.opener = some b.head.fence := by
      simp [FenceState.next, b.opens]
    have inside : FenceState.run (some b.head.fence) (b.content.map fun l => ⟨l, .lf⟩) =
        some b.head.fence := Text.run_content (by simpa using b.inside)
    have closed : FenceState.next (some b.head.fence) b.closer = none := by
      simp [FenceState.next, b.closes]
    rw [text, Text.lines_ofLines b.lines_oneLine, lines, List.map_append, FenceState.run_append]
    change FenceState.run (FenceState.run (FenceState.next none b.opener) _) _ = none
    rw [opened, inside]
    exact closed

end FencedBlock

/-! ## Blanks at the ends of a block -/

namespace Text

theorem oneLine_run (f : Fence) : f.run.OneLine := by
  obtain ⟨mark, col, n⟩ := f
  cases mark <;>
    exact ⟨fun mem => by simp [Fence.run, FenceMark.char] at mem,
      fun mem => by simp [Fence.run, FenceMark.char] at mem⟩

end Text

theorem FenceOpener.ofLine?_trimStart {line : Text} {o : FenceOpener}
    (opens : ofLine? line = some o) :
    ofLine? line.trimStart = some ⟨{ o.fence with indent := 0 }, o.info⟩ := by
  obtain ⟨before, behind, rfl, reads⟩ := ofLine?_eq_some_iff.1 opens
  have filled : 0 < o.fence.length := Nat.lt_of_lt_of_le (by decide) reads.long
  have trimmed : Text.trimStart (before ++ (o.fence.run ++ behind)) = o.fence.run ++ behind := by
    rw [Text.trimStart_append fun c mem => Text.isBlank_of_isIndent (reads.indent c mem)]
    exact Text.trimStart_eq_self (Text.head?_replicate_append filled behind) (Text.isBlank_char _)
  rw [trimmed]
  exact ofLine?_eq_some_iff.2 ⟨[], behind, rfl, nofun, rfl, Nat.zero_le 3, reads.long,
    reads.stops, reads.info, reads.noTick⟩

/-- Blanks at its end make no difference to an opening line. -/
theorem FenceOpener.ofLine?_append_blank (line : Text) {blanks : Text}
    (blank : ∀ c ∈ blanks, isBlank c = true) : ofLine? (line ++ blanks) = ofLine? line := by
  have noMark {m : FenceMark} : m.char ∉ blanks := fun mem => by
    have visible := blank _ mem
    rw [Text.isBlank_char] at visible
    cases visible
  ext o
  rw [ofLine?_eq_some_iff, ofLine?_eq_some_iff]
  constructor
  · rintro ⟨before, behind, same, reads⟩
    rw [← List.append_assoc] at same
    rcases List.append_eq_append_iff.1 same with ⟨x, inside, cut⟩ | ⟨x, rfl, rfl⟩
    · -- The run of marks would reach into the blanks.
      have none_ : x = [] := by
        rcases List.eq_nil_or_concat' x with rfl | ⟨y, c, rfl⟩
        · rfl
        · have last := congrArg List.getLast? inside
          have long := reads.long
          obtain ⟨n, length⟩ : ∃ n, o.fence.length = n + 1 := ⟨o.fence.length - 1, by omega⟩
          rw [Fence.run, length, List.replicate_succ', ← List.append_assoc, List.getLast?_concat,
            ← List.append_assoc, List.getLast?_concat] at last
          exact (noMark (m := o.fence.mark) (by rw [cut, Option.some.inj last]; simp)).elim
      subst none_
      rw [List.nil_append] at cut
      subst cut
      refine ⟨before, [], by simpa using inside.symm, reads.indent, reads.width, reads.near, reads.long,
        fun none_ => (by cases none_), ?_, fun _ mem => by cases mem⟩
      have info := Text.trim_append_blank [] blank
      rw [reads.info, ← info, List.nil_append]
    · refine ⟨before, x, by simp, reads.indent, reads.width, reads.near, reads.long, fun first => ?_, ?_,
        fun mark tick => reads.noTick mark (List.mem_append_left _ tick)⟩
      · refine reads.stops ?_
        rw [List.head?_append, first]
        rfl
      · rw [reads.info, Text.trim_append_blank x blank]
  · rintro ⟨before, behind, rfl, reads⟩
    refine ⟨before, behind ++ blanks, by simp, reads.indent, reads.width, reads.near, reads.long,
      fun first => ?_, ?_, fun mark tick => ?_⟩
    · rcases List.mem_append.1 (List.mem_of_head? first) with mem | mem
      · cases behind with
        | nil => cases mem
        | cons c r => exact reads.stops first
      · exact noMark mem
    · rw [Text.trim_append_blank behind blank, reads.info]
    · rcases List.mem_append.1 tick with mem | mem
      · exact reads.noTick mark mem
      · exact noMark (m := .backtick) mem

/-- A text that can be the info of an opening line: it stays on the line and holds no mark. -/
structure Text.IsTag (t : Text) : Prop where
  oneLine : t.OneLine
  noMark : ∀ c ∈ t, FenceMark.ofChar? c = none

instance (t : Text) : Decidable t.IsTag :=
  decidable_of_iff (t.OneLine ∧ ∀ c ∈ t, FenceMark.ofChar? c = none)
    ⟨fun h => ⟨h.1, h.2⟩, fun h => ⟨h.1, h.2⟩⟩

namespace FenceOpener

theorem Reads.indentation {o : FenceOpener} {before behind : Text} (reads : o.Reads before behind) :
    Text.indentation (before ++ (o.fence.run ++ behind)) = before := by
  have long := reads.long
  obtain ⟨n, same⟩ : ∃ n, o.fence.length = n + 1 := ⟨o.fence.length - 1, by omega⟩
  rw [Text.indentation, List.takeWhile_append_of_pos fun c mem =>
    Text.isBlank_of_isIndent (reads.indent c mem), Fence.run, same, List.replicate_succ,
    List.cons_append, List.takeWhile_cons_of_neg (by simp [Text.isBlank_char]), List.append_nil]

variable {line language : Text} {o : FenceOpener}

/-- An opening line with another info opens the same block. -/
theorem ofLine?_retag (opens : ofLine? line = some o) (tag : language.IsTag) :
    ofLine? (line.indentation ++ o.fence.run ++ language) = some ⟨o.fence, language.trim⟩ := by
  obtain ⟨before, behind, rfl, reads⟩ := ofLine?_eq_some_iff.1 opens
  have unmarked : ∀ m : FenceMark, m.char ∉ language := fun m mem => by
    have mark := tag.noMark _ mem
    simp [FenceMark.ofChar?_char] at mark
  rw [reads.indentation, List.append_assoc]
  exact ofLine?_eq_some_iff.2 ⟨before, language, rfl, reads.indent, reads.width, reads.near,
    reads.long, fun head => unmarked _ (List.mem_of_head? head), rfl,
    fun _ => unmarked .backtick⟩

theorem oneLine_retag (opens : ofLine? line = some o) (tag : language.IsTag) :
    (line.indentation ++ o.fence.run ++ language).OneLine := by
  obtain ⟨before, behind, rfl, reads⟩ := ofLine?_eq_some_iff.1 opens
  have indent : before.OneLine :=
    ⟨fun mem => absurd (reads.indent _ mem) (by decide),
      fun mem => absurd (reads.indent _ mem) (by decide)⟩
  rw [reads.indentation]
  exact (indent.append (Text.oneLine_run _)).append tag.oneLine

end FenceOpener

theorem FenceState.closedBy_trimEnd {f : Fence} {line : Text} (closes : closedBy f line = true) :
    closedBy f line.trimEnd = true := by
  obtain ⟨before, n, behind, rfl, indent, near, long, enough, blank⟩ := closedBy_iff.1 closes
  have trimmed : Text.trimEnd (before ++ (List.replicate n f.mark.char ++ behind)) =
      before ++ (List.replicate n f.mark.char ++ []) := by
    rw [← List.append_assoc, Text.trimEnd, Text.dropEndWhile_append _ (List.all_eq_true.1 blank),
      List.append_nil]
    obtain ⟨k, rfl⟩ : ∃ k, n = k + 1 := ⟨n - 1, by omega⟩
    refine Text.dropEndWhile_eq_self ?_ (Text.isBlank_char f.mark)
    rw [List.replicate_succ', ← List.append_assoc, List.getLast?_concat]
  rw [trimmed]
  exact closedBy_iff.2 ⟨before, n, [], rfl, indent, near, long, enough, rfl⟩

namespace FencedBlock

/-- A block without its indentation. -/
def trimStart (b : FencedBlock) : FencedBlock where
  opener := b.opener.trimStart
  head := ⟨{ b.head.fence with indent := 0 }, b.head.info⟩
  content := b.content
  closer := b.closer
  opens := FenceOpener.ofLine?_trimStart b.opens
  inside := b.inside
  closes := b.closes
  openerLine := b.openerLine.of_part (Text.trimStart_suffix _).isInfix
  contentLines := b.contentLines
  closerLine := b.closerLine

/-- A block without blanks behind its closing line. -/
def trimEnd (b : FencedBlock) : FencedBlock :=
  { b with
    closer := b.closer.trimEnd
    closes := FenceState.closedBy_trimEnd b.closes
    closerLine := b.closerLine.of_part (Text.trimEnd_isPrefix _).isInfix }

/-- A block with another info on its opening line. -/
def retag (b : FencedBlock) (language : Text) (tag : language.IsTag) : FencedBlock :=
  { b with
    opener := b.opener.indentation ++ b.head.fence.run ++ language
    head := ⟨b.head.fence, language.trim⟩
    opens := FenceOpener.ofLine?_retag b.opens tag
    openerLine := FenceOpener.oneLine_retag b.opens tag }

theorem opener_trimStart_ne_nil (b : FencedBlock) : b.opener.trimStart ≠ [] := by
  intro empty
  have opens := FenceOpener.ofLine?_trimStart b.opens
  rw [empty] at opens
  cases opens

theorem closer_trimEnd_ne_nil (b : FencedBlock) : b.closer.trimEnd ≠ [] := by
  intro empty
  have closes := FenceState.closedBy_trimEnd b.closes
  rw [empty] at closes
  cases closes

theorem trimStart_text_append (b : FencedBlock) (rest : Text) :
    Text.trimStart (b.text ++ rest) = b.trimStart.text ++ rest := by
  rw [text_eq, List.append_assoc, Text.trimStart_append_of_filled b.opener_trimStart_ne_nil,
    ← List.append_assoc, text_eq]
  rfl

theorem trimEnd_text (b : FencedBlock) : b.text.trimEnd ++ ['\n'] = b.trimEnd.text := by
  have blank : Text.trimEnd ['\n'] = [] := by decide
  have filled : Text.trimEnd (b.closer ++ ['\n']) ≠ [] := by
    rw [Text.trimEnd_append_of_blank _ blank]
    exact b.closer_trimEnd_ne_nil
  have cut : b.text = b.opener ++ '\n' :: Text.ofLines b.content ++ (b.closer ++ ['\n']) := by
    simp [text_eq]
  rw [cut, Text.trimEnd_append_of_filled _ filled, Text.trimEnd_append_of_blank _ blank, text_eq]
  simp [trimEnd]

end FencedBlock
end MdxPress
