import MdxPress.Proofs.Fence.Block
import MdxPress.Proofs.Fence.Closed

/-!
Giving a language to opening lines changes what their blocks show, not where they are.

* `TagRule` says which openers get a language, and `TagRule.Tags` is a pass by such a rule, line by line;
* `TagRule.Tags.forall₂_isRetagged` compares the lines before and after, and `TagRule.Tags.settled` says
  that no opener is left to which the rule gives a language;
* `Text.filter_prose_refineText` compares the prose before and after refinement, and
  `Text.retags_openers` is the result for both passes.
-/

namespace MdxPress

open FencedLine (AtOpeners)

/-! ## Languages that are given -/

namespace Language

/-- The languages that the title of a tab or a piece of code can stand for. -/
def names : List Text :=
  ["cpp", "c", "cmake", "bash", "python", "javascript", "java", "swift", "kotlin", "dart", "go"].map
    String.toList

theorem mem_names_of_ofCode? {content language : Text} (told : ofCode? content = some language) :
    language ∈ names := by
  simp only [ofCode?] at told
  split at told
  · cases told; decide
  · split at told
    · cases told; decide
    · split at told
      · cases told; decide
      · split at told
        · cases told; decide
        · cases told

theorem mem_names_of_ofTab? {title language : Text} (told : ofTab? title = some language) :
    language ∈ names := by
  have words : ∀ row ∈ tabWords, row.2.toList ∈ names := by decide
  simp only [ofTab?] at told
  split at told
  · cases told; decide
  · split at told
    · cases told; decide
    · split at told
      case h_1 row found =>
        cases told
        exact words row (List.mem_of_find?_eq_some found)
      case h_2 =>
        split at told
        · cases told; decide
        · cases told

/-- Each of them can be the info of an opening line, and is a language of its own. -/
theorem isTag_of_mem_names :
    ∀ language ∈ names, language.IsTag ∧ language.trim = language ∧ language ≠ [] ∧
      language ≠ "text".toList := by
  decide

/-- A language that the title of a tab stands for can be the info of an opening line. -/
theorem isTag_of_ofTab? {title language : Text} (told : ofTab? title = some language) : language.IsTag :=
  (isTag_of_mem_names language (mem_names_of_ofTab? told)).1

end Language

/-! ## Rules for opening lines -/

/-- The code of the block that is opened before the lines `rest`: all of them up to the first that closes
the block. -/
def FenceOpener.code (o : FenceOpener) (rest : List Line) : Text :=
  Text.joinWith ['\n'] ((rest.takeWhile fun l => !FenceState.closedBy o.fence l.content).map (·.content))

/-- A rule that gives languages to openers: the language of an opener before the lines `rest`, if it gets
one. -/
abbrev TagRule :=
  FenceOpener → List Line → Option Text

namespace TagRule

/-- Openers without info get the language. -/
def bare (language : Text) : TagRule :=
  fun o _ => if o.info = [] then some language else none

/-- Openers of `text` blocks get the language that the code tells. -/
def refining : TagRule :=
  fun o rest => if o.info = "text".toList then Language.ofCode? (o.code rest) else none

/-- A rule for openers with a certain info, which gives them one of some languages, none of which is that
info, and looks at the code of their blocks only. -/
structure Settles (rule : TagRule) (info : Text) (names : List Text) : Prop where
  ofInfo : ∀ {o rest language}, rule o rest = some language → o.info = info
  given : ∀ {o rest language}, rule o rest = some language → language ∈ names
  isTag : ∀ language ∈ names, language.IsTag ∧ language.trim = language ∧ language ≠ info
  byCode : ∀ {o rest rest'}, o.code rest = o.code rest' → rule o rest = rule o rest'

theorem settles_bare {language : Text} (name : language ∈ Language.names) :
    (bare language).Settles [] [language] := by
  obtain ⟨tag, trimmed, filled, -⟩ := Language.isTag_of_mem_names language name
  have told {o : FenceOpener} {rest : List Line} {given : Text} (told : bare language o rest = some given) :
      o.info = [] ∧ given = language := by
    rw [bare] at told
    split at told
    case isTrue empty => cases told; exact ⟨empty, rfl⟩
    case isFalse => cases told
  exact ⟨fun given => (told given).1, fun given => List.mem_singleton.2 (told given).2,
    List.forall_mem_singleton.2 ⟨tag, trimmed, filled⟩, fun _ => rfl⟩

theorem settles_refining : refining.Settles "text".toList Language.names := by
  have told {o : FenceOpener} {rest : List Line} {given : Text} (told : refining o rest = some given) :
      o.info = "text".toList ∧ given ∈ Language.names := by
    rw [refining] at told
    split at told
    case isTrue text => exact ⟨text, Language.mem_names_of_ofCode? told⟩
    case isFalse => cases told
  refine ⟨fun given => (told given).1, fun given => (told given).2, fun language name => ?_,
    fun same => by rw [refining, same, refining]⟩
  obtain ⟨tag, trimmed, -, other⟩ := Language.isTag_of_mem_names language name
  exact ⟨tag, trimmed, other⟩

/-- What a pass by a rule makes of lines from a state on, and how many languages it gives. -/
inductive Tags (rule : TagRule) : FenceState → List Line → List Line → Nat → Prop
  | nil (s : FenceState) : Tags rule s [] [] 0
  | quiet {s : FenceState} {l : Line} {ls ms : List Line} {n : Nat}
      (quiet : s.isSome = true ∨ FenceOpener.ofLine? l.content = none)
      (rest : Tags rule (s.next l.content) ls ms n) : Tags rule s (l :: ls) (l :: ms) n
  | keep {l : Line} {o : FenceOpener} {ls ms : List Line} {n : Nat}
      (opens : FenceOpener.ofLine? l.content = some o) (passed : rule o ls = none)
      (rest : Tags rule (some o.fence) ls ms n) : Tags rule none (l :: ls) (l :: ms) n
  | tag {l : Line} {o : FenceOpener} {language : Text} {ls ms : List Line} {n : Nat}
      (opens : FenceOpener.ofLine? l.content = some o) (told : rule o ls = some language)
      (rest : Tags rule (some o.fence) ls ms n) :
      Tags rule none (l :: ls) (o.tagged language l :: ms) (n + 1)

namespace Tags

variable {rule : TagRule} {s : FenceState} {ls ms : List Line} {n : Nat}

/-- A pass leaves the code of a block as it is. -/
theorem code_eq {o : FenceOpener} (tags : rule.Tags (some o.fence) ls ms n) : o.code ms = o.code ls := by
  have lines : (ms.takeWhile fun l => !FenceState.closedBy o.fence l.content) =
      ls.takeWhile fun l => !FenceState.closedBy o.fence l.content := by
    induction ls generalizing ms with
    | nil => cases tags; rfl
    | cons l ls ih =>
      cases tags with
      | quiet _ rest =>
        cases closes : FenceState.closedBy o.fence l.content with
        | true => simp [closes]
        | false =>
          rw [FenceState.next_of_stays closes] at rest
          simp [closes, ih rest]
  rw [FenceOpener.code, lines, FenceOpener.code]

/-- Where a rule has nothing to do, a pass changes nothing. -/
theorem eq_self (tags : rule.Tags s ls ms n)
    (settled : AtOpeners (fun o rest => rule o rest = none) (fencedLines s ls)) : ms = ls ∧ n = 0 := by
  induction tags with
  | nil s => exact ⟨rfl, rfl⟩
  | quiet quiet _ ih =>
    obtain ⟨rfl, rfl⟩ := ih ((FencedLine.atOpeners_of_quiet quiet).1 settled)
    exact ⟨rfl, rfl⟩
  | keep opens _ _ ih =>
    obtain ⟨rfl, rfl⟩ := ih ((FencedLine.atOpeners_of_opens opens).1 settled).2
    exact ⟨rfl, rfl⟩
  | tag opens told _ _ =>
    rw [((FencedLine.atOpeners_of_opens opens).1 settled).1] at told
    cases told

end Tags
end TagRule

/-- A line and what a pass made of it: the same line, or an opener of the same block with one of some
languages in place of its info.  Indentation, marks and ending stay, and what is open around the line. -/
structure FencedLine.IsRetagged (info : Text) (names : List Text) (l m : FencedLine) : Prop where
  before : m.before = l.before
  after : m.after = l.after
  ending : m.line.ending = l.line.ending
  content : m.line.content = l.line.content ∨
    ∃ o indent behind, ∃ language ∈ names, l.opener? = some o ∧ o.info = info ∧ o.Reads indent behind ∧
      l.line.content = indent ++ (o.fence.run ++ behind) ∧
      m.line.content = indent ++ (o.fence.run ++ language) ∧ m.opener? = some ⟨o.fence, language⟩

theorem FencedLine.IsRetagged.refl (info : Text) (names : List Text) (l : FencedLine) :
    IsRetagged info names l l :=
  ⟨rfl, rfl, rfl, .inl rfl⟩

namespace TagRule

variable {rule : TagRule} {info : Text} {names : List Text} (settles : rule.Settles info names)
include settles

/-- An opener that gets a language opens the same block. -/
theorem Settles.ofLine?_tagged {l : Line} {o : FenceOpener} {rest : List Line} {language : Text}
    (opens : FenceOpener.ofLine? l.content = some o) (told : rule o rest = some language) :
    FenceOpener.ofLine? (o.tagged language l).content = some ⟨o.fence, language⟩ := by
  obtain ⟨tag, trimmed, -⟩ := settles.isTag language (settles.given told)
  have again := FenceOpener.ofLine?_retag opens tag
  rwa [trimmed] at again

namespace Tags

variable {s : FenceState} {ls ms : List Line} {n : Nat}

/-- **What a pass changes.** -/
theorem forall₂_isRetagged (tags : rule.Tags s ls ms n) :
    List.Forall₂ (FencedLine.IsRetagged info names) (fencedLines s ls) (fencedLines s ms) := by
  induction tags with
  | nil s => exact .nil
  | quiet _ _ ih => exact .cons (.refl _ _ _) ih
  | keep opens _ _ ih =>
    rw [fencedLines, fencedLines, FenceState.next_of_opens opens]
    exact .cons (.refl _ _ _) ih
  | @tag l o language ls ms n opens told _ ih =>
    have again := settles.ofLine?_tagged opens told
    obtain ⟨indent, behind, line, reads⟩ := FenceOpener.ofLine?_eq_some_iff.1 opens
    rw [fencedLines, fencedLines, FenceState.next_of_opens opens, FenceState.next_of_opens again]
    refine .cons ⟨rfl, rfl, rfl, .inr ⟨o, indent, behind, language, settles.given told, opens,
      settles.ofInfo told, reads, line, ?_, again⟩⟩ ih
    rw [FenceOpener.tagged, line, reads.indentation, List.append_assoc]

/-- What is code stays code, and the prose is the same. -/
theorem filter_prose (tags : rule.Tags s ls ms n) :
    (fencedLines s ms).filter (!·.isCode) = (fencedLines s ls).filter (!·.isCode) := by
  induction tags with
  | nil s => rfl
  | quiet _ _ ih => simp only [fencedLines, List.filter_cons, ih]
  | keep opens _ _ ih => simp only [fencedLines, FenceState.next_of_opens opens, List.filter_cons, ih]
  | tag opens told _ ih =>
    simp only [fencedLines, FenceState.next_of_opens opens,
      FenceState.next_of_opens (settles.ofLine?_tagged opens told), List.filter_cons, ih]
    rfl

theorem areLines (tags : rule.Tags s ls ms n) (whole : Line.AreLines ls) :
    Line.AreLines ms := by
  have last {s : FenceState} {ls ms : List Line} {n : Nat} (tags : rule.Tags s ls ms n) (empty : ls = []) :
      ms = [] := by
    subst empty
    cases tags
    rfl
  induction tags with
  | nil s => trivial
  | quiet _ rest ih | keep _ _ rest ih =>
    exact ⟨whole.1, fun none => ⟨(whole.2.1 none).1, last rest (whole.2.1 none).2⟩, ih whole.2.2⟩
  | @tag l o language ls ms n opens told rest ih =>
    have line : Text.OneLine (o.tagged language l).content :=
      FenceOpener.oneLine_retag opens (settles.isTag language (settles.given told)).1
    have filled : (o.tagged language l).content ≠ [] := by
      intro empty
      have again := settles.ofLine?_tagged opens told
      rw [empty] at again
      cases again
    exact ⟨⟨line.noFeed, fun _ last => line.noReturn (List.mem_of_getLast? last)⟩,
      fun none => ⟨filled, last rest (whole.2.1 none).2⟩, ih whole.2.2⟩

/-- **What a pass leaves** gives the rule nothing more to do. -/
theorem settled (tags : rule.Tags s ls ms n) :
    AtOpeners (fun o rest => rule o rest = none) (fencedLines s ms) := by
  induction tags with
  | nil s => exact FencedLine.atOpeners_nil
  | quiet quiet _ ih => exact (FencedLine.atOpeners_of_quiet quiet).2 ih
  | keep opens passed rest ih =>
    exact (FencedLine.atOpeners_of_opens opens).2 ⟨(settles.byCode rest.code_eq).trans passed, ih⟩
  | @tag l o language ls ms n opens told rest ih =>
    refine (FencedLine.atOpeners_of_opens (settles.ofLine?_tagged opens told)).2 ⟨?_, ih⟩
    rw [Option.eq_none_iff_forall_ne_some]
    intro given again
    exact (settles.isTag language (settles.given told)).2.2 (settles.ofInfo again)

/-- The languages that are given are as many as the lines that change. -/
theorem count_eq (tags : rule.Tags s ls ms n) :
    (ls.zip ms).countP (fun p => p.1 ≠ p.2) = n := by
  induction tags with
  | nil s => rfl
  | quiet _ _ ih | keep _ _ _ ih =>
    rw [List.zip_cons_cons, List.countP_cons_of_neg (by simp), ih]
  | @tag l o language ls ms n opens told _ ih =>
    have changed : l ≠ o.tagged language l := by
      intro same
      have again := settles.ofLine?_tagged opens told
      rw [← same, opens] at again
      refine (settles.isTag language (settles.given told)).2.2 (.trans ?_ (settles.ofInfo told))
      rw [Option.some.inj again]
    rw [List.zip_cons_cons, List.countP_cons_of_pos (by simpa using changed), ih]

end Tags
end TagRule

/-! ## The two passes -/

namespace Text

theorem tags_refineLines (s : FenceState) (ls : List Line) :
    TagRule.refining.Tags s ls (refineLines (fencedLines s ls)).1 (refineLines (fencedLines s ls)).2 := by
  induction ls generalizing s with
  | nil => exact .nil s
  | cons l ls ih =>
    rw [fencedLines, refineLines]
    by_cases quiet : s.isSome = true ∨ FenceOpener.ofLine? l.content = none
    · have none_ : refinement? ⟨l, s, s.next l.content⟩ (fencedLines (s.next l.content) ls) = none := by
        rw [refinement?, FencedLine.opener?_of_quiet quiet]
        rfl
      rw [none_]
      exact .quiet quiet (ih _)
    · obtain ⟨outside, opens⟩ := not_or.1 quiet
      obtain rfl : s = none := by simpa using outside
      obtain ⟨o, opens⟩ := Option.ne_none_iff_exists'.1 opens
      have told : refinement? ⟨l, none, some o.fence⟩ (fencedLines (some o.fence) ls) =
          (TagRule.refining o ls).map fun language => (o, language) := by
        have opener : FencedLine.opener? ⟨l, none, some o.fence⟩ = some o := opens
        rw [refinement?, opener, TagRule.refining, FenceOpener.code, map_line_fencedLines]
        dsimp only [Option.bind_some]
        rw [FenceState.content_eq_takeWhile]
        split <;> rfl
      rw [FenceState.next_of_opens opens, told]
      cases rule : TagRule.refining o ls with
      | none => exact .keep opens rule (ih _)
      | some language => exact .tag opens rule (ih _)

theorem tags_tagBare (language : Text) (s : FenceState) (ls : List Line) :
    ∃ n, (TagRule.bare language).Tags s ls ((fencedLines s ls).map (tagBareLine language)) n := by
  induction ls generalizing s with
  | nil => exact ⟨0, .nil s⟩
  | cons l ls ih =>
    rw [fencedLines, List.map_cons, tagBareLine]
    obtain ⟨n, rest⟩ := ih (s.next l.content)
    by_cases quiet : s.isSome = true ∨ FenceOpener.ofLine? l.content = none
    · rw [FencedLine.opener?_of_quiet quiet]
      exact ⟨n, .quiet quiet rest⟩
    · obtain ⟨outside, opens⟩ := not_or.1 quiet
      obtain rfl : s = none := by simpa using outside
      obtain ⟨o, opens⟩ := Option.ne_none_iff_exists'.1 opens
      have opener : FencedLine.opener? ⟨l, none, FenceState.next none l.content⟩ = some o := opens
      rw [FenceState.next_of_opens opens] at rest opener ⊢
      rw [opener]
      dsimp only
      by_cases empty : o.info = []
      · rw [if_pos (by simp [empty])]
        exact ⟨n + 1, .tag opens (if_pos empty) rest⟩
      · rw [if_neg (by simp [empty])]
        exact ⟨n, .keep opens (if_neg empty) rest⟩

theorem lines_refineText (t : Text) : t.refineText.1.lines = (refineLines t.fenced).1 :=
  lines_join (TagRule.Tags.areLines TagRule.settles_refining (tags_refineLines none t.lines)
    (areLines_lines t))

theorem tags_refineText (t : Text) :
    TagRule.refining.Tags none t.lines t.refineText.1.lines t.refineText.2 := by
  rw [lines_refineText]
  exact tags_refineLines none t.lines

theorem exists_tags_tagBare {language : Text} (name : language ∈ Language.names) (t : Text) :
    ∃ n, (TagRule.bare language).Tags none t.lines (tagBare language t).lines n := by
  obtain ⟨n, tags⟩ := tags_tagBare language none t.lines
  have lines : (tagBare language t).lines = t.fenced.map (tagBareLine language) :=
    lines_join (TagRule.Tags.areLines (TagRule.settles_bare name) tags (areLines_lines t))
  exact ⟨n, lines ▸ tags⟩

/-- **Refinement leaves prose alone.** -/
theorem filter_prose_refineText (t : Text) :
    t.refineText.1.fenced.filter (!·.isCode) = t.fenced.filter (!·.isCode) :=
  TagRule.Tags.filter_prose TagRule.settles_refining (tags_refineText t)

theorem eq_of_lines_eq {t u : Text} (same : t.lines = u.lines) : t = u := by
  rw [← join_lines t, same, join_lines]

/-- A second refinement changes nothing. -/
theorem refineText_refineText (t : Text) : t.refineText.1.refineText = (t.refineText.1, 0) := by
  have settled := TagRule.Tags.settled TagRule.settles_refining (tags_refineText t)
  obtain ⟨same, none⟩ := (tags_refineText t.refineText.1).eq_self settled
  exact Prod.ext (eq_of_lines_eq same) none

theorem tagBare_tagBare {language : Text} (name : language ∈ Language.names) (t : Text) :
    tagBare language (tagBare language t) = tagBare language t := by
  obtain ⟨n, tags⟩ := exists_tags_tagBare name t
  obtain ⟨m, again⟩ := exists_tags_tagBare name (tagBare language t)
  exact eq_of_lines_eq (again.eq_self (TagRule.Tags.settled (TagRule.settles_bare name) tags)).1

/-- **The two passes change the info of openers and nothing else**: refinement that of `text` openers, the
other pass that of openers without one.  Every line keeps its ending and what is open before and behind
it.  No opener is left that a pass gives a language, so a second run of it changes nothing; and
refinement counts the lines that it changes. -/
theorem retags_openers (t : Text) :
    (List.Forall₂ (FencedLine.IsRetagged "text".toList Language.names) t.fenced t.refineText.1.fenced ∧
      AtOpeners (fun o rest => o.info = "text".toList → Language.ofCode? (o.code rest) = none)
        t.refineText.1.fenced ∧
      (t.lines.zip t.refineText.1.lines).countP (fun p => p.1 ≠ p.2) = t.refineText.2 ∧
      t.refineText.1.refineText = (t.refineText.1, 0)) ∧
    ∀ title, ∀ language ∈ Language.ofTab? title,
      List.Forall₂ (FencedLine.IsRetagged [] [language]) t.fenced (tagBare language t).fenced ∧
      AtOpeners (fun o _ => o.info ≠ []) (tagBare language t).fenced ∧
      tagBare language (tagBare language t) = tagBare language t := by
  constructor
  · have tags := tags_refineText t
    have settles := TagRule.settles_refining
    refine ⟨tags.forall₂_isRetagged settles, ?_, tags.count_eq settles, refineText_refineText t⟩
    exact (tags.settled settles).mono fun o rest passed text => (if_pos text).symm.trans passed
  · intro title language told
    have name := Language.mem_names_of_ofTab? told
    have settles := TagRule.settles_bare name
    obtain ⟨n, tags⟩ := exists_tags_tagBare name t
    refine ⟨tags.forall₂_isRetagged settles, ?_, tagBare_tagBare name t⟩
    refine (tags.settled settles).mono fun o _ passed empty => ?_
    rw [TagRule.bare, if_pos empty] at passed
    cases passed

/-- A `text` block that tells its language, an indented fence with a shorter one inside, and a block that
is left open. -/
def untagged : Text :=
  "\x60\x60\x60text\n$ ls\n\x60\x60\x60\n  ~~~~ \r\nint x;\n~~~\n~~~~\n\x60\x60\x60\nno end".toList

theorem retags_openers_untagged :
    "cpp".toList ∈ Language.ofTab? "C++".toList ∧
      tagBare "cpp".toList untagged =
        "\x60\x60\x60text\n$ ls\n\x60\x60\x60\n  ~~~~cpp\r\nint x;\n~~~\n~~~~\n\x60\x60\x60cpp\nno end".toList ∧
      List.Forall₂ (FencedLine.IsRetagged [] ["cpp".toList]) untagged.fenced
        (tagBare "cpp".toList untagged).fenced ∧
      tagBare "cpp".toList (tagBare "cpp".toList untagged) = tagBare "cpp".toList untagged := by
  have told : "cpp".toList ∈ Language.ofTab? "C++".toList := by decide +kernel
  obtain ⟨retagged, -, again⟩ := (retags_openers untagged).2 _ _ told
  have tagged : tagBare "cpp".toList untagged =
      "\x60\x60\x60text\n$ ls\n\x60\x60\x60\n  ~~~~cpp\r\nint x;\n~~~\n~~~~\n\x60\x60\x60cpp\nno end".toList := by
    have chars : untagged = _ := String.toList_ofList
    conv_rhs => rw [String.toList_ofList]
    rw [chars]
    decide +kernel
  exact ⟨told, tagged, retagged, again⟩

end Text
end MdxPress
