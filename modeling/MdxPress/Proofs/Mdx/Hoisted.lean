import MdxPress.Proofs.Mdx.Gathered
import MdxPress.Proofs.Mdx.Strays

/-!
Imports that are gathered at the start of a body.  A statement leaves its line and is written anew before
all else, and line breaks are dropped behind it.  The braces of the body stay as they are when neither
is noticed.

* `Import.IsInert` is a statement that does nothing to the components around it, wherever it stands;
* `straysFrom_breaks`, `straysFrom_filter` and `straysFrom_ofLines` are the breaks that are dropped, the
  statements that are taken away and those that are written;
* `countProseBraces_hoistImports` is the result.
-/

namespace MdxPress

open MdxState

/-! ## Line breaks that are dropped -/

section Breaks

variable {c : Char} {w t : Text}

/-- A line that begins with a carriage return may stand for the line without it. -/
theorem FencedLine.reads_return {l : Line} (opens : FenceOpener.ofLine? l.content = none) :
    Reads ⟨l.cons '\r', none, FenceState.next none (l.cons '\r').content⟩ l where
  block code := by
    have outside : FenceState.next none (l.cons '\r').content = none := by
      rw [FenceState.next, Line.cons, FenceOpener.ofLine?_of_break (.inr rfl), Option.map_none]
    rw [FencedLine.isCode, outside] at code
    cases code
  noOpener _ := opens
  alike _ := by
    have same : Text.Alike (['\r'] ++ l.content) l.content := Text.alike_blank_append rfl l.content
    exact same
  exempt _ := by
    have trimmed : Text.trimStart ('\r' :: l.content) = l.content.trimStart :=
      List.dropWhile_cons_of_pos rfl
    rw [Line.cons, isExempt, isExempt, trimmed]

/-- Nothing is opened by a line break in front, nor by the line that it uncovers. -/
theorem straysFrom_break (break_ : c = '\n' ∨ c = '\r')
    (opens : c = '\r' → ∀ l ∈ t.lines.head?, FenceOpener.ofLine? l.content = none) (n m : Nat) :
    straysFrom .start n (Text.lines (c :: t)) = straysFrom .start m t.lines := by
  have level := Level.refl .start
  rcases break_ with rfl | rfl
  · rw [Text.lines]
    exact (Nat.zero_add _).trans (straysFrom_level level _ m t.lines)
  · rcases Text.lines_return t with ⟨ls, before, lines⟩ | ⟨before, lines⟩ | ⟨l, ls, before, lines⟩
    · rw [before, lines]
      exact straysFrom_level level n m (⟨[], .crlf⟩ :: ls)
    · rw [before, lines]
      rfl
    · rw [before, lines]
      have plain := opens rfl l (by rw [before]; rfl)
      have reads : List.Forall₂ FencedLine.Reads (fencedLines none (l.cons '\r' :: ls)) (l :: ls) :=
        .cons (FencedLine.reads_return plain) (forall₂_reads_self _ ls)
      exact straysFrom_congr level reads n m

/-- **Line breaks in front of a text** are dropped unseen, unless they hide a block. -/
theorem straysFrom_breaks (breaks : ∀ c ∈ w, c = '\n' ∨ c = '\r')
    (opens : w.getLast? = some '\r' → ∀ l ∈ t.lines.head?, FenceOpener.ofLine? l.content = none)
    (n m : Nat) : straysFrom .start n (Text.lines (w ++ t)) = straysFrom .start m t.lines := by
  refine Text.breaks_induction breaks opens
    (motive := fun u => ∀ n, straysFrom .start n u.lines = straysFrom .start m t.lines)
    (fun n => straysFrom_level (Level.refl .start) n m t.lines) (fun c u break_ uncovers behind n => ?_) n
  rw [straysFrom_break break_ uncovers n m]
  exact behind m

/-- **A text without the breaks in front of it.** -/
theorem straysFrom_dropBreaks (shown : t.HidesNone) (n m : Nat) :
    straysFrom .start n t.lines = straysFrom .start m (Text.lines t.dropBreaks) := by
  conv => lhs; rw [← t.leadingBreaks_append_dropBreaks]
  exact straysFrom_breaks (fun c => Text.eq_break_of_mem_leadingBreaks) shown.uncovers n m

end Breaks

/-! ## Statements -/

/-- A statement that holds no tag, and ends none that was opened before it. -/
def Import.IsInert (statement : Text) : Prop :=
  Tag.ofLine statement = [] ∧ tagEnd? statement = none

instance : DecidablePred Import.IsInert :=
  fun _ => inferInstanceAs (Decidable (_ ∧ _))

section Statement

variable {s t : MdxState} {line : Text}

theorem Import.opener_eq_none (starts : line.startsWith "import ".toList = true) :
    FenceOpener.ofLine? line = none := by
  obtain ⟨behind, rfl⟩ := exists_of_starts starts
  have first : FenceOpener.ofLine? ([] ++ ("import ".toList ++ behind)) = none :=
    FenceOpener.ofLine?_eq_none_of_head (List.forall_mem_nil _) (by simp; decide)
  exact first

theorem Import.isExempt (starts : line.startsWith "import ".toList = true) : isExempt line = true := by
  obtain ⟨behind, rfl⟩ := exists_of_starts starts
  have trimmed : Text.trimStart ("import ".toList ++ behind) = "import ".toList ++ behind :=
    Text.trimStart_eq_self rfl (by decide)
  rw [MdxState.isExempt, trimmed]
  exact List.any_eq_true.2 ⟨"import ", .head _, starts⟩

theorem MdxState.readTags_of_isInert (inert : Import.IsInert line) (n : Nat) :
    (s.readTags line n).1 = s := by
  obtain ⟨noTag, noEnd⟩ := inert
  rw [readTags]
  cases s.pending with
  | none =>
    rw [noTag]
    rfl
  | some p => rw [noEnd]

theorem MdxState.classOf_ne_prose (exempt : isExempt line = true) (touched : Bool) :
    s.classOf touched line ≠ .prose := by
  rw [classOf, exempt]
  split <;> decide

/-- **A statement on a line of its own** holds no stray brace, and nothing is changed behind it if
nothing is by its tags. -/
theorem straysAt_import (outside : s.fence = none) (starts : line.startsWith "import ".toList = true)
    {n : Nat} (still : Level (s.readTags line n).1 s) :
    straysAt s n line = 0 ∧ Level (s.advance line n).2 s := by
  have read : s.advance line n = s.advanceProse line n :=
    advance_of_noFence outside (Import.opener_eq_none starts)
  rw [straysAt, read, advanceProse_eq]
  exact ⟨if_neg (classOf_ne_prose (Import.isExempt starts) _), still⟩

/-! ## Statements that are taken away -/

/-- Blanks at the end of a line do nothing. -/
theorem MdxState.readTags_trimEnd (inert : Import.IsInert line.trimEnd) (n : Nat) :
    Level (s.readTags line n).1 s := by
  obtain ⟨tail, cut, blank⟩ := Text.dropEndWhile_append_mem isBlank line
  have alike : Text.Alike (line.trimEnd ++ tail) line.trimEnd :=
    Text.alike_append_blank (List.all_eq_true.2 blank) line.trimEnd
  rw [Text.trimEnd, ← cut, ← Text.trimEnd] at alike
  have level := (alike.tags n n (Level.refl s)).1
  rwa [readTags_of_isInert inert] at level

/-- **Taking the statements away** keeps the stray braces, if none of the statements does anything. -/
theorem straysFrom_filter (level : Level s t) {ls : List Line}
    (inert : ∀ l ∈ fencedLines s.fence ls, Import.isStatement l = true →
      Import.IsInert l.line.content.trimEnd) (n m : Nat) :
    straysFrom s n ls = straysFrom t m
      (((fencedLines s.fence ls).filter fun l => !Import.isStatement l).map (·.line)) := by
  induction ls generalizing s t n m with
  | nil => rfl
  | cons l ls ih =>
    obtain ⟨here, later⟩ := List.forall_mem_cons.1 inert
    have after := fence_advance s l.content n
    rw [← after] at later
    cases statement : Import.isStatement ⟨l, s.fence, s.fence.next l.content⟩ with
    | true =>
      have kind := statement
      rw [Import.isStatement, Bool.and_eq_true, Bool.not_eq_true'] at kind
      obtain ⟨prose, import_⟩ := kind
      rw [FencedLine.isCode_eq_false_iff] at prose
      have starts : l.content.startsWith "import ".toList = true := (Bool.and_eq_true_iff.1 import_).1
      obtain ⟨none_, still⟩ := straysAt_import (n := n) prose.1 starts (readTags_trimEnd (here statement) n)
      rw [straysFrom_cons, none_, Nat.zero_add, ih (still.trans level) later (n + 1) m, after, fencedLines,
        List.filter_cons_of_neg (by simp [statement])]
    | false =>
      have self := (List.forall₂_cons.1 (forall₂_reads_self s.fence (l :: ls))).1
      obtain ⟨same, level'⟩ := self.advance level n m
      rw [fencedLines, List.filter_cons_of_pos (by simp [statement]), List.map_cons, straysFrom_cons,
        straysFrom_cons, same, ih level' later (n + 1) (m + 1), after]

/-! ## Statements that are written -/

/-- **Statements on lines of their own** hold no stray brace and change nothing. -/
theorem straysFrom_ofLines {ts : List Text} (written : ∀ t ∈ ts, Import.IsWritten t)
    (inert : ∀ t ∈ ts, Import.IsInert t) (rest : Text) (n m : Nat) :
    straysFrom .start n (Text.lines (Text.ofLines ts ++ rest)) = straysFrom .start m rest.lines := by
  induction ts generalizing n with
  | nil => exact straysFrom_level (Level.refl .start) n m rest.lines
  | cons t ts ih =>
    obtain ⟨line, lines⟩ := List.forall_mem_cons.1 written
    obtain ⟨still, stills⟩ := List.forall_mem_cons.1 inert
    have cut : Text.ofLines (t :: ts) ++ rest = t ++ '\n' :: (Text.ofLines ts ++ rest) := by simp
    obtain ⟨none_, level⟩ := straysAt_import (s := .start) (n := n) rfl line.starts
      (readTags_of_isInert still n ▸ Level.refl .start)
    rw [cut, Text.lines_append_lf _ line.noFeed line.noReturn, straysFrom_cons, none_, Nat.zero_add,
      straysFrom_level level (n + 1) n, ih lines stills n]

end Statement

/-! ## The statements of a body -/

namespace Import

theorem isInert_theme : ∀ c ∈ themeComponents, IsInert c.statement := by
  refine forall_theme ?_ ?_
  all_goals
    dsimp only
    rw [String.toList_ofList]
    decide +kernel

/-- What is written in front of a body does nothing, if none of its statements does. -/
theorem isInert_of_mem_block {ls : List FencedLine} (inert : ∀ s ∈ statements ls, IsInert s) :
    ∀ s ∈ block ls, IsInert s := by
  intro s mem
  rcases mem_block mem with found | ⟨c, theme, rfl⟩
  · exact inert s found
  · exact isInert_theme c theme

end Import

/-- The text without its statements, cut into lines. -/
theorem Import.lines_rest (t : Text) :
    (Import.rest t.fenced).lines = (t.fenced.filter fun l => !Import.isStatement l).map (·.line) := by
  apply Text.lines_join
  apply (Text.areLines_lines t).sublist
  have lines := map_line_fencedLines none t.lines
  conv => rhs; rw [← lines]
  exact List.filter_sublist.map _

theorem Text.HidesNone.rest {t : Text} (shown : t.HidesNone) : HidesNone (Import.rest t.fenced) := by
  intro l mem
  rw [Import.lines_rest] at mem
  obtain ⟨k, kept, rfl⟩ := List.mem_map.1 mem
  apply shown
  rw [← map_line_fencedLines none t.lines]
  exact List.mem_map_of_mem (List.mem_of_mem_filter kept)

/-- **Statements written before a text**, behind line breaks. -/
theorem straysFrom_gathered {breaks behind : Text} {ts : List Text}
    (break_ : ∀ c ∈ breaks, c = '\n' ∨ c = '\r') (filled : ts ≠ [])
    (written : ∀ t ∈ ts, Import.IsWritten t) (inert : ∀ t ∈ ts, Import.IsInert t) (n m : Nat) :
    straysFrom .start n (Text.lines (breaks ++ Text.ofLines ts ++
        (if behind = [] then [] else '\n' :: behind))) =
      straysFrom .start m behind.lines := by
  generalize spaced : (if behind = [] then [] else '\n' :: behind : Text) = after
  have apart : straysFrom .start n after.lines = straysFrom .start m behind.lines := by
    rw [← spaced]
    cases behind with
    | nil => rfl
    | cons c r => exact straysFrom_break (.inl rfl) (fun return_ => absurd return_ (by decide)) n m
  rw [List.append_assoc, straysFrom_breaks break_ (fun _ => ?_) n n,
    straysFrom_ofLines written inert after n n, apart]
  obtain ⟨t, rest, rfl⟩ := List.exists_cons_of_ne_nil filled
  have line := written t (.head _)
  have first : Text.ofLines (t :: rest) ++ after = t ++ '\n' :: (Text.ofLines rest ++ after) := by simp
  rw [first, Text.lines_append_lf _ line.noFeed line.noReturn]
  rintro l ⟨⟩
  exact Import.opener_eq_none line.starts

/-- **Gathering imports keeps the stray braces of a body**, if its statements do nothing to the
components around them and no line hides the start of a block. -/
theorem countProseBraces_hoistImports {body : Text}
    (inert : ∀ t ∈ Import.statements (Text.fenced body.dropBreaks), Import.IsInert t)
    (shown : body.HidesNone) : countProseBraces (hoistImports body).text = countProseBraces body := by
  rcases hoistImports_cases body with ⟨same, -, -⟩ | ⟨filled, text⟩
  · rw [same]
  have away : ∀ l ∈ Text.fenced body.dropBreaks, Import.isStatement l = true →
      Import.IsInert l.line.content.trimEnd :=
    fun l mem statement => inert _ (List.mem_map_of_mem (List.mem_filter.2 ⟨mem, statement⟩))
  rw [text, countProseBraces_eq, countProseBraces_eq]
  calc straysFrom .start 1 _
      = straysFrom .start 1 (Text.lines (Import.rest (Text.fenced body.dropBreaks)).dropBreaks) :=
        straysFrom_gathered (fun c => Text.eq_break_of_mem_leadingBreaks) filled
          (fun t => Import.isWritten_of_mem_block) (Import.isInert_of_mem_block inert) 1 1
    _ = straysFrom .start 1 (Import.rest (Text.fenced body.dropBreaks)).lines :=
        (straysFrom_dropBreaks shown.dropBreaks.rest 1 1).symm
    _ = straysFrom .start 1 (Text.lines body.dropBreaks) := by
        rw [Import.lines_rest]
        exact (straysFrom_filter (Level.refl .start) away 1 1).symm
    _ = straysFrom .start 1 body.lines := (straysFrom_dropBreaks shown 1 1).symm

/-- An import takes the tag that it holds along, and so a component ends early. -/
example : countProseBraces "</C>\nimport x from '<C>'\n{b}\n".toList = 0 ∧
    countProseBraces (hoistImports "</C>\nimport x from '<C>'\n{b}\n".toList).text = 2 := by
  decide +kernel

end MdxPress
