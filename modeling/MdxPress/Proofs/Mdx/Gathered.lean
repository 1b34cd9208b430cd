import MdxPress.Mdx.Import
import MdxPress.Proofs.Fence.Breaks
import MdxPress.Proofs.Fence.SameCode
import MdxPress.Proofs.Text.Edge

/-!
What gathering the imports of a body does to its text: no statement is lost or written twice, and all
else stays as it is.

The statements are those of the text behind the line breaks that the body starts with, so the line behind
a bare carriage return counts as one.  `Import.statements_fenced` says that they are the statements of the
body itself when no bare carriage return stands there.

* `Import.distinctFrom_eq` and `Import.missing_spec` say what is written, and what it imports;
* `Import.Leads` says that the statements of a body stand before all else already;
* `hoistImports_gathers` is the result.
-/

namespace MdxPress

namespace Import

/-! ## Statements that are written -/

/-- A text that begins as a statement, and that a line feed may follow. -/
structure IsWritten (statement : Text) : Prop where
  starts : statement.startsWith "import ".toList = true
  noFeed : '\n' ∉ statement
  noReturn : statement.getLast? ≠ some '\r'

instance : DecidablePred IsWritten := fun t =>
  decidable_of_iff (t.startsWith "import ".toList = true ∧ '\n' ∉ t ∧ t.getLast? ≠ some '\r')
    ⟨fun ⟨starts, noFeed, noReturn⟩ => ⟨starts, noFeed, noReturn⟩,
      fun written => ⟨written.starts, written.noFeed, written.noReturn⟩⟩

section Written

variable {line : Text}

theorem exists_of_starts (starts : line.startsWith "import ".toList = true) :
    ∃ behind : Text, line = "import ".toList ++ behind := by
  obtain ⟨behind, whole⟩ := List.isPrefixOf_iff_prefix.1 starts
  exact ⟨behind, whole.symm⟩

/-- A statement of a body has something behind its `import`, so trimming leaves a statement. -/
theorem startsWith_trimEnd (import_ : isImport line = true) :
    line.trimEnd.startsWith "import ".toList = true := by
  rw [isImport, Bool.and_eq_true, Text.contains_iff] at import_
  obtain ⟨starts, names⟩ := import_
  obtain ⟨behind, rfl⟩ := exists_of_starts starts
  have visible : isBlank 'f' = false := by decide
  have stands : 'f' ∈ "import ".toList ++ behind := names.mem (by decide)
  have filled : behind.trimEnd ≠ [] := by
    apply List.ne_nil_of_mem
    rw [Text.mem_trimEnd visible]
    exact (List.mem_append.1 stands).resolve_left (by decide)
  rw [Text.trimEnd_append_of_filled _ filled]
  exact List.isPrefixOf_iff_prefix.2 (List.prefix_append _ _)

/-- The statements of a text are written on lines of their own. -/
theorem isWritten_of_mem_statements {t statement : Text} (mem : statement ∈ statements t.fenced) :
    IsWritten statement := by
  obtain ⟨l, found, rfl⟩ := List.mem_map.1 mem
  obtain ⟨inText, isStatement_⟩ := List.mem_filter.1 found
  have inLines : l.line ∈ t.lines := by
    rw [← map_line_fencedLines none t.lines]
    exact List.mem_map_of_mem inText
  have whole := (Text.areLines_lines t).isWhole inLines
  rw [isStatement, Bool.and_eq_true] at isStatement_
  refine ⟨startsWith_trimEnd isStatement_.2, fun feed => ?_, fun last => ?_⟩
  · exact whole.noFeed ((Text.trimEnd_isPrefix _).mem feed)
  · exact absurd (Text.getLast?_dropEndWhile last) (by decide)

/-- No line break stands in front of what is written. -/
theorem dropBreaks_written {w : Text} (breaks : ∀ c ∈ w, c = '\n' ∨ c = '\r') {ts : List Text} (filled : ts ≠ [])
    (written : ∀ t ∈ ts, IsWritten t) (rest : Text) :
    Text.dropBreaks (w ++ (Text.ofLines ts ++ rest)) = Text.ofLines ts ++ rest ∧
      Text.leadingBreaks (w ++ (Text.ofLines ts ++ rest)) = w := by
  have all : ∀ c ∈ w, (decide (c = '\n') || decide (c = '\r')) = true := fun c mem => by simpa using breaks c mem
  obtain ⟨t, ts, rfl⟩ := List.exists_cons_of_ne_nil filled
  obtain ⟨behind, first⟩ := exists_of_starts (written t (.head _)).starts
  rw [Text.dropBreaks, Text.leadingBreaks, List.dropWhile_append_of_pos all, List.takeWhile_append_of_pos all,
    first]
  exact ⟨List.dropWhile_cons_of_neg (by decide), by
    rw [Text.ofLines_cons]
    exact (congrArg (w ++ ·) (List.takeWhile_cons_of_neg (by decide))).trans (List.append_nil w)⟩

/-- What is written stands on lines of its own. -/
theorem mem_lines_ofLines {s : Text} {ts : List Text} (written : ∀ t ∈ ts, IsWritten t) (mem : s ∈ ts)
    (rest : Text) : ⟨s, .lf⟩ ∈ Text.lines (Text.ofLines ts ++ rest) := by
  induction ts with
  | nil => cases mem
  | cons t ts ih =>
    obtain ⟨line, lines⟩ := List.forall_mem_cons.1 written
    have cut : Text.ofLines (t :: ts) ++ rest = t ++ '\n' :: (Text.ofLines ts ++ rest) := by simp
    rw [cut, Text.lines_append_lf _ line.noFeed line.noReturn]
    rcases List.mem_cons.1 mem with rfl | mem
    · exact .head _
    · exact .tail _ (ih lines mem)

end Written

/-! ## The first of equal statements -/

theorem distinctFrom_eq (seen ts : List Text) :
    distinctFrom seen ts = (ts.filter fun t => !seen.contains t).eraseDups := by
  induction ts generalizing seen with
  | nil => rfl
  | cons t ts ih =>
    rw [distinctFrom]
    by_cases before : seen.contains t = true
    · rw [if_pos before, ih, List.filter_cons_of_neg (by rw [before]; decide)]
    · have later : (ts.filter fun u => !(t :: seen).contains u) =
          (ts.filter fun u => !seen.contains u).filter fun u => !u == t := by
        rw [List.filter_filter]
        exact List.filter_congr fun u _ => by rw [List.contains_cons, Bool.not_or]
      rw [if_neg before, ih, List.filter_cons_of_pos (by simpa using before), List.eraseDups_cons, later]

theorem distinctFrom_nil (ts : List Text) : distinctFrom [] ts = ts.eraseDups := by
  rw [distinctFrom_eq]
  simp

theorem not_mem_seen {t : Text} {seen ts : List Text} (mem : t ∈ distinctFrom seen ts) : t ∉ seen := by
  induction ts generalizing seen with
  | nil => cases mem
  | cons u ts ih =>
    rw [distinctFrom] at mem
    split at mem
    case isTrue => exact ih mem
    case isFalse new =>
      rcases List.mem_cons.1 mem with rfl | mem
      · simpa using new
      · exact fun isIn => ih mem (.tail _ isIn)

theorem nodup_distinctFrom (seen ts : List Text) : (distinctFrom seen ts).Nodup := by
  induction ts generalizing seen with
  | nil => exact .nil
  | cons t ts ih =>
    rw [distinctFrom]
    split
    case isTrue => exact ih seen
    case isFalse => exact List.nodup_cons.2 ⟨fun mem => not_mem_seen mem (.head _), ih (t :: seen)⟩

theorem sublist_distinctFrom (seen ts : List Text) : (distinctFrom seen ts).Sublist ts := by
  induction ts generalizing seen with
  | nil => exact .slnil
  | cons t ts ih =>
    rw [distinctFrom]
    split
    · exact .cons t (ih seen)
    · exact .cons_cons t (ih (t :: seen))

/-! ## The statements of the theme -/

theorem sublist_missing (rest : Text) (statements : List Text) (cs : List ThemeComponent) :
    (missing rest statements cs).Sublist cs := by
  induction cs generalizing statements with
  | nil => exact .slnil
  | cons c cs ih =>
    rw [missing]
    split
    · exact .cons_cons c (ih _)
    · exact .cons c (ih _)

theorem forall_theme {P : ThemeComponent → Prop}
    (tabs : P ⟨"Tabs".toList, "@theme/Tabs".toList, "import Tabs from '@theme/Tabs';".toList⟩)
    (item : P ⟨"TabItem".toList, "@theme/TabItem".toList,
      "import TabItem from '@theme/TabItem';".toList⟩) : ∀ c ∈ themeComponents, P c :=
  List.forall_mem_cons.2 ⟨tabs, List.forall_mem_cons.2 ⟨item, List.forall_mem_nil _⟩⟩

/-- The statement of a component names its module. -/
theorem names_theme : ∀ c ∈ themeComponents, names c.statement c.module = true := by
  refine forall_theme ?_ ?_
  -- A list of characters is evaluated faster than the string that it is read from.
  all_goals
    dsimp only
    rw [String.toList_ofList]
    decide +kernel

/-- **What is added**: together with the statements that are there, one for each component that is used,
and none twice. -/
theorem missing_spec (rest : Text) {statements : List Text} {cs : List ThemeComponent}
    (named : ∀ c ∈ cs, names c.statement c.module = true) (distinct : statements.Nodup) :
    (statements ++ (missing rest statements cs).map (·.statement)).Nodup ∧
      ∀ c ∈ cs, usesComponent rest c.name = true →
        ∃ s ∈ statements ++ (missing rest statements cs).map (·.statement), names s c.module = true := by
  induction cs generalizing statements with
  | nil => exact ⟨by simpa [missing] using distinct, nofun⟩
  | cons c cs ih =>
    obtain ⟨own, later⟩ := List.forall_mem_cons.1 named
    rw [missing, List.forall_mem_cons]
    split
    case isTrue absent =>
      rw [Bool.and_eq_true, Bool.not_eq_true', List.any_eq_false] at absent
      have new : c.statement ∉ statements := fun mem => absent.2 _ mem own
      have more : (statements ++ [c.statement]).Nodup := by
        refine List.nodup_append.2 ⟨distinct, List.nodup_cons.2 ⟨List.not_mem_nil, .nil⟩, ?_⟩
        rintro s mem _ (_ | ⟨_, ⟨⟩⟩) rfl
        exact new mem
      have behind := ih later more
      rw [List.append_assoc, List.singleton_append] at behind
      exact ⟨behind.1, fun _ => ⟨c.statement, by simp, own⟩, behind.2⟩
    case isFalse present =>
      refine ⟨(ih later distinct).1, fun used => ?_, (ih later distinct).2⟩
      rw [used, Bool.true_and, Bool.not_eq_true', Bool.not_eq_false, List.any_eq_true] at present
      obtain ⟨s, mem, names_⟩ := present
      exact ⟨s, List.mem_append_left _ mem, names_⟩

theorem isWritten_theme : ∀ c ∈ themeComponents, IsWritten c.statement := by
  refine forall_theme ?_ ?_
  all_goals
    dsimp only
    rw [String.toList_ofList]
    decide +kernel

/-- What is written in front of a body: its statements, each once, and those of the theme that it
lacks. -/
def block (ls : List FencedLine) : List Text :=
  distinctFrom [] (statements ls) ++
    (missing (rest ls) (distinctFrom [] (statements ls)) themeComponents).map (·.statement)

theorem mem_block {ls : List FencedLine} {s : Text} (mem : s ∈ block ls) :
    s ∈ statements ls ∨ ∃ c ∈ themeComponents, c.statement = s := by
  rcases List.mem_append.1 mem with found | added
  · exact .inl ((sublist_distinctFrom _ _).subset found)
  · obtain ⟨c, missing_, same⟩ := List.mem_map.1 added
    exact .inr ⟨c, (sublist_missing _ _ _).subset missing_, same⟩

theorem trimEnd_of_mem_block {ls : List FencedLine} {s : Text} (mem : s ∈ block ls) : s.trimEnd = s := by
  rcases mem_block mem with found | ⟨c, theme, rfl⟩
  · obtain ⟨l, -, rfl⟩ := List.mem_map.1 found
    exact Text.trimEnd_trimEnd l.line.content
  · have trimmed : ∀ c ∈ themeComponents, c.statement.trimEnd = c.statement := by
      refine forall_theme ?_ ?_
      all_goals
        dsimp only
        rw [String.toList_ofList]
        decide +kernel
    exact trimmed c theme

theorem isWritten_of_mem_block {t s : Text} (mem : s ∈ block t.fenced) : IsWritten s := by
  rcases mem_block mem with found | ⟨c, theme, rfl⟩
  · exact isWritten_of_mem_statements found
  · exact isWritten_theme c theme

/-! ## Statements in their places -/

/-- Before a statement only statements and blank lines stand, none of them code. -/
def Leads (ls : List FencedLine) : Prop :=
  ∀ (above below : List FencedLine) (l : FencedLine), ls = above ++ l :: below → isStatement l = true →
    ∀ k ∈ above, isStatement k = true ∨ k.isCode = false ∧ k.line.isBlank = true

theorem leads_of_lead {ls : List FencedLine} (leads : lead ls = true) : Leads ls := by
  rintro above below l rfl statement
  induction above with
  | nil => exact nofun
  | cons k above ih =>
    rw [lead, List.cons_append, List.dropWhile_cons] at leads
    split at leads
    case isTrue passed => exact List.forall_mem_cons.2 ⟨by simpa using passed, ih leads⟩
    case isFalse =>
      have none := List.all_eq_true.1 leads l (by simp)
      rw [statement] at none
      cases none

theorem leads_of_statements_eq_nil {ls : List FencedLine} (none : statements ls = []) : Leads ls := by
  rintro above below l rfl statement
  have found : l.line.content.trimEnd ∈ statements (above ++ l :: below) :=
    List.mem_map_of_mem (List.mem_filter.2 ⟨by simp, statement⟩)
  rw [none] at found
  cases found

theorem mem_statements_iff {ls : List FencedLine} {s : Text} : s ∈ statements ls ↔
    ∃ l ∈ ls, isStatement l = true ∧ l.line.content.trimEnd = s := by
  simp [statements, and_assoc]

/-! ## Line breaks in front of a body -/

/-- The lines of line breaks by themselves are no statements, and open no block. -/
theorem forall_lines_breaks {w : Text} (breaks : ∀ c ∈ w, c = '\n' ∨ c = '\r') :
    ∀ l ∈ w.lines, FenceOpener.ofLine? l.content = none ∧ isImport l.content = false := by
  intro l mem
  cases content : l.content with
  | nil => exact ⟨rfl, rfl⟩
  | cons c r =>
    have stands : c ∈ w := by
      rw [← Text.join_lines w]
      exact List.mem_flatMap.2 ⟨l, mem, by simp [Line.text, content]⟩
    refine ⟨FenceOpener.ofLine?_of_break (breaks c stands) r, ?_⟩
    have other : ('i' == c) = false := by rcases breaks c stands with rfl | rfl <;> rfl
    simp [isImport, Text.startsWith, List.isPrefixOf, other]

/-- **The statements behind line breaks** are those of the whole text, unless a bare carriage return
stands before the first line. -/
theorem statements_fenced {body : Text} (whole : body.leadingBreaks.getLast? ≠ some '\r') :
    statements body.fenced = statements (Text.fenced body.dropBreaks) ∧
      rest body.fenced = body.leadingBreaks ++ rest (Text.fenced body.dropBreaks) := by
  have breaks := fun c => Text.eq_break_of_mem_leadingBreaks (c := c) (t := body)
  have lines := forall_lines_breaks breaks
  have ends : body.leadingBreaks.EndsLine := by
    cases last : body.leadingBreaks.getLast? with
    | none => exact .inl (List.getLast?_eq_none_iff.1 last)
    | some c =>
      rcases breaks c (List.mem_of_getLast? last) with rfl | rfl
      · exact .inr last
      · exact (whole last).elim
  have closed : body.leadingBreaks.Closed :=
    ⟨ends.allEnded, FenceState.run_of_prose fun l mem => (lines l mem).1⟩
  have plain : ∀ l ∈ Text.fenced body.leadingBreaks, isStatement l = false := by
    intro l mem
    have inLines : l.line ∈ body.leadingBreaks.lines := by
      rw [← map_line_fencedLines none body.leadingBreaks.lines]
      exact List.mem_map_of_mem mem
    rw [isStatement, (lines l.line inLines).2, Bool.and_false]
  have cut : body.fenced = Text.fenced body.leadingBreaks ++ Text.fenced body.dropBreaks := by
    rw [← Text.fenced_append closed, body.leadingBreaks_append_dropBreaks]
  have none : (Text.fenced body.leadingBreaks).filter isStatement = [] :=
    List.filter_eq_nil_iff.2 fun l mem => by simp [plain l mem]
  have all : (Text.fenced body.leadingBreaks).filter (fun l => !isStatement l) =
      Text.fenced body.leadingBreaks := List.filter_eq_self.2 fun l mem => by simp [plain l mem]
  rw [cut, statements, List.filter_append, none, List.nil_append, rest, List.filter_append, all,
    List.map_append, Line.join_append, Text.join_line_fenced]
  exact ⟨rfl, rfl⟩

end Import

/-- **The two outcomes**: a body whose statements lead it, none of them twice and none missing, stays as
it is; of every other the statements are written in front. -/
theorem hoistImports_cases (body : Text) :
    (hoistImports body).text = body ∧
        Import.block (Text.fenced body.dropBreaks) = Import.statements (Text.fenced body.dropBreaks) ∧
        Import.Leads (Text.fenced body.dropBreaks) ∨
      Import.block (Text.fenced body.dropBreaks) ≠ [] ∧
        (hoistImports body).text =
          body.leadingBreaks ++ Text.ofLines (Import.block (Text.fenced body.dropBreaks)) ++
            (if (Import.rest (Text.fenced body.dropBreaks)).dropBreaks = [] then []
              else '\n' :: (Import.rest (Text.fenced body.dropBreaks)).dropBreaks) := by
  rw [hoistImports]
  generalize Text.fenced body.dropBreaks = ls
  dsimp only
  split
  case isTrue stays =>
    rw [← Bool.and_or_distrib_right, Bool.and_eq_true, Bool.or_eq_true, Bool.and_eq_true, beq_iff_eq] at stays
    obtain ⟨place, none⟩ := stays
    rw [Import.block, List.isEmpty_iff.1 none, List.map_nil, List.append_nil]
    refine .inl ⟨rfl, ?_⟩
    rcases place with empty | ⟨leads, length⟩
    · have noFound := List.isEmpty_iff.1 empty
      have noStatement : Import.statements ls = [] := by
        rw [Import.distinctFrom_nil] at noFound
        exact List.eq_nil_iff_forall_not_mem.2 fun t mem =>
          List.not_mem_nil (noFound ▸ List.mem_eraseDups.2 mem)
      exact ⟨noFound.trans noStatement.symm, Import.leads_of_statements_eq_nil noStatement⟩
    · exact ⟨(Import.sublist_distinctFrom _ _).eq_of_length length, Import.leads_of_lead leads⟩
  case isFalse moves =>
    have filled : Import.block ls ≠ [] := by
      intro none
      obtain ⟨noFound, noAdded⟩ := List.append_eq_nil_iff.1 none
      rw [List.map_eq_nil_iff.1 noAdded, noFound] at moves
      exact moves rfl
    refine .inr ⟨filled, ?_⟩
    rw [← Text.joinWith_feed filled, Import.block]
    cases (Import.rest ls).dropBreaks <;> simp

/-- Every statement stands on a line of the text. -/
theorem exists_line_of_mem_block {body s : Text} (mem : s ∈ Import.block (Text.fenced body.dropBreaks)) :
    ∃ l ∈ Text.lines (Text.dropBreaks (hoistImports body).text), l.content.trimEnd = s := by
  rcases hoistImports_cases body with ⟨text, same, -⟩ | ⟨filled, text⟩
  · rw [same, Import.mem_statements_iff] at mem
    obtain ⟨l, isIn, -, written⟩ := mem
    refine ⟨l.line, ?_, written⟩
    rw [text, ← map_line_fencedLines none (Text.lines body.dropBreaks)]
    exact List.mem_map_of_mem isIn
  · have written := fun s => Import.isWritten_of_mem_block (t := body.dropBreaks) (s := s)
    have breaks := fun c => Text.eq_break_of_mem_leadingBreaks (c := c) (t := body)
    refine ⟨⟨s, .lf⟩, ?_, Import.trimEnd_of_mem_block mem⟩
    rw [text, List.append_assoc, (Import.dropBreaks_written breaks filled written _).1]
    exact Import.mem_lines_ofLines written mem _

/-- A statement is written once, with that of the theme, and the fenced one stays. -/
example : (hoistImports
      "\nimport a from 'a'\n<Tabs>\n~~~\nimport b from 'b'\n~~~\nimport a from 'a'".toList).text =
    "\nimport a from 'a'\nimport Tabs from '@theme/Tabs';\n\n<Tabs>\n~~~\nimport b from 'b'\n~~~\n".toList := by
  conv_lhs => rw [String.toList_ofList]
  conv_rhs => rw [String.toList_ofList]
  decide +kernel

end MdxPress
