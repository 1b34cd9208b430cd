import MdxPress.Proofs.Site.Again

/-!
Where a schema component is put.  `Schema.importLines` takes a line for an import by the word that it
begins with, so a statement that is spread over lines is cut behind its first line, and a line of prose
that begins with such a word is passed over together with the imports.

* `Schema.exists_importLines` and `Schema.importLines_append` say which lines are taken;
* `Schema.IsStatement` are the statements of a body, on one line or spread over lines;
* `Schema.insert_behind_iff` is the exact condition for a block to stand right behind the statements.

Caveat: whether a line behind the statements is prose is no matter, only the word it begins with is.
-/

namespace MdxPress

/-! ## Texts with a block at a place -/

/-- A text that takes every block at two places takes it at one. -/
theorem Text.eq_of_forall_insert {a b x y : Text}
    (same : ∀ block : Text, a ++ (block ++ b) = x ++ (block ++ y)) : a = x := by
  have differs (c : Char) : ∃ d : Char, d ≠ c := by
    by_cases other : c = 'x'
    · exact ⟨'y', by rw [other]; decide⟩
    · exact ⟨'x', fun h => other h.symm⟩
  have noLonger {a b x y : Text} (same : ∀ block : Text, a ++ (block ++ b) = x ++ (block ++ y))
      {more : Text} (longer : x = a ++ more) : more = [] := by
    cases more with
    | nil => rfl
    | cons c more =>
      obtain ⟨d, other⟩ := differs c
      have here := same [d]
      rw [longer, List.append_assoc] at here
      exact (other (List.cons.inj (List.append_cancel_left here)).1).elim
  rcases List.append_eq_append_iff.1 (same []) with ⟨more, longer, -⟩ | ⟨more, longer, -⟩
  · rw [longer, noLonger same longer, List.append_nil]
  · rw [longer, noLonger (fun block => (same block).symm) longer, List.append_nil]

/-- What ends with a visible character stays where the blanks at the end are taken off. -/
theorem Text.infix_trimEnd {w t : Text} {c : Char} (last : w.getLast? = some c)
    (visible : MdxPress.isBlank c = false) (part : w <:+: t) : w <:+: t.trimEnd := by
  obtain ⟨before, rfl⟩ := List.getLast?_eq_some_iff.1 last
  obtain ⟨x, y, whole⟩ := part
  obtain ⟨tail, cut, blank⟩ := dropEndWhile_append_mem MdxPress.isBlank t
  have same : t.trimEnd ++ tail = (x ++ before) ++ c :: y := by
    rw [trimEnd, ← cut, ← whole]
    simp only [List.append_assoc, List.singleton_append]
  rcases append_eq_append_sign same with ⟨z, -, rfl⟩ | ⟨z, inside, -⟩
  · rw [blank c (by simp)] at visible
    cases visible
  · rw [inside]
    exact ⟨x, z, by simp⟩

theorem Text.visible_trimEnd (t : Text) : t.trimEnd.visible = t.visible := by
  obtain ⟨tail, cut, blank⟩ := dropEndWhile_append_mem MdxPress.isBlank t
  conv => rhs; rw [cut, visible_append, visible_of_blank blank, List.append_nil]
  rfl

theorem Text.visible_dropBreaks (t : Text) : t.dropBreaks.visible = t.visible := by
  have breaks : ∀ c ∈ t.leadingBreaks, MdxPress.isBlank c = true := by
    intro c mem
    have sign := List.mem_takeWhile_imp mem
    simp only [Bool.or_eq_true, decide_eq_true_eq] at sign
    rcases sign with rfl | rfl <;> decide
  have cut : t.leadingBreaks ++ t.dropBreaks = t := List.takeWhile_append_dropWhile
  conv => rhs; rw [← cut, visible_append, visible_of_blank breaks, List.nil_append]

theorem Text.allBlank_of_visible {t : Text} (nothing : t.visible = []) : t.allBlank = true := by
  rw [allBlank, List.all_eq_true]
  intro c mem
  simpa using List.filter_eq_nil_iff.1 nothing c mem

namespace Schema

/-! ## The lines that are taken for imports -/

theorem isImport_of_isBlank {l : Line} (blank : l.isBlank = true) : isImport l = false := by
  rw [isImport, Text.trim_of_allBlank blank]
  rfl

/-- The imports of a body: they end with the last import line above the first line that is filled and
no import. -/
theorem exists_importLines (ls : List Line) :
    ∃ blanks rest, ls = importLines ls ++ (blanks ++ rest) ∧
      (∀ l ∈ importLines ls, isImport l = true ∨ l.isBlank = true) ∧
      (∀ l ∈ (importLines ls).getLast?, isImport l = true) ∧
      (∀ l ∈ blanks, l.isBlank = true) ∧
      ∀ l ∈ rest.head?, isImport l = false ∧ l.isBlank = false := by
  obtain ⟨front, rest, taken, -, cut, all, stops⟩ :=
    Text.exists_cut_of_fails (fun l : Line => isImport l || l.isBlank) ls
  have imports : importLines ls = front.rdropWhile (!isImport ·) := by
    rw [importLines, taken]
    rfl
  have parts : front.rdropWhile (!isImport ·) ++ front.rtakeWhile (!isImport ·) = front :=
    List.rdropWhile_append_rtakeWhile
  refine ⟨front.rtakeWhile (!isImport ·), rest, ?_, ?_, ?_, ?_, ?_⟩
  · rw [imports, ← List.append_assoc, parts]
    exact cut
  · intro l mem
    rw [imports] at mem
    simpa using all l ((List.rdropWhile_prefix _ front).subset mem)
  · intro l last
    rw [imports] at last
    have filled : front.rdropWhile (!isImport ·) ≠ [] := by
      intro empty
      rw [empty] at last
      cases last
    have ends := List.rdropWhile_last_not (p := fun l => !isImport l) front filled
    rw [Option.mem_def, List.getLast?_eq_some_getLast filled] at last
    rw [Option.some.inj last] at ends
    simpa using ends
  · intro l mem
    have other : isImport l = false := by simpa using List.mem_rtakeWhile_imp mem
    simpa [other] using all l ((List.rtakeWhile_suffix _ front).subset mem)
  · intro l first
    simpa using stops l first

/-- Lines that end with an import, and of which each is an import or blank, are the imports of a body in
which only blank lines stand between them and a line of another kind. -/
theorem importLines_append {imports blanks rest : List Line}
    (all : ∀ l ∈ imports, isImport l = true ∨ l.isBlank = true)
    (last : ∀ l ∈ imports.getLast?, isImport l = true) (blank : ∀ l ∈ blanks, l.isBlank = true)
    (stops : ∀ l ∈ rest.head?, isImport l = false ∧ l.isBlank = false) :
    importLines (imports ++ (blanks ++ rest)) = imports := by
  have front : (imports ++ (blanks ++ rest)).takeWhile (fun l => isImport l || l.isBlank) =
      imports ++ blanks := by
    rw [← List.append_assoc, List.takeWhile_append_of_pos]
    · cases rest with
      | nil => exact List.append_nil _
      | cons l rest =>
        obtain ⟨other, shown⟩ := stops l rfl
        rw [List.takeWhile_cons_of_neg (by simp [other, shown]), List.append_nil]
    · intro l mem
      rcases List.mem_append.1 mem with mem | mem
      · simpa using all l mem
      · simp [blank l mem]
  rw [importLines, front, List.reverse_append, List.dropWhile_append_of_pos]
  · cases imports using List.reverseRecOn with
    | nil => rfl
    | append_singleton imports l =>
      have ends : isImport l = true := last l (by simp)
      rw [List.reverse_append, List.reverse_singleton, List.singleton_append,
        List.dropWhile_cons_of_neg (by simp [ends])]
      simp
  · intro l mem
    simp [isImport_of_isBlank (blank l (List.mem_reverse.1 mem))]

/-! ## Statements -/

/-- The lines of an import statement.  It stands on one line, or its names are spread over lines of
their own, between braces. -/
inductive IsStatement : List Line → Prop
  | oneLine (l : Line) (names module : Text)
      (text : l.content.trim =
        "import ".toList ++ (names ++ (" from '".toList ++ (module ++ "';".toList)))) :
      IsStatement [l]
  | spread (first : Line) (names : List Line) (last : Line) (module : Text)
      (opens : first.content.trim = "import \x7b".toList) (named : ∀ l ∈ names, '}' ∉ l.content)
      (closes : last.content.trim = "\x7d from '".toList ++ (module ++ "';".toList)) :
      IsStatement (first :: (names ++ [last]))

/-- An import statement of a body, with the blank lines above it. -/
structure Statement where
  above : List Line
  lines : List Line
  blank : ∀ l ∈ above, l.isBlank = true
  written : IsStatement lines

/-- The lines of a statement and those above it. -/
def Statement.part (s : Statement) : List Line :=
  s.above ++ s.lines

section Lines

variable {l : Line} {ls : List Line}

theorem isBlank_of_trim {c : Char} {text : Text} (trimmed : l.content.trim = c :: text) :
    l.isBlank = false := by
  rw [Bool.eq_false_iff]
  intro blank
  rw [Text.trim_of_allBlank blank] at trimmed
  cases trimmed

theorem isImport_of_trim {text : Text} (trimmed : l.content.trim = "import ".toList ++ text) :
    isImport l = true := by
  rw [isImport, trimmed]
  rfl

/-- The line that closes a statement is neither blank nor an import. -/
theorem isImport_of_closes {text : Text} (trimmed : l.content.trim = "\x7d from '".toList ++ text) :
    isImport l = false ∧ l.isBlank = false := by
  refine ⟨?_, isBlank_of_trim trimmed⟩
  rw [isImport, trimmed]
  rfl

theorem IsStatement.ne_nil (written : IsStatement ls) : ls ≠ [] := by
  cases written <;> simp

/-- The last line of a statement is not blank. -/
theorem IsStatement.isBlank_getLast? (written : IsStatement ls) :
    ∀ l ∈ ls.getLast?, l.isBlank = false := by
  intro l last
  cases written with
  | oneLine k names module text =>
    cases last
    exact isBlank_of_trim text
  | spread first names k module opens named closes =>
    rw [← List.cons_append, List.getLast?_concat] at last
    cases last
    exact (isImport_of_closes closes).2

/-- **A statement is taken as a whole when it stands on one line**, and only then. -/
theorem IsStatement.length_eq_one_iff (written : IsStatement ls) :
    ls.length = 1 ↔ ∀ l ∈ ls, isImport l = true ∨ l.isBlank = true := by
  cases written with
  | oneLine l names module text => simp [isImport_of_trim text]
  | spread first names last module opens named closes =>
    obtain ⟨other, shown⟩ := isImport_of_closes closes
    refine ⟨fun short => by simp at short, fun all => ?_⟩
    have ends := all last (by simp)
    simp [other, shown] at ends

theorem IsStatement.isImport_of_length (written : IsStatement ls) (short : ls.length = 1) :
    ∀ l ∈ ls.getLast?, isImport l = true := by
  intro l last
  have all := written.length_eq_one_iff.1 short l (List.mem_of_getLast? last)
  exact all.resolve_right (by simp [written.isBlank_getLast? l last])

/-- A statement on one line, as it stands between blanks. -/
theorem IsStatement.trim_of_length (written : IsStatement ls) (short : ls.length = 1) :
    ∃ inside : Text, (Line.join ls).trim = 'i' :: (inside ++ [';']) := by
  cases written with
  | oneLine l names module text =>
    refine ⟨"mport ".toList ++ (names ++ (" from '".toList ++ (module ++ ['\'']))), ?_⟩
    rw [Line.join_cons, Line.join_nil, List.append_nil, Line.text,
      Text.trim_append_blank _ fun c => Ending.isBlank_of_mem, text]
    simp
  | spread first names last module opens named closes => simp at short

end Lines

/-! ## The place of a block behind statements -/

/-- Lines put together, without the line breaks in front of them and the blanks behind. -/
def tidy (ls : List Line) : Text :=
  (Line.join ls).dropBreaks.trimEnd

theorem visible_tidy (ls : List Line) : (tidy ls).visible = (Line.join ls).visible := by
  rw [tidy, Text.visible_trimEnd, Text.visible_dropBreaks]

/-- Lines that add nothing visible to others do not end with a visible line. -/
theorem eq_nil_of_tidy {ls more : List Line} (same : tidy (ls ++ more) = tidy ls)
    (shown : ∀ l ∈ more.getLast?, l.isBlank = false) : more = [] := by
  cases more using List.reverseRecOn with
  | nil => rfl
  | append_singleton more l =>
    have seen := congrArg Text.visible same
    rw [visible_tidy, visible_tidy, Line.join_append, Text.visible_append,
      List.append_right_eq_self, Line.join_append, Text.visible_append, List.append_eq_nil_iff,
      Line.join_cons, Line.join_nil, List.append_nil, Line.text, Text.visible_append,
      List.append_eq_nil_iff] at seen
    have blank : l.isBlank = true := Text.allBlank_of_visible seen.2.1
    rw [shown l (by simp)] at blank
    cases blank

/-- Where a block goes, by the lines that are taken for imports. -/
theorem insert_eq {body : Text} {rest : List Line}
    (cut : body.lines = importLines body.lines ++ rest) (block : Text) :
    insert body block =
      (if (importLines body.lines).isEmpty then []
        else tidy (importLines body.lines) ++ "\n\n".toList) ++
        (block ++ ("\n\n".toList ++ (Line.join rest).dropBreaks)) := by
  have behind : body.lines.drop (importLines body.lines).length = rest := by
    obtain ⟨imports, taken⟩ : ∃ imports, importLines body.lines = imports := ⟨_, rfl⟩
    rw [taken] at cut ⊢
    rw [cut, List.drop_left]
  rw [insert, behind]
  simp only [List.append_assoc, tidy]

section Place

variable {body : Text} {front : List Statement} {rest : List Line}

/-- Statements end with a line that is not blank. -/
theorem getLast?_parts (filled : front ≠ []) :
    ∃ s ∈ front, (front.flatMap Statement.part).getLast? = s.lines.getLast? := by
  obtain ⟨front, s, rfl⟩ := (List.eq_nil_or_concat front).resolve_left filled
  refine ⟨s, by simp, ?_⟩
  rw [List.concat_eq_append, List.flatMap_append, List.flatMap_singleton, Statement.part,
    ← List.append_assoc, List.getLast?_append_of_ne_nil _ s.written.ne_nil]

/-- **The statements of a body are what is taken for its imports** when each stands on one line and the
first line with text behind them does not begin like an import. -/
theorem importLines_eq_iff (filled : front ≠ [])
    (lines : body.lines = front.flatMap Statement.part ++ rest) :
    importLines body.lines = front.flatMap Statement.part ↔
      (∀ s ∈ front, s.lines.length = 1) ∧
        ∀ l ∈ (rest.dropWhile Line.isBlank).head?, isImport l = false := by
  obtain ⟨s, mem, last⟩ := getLast?_parts filled
  constructor
  · intro taken
    obtain ⟨blanks, behind, cut, all, -, blank, stops⟩ := exists_importLines body.lines
    rw [taken] at cut all
    refine ⟨fun t inside => t.written.length_eq_one_iff.2 fun l line => ?_, fun l first => ?_⟩
    · exact all l (List.mem_flatMap.2 ⟨t, inside, List.mem_append_right _ line⟩)
    · obtain rfl : rest = blanks ++ behind := List.append_cancel_left (lines.symm.trans cut)
      rw [List.dropWhile_append_of_pos blank] at first
      cases behind with
      | nil => cases first
      | cons k behind =>
        obtain ⟨other, shown⟩ := stops k rfl
        rw [List.dropWhile_cons_of_neg (by simp [shown])] at first
        cases first
        exact other
  · rintro ⟨short, stops⟩
    obtain ⟨blanks, behind, -, left, cut, blank, shown⟩ := Text.exists_cut_of_fails Line.isBlank rest
    rw [left] at stops
    rw [lines, cut]
    refine importLines_append (fun l line => ?_) ?_ blank fun l first => ?_
    · obtain ⟨t, inside, line⟩ := List.mem_flatMap.1 line
      rcases List.mem_append.1 line with line | line
      · exact .inr (t.blank l line)
      · exact t.written.length_eq_one_iff.1 (short t inside) l line
    · rw [last]
      exact s.written.isImport_of_length (short s mem)
    · exact ⟨stops l first, shown l first⟩

/-- A statement on one line stays in one piece where its lines are tidied. -/
theorem Statement.infix_tidy {s : Statement} (mem : s ∈ front) (short : s.lines.length = 1) :
    (Line.join s.lines).trim <:+: tidy (front.flatMap Statement.part) := by
  obtain ⟨inside, trimmed⟩ := s.written.trim_of_length short
  have part : (Line.join s.lines).trim <:+: Line.join (front.flatMap Statement.part) := by
    obtain ⟨a, b, rfl⟩ := List.append_of_mem mem
    refine (Text.trim_part _).trans ⟨Line.join (a.flatMap Statement.part) ++ Line.join s.above,
      Line.join (b.flatMap Statement.part), ?_⟩
    simp [Statement.part, List.append_assoc]
  rw [trimmed] at part ⊢
  refine Text.infix_trimEnd (c := ';') ?_ (by decide) (Text.infix_dropBreaks rfl part)
  rw [← List.cons_append, List.getLast?_concat]

/-- **A block stands right behind the statements that a body begins with, and each of them stays in one
piece**, exactly when every statement stands on one line and the first line with text behind them does
not begin like an import. -/
theorem insert_behind_iff (filled : front ≠ [])
    (lines : body.lines = front.flatMap Statement.part ++ rest) :
    (∀ block : Text,
      insert body block = tidy (front.flatMap Statement.part) ++ "\n\n".toList ++
        (block ++ ("\n\n".toList ++ (Line.join rest).dropBreaks)) ∧
      ∀ s ∈ front, (Line.join s.lines).trim <:+: insert body block) ↔
    (∀ s ∈ front, s.lines.length = 1) ∧
      ∀ l ∈ (rest.dropWhile Line.isBlank).head?, isImport l = false := by
  rw [← importLines_eq_iff filled lines]
  obtain ⟨s, mem, last⟩ := getLast?_parts filled
  constructor
  · intro stands
    obtain ⟨blanks, behind, cut, -, import_, -, -⟩ := exists_importLines body.lines
    have place := Text.eq_of_forall_insert fun block =>
      (insert_eq cut block).symm.trans (stands block).1
    split at place
    · cases (List.append_eq_nil_iff.1 place.symm).2
    · have same := List.append_cancel_right place
      rcases List.append_eq_append_iff.1 (cut.symm.trans lines) with
        ⟨more, longer, -⟩ | ⟨more, longer, -⟩
      · rw [longer] at same last
        have nothing := eq_nil_of_tidy same.symm fun l ends => ?_
        · rw [longer, nothing, List.append_nil]
        · refine s.written.isBlank_getLast? l ?_
          rw [← last, List.getLast?_append, Option.mem_def.1 ends]
          rfl
      · rw [longer] at same import_
        have nothing := eq_nil_of_tidy same fun l ends => ?_
        · rw [longer, nothing, List.append_nil]
        · have taken : isImport l = true := import_ l <| by
            rw [List.getLast?_append, Option.mem_def.1 ends]
            rfl
          by_contra blank
          rw [isImport_of_isBlank (by simpa using blank)] at taken
          cases taken
  · intro taken block
    have short := ((importLines_eq_iff filled lines).1 taken).1
    have some_ : (front.flatMap Statement.part).isEmpty = false := by
      obtain ⟨l, ends⟩ := Option.ne_none_iff_exists'.1 (mt List.getLast?_eq_none_iff.1 s.written.ne_nil)
      rw [ends] at last
      exact List.isEmpty_eq_false_iff.2 (List.ne_nil_of_mem (List.mem_of_getLast? last))
    have inserted : insert body block = tidy (front.flatMap Statement.part) ++ "\n\n".toList ++
        (block ++ ("\n\n".toList ++ (Line.join rest).dropBreaks)) := by
      have cut : body.lines = importLines body.lines ++ rest := by
        rw [taken]
        exact lines
      rw [insert_eq cut, taken, some_]
      rfl
    refine ⟨inserted, fun t inside => ?_⟩
    rw [inserted, List.append_assoc]
    exact (Statement.infix_tidy inside (short t inside)).trans (List.prefix_append _ _).isInfix

end Place

/-- A statement on one line, below a blank one. -/
def tabsImport : Statement where
  above := [⟨[], .lf⟩]
  lines := [⟨"import Tabs from '@theme/Tabs';".toList, .lf⟩]
  blank := by decide
  written := .oneLine _ "Tabs".toList "@theme/Tabs".toList (by decide +kernel)

theorem insert_behind_tabs :
    [tabsImport] ≠ [] ∧
    Text.lines "\nimport Tabs from '@theme/Tabs';\n\n# T\n".toList =
      [tabsImport].flatMap Statement.part ++ [⟨[], .lf⟩, ⟨"# T".toList, .lf⟩] ∧
    ((∀ block : Text,
      insert "\nimport Tabs from '@theme/Tabs';\n\n# T\n".toList block =
        tidy ([tabsImport].flatMap Statement.part) ++ "\n\n".toList ++
          (block ++ ("\n\n".toList ++
            (Line.join [⟨[], .lf⟩, ⟨"# T".toList, .lf⟩]).dropBreaks)) ∧
      ∀ s ∈ [tabsImport], (Line.join s.lines).trim <:+:
        insert "\nimport Tabs from '@theme/Tabs';\n\n# T\n".toList block) ↔
    (∀ s ∈ [tabsImport], s.lines.length = 1) ∧
      ∀ l ∈ (List.dropWhile Line.isBlank [⟨[], .lf⟩, ⟨"# T".toList, .lf⟩]).head?,
        isImport l = false) :=
  ⟨by simp, by decide +kernel, insert_behind_iff (by simp) (by decide +kernel)⟩

/-- A statement whose name stands on a line of its own. -/
def spreadImport : Statement where
  above := []
  lines := [⟨"import \x7b".toList, .lf⟩, ⟨"  A,".toList, .lf⟩, ⟨"\x7d from 'm';".toList, .lf⟩]
  blank := by decide
  written := .spread _ [⟨"  A,".toList, .lf⟩] _ "m".toList (by decide +kernel) (by decide)
    (by decide +kernel)

/-- A block is put between the braces of a statement that is spread over lines. -/
theorem not_insert_behind_spread :
    Text.lines "import \x7b\n  A,\n\x7d from 'm';\n\n# T\n".toList =
      [spreadImport].flatMap Statement.part ++ [⟨[], .lf⟩, ⟨"# T".toList, .lf⟩] ∧
    ¬ (Line.join spreadImport.lines).trim <:+:
      insert "import \x7b\n  A,\n\x7d from 'm';\n\n# T\n".toList "<S/>".toList := by
  rw [← Text.contains_iff]
  decide +kernel

end Schema
end MdxPress
