import Mathlib.Data.List.DropRight
import MdxPress.Proofs.Mdx.Hoisted

/-!
Imports that are gathered twice.  A statement is written without the blanks at its end, and those are what
makes an import of a line that ends with the word `from`: the second run takes such a statement for prose.
It moves the imports behind it in front of it, and adds the component whose module it alone names.  Nothing
else changes, and since statements are only ever added the second run leaves a body alone or makes it longer.

* `usesComponent_eq` reads the components of a body off its lines of prose, since a tag never reaches over
  the end of a line;
* `Import.IsGathered` is a body that is left alone (`hoistImports_eq_self`);
* `Import.fenced_ofLines` reads the lines that the first run writes, and `Import.eq_behind` says what of the
  rest of the body is the same behind them;
* `Import.StandsAgain` is what the statements of the first run have to meet, `Import.ShowsAll` what the line
  behind the line breaks that are dropped has to;
* `hoistImports_hoistImports_iff` is the result.
-/

namespace MdxPress

/-! ## Tags in a text -/

namespace Import

/-- Whether a text begins with the start of a tag of the component. -/
def opensHere (tag t : Text) : Bool :=
  match Text.dropStart? tag t with
  | some (d :: _) => d == '>' || d == '/' || isBlank d
  | _ => false

theorem opensTag_cons (tag : Text) (c : Char) (r : Text) :
    opensTag tag (c :: r) = (opensHere tag (c :: r) || opensTag tag r) :=
  rfl

section Tag

variable {tag : Text} {c : Char}

/-- Whether a tag begins here is told by the line. -/
theorem opensHere_append_feed (noFeed : '\n' ∉ tag) (x t u : Text) :
    opensHere tag (x ++ '\n' :: t) = opensHere tag (x ++ '\n' :: u) := by
  by_cases here : tag <+: x
  · obtain ⟨y, rfl⟩ := here
    rw [opensHere, opensHere, List.append_assoc, List.append_assoc, Text.dropStart?_append,
      Text.dropStart?_append]
    cases y <;> rfl
  · have absent (t : Text) : Text.dropStart? tag (x ++ '\n' :: t) = none := by
      rw [Option.eq_none_iff_forall_ne_some]
      intro rest starts
      have whole := Text.isPrefixOf?_eq_some_iff.1 starts
      exact here ((Text.prefix_append_cons_iff noFeed).1 ⟨rest, whole.symm⟩)
    rw [opensHere, opensHere, absent, absent]

/-- A tag begins with its first character. -/
theorem opensHere_of_head (other : tag.head? ≠ some c) (filled : tag ≠ []) (t : Text) :
    opensHere tag (c :: t) = false := by
  obtain ⟨d, rest, rfl⟩ := List.exists_cons_of_ne_nil filled
  have absent : Text.dropStart? (d :: rest) (c :: t) = none := by
    rw [Option.eq_none_iff_forall_ne_some]
    intro behind starts
    have whole := Text.isPrefixOf?_eq_some_iff.1 starts
    exact other (congrArg some (List.cons.inj whole).1.symm)
  rw [opensHere, absent]

/-- **A line feed divides the tags** of a text. -/
theorem opensTag_append_feed (noFeed : '\n' ∉ tag) (filled : tag ≠ []) (x t : Text) :
    opensTag tag (x ++ '\n' :: t) = (opensTag tag (x ++ ['\n']) || opensTag tag t) := by
  induction x with
  | nil =>
    have other : tag.head? ≠ some '\n' := fun head => noFeed (List.mem_of_head? head)
    rw [List.nil_append, List.nil_append, opensTag_cons, opensTag_cons, opensHere_of_head other filled,
      opensHere_of_head other filled]
    rfl
  | cons c x ih =>
    have here := opensHere_append_feed noFeed (c :: x) t []
    rw [List.cons_append, List.cons_append] at here
    rw [List.cons_append, List.cons_append, opensTag_cons, opensTag_cons, ih, here, Bool.or_assoc]

theorem opensTag_text_append (noFeed : '\n' ∉ tag) (filled : tag ≠ []) {l : Line} (ended : l.ending ≠ .none)
    (t : Text) : opensTag tag (l.text ++ t) = (opensTag tag l.text || opensTag tag t) := by
  obtain ⟨content, ending⟩ := l
  cases ending with
  | none => exact (ended rfl).elim
  | lf =>
    have cut := opensTag_append_feed noFeed filled content t
    simpa [Line.text, Ending.text] using cut
  | crlf =>
    have cut := opensTag_append_feed noFeed filled (content ++ ['\r']) t
    simpa [Line.text, Ending.text] using cut

end Tag

end Import

/-- **The components of a body** stand on its lines of prose. -/
theorem usesComponent_eq {name : Text} (noFeed : '\n' ∉ name) (body : Text) :
    usesComponent body name =
      body.fenced.any fun l => !l.isCode && Import.opensTag ('<' :: name) l.line.text := by
  have outside : '\n' ∉ '<' :: name := fun mem => (List.mem_cons.1 mem).elim (by decide) noFeed
  have whole : Line.AreLines (body.fenced.map (·.line)) := by
    rw [Text.fenced, map_line_fencedLines]
    exact Text.areLines_lines body
  rw [← Segment.any_prose (fun l ended => Import.opensTag_text_append outside (List.cons_ne_nil _ _) ended)
    whole, usesComponent, Text.prose, List.any_map, List.any_filter]
  rfl

theorem usesComponent_break {c : Char} {t name : Text} (noFeed : '\n' ∉ name) (break_ : c = '\n' ∨ c = '\r')
    (opens : c = '\r' → ∀ l ∈ t.lines.head?, FenceOpener.ofLine? l.content = none) :
    usesComponent (c :: t) name = usesComponent t name := by
  have other : List.head? ('<' :: name) ≠ some c := by
    rcases break_ with rfl | rfl <;> simp
  have skips (t : Text) : Import.opensTag ('<' :: name) (c :: t) = Import.opensTag ('<' :: name) t := by
    rw [Import.opensTag_cons, Import.opensHere_of_head other (List.cons_ne_nil _ _), Bool.false_or]
  rw [usesComponent_eq noFeed, usesComponent_eq noFeed]
  rcases Text.exists_fenced_break break_ opens with ⟨l, text, lines⟩ | ⟨-, l, k, below, -, text, lines, first⟩
  · rw [lines, List.any_cons, text, skips]
    simp [Import.opensTag]
  · rw [lines, first, List.any_cons, List.any_cons, text, skips]
    rfl

namespace Import

/-! ## Bodies that are left alone -/

/-- A body whose statements are those that would be written, and lead it already. -/
structure IsGathered (ls : List FencedLine) : Prop where
  block : block ls = statements ls
  leads : Leads ls

section Gathered

variable {ls : List FencedLine} {k : FencedLine}

theorem leads_cons_iff : Leads (k :: ls) ↔
    ((∃ l ∈ ls, isStatement l = true) → isStatement k = true ∨ k.isCode = false ∧ k.line.isBlank = true) ∧
      Leads ls := by
  constructor
  · intro leads
    refine ⟨fun ⟨l, mem, statement⟩ => ?_, fun above below l cut statement m mem => ?_⟩
    · obtain ⟨above, below, rfl⟩ := List.append_of_mem mem
      exact leads (k :: above) below l rfl statement k (.head _)
    · exact leads (k :: above) below l (by rw [cut]; rfl) statement m (.tail _ mem)
  · rintro ⟨first, rest⟩ above below l cut statement m mem
    cases above with
    | nil => cases mem
    | cons k' above =>
      obtain ⟨rfl, rfl⟩ := List.cons.inj cut
      rcases List.mem_cons.1 mem with rfl | mem
      · exact first ⟨l, by simp, statement⟩
      · exact rest above below l rfl statement m mem

theorem lead_of_leads (leads : Leads ls) : lead ls = true := by
  induction ls with
  | nil => rfl
  | cons k ls ih =>
    obtain ⟨first, rest⟩ := leads_cons_iff.1 leads
    rw [lead, List.dropWhile_cons]
    split
    case isTrue => exact ih rest
    case isFalse other =>
      simp only [Bool.or_eq_true, Bool.and_eq_true, Bool.not_eq_true', not_or] at other
      refine List.all_eq_true.2 (List.forall_mem_cons.2 ⟨by simpa using other.1, fun l mem => ?_⟩)
      rw [Bool.not_eq_true', Bool.eq_false_iff]
      exact fun statement => (first ⟨l, mem, statement⟩).elim other.1 other.2

theorem distinctFrom_eq_self {seen ts : List Text} (nodup : ts.Nodup) (new : ∀ t ∈ ts, t ∉ seen) :
    distinctFrom seen ts = ts := by
  induction ts generalizing seen with
  | nil => rfl
  | cons t ts ih =>
    obtain ⟨first, rest⟩ := List.nodup_cons.1 nodup
    obtain ⟨here, later⟩ := List.forall_mem_cons.1 new
    rw [distinctFrom, if_neg (by simpa using here), ih rest]
    intro u mem
    refine List.not_mem_cons_of_ne_of_not_mem ?_ (later u mem)
    rintro rfl
    exact first mem

theorem missing_eq_nil_iff {rest : Text} {statements : List Text} {cs : List ThemeComponent} :
    missing rest statements cs = [] ↔
      ∀ c ∈ cs, usesComponent rest c.name = true → ∃ s ∈ statements, names s c.module = true := by
  induction cs with
  | nil => exact ⟨fun _ => nofun, fun _ => rfl⟩
  | cons c cs ih =>
    rw [missing, List.forall_mem_cons, ← ih, ← List.any_eq_true]
    cases usesComponent rest c.name <;> cases statements.any fun s => names s c.module <;> simp

theorem isGathered_iff : IsGathered ls ↔
    (statements ls).Nodup ∧ missing (rest ls) (statements ls) themeComponents = [] ∧ Leads ls := by
  constructor
  · rintro ⟨same, leads⟩
    have nodup : (statements ls).Nodup := by
      rw [← same]
      exact (missing_spec (rest ls) names_theme (nodup_distinctFrom [] _)).1
    rw [block, distinctFrom_eq_self nodup (fun _ _ => List.not_mem_nil)] at same
    exact ⟨nodup, List.map_eq_nil_iff.1 (List.append_right_eq_self.1 same), leads⟩
  · rintro ⟨nodup, none_, leads⟩
    refine ⟨?_, leads⟩
    rw [block, distinctFrom_eq_self nodup (fun _ _ => List.not_mem_nil), none_]
    exact List.append_nil _

end Gathered

end Import

/-- **A body whose imports are gathered** stays as it is. -/
theorem hoistImports_eq_self {body : Text} (gathered : Import.IsGathered (Text.fenced body.dropBreaks)) :
    (hoistImports body).text = body := by
  obtain ⟨nodup, none_, leads⟩ := Import.isGathered_iff.1 gathered
  rw [hoistImports]
  dsimp only
  rw [Import.distinctFrom_eq_self nodup (fun _ _ => List.not_mem_nil), none_, Import.lead_of_leads leads]
  simp

namespace Import

/-! ## The lines of the first result -/

section Written

variable {ts : List Text}

/-- Statements that are written, as lines. -/
def writtenLines (ts : List Text) : List FencedLine :=
  ts.map fun t => ⟨⟨t, .lf⟩, none, none⟩

theorem fenced_ofLines (written : ∀ t ∈ ts, IsWritten t) (rest : Text) :
    Text.fenced (Text.ofLines ts ++ rest) = writtenLines ts ++ rest.fenced := by
  induction ts with
  | nil => rfl
  | cons t ts ih =>
    obtain ⟨line, lines⟩ := List.forall_mem_cons.1 written
    have cut : Text.ofLines (t :: ts) ++ rest = t ++ '\n' :: (Text.ofLines ts ++ rest) := by simp
    have outside : FenceState.next none t = none := by
      rw [FenceState.next, opener_eq_none line.starts]
      rfl
    rw [cut, Text.fenced, Text.lines_append_lf _ line.noFeed line.noReturn, fencedLines, outside]
    exact congrArg _ (ih lines)

theorem length_ofLines_filter (p : Text → Bool) (ts : List Text) :
    (Text.ofLines (ts.filter p)).length + (Text.ofLines (ts.filter fun t => !p t)).length =
      (Text.ofLines ts).length := by
  have lengths := ((List.filter_append_perm p ts).flatMap_right fun t => t ++ ['\n']).length_eq
  rwa [List.flatMap_append, List.length_append] at lengths

theorem statements_eq_nil_iff {ls : List FencedLine} :
    statements ls = [] ↔ ∀ l ∈ ls, isStatement l = false := by
  rw [statements, List.map_eq_nil_iff, List.filter_eq_nil_iff]
  exact forall₂_congr fun l _ => by rw [Bool.not_eq_true]

theorem statements_append (ls ms : List FencedLine) :
    statements (ls ++ ms) = statements ls ++ statements ms := by
  rw [statements, statements, statements, List.filter_append, List.map_append]

theorem statements_writtenLines (trimmed : ∀ t ∈ ts, t.trimEnd = t) :
    statements (writtenLines ts) = ts.filter isImport := by
  have same : ∀ t ∈ ts.filter isImport, t.trimEnd = t := fun t mem => trimmed t (List.mem_of_mem_filter mem)
  rw [statements, writtenLines, List.filter_map, List.map_map]
  exact (List.map_congr_left same).trans (List.map_id _)

/-- What is no statement any more is left behind the others. -/
theorem rest_writtenLines (ts : List Text) {ls : List FencedLine} (none_ : statements ls = []) :
    rest (writtenLines ts ++ ls) =
      Text.ofLines (ts.filter fun t => !isImport t) ++ Line.join (ls.map (·.line)) := by
  have all : ls.filter (fun l => !isStatement l) = ls :=
    List.filter_eq_self.2 fun l mem => by rw [statements_eq_nil_iff.1 none_ l mem, Bool.not_false]
  have lines (us : List Text) : Line.join (us.map fun t => ⟨t, .lf⟩) = Text.ofLines us := by
    rw [Line.join, List.flatMap_map]
    rfl
  rw [rest, List.filter_append, all, writtenLines, List.filter_map, List.map_append, List.map_map,
    Line.join_append]
  exact congrArg (· ++ _) (lines (ts.filter fun t => !isImport t))

/-- The statements that are written lead exactly when those that are imports no more stand last. -/
theorem leads_writtenLines (written : ∀ t ∈ ts, IsWritten t) {ls : List FencedLine}
    (none_ : statements ls = []) : Leads (writtenLines ts ++ ls) ↔ ts.Pairwise fun s t => isImport t = true → isImport s = true := by
  induction ts with
  | nil => exact ⟨fun _ => .nil, fun _ => leads_of_statements_eq_nil none_⟩
  | cons t ts ih =>
    obtain ⟨line, lines⟩ := List.forall_mem_cons.1 written
    have shown : Line.isBlank ⟨t, .lf⟩ = false := by
      obtain ⟨behind, rfl⟩ := exists_of_starts line.starts
      rfl
    have behind : (∃ l ∈ writtenLines ts ++ ls, isStatement l = true) ↔ ∃ s ∈ ts, isImport s = true := by
      have noStatement : ¬ ∃ l ∈ ls, isStatement l = true := by
        rintro ⟨l, mem, statement⟩
        rw [statements_eq_nil_iff.1 none_ l mem] at statement
        cases statement
      simp only [List.mem_append, or_and_right, exists_or, noStatement, or_false, writtenLines, List.mem_map,
        exists_exists_and_eq_and]
      rfl
    have cons : writtenLines (t :: ts) = ⟨⟨t, .lf⟩, none, none⟩ :: writtenLines ts := rfl
    rw [cons, List.cons_append, leads_cons_iff, ih lines, List.pairwise_cons, behind, shown]
    refine and_congr_left' ?_
    simp [isStatement, FencedLine.isCode]

end Written

/-! ## What the first run leaves behind the statements -/

/-- The lines that are no statements, read by themselves. -/
theorem fenced_rest (t : Text) : (rest t.fenced).fenced = t.fenced.filter fun l => !isStatement l := by
  have lines : ∀ (s : FenceState) (ls : List Line),
      fencedLines s (((fencedLines s ls).filter fun l => !isStatement l).map (·.line)) =
        (fencedLines s ls).filter fun l => !isStatement l := by
    intro s ls
    induction ls generalizing s with
    | nil => rfl
    | cons l ls ih =>
      rw [fencedLines]
      cases statement : isStatement ⟨l, s, s.next l.content⟩ with
      | true =>
        -- a statement is prose, so that nothing is open around it
        have prose := (Bool.and_eq_true_iff.1 statement).1
        rw [Bool.not_eq_true', FencedLine.isCode_eq_false_iff] at prose
        obtain ⟨outside, after⟩ := prose
        obtain rfl : s = none := outside
        rw [List.filter_cons_of_neg (by rw [statement]; decide)]
        rw [show FenceState.next none l.content = none from after]
        exact ih none
      | false =>
        rw [List.filter_cons_of_pos (by rw [statement]; decide), List.map_cons, fencedLines, ih]
  rw [Text.fenced, lines_rest]
  exact lines none t.lines

/-- A line that opens no block and is no import. -/
def IsPlain (l : Line) : Prop :=
  FenceOpener.ofLine? l.content = none ∧ isImport l.content = false

instance : DecidablePred IsPlain :=
  fun _ => inferInstanceAs (Decidable (_ ∧ _))

/-- No bare carriage return in front of a text hides a block or an import. -/
def ShowsAll (t : Text) : Prop :=
  t.leadingBreaks.getLast? = some '\r' → ∀ l ∈ t.dropBreaks.lines.head?, IsPlain l

instance : DecidablePred ShowsAll :=
  fun t => inferInstanceAs (Decidable (_ → ∀ l ∈ t.dropBreaks.lines.head?, IsPlain l))

section Breaks

variable {c : Char} {t name : Text}

theorem isImport_of_break (break_ : c = '\n' ∨ c = '\r') {l : Line} (first : l.text.head? = some c) :
    isImport l.content = false := by
  cases content : l.content with
  | nil => rfl
  | cons d r =>
    rw [Line.text, content] at first
    obtain rfl : d = c := Option.some.inj first
    have other : ('i' == d) = false := by rcases break_ with rfl | rfl <;> rfl
    simp [isImport, Text.startsWith, List.isPrefixOf, other]

/-- A line with a line break in front of it opens no block and is no import. -/
theorem plain_of_break (c : Char) (t : Text) (break_ : c = '\n' ∨ c = '\r') :
    ∀ l ∈ (Text.lines (c :: t)).head?, IsPlain l := by
  intro l first
  refine ⟨FenceOpener.eq_none_of_break break_ t l first, isImport_of_break break_ ?_⟩
  rcases break_ with rfl | rfl
  · rw [Text.lines] at first
    cases first
    rfl
  · rcases Text.lines_return t with ⟨ls, -, lines⟩ | ⟨-, lines⟩ | ⟨k, ls, -, lines⟩
    all_goals
      rw [lines] at first
      cases first
      rfl

theorem statements_cons_of_not_import {l : Line} (other : isImport l.content = false) (s t : FenceState)
    (ls : List FencedLine) : statements (⟨l, s, t⟩ :: ls) = statements ls := by
  rw [statements, statements, List.filter_cons_of_neg]
  rw [isStatement, other, Bool.and_false]
  decide

theorem statements_break (break_ : c = '\n' ∨ c = '\r')
    (plain : c = '\r' → ∀ l ∈ t.lines.head?, IsPlain l) :
    statements (Text.fenced (c :: t)) = statements t.fenced := by
  rcases Text.exists_fenced_break break_ fun return_ l mem => (plain return_ l mem).1 with
    ⟨l, text, lines⟩ | ⟨return_, l, k, below, head, text, lines, first⟩
  · have other := isImport_of_break break_ (l := l) (by rw [text]; rfl)
    rw [lines, statements_cons_of_not_import other]
  · have other := isImport_of_break break_ (l := l) (by rw [text]; rfl)
    rw [lines, first, statements_cons_of_not_import other,
      statements_cons_of_not_import (plain return_ k head).2]

/-- The rest of a body, as it stands behind the statements: a blank line for the breaks in front of it. -/
def behind (rest : Text) : Text :=
  if rest.dropBreaks = [] then [] else '\n' :: rest.dropBreaks

/-- **What line breaks do not matter to** is the same behind the statements as before. -/
theorem eq_behind {α : Type} {q : Text → α} {rest : Text} (shown : ShowsAll rest)
    (skips : ∀ c u, (c = '\n' ∨ c = '\r') →
      (c = '\r' → ∀ l ∈ (Text.lines u).head?, IsPlain l) → q (c :: u) = q u) : q (behind rest) = q rest := by
  have before : q (rest.leadingBreaks ++ rest.dropBreaks) = q rest.dropBreaks :=
    Text.breaks_induction_of (motive := fun u => q u = q rest.dropBreaks) plain_of_break
      (fun c => Text.eq_break_of_mem_leadingBreaks) shown rfl
      fun c u break_ plain later => (skips c u break_ plain).trans later
  rw [Text.leadingBreaks_append_dropBreaks] at before
  rw [before, behind]
  split
  case isTrue empty => rw [empty]
  case isFalse => exact skips '\n' _ (.inl rfl) nofun

theorem behind_behind (rest : Text) : behind (behind rest) = behind rest := by
  have drops : Text.dropBreaks (behind rest) = rest.dropBreaks := by
    rw [behind]
    split
    case isTrue empty => rw [empty]; rfl
    case isFalse => exact List.dropWhile_idempotent _ rest
  rw [behind, drops, behind]

theorem behind_eq_cons (same : t.dropBreaks = t) (filled : t ≠ []) : behind t = '\n' :: t := by
  rw [behind, same, if_neg filled]

end Breaks

/-! ## The second run -/

/-- Statements that stay where they are in front of the rest of a body: those that are imports no more
stand last, and what their lines and the rest use is imported by the others. -/
structure StandsAgain (block : List Text) (rest : Text) : Prop where
  last : block.Pairwise fun s t => isImport t = true → isImport s = true
  imported : ∀ c ∈ themeComponents,
    (usesComponent rest c.name = true ∨
        ∃ s ∈ block, isImport s = false ∧ opensTag ('<' :: c.name) (s ++ ['\n']) = true) →
      ∃ s ∈ block, isImport s = true ∧ names s c.module = true

instance (block : List Text) (rest : Text) : Decidable (StandsAgain block rest) :=
  decidable_of_iff ((block.Pairwise fun s t => isImport t = true → isImport s = true) ∧
      ∀ c ∈ themeComponents,
        (usesComponent rest c.name = true ∨
            ∃ s ∈ block, isImport s = false ∧ opensTag ('<' :: c.name) (s ++ ['\n']) = true) →
          ∃ s ∈ block, isImport s = true ∧ names s c.module = true)
    ⟨fun ⟨last, imported⟩ => ⟨last, imported⟩, fun again => ⟨again.last, again.imported⟩⟩

/-- **Statements that are imports** without the blanks at their ends stay where they are. -/
theorem standsAgain_of_imports {t : Text} (imports : ∀ s ∈ statements t.fenced, isImport s = true) :
    StandsAgain (block t.fenced) (rest t.fenced) := by
  have all : ∀ s ∈ block t.fenced, isImport s = true := by
    intro s mem
    rcases mem_block mem with found | ⟨c, theme, rfl⟩
    · exact imports s found
    · have ofTheme : ∀ c ∈ themeComponents, isImport c.statement = true := by
        refine forall_theme ?_ ?_
        all_goals
          dsimp only
          rw [String.toList_ofList]
          decide +kernel
      exact ofTheme c theme
  refine ⟨List.pairwise_of_forall_mem_list fun s mem _ _ _ => all s mem, fun c theme used => ?_⟩
  rcases used with used | ⟨s, mem, other, -⟩
  · obtain ⟨s, mem, names_⟩ :=
      (missing_spec (rest t.fenced) names_theme (nodup_distinctFrom [] (statements t.fenced))).2 c theme used
    exact ⟨s, mem, all s mem, names_⟩
  · rw [all s mem] at other
    cases other

theorem usesComponent_ofLines {ts : List Text} (written : ∀ t ∈ ts, IsWritten t) {name : Text}
    (noFeed : '\n' ∉ name) (t : Text) : usesComponent (Text.ofLines ts ++ t) name =
      ((ts.any fun s => opensTag ('<' :: name) (s ++ ['\n'])) || usesComponent t name) := by
  rw [usesComponent_eq noFeed, usesComponent_eq noFeed, fenced_ofLines written, List.any_append, writtenLines,
    List.any_map]
  rfl

section Again

variable {block : List Text} {rest : Text} (written : ∀ s ∈ block, IsWritten s)
  (trimmed : ∀ s ∈ block, s.trimEnd = s) (distinct : block.Nodup) (shown : ShowsAll rest)
  (none_ : statements rest.fenced = [])
include shown none_

theorem statements_behind : statements (behind rest).fenced = [] :=
  (eq_behind (q := fun t => statements t.fenced) shown fun _ _ => statements_break).trans none_

include trimmed

theorem statements_again : statements (writtenLines block ++ (behind rest).fenced) = block.filter isImport ∧
    Import.rest (writtenLines block ++ (behind rest).fenced) =
      Text.ofLines (block.filter fun s => !isImport s) ++ behind rest := by
  have nothing := statements_behind shown none_
  refine ⟨?_, ?_⟩
  · rw [statements_append, statements_writtenLines trimmed, nothing, List.append_nil]
  · rw [rest_writtenLines block nothing, Text.join_line_fenced]

include written distinct

/-- **The result of the first run is left alone** exactly when its statements stand again. -/
theorem isGathered_again_iff :
    IsGathered (writtenLines block ++ (behind rest).fenced) ↔ StandsAgain block rest := by
  obtain ⟨found, left⟩ := statements_again trimmed shown none_
  have nothing := statements_behind shown none_
  have lines : ∀ c ∈ themeComponents, '\n' ∉ c.name := by decide
  have used : ∀ c ∈ themeComponents,
      (usesComponent (Text.ofLines (block.filter fun s => !isImport s) ++ behind rest) c.name = true ↔
        usesComponent rest c.name = true ∨
          ∃ s ∈ block, isImport s = false ∧ opensTag ('<' :: c.name) (s ++ ['\n']) = true) := by
    intro c theme
    have same : usesComponent (behind rest) c.name = usesComponent rest c.name :=
      eq_behind (q := fun t => usesComponent t c.name) shown fun d u break_ plain =>
        usesComponent_break (lines c theme) break_ fun return_ l mem => (plain return_ l mem).1
    rw [usesComponent_ofLines (fun s mem => written s (List.mem_of_mem_filter mem)) (lines c theme), same,
      Bool.or_eq_true, or_comm, List.any_filter]
    simp
  rw [isGathered_iff, found, left, leads_writtenLines written nothing, missing_eq_nil_iff]
  constructor
  · rintro ⟨-, imported, last⟩
    refine ⟨last, fun c theme uses => ?_⟩
    obtain ⟨s, mem, names_⟩ := imported c theme ((used c theme).2 uses)
    obtain ⟨mem, import_⟩ := List.mem_filter.1 mem
    exact ⟨s, mem, import_, names_⟩
  · rintro ⟨last, imported⟩
    refine ⟨distinct.filter _, fun c theme uses => ?_, last⟩
    obtain ⟨s, mem, import_, names_⟩ := imported c theme ((used c theme).1 uses)
    exact ⟨s, List.mem_filter.2 ⟨mem, import_⟩, names_⟩

/-- **A run that moves anything makes the text longer**: if the second run gives back what it was given,
that is because it left it alone. -/
theorem isGathered_of_same {w : Text} (filled : block ≠ []) (breaks : ∀ c ∈ w, c = '\n' ∨ c = '\r')
    (same : (hoistImports (w ++ (Text.ofLines block ++ behind rest))).text =
      w ++ (Text.ofLines block ++ behind rest)) :
    IsGathered (writtenLines block ++ (behind rest).fenced) := by
  obtain ⟨found, left⟩ := statements_again trimmed shown none_
  obtain ⟨drops, leads⟩ := dropBreaks_written breaks filled written (behind rest)
  have cases_ := hoistImports_cases (w ++ (Text.ofLines block ++ behind rest))
  rw [drops, leads, fenced_ofLines written] at cases_
  rcases cases_ with ⟨-, block_, leads_⟩ | ⟨-, text⟩
  · exact ⟨block_, leads_⟩
  rw [same, List.append_assoc, List.append_cancel_left_eq, left, Import.block, left, found,
    distinctFrom_eq_self (distinct.filter _) fun _ _ => List.not_mem_nil] at text
  change _ = _ ++ behind _ at text
  have total := congrArg List.length text
  have parts := length_ofLines_filter isImport block
  simp only [Text.ofLines_append, List.length_append] at total
  by_cases all : (block.filter fun s => !isImport s) = []
  · rw [isGathered_iff, found, left, leads_writtenLines written (statements_behind shown none_)]
    rw [all, Text.ofLines_nil, List.nil_append] at total ⊢
    rw [behind_behind] at total
    rw [all, Text.ofLines_nil] at parts
    refine ⟨distinct.filter _, ?_, List.pairwise_of_forall_mem_list fun s mem _ _ _ => ?_⟩
    · cases added : missing (behind rest) (block.filter isImport) themeComponents with
      | nil => rfl
      | cons c cs =>
        rw [added, List.map_cons, Text.ofLines_cons, List.length_append, List.length_cons] at total
        simp only [List.length_nil] at parts
        omega
    · simpa using List.filter_eq_nil_iff.1 all s mem
  · have front := (dropBreaks_written (w := []) (fun _ mem => absurd mem List.not_mem_nil) all
      (fun s mem => written s (List.mem_of_mem_filter mem)) (behind rest)).1
    rw [List.nil_append] at front
    have filled : Text.ofLines (block.filter fun s => !isImport s) ++ behind rest ≠ [] := by
      obtain ⟨s, ss, some_⟩ := List.exists_cons_of_ne_nil all
      rw [some_]
      simp
    rw [behind_eq_cons front filled, List.length_cons, List.length_append] at total
    omega

end Again

end Import

/-- **Gathering imports twice.**  If no bare carriage return hides a block or an import behind the line
breaks that are dropped, the second run changes nothing exactly when the first one changed nothing, or the
statements that it wrote stand again: those that are imports no more, without the blanks at their ends,
stand last, and every component of the theme that they or the rest use is imported by the others. -/
theorem hoistImports_hoistImports_iff {body : Text}
    (shown : Import.ShowsAll (Import.rest (Text.fenced body.dropBreaks))) :
    (hoistImports (hoistImports body).text).text = (hoistImports body).text ↔
      (hoistImports body).text = body ∨
        Import.StandsAgain (Import.block (Text.fenced body.dropBreaks))
          (Import.rest (Text.fenced body.dropBreaks)) := by
  have breaks := fun c => Text.eq_break_of_mem_leadingBreaks (c := c) (t := body)
  have written := fun s => Import.isWritten_of_mem_block (t := body.dropBreaks) (s := s)
  have trimmed : ∀ s ∈ Import.block (Text.fenced body.dropBreaks), s.trimEnd = s :=
    fun s => Import.trimEnd_of_mem_block
  have distinct := (Import.missing_spec (Import.rest (Text.fenced body.dropBreaks)) Import.names_theme
    (Import.nodup_distinctFrom [] (Import.statements (Text.fenced body.dropBreaks)))).1
  have none_ : Import.statements (Text.fenced (Import.rest (Text.fenced body.dropBreaks))) = [] := by
    rw [Import.fenced_rest, Import.statements_eq_nil_iff]
    intro l mem
    simpa using (List.mem_filter.1 mem).2
  rcases hoistImports_cases body with ⟨same, -⟩ | ⟨filled, text⟩
  · rw [same]
    exact ⟨fun _ => .inl rfl, fun _ => same⟩
  rw [List.append_assoc] at text
  change _ = _ ++ (_ ++ Import.behind _) at text
  have again := Import.isGathered_again_iff written trimmed distinct shown none_
  constructor
  · intro twice
    rw [text] at twice
    exact .inr (again.1 (Import.isGathered_of_same written trimmed distinct shown none_ filled breaks twice))
  · rintro (same | stands)
    · rw [same, same]
    · apply hoistImports_eq_self
      rw [text, (Import.dropBreaks_written breaks filled written _).1, Import.fenced_ofLines written]
      exact again.2 stands

/-- A body whose imports stand apart, one of them with a blank behind it, and that lacks one of the theme. -/
theorem hoistImports_hoistImports_tabs :
    Import.ShowsAll (Import.rest (Text.fenced (Text.dropBreaks
        "\nimport a from 'a' \n\n<Tabs>\n~~~\nimport b from 'b'\n~~~\nimport c from 'c'".toList))) ∧
      (hoistImports (hoistImports
          "\nimport a from 'a' \n\n<Tabs>\n~~~\nimport b from 'b'\n~~~\nimport c from 'c'".toList).text).text =
        (hoistImports
          "\nimport a from 'a' \n\n<Tabs>\n~~~\nimport b from 'b'\n~~~\nimport c from 'c'".toList).text := by
  -- A list of characters is evaluated faster than the string that it is read from.
  rw [String.toList_ofList]
  exact ⟨by decide +kernel, (hoistImports_hoistImports_iff (by decide +kernel)).2
    (.inr (Import.standsAgain_of_imports (by decide +kernel)))⟩

/-- An import that ends with `from` and a blank is written without the blank: the second run takes it for
prose, and moves the next one in front of it. -/
theorem not_hoistImports_hoistImports_trimmed :
    (hoistImports (hoistImports "text\nimport a from \nimport b from 'b'\n".toList).text).text ≠
      (hoistImports "text\nimport a from \nimport b from 'b'\n".toList).text := by
  rw [String.toList_ofList]
  decide +kernel

/-- A line break that is dropped uncovers an import, which the second run finds twice. -/
example :
    ¬ Import.ShowsAll (Import.rest (Text.fenced
        "import a from 'a'\n\rimport a from 'a'\nimport c from 'c'".toList)) ∧
      (hoistImports (hoistImports
          "import a from 'a'\n\rimport a from 'a'\nimport c from 'c'".toList).text).text ≠
        (hoistImports "import a from 'a'\n\rimport a from 'a'\nimport c from 'c'".toList).text := by
  rw [String.toList_ofList]
  decide +kernel

end MdxPress
