import MdxPress.Proofs.Site.HeaderValue
import MdxPress.Proofs.Site.Pass
import MdxPress.Proofs.Text.Part
import MdxPress.Proofs.Yaml.Tree
import MdxPress.Proofs.Yaml.Render

/-!
When a header of metadata that was written is read back.

* `Metadata.exists_yaml_renderHeader` finds the header, and tells what its YAML says;
* `Metadata.renderHeader_isReadBack_iff` is the condition, if all characters come back from between
  quotation marks.

Caveat: that the other entries come back is asked for, behind one entry (`Carried`).  A keyword that
needs no quotation marks to stand on its line may still be read as null, a boolean or a number.
-/

namespace MdxPress

open Yaml

deriving instance DecidableEq for PageHeader

/-! ## Pages made of a header and a body -/

namespace HeaderBlock

/-- A line that does not begin with a dash is no delimiter. -/
theorem isDelimiter_of_head {l : Line} (first : l.content.head? ≠ some '-') :
    isDelimiter l = false := by
  rw [Bool.eq_false_iff]
  intro delimits
  obtain ⟨tail, whole⟩ := Text.trimEnd_isPrefix l.content
  rw [beq_iff_eq.1 delimits] at whole
  rw [← whole] at first
  exact first rfl

/-- A line in front of others. -/
theorem isDelimiter_of_mem_line {content rest : Text} (inLine : ∀ c ∈ content, isBreak c = false)
    (first : content.head? ≠ some '-') (later : ∀ l ∈ rest.lines, isDelimiter l = false) :
    ∀ l ∈ Text.lines (content ++ '\n' :: rest), isDelimiter l = false := by
  have noFeed : '\n' ∉ content := fun mem => absurd (inLine _ mem) (by decide)
  have noReturn : content.getLast? ≠ some '\r' := fun last =>
    absurd (inLine _ (List.mem_of_getLast? last)) (by decide)
  rw [Text.lines_append_lf rest noFeed noReturn]
  exact List.forall_mem_cons.2 ⟨isDelimiter_of_head first, later⟩

/-- A delimiter that ends with a dash is three dashes. -/
theorem text_of_isDelimiter {l : Line} (closes : isDelimiter l = true) {before : Text}
    (last : (before ++ l.text).getLast? = some '-') : l.text = "---".toList := by
  obtain ⟨tail, content, blank⟩ := Text.dropEndWhile_append_mem isBlank l.content
  have trimmed : Text.dropEndWhile isBlank l.content = "---".toList := beq_iff_eq.1 closes
  have ends : l.text = "---".toList ++ (tail ++ l.ending.text) := by
    rw [Line.text, content, trimmed, List.append_assoc]
  have behind : ∀ c ∈ tail ++ l.ending.text, isBlank c = true :=
    List.forall_mem_append.2 ⟨blank, fun c mem => Ending.isBlank_of_mem mem⟩
  rw [ends] at last ⊢
  cases final : (tail ++ l.ending.text).getLast? with
  | none => rw [List.getLast?_eq_none_iff.1 final, List.append_nil]
  | some c =>
    rw [← List.append_assoc, List.getLast?_append, final] at last
    obtain rfl : c = '-' := Option.some.inj last
    exact absurd (behind '-' (List.mem_of_getLast? final)) (by decide)

/-- A page whose last line is a delimiter without an ending: its header reaches up to that line. -/
theorem of_find_closed {inner : Text} {b : HeaderBlock}
    (found : find ("---\n".toList ++ (inner ++ "---".toList)) = .ok (some b)) (empty : b.body = []) :
    Line.AllEnded inner.lines ∧ (∀ l ∈ inner.lines, isDelimiter l = false) ∧
      b.yaml = inner.dropBreaksEnd := by
  rw [find_opened] at found
  obtain ⟨ls, closer, behind, inside, closes, lines, rfl⟩ :=
    ofLines_eq_ok_iff.1 (ofLines_of_map_some found)
  have whole : Line.AreLines (ls ++ closer :: behind) := lines ▸ Text.areLines_lines _
  have rest : Line.AreLines behind :=
    whole.sublist ((List.sublist_cons_self _ _).trans (List.sublist_append_right _ _))
  obtain rfl : behind = [] := by
    rw [← Text.lines_join rest]
    exact congrArg Text.lines empty
  have text : inner ++ "---".toList = Line.join ls ++ closer.text := by
    rw [← Text.join_lines (inner ++ "---".toList), lines, Line.join_append, Line.join_cons,
      Line.join_nil, List.append_nil]
  -- The page ends with a dash, so the line that closes the header is nothing but dashes.
  have dashes : closer.text = "---".toList := by
    apply text_of_isDelimiter closes
    rw [← text, List.getLast?_append]
    rfl
  rw [dashes] at text
  obtain rfl := List.append_cancel_right text
  have part : Line.AreLines ls := whole.sublist (List.sublist_append_left _ _)
  rw [Text.lines_join part]
  exact ⟨whole.allEnded_or_eq_nil.resolve_right (by simp), inside, rfl⟩

end HeaderBlock

namespace PageHeader

/-- The header of a page that was read with both delimiters and without a diagnostic. -/
theorem of_read_delimited {page body : Text} {m : Mapping}
    (read : PageHeader.read page = ⟨.delimited, m, body, []⟩) :
    ∃ b, HeaderBlock.find page = .ok (some b) ∧ b.body = body ∧ Header.parse b.yaml = .ok m := by
  have form : (PageHeader.read page).form = .delimited := by rw [read]
  obtain ⟨b, found, -⟩ := exists_block_of_delimited form
  rw [PageHeader.read, found] at read
  simp only [ofYaml] at read
  cases parsed : Header.parse b.yaml with
  | error e => rw [parsed] at read; cases read
  | ok m' =>
    rw [parsed] at read
    cases read
    exact ⟨b, found, rfl, parsed⟩

end PageHeader

namespace Header

theorem ofText_of_parse {yaml : Text} {m : Mapping} (parsed : parse yaml = .ok m) (filled : m ≠ []) :
    Value.ofText yaml = .ok (.mapping m) := by
  unfold parse at parsed
  split at parsed
  · cases parsed; exact (filled rfl).elim
  · split at parsed
    · cases parsed; exact (filled rfl).elim
    · rename_i text
      cases parsed
      exact text
    · cases parsed
    · cases parsed

end Header

namespace Metadata

/-! ## Other entries -/

/-- The lines of entries that are no metadata. -/
def extraText (extra : Mapping) : Except Yaml.Error Text :=
  if extra.isEmpty then .ok [] else extra.render

/-- Entries that come back from a page whose header has one other entry in front of them. -/
def Carried (extra : Mapping) : Prop :=
  ∃ t, extraText extra = .ok t ∧
    PageHeader.read ("---\n".toList ++ (("title: T\n".toList ++ t) ++ "---".toList)) =
      ⟨.delimited, (.string "title".toList, .string "T".toList) :: extra, [], []⟩

theorem dropBreaksEnd_of_visible {t : Text} (visible : isVisible t = true) :
    isVisible t.dropBreaksEnd = true := by
  obtain ⟨c, r, rfl, -, inLine⟩ := Reader.exists_of_isVisible visible
  have feed : c ≠ '\n' := by rintro rfl; cases inLine
  have carriage : c ≠ '\r' := by rintro rfl; cases inLine
  rw [Text.dropBreaksEnd, Text.dropEndWhile]
  split
  · rw [if_neg (by simp [feed, carriage])]
    exact visible
  · exact visible

/-- What is known of the lines of such entries. -/
theorem Carried.lines {extra : Mapping} (carried : Carried extra) :
    ∃ t, extraText extra = .ok t ∧ Line.AllEnded t.lines ∧
      (∀ l ∈ t.lines, HeaderBlock.isDelimiter l = false) ∧
        (t = [] ∧ extra = [] ∨ isVisible t.dropBreaksEnd = true ∧
          Value.ofText ("title: T\n".toList ++ t.dropBreaksEnd) =
            .ok (.mapping ((.string "title".toList, .string "T".toList) :: extra))) := by
  obtain ⟨t, written, read⟩ := carried
  obtain ⟨b, found, empty, parsed⟩ := PageHeader.of_read_delimited read
  obtain ⟨ended, inside, yaml⟩ := HeaderBlock.of_find_closed found empty
  have cut : "title: T\n".toList ++ t = "title: T".toList ++ '\n' :: t := by simp
  rw [cut, Text.lines_append_lf t (by decide) (by decide)] at ended inside
  refine ⟨t, written, fun l mem => ended l (.tail _ mem), fun l mem => inside l (.tail _ mem), ?_⟩
  unfold extraText at written
  split at written
  · rename_i none
    cases written
    exact .inl ⟨rfl, List.isEmpty_iff.1 none⟩
  · have visible := dropBreaksEnd_of_visible (Mapping.isVisible_render written)
    have filled : t.dropBreaksEnd ≠ [] := fun empty => by rw [empty] at visible; cases visible
    have text := Header.ofText_of_parse parsed (by simp)
    rw [yaml, Text.dropBreaksEnd, Text.dropEndWhile_append_of_filled _ filled] at text
    exact .inr ⟨visible, text⟩

/-! ## Lines of a header -/

/-- Line feeds in front of the keywords and behind them are the same text. -/
theorem keywordLines_feed (ks : List Text) (r : Text) :
    '\n' :: (ks.flatMap keywordLine ++ r) = keywordLines ks ++ '\n' :: r := by
  induction ks with
  | nil => rfl
  | cons k ks ih =>
    have line : keywordLine k ++ (ks.flatMap keywordLine ++ r) =
        spaces 2 ++ '-' :: (' ' :: keywordText k ++ '\n' :: (ks.flatMap keywordLine ++ r)) := by
      rw [keywordLine_eq, List.append_assoc, List.append_assoc]
      rfl
    rw [List.flatMap_cons, List.append_assoc, line, ih, keywordLines_cons]

theorem renderHeader_eq (m : Metadata) (extra : Mapping) :
    m.renderHeader extra = (extraText extra).map fun t =>
      "---\n".toList ++ (headText m ++ '\n' :: t) ++ "---".toList := by
  have opener (x : Text) : "---\ntitle: ".toList ++ x = "---\n".toList ++ ("title: ".toList ++ x) := by
    simp
  have keywords (x : Text) : "\nkeywords:\n".toList ++ x = "\nkeywords:".toList ++ '\n' :: x := by simp
  have same (t : Text) : "---\ntitle: ".toList ++ quoted m.title.value ++ "\ndescription: ".toList ++
      quoted m.description.value ++ "\nkeywords:\n".toList ++ m.keywords.value.flatMap keywordLine ++ t ++
        "---".toList = "---\n".toList ++ (headText m ++ '\n' :: t) ++ "---".toList := by
    unfold headText
    simp only [List.append_assoc, List.cons_append, opener, keywords, keywordLines_feed]
  exact congrArg (Except.map · (extraText extra)) (funext same)

theorem isBreak_of_mem_quoted {t : Text} (kept : ∀ c ∈ t, isKept c = true) :
    ∀ c ∈ quoted t, isBreak c = false := by
  have mark : isBreak '"' = false := by decide
  have last : ∀ c ∈ ['"'], isBreak c = false := by decide
  have inside : ∀ c ∈ escaped t, isBreak c = false := fun c mem => (isBreak_of_mem_escaped kept c mem).1
  exact List.forall_mem_append.2 ⟨List.forall_mem_cons.2 ⟨mark, inside⟩, last⟩

theorem isBreak_of_mem_keywordText {k : Text} (kept : ∀ c ∈ k, isKept c = true) :
    ∀ c ∈ keywordText k, isBreak c = false := by
  unfold keywordText
  split
  · rename_i bare
    exact (isBare_iff.1 bare).inLine
  · exact isBreak_of_mem_quoted kept

/-- No line of the keywords is a delimiter, if what stands before and behind them is none. -/
theorem isDelimiter_keywordLines {ks : List Text} (kept : ∀ k ∈ ks, ∀ c ∈ k, isKept c = true)
    {content rest : Text} (inLine : ∀ c ∈ content, isBreak c = false)
    (first : content.head? ≠ some '-') (later : ∀ l ∈ rest.lines, HeaderBlock.isDelimiter l = false) :
    ∀ l ∈ Text.lines (content ++ (keywordLines ks ++ '\n' :: rest)),
      HeaderBlock.isDelimiter l = false := by
  induction ks generalizing content with
  | nil => exact HeaderBlock.isDelimiter_of_mem_line inLine first later
  | cons k ks ih =>
    have text : ∀ c ∈ "  - ".toList ++ keywordText k, isBreak c = false :=
      List.forall_mem_append.2 ⟨by decide, isBreak_of_mem_keywordText (kept k (.head _))⟩
    have behind := ih (fun k' mem => kept k' (.tail _ mem)) text (by simp)
    have line : keywordLines (k :: ks) ++ '\n' :: rest =
        '\n' :: ("  - ".toList ++ keywordText k ++ (keywordLines ks ++ '\n' :: rest)) := by
      rw [keywordLines_cons]
      simp [spaces]
    rw [line]
    exact HeaderBlock.isDelimiter_of_mem_line inLine first behind

/-- No line of a header is a delimiter, if what stands behind is none. -/
theorem isDelimiter_headText {m : Metadata} (kept : m.IsKept) {rest : Text}
    (later : ∀ l ∈ rest.lines, HeaderBlock.isDelimiter l = false) :
    ∀ l ∈ Text.lines (headText m ++ '\n' :: rest), HeaderBlock.isDelimiter l = false := by
  have feeds : headText m ++ '\n' :: rest = ("title: ".toList ++ quoted m.title.value) ++ '\n' ::
      (("description: ".toList ++ quoted m.description.value) ++ '\n' ::
        ("keywords:".toList ++ (keywordLines m.keywords.value ++ '\n' :: rest))) := by
    have description (x : Text) : "\ndescription: ".toList ++ x =
      '\n' :: ("description: ".toList ++ x) := by simp
    have keywords (x : Text) : "\nkeywords:".toList ++ x = '\n' :: ("keywords:".toList ++ x) := by simp
    unfold headText
    simp only [List.append_assoc, description, keywords, List.cons_append]
  have value {name t : Text} (inLine : ∀ c ∈ name, isBreak c = false) (kept : ∀ c ∈ t, isKept c = true) :
      ∀ c ∈ name ++ quoted t, isBreak c = false :=
    List.forall_mem_append.2 ⟨inLine, isBreak_of_mem_quoted kept⟩
  rw [feeds]
  refine HeaderBlock.isDelimiter_of_mem_line (value (by decide) kept.title) (by simp) ?_
  refine HeaderBlock.isDelimiter_of_mem_line (value (by decide) kept.description) (by simp) ?_
  exact isDelimiter_keywordLines kept.keywords (by decide) (by decide) later

/-! ## The end of a header -/

/-- The text of a header ends inside a line. -/
theorem getLast?_headText {m : Metadata} (kept : m.IsKept) (some_ : m.keywords.value ≠ []) :
    ∃ c, (headText m).getLast? = some c ∧ isBreak c = false := by
  have last := List.dropLast_concat_getLast some_
  generalize m.keywords.value.getLast some_ = k at last
  have mem : k ∈ m.keywords.value := by rw [← last]; simp
  have text : ∀ c ∈ '-' :: ' ' :: keywordText k, isBreak c = false :=
    List.forall_mem_cons.2 ⟨by decide, List.forall_mem_cons.2
      ⟨by decide, isBreak_of_mem_keywordText (kept.keywords k mem)⟩⟩
  have ends : (headText m).getLast? = ('-' :: ' ' :: keywordText k).getLast? := by
    obtain ⟨front, lines⟩ : ∃ front, keywordLines m.keywords.value =
        front ++ '-' :: ' ' :: keywordText k :=
      ⟨keywordLines m.keywords.value.dropLast ++ '\n' :: spaces 2, by rw [← last]; simp [keywordLines]⟩
    obtain ⟨names, whole⟩ : ∃ names, headText m = names ++ keywordLines m.keywords.value := ⟨_, rfl⟩
    rw [whole, lines, ← List.append_assoc, List.getLast?_append_of_ne_nil _ (List.cons_ne_nil _ _)]
  cases final : ('-' :: ' ' :: keywordText k).getLast? with
  | none => cases List.getLast?_eq_none_iff.1 final
  | some c => exact ⟨c, ends.trans final, text c (List.mem_of_getLast? final)⟩

/-- Behind the last line of a header only the line break goes. -/
theorem dropBreaksEnd_headText {m : Metadata} (kept : m.IsKept) (some_ : m.keywords.value ≠ []) :
    Text.dropBreaksEnd (headText m ++ ['\n']) = headText m := by
  obtain ⟨c, last, inLine⟩ := getLast?_headText kept some_
  have feed : c ≠ '\n' := by rintro rfl; cases inLine
  have carriage : c ≠ '\r' := by rintro rfl; cases inLine
  rw [Text.dropBreaksEnd, Text.dropEndWhile_append _ (by simp)]
  exact Text.dropEndWhile_eq_self last (by simp [feed, carriage])

/-- Line breaks go at the end of what stands behind a header. -/
theorem dropBreaksEnd_headText_append (m : Metadata) {t : Text} (visible : isVisible t.dropBreaksEnd = true) :
    Text.dropBreaksEnd (headText m ++ '\n' :: t) = headText m ++ '\n' :: t.dropBreaksEnd := by
  have filled : t.dropBreaksEnd ≠ [] := by
    intro nothing
    rw [nothing] at visible
    cases visible
  have line : headText m ++ '\n' :: t = (headText m ++ ['\n']) ++ t := by simp
  rw [line, Text.dropBreaksEnd, Text.dropEndWhile_append_of_filled _ filled]
  simp [Text.dropBreaksEnd]

/-- A header shows its first key, whatever stands behind it. -/
theorem allBlank_dropBreaksEnd_headText (m : Metadata) (t : Text) :
    (Text.dropBreaksEnd (headText m ++ t)).allBlank = false := by
  obtain ⟨r, first⟩ : ∃ r, headText m ++ t = 't' :: r := ⟨_, rfl⟩
  rw [first, Text.dropBreaksEnd, Text.dropEndWhile]
  split <;> rfl

/-- A header that was written is found, and its YAML says what was written: the metadata, keywords as
they are read, and the other entries. -/
theorem exists_yaml_renderHeader {m : Metadata} {extra : Mapping} (kept : m.IsKept)
    (some_ : m.keywords.value ≠ []) (lacks : extraEntries extra = extra) (carried : Carried extra) :
    ∃ head yaml, m.renderHeader extra = .ok head ∧
      Header.parse yaml = ((keywordValues m.keywords.value).map fun vs =>
        headMapping m vs ++ extra).mapError .unreadable ∧
      ∀ body, PageHeader.read (head ++ "\n\n".toList ++ body) =
        .ofYaml .delimited yaml ('\n' :: body) := by
  obtain ⟨t, written, ended, inside, entries⟩ := carried.lines
  have rendered := renderHeader_eq m extra
  rw [written] at rendered
  have visible := allBlank_dropBreaksEnd_headText m ('\n' :: t)
  have means : Value.ofText (headText m ++ '\n' :: t).dropBreaksEnd =
      (keywordValues m.keywords.value).map fun vs => .mapping (headMapping m vs ++ extra) := by
    rcases entries with ⟨rfl, rfl⟩ | ⟨visible, sample⟩
    · rw [dropBreaksEnd_headText kept some_]
      simp only [List.append_nil]
      exact ofText_headText kept some_
    · rw [dropBreaksEnd_headText_append m visible]
      exact ofText_headText_append kept some_ visible lacks sample
  refine ⟨_, (headText m ++ '\n' :: t).dropBreaksEnd, rendered, ?_, fun body => ?_⟩
  · rw [Header.parse, visible, means]
    cases keywordValues m.keywords.value <;> rfl
  · have feed : Line.AllEnded (Text.lines (headText m ++ '\n' :: t)) := by
      have line : Line.AllEnded (Text.lines (headText m ++ ['\n'])) := Text.allEnded_lines (by simp)
      have whole : headText m ++ '\n' :: t = (headText m ++ ['\n']) ++ t := by simp
      rw [whole, Text.lines_append line]
      exact List.forall_mem_append.2 ⟨line, ended⟩
    have found := HeaderBlock.find_between feed (isDelimiter_headText kept inside) ('\n' :: body)
    have page : "---\n".toList ++ (headText m ++ '\n' :: t) ++ "---".toList ++ "\n\n".toList ++ body =
        "---\n".toList ++ ((headText m ++ '\n' :: t) ++ ("---\n".toList ++ '\n' :: body)) := by simp
    rw [page, PageHeader.read, found]

/-! ## Keywords without quotation marks -/

/-- Whether a text without quotation marks means itself: it may also be read as null, a boolean or a
number, and a number need not be written as it was. -/
def meansItself (k : Text) : Bool :=
  match Value.ofPlain k with
  | .ok v => scalarText? v == some k
  | .error _ => false

theorem scalarText?_string {t : Text} (visible : t.allBlank = false) :
    scalarText? (.string t) = some t := by
  simp [scalarText?, visible]

/-- When a keyword comes back. -/
theorem exists_value_iff {k : Text} (visible : k.allBlank = false) :
    (∃ v, Value.ofUntagged (isBare k) k = .ok v ∧ scalarText? v = some k) ↔
      (isBare k = true → meansItself k = true) := by
  cases bare : isBare k with
  | false =>
    have string : Value.ofUntagged false k = .ok (.string k) := rfl
    exact iff_of_true ⟨_, string, scalarText?_string visible⟩ nofun
  | true =>
    have plain : Value.ofUntagged true k = Value.ofPlain k := rfl
    rw [plain, meansItself]
    cases Value.ofPlain k <;> simp

theorem length_keywordValues {ks : List Text} {vs : List Value} (read : keywordValues ks = .ok vs) :
    vs.length = ks.length := by
  induction ks generalizing vs with
  | nil => cases read; rfl
  | cons k ks ih =>
    rw [keywordValues_cons] at read
    cases first : Value.ofUntagged (isBare k) k with
    | error e => rw [first] at read; cases read
    | ok v =>
      cases later : keywordValues ks with
      | error e => rw [first, later] at read; cases read
      | ok vs' =>
        rw [first, later] at read
        cases read
        rw [List.length_cons, List.length_cons, ih later]

/-- When all keywords come back: a keyword that is lost cannot be made up for by the others. -/
theorem exists_values_iff {ks : List Text} (visible : ∀ k ∈ ks, k.allBlank = false) :
    (∃ vs, keywordValues ks = .ok vs ∧ vs.filterMap scalarText? = ks) ↔
      ∀ k ∈ ks, isBare k = true → meansItself k = true := by
  induction ks with
  | nil => exact ⟨fun _ k mem => absurd mem List.not_mem_nil, fun _ => ⟨[], rfl, rfl⟩⟩
  | cons k ks ih =>
    have later := ih fun k' mem => visible k' (.tail _ mem)
    rw [List.forall_mem_cons, ← exists_value_iff (visible k (.head _)), ← later]
    constructor
    · rintro ⟨vs, read, texts⟩
      rw [keywordValues_cons] at read
      cases first : Value.ofUntagged (isBare k) k with
      | error e => rw [first] at read; cases read
      | ok v =>
        cases rest : keywordValues ks with
        | error e => rw [first, rest] at read; cases read
        | ok vs' =>
          rw [first, rest] at read
          cases read
          cases text : scalarText? v with
          | none =>
            rw [List.filterMap_cons_none text] at texts
            have fewer := List.length_filterMap_le scalarText? vs'
            rw [texts, length_keywordValues rest, List.length_cons] at fewer
            omega
          | some t =>
            rw [List.filterMap_cons_some text] at texts
            obtain ⟨rfl, behind⟩ := List.cons.inj texts
            exact ⟨⟨v, rfl, text⟩, vs', rfl, behind⟩
    · rintro ⟨⟨v, first, text⟩, vs, rest, texts⟩
      refine ⟨v :: vs, ?_, ?_⟩
      · rw [keywordValues_cons, first, rest]
        rfl
      · rw [List.filterMap_cons_some text, texts]

/-! ## Reading back -/

/-- The same metadata, all of it found on a page. -/
def present (m : Metadata) : Metadata :=
  ⟨⟨true, m.title.value⟩, ⟨true, m.description.value⟩, ⟨true, m.keywords.value⟩⟩

/-- A page is read as a header of these metadata and entries, and this body. -/
structure IsReadBack (m : Metadata) (extra : Mapping) (page body : Text) : Prop where
  form : (PageHeader.read page).form = .delimited
  diagnostics : (PageHeader.read page).diagnostics = []
  body : (PageHeader.read page).body = body
  metadata : ∀ c family stem info,
    ofPage c family stem (PageHeader.read page).frontmatter info = m.present
  extra : extraEntries (PageHeader.read page).frontmatter = extra

/-- Metadata with something to show. -/
structure IsFilled (m : Metadata) : Prop where
  title : m.title.value.allBlank = false
  description : m.description.value.allBlank = false
  keywords : m.keywords.value ≠ [] ∧ ∀ k ∈ m.keywords.value, k.allBlank = false

/-- The values of the three keys of a header. -/
theorem get?_headMapping (m : Metadata) (vs : List Value) (extra : Mapping) :
    Mapping.get? (headMapping m vs ++ extra) "title".toList = some (.string m.title.value) ∧
      Mapping.get? (headMapping m vs ++ extra) "description".toList =
        some (.string m.description.value) ∧
      Mapping.get? (headMapping m vs ++ extra) "keywords".toList = some (.sequence vs) := by
  refine ⟨?_, ?_, ?_⟩ <;> simp [Mapping.get?, headMapping, Value.isKey, Value.text?]

/-- The metadata of a page are those its header says. -/
theorem ofPage_headMapping {m : Metadata} (filled : m.IsFilled) {vs : List Value}
    (texts : vs.filterMap scalarText? = m.keywords.value) (extra : Mapping) (c : SiteConfig)
    (family : Option Archetype) (stem : Text) (info : ContentInfo) :
    ofPage c family stem (headMapping m vs ++ extra) info = m.present := by
  obtain ⟨title, description, keywords⟩ := get?_headMapping m vs extra
  have found : keywords? (.sequence vs) = some m.keywords.value := by
    simp [keywords?, texts, filled.keywords.1]
  simp only [ofPage, title, description, keywords, Option.bind_some, found,
    scalarText?_string filled.title, scalarText?_string filled.description]
  rfl

/-- Keywords that a page has are those of its header. -/
theorem keywords_of_ofPage {m : Metadata} {frontmatter : Mapping} {c : SiteConfig}
    {family : Option Archetype} {stem : Text} {info : ContentInfo}
    (same : ofPage c family stem frontmatter info = m.present) :
    (frontmatter.get? "keywords".toList).bind keywords? = some m.keywords.value := by
  have keywords : Provided.orElse ((frontmatter.get? "keywords".toList).bind keywords?)
      (makeKeywords c family stem) = ⟨true, m.keywords.value⟩ := congrArg Metadata.keywords same
  cases found : (frontmatter.get? "keywords".toList).bind keywords? with
  | none => rw [found] at keywords; cases keywords
  | some ks => rw [found] at keywords; cases keywords; rfl

theorem extraEntries_headMapping {extra : Mapping} (lacks : extraEntries extra = extra)
    (m : Metadata) (vs : List Value) : extraEntries (headMapping m vs ++ extra) = extra := by
  have none : extraEntries (headMapping m vs) = [] := by
    simp [extraEntries, headMapping, Value.asText?, Value.untag, Value.text?]
  rw [extraEntries, List.filter_append]
  exact (congrArg₂ (· ++ ·) none lacks).trans (List.nil_append _)

/-- **When a header that was written is read back.** -/
theorem renderHeader_isReadBack_iff {m : Metadata} {extra : Mapping} (filled : m.IsFilled)
    (kept : m.IsKept) (lacks : extraEntries extra = extra) (carried : Carried extra) :
    ∃ head, m.renderHeader extra = .ok head ∧ ∀ body,
      (m.IsReadBack extra (head ++ "\n\n".toList ++ body) ('\n' :: body) ↔
        ∀ k ∈ m.keywords.value, isBare k = true → meansItself k = true) := by
  obtain ⟨head, yaml, rendered, means, reads⟩ :=
    exists_yaml_renderHeader kept filled.keywords.1 lacks carried
  refine ⟨head, rendered, fun body => ?_⟩
  rw [← exists_values_iff filled.keywords.2]
  constructor
  · intro back
    have keywords := keywords_of_ofPage (back.metadata SiteConfig.standard none [] ⟨none, none⟩)
    rw [reads, PageHeader.ofYaml, means] at keywords
    cases values : keywordValues m.keywords.value with
    | error e => rw [values] at keywords; cases keywords
    | ok vs =>
      rw [values] at keywords
      simp only [Except.map, Except.mapError, get?_headMapping, Option.bind_some, keywords?] at keywords
      split at keywords
      · cases keywords
      · exact ⟨vs, rfl, Option.some.inj keywords⟩
  · rintro ⟨vs, values, texts⟩
    rw [values] at means
    have read : PageHeader.read (head ++ "\n\n".toList ++ body) =
        ⟨.delimited, headMapping m vs ++ extra, '\n' :: body, []⟩ := by
      rw [reads, PageHeader.ofYaml, means]
      rfl
    exact ⟨by rw [read], by rw [read], by rw [read],
      fun c family stem info => by rw [read]; exact ofPage_headMapping filled texts extra c family stem info,
      by rw [read]; exact extraEntries_headMapping lacks m vs⟩

/-- A page with a title of two lines, and with keywords of both kinds. -/
def sampler : Metadata :=
  ⟨⟨true, "Say \"hi\":\nC:\\dir".toList⟩, ⟨false, "It's #1".toList⟩,
    ⟨true, ["c++".toList, "null safety".toList, "a: b".toList]⟩⟩

/-- The condition for a header with another entry, whose keywords mean themselves. -/
theorem renderHeader_isReadBack_iff_sampler :
    sampler.IsFilled ∧ sampler.IsKept ∧
      ∃ head, sampler.renderHeader [(.string "slug".toList, .int 7)] = .ok head ∧ ∀ body,
        (sampler.IsReadBack [(.string "slug".toList, .int 7)] (head ++ "\n\n".toList ++ body)
          ('\n' :: body) ↔ ∀ k ∈ sampler.keywords.value, isBare k = true → meansItself k = true) := by
  have filled : sampler.IsFilled := ⟨by decide, by decide, by decide⟩
  have kept : sampler.IsKept := ⟨by decide +kernel, by decide +kernel, by decide +kernel⟩
  have carried : Carried [(.string "slug".toList, .int 7)] :=
    ⟨"slug: 7\n".toList, by decide +kernel, by decide +kernel⟩
  exact ⟨filled, kept, renderHeader_isReadBack_iff filled kept (by decide +kernel) carried⟩

/-- The keyword `null` is written without quotation marks, and is no keyword when it is read. -/
theorem not_isReadBack_renderHeader_null :
    ¬ ∀ (m : Metadata) (extra : Mapping) (body : Text), m.IsFilled → extraEntries extra = extra →
      Carried extra → ∃ head, m.renderHeader extra = .ok head ∧
        m.IsReadBack extra (head ++ "\n\n".toList ++ body) ('\n' :: body) := by
  intro always
  let m : Metadata := ⟨⟨true, ['T']⟩, ⟨true, ['D']⟩, ⟨true, ["null".toList]⟩⟩
  obtain ⟨head, rendered, back⟩ := always m [] ['x'] ⟨by decide, by decide, by decide⟩ rfl
    ⟨[], rfl, by decide +kernel⟩
  have written : m.renderHeader [] =
      .ok "---\ntitle: \"T\"\ndescription: \"D\"\nkeywords:\n  - null\n---".toList := by
    decide +kernel
  obtain rfl := Except.ok.inj (written.symm.trans rendered)
  have keywords := keywords_of_ofPage (back.metadata SiteConfig.standard none [] ⟨none, none⟩)
  revert keywords
  decide +kernel

end Metadata
end MdxPress
