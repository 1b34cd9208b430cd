import MdxPress.Text.Line
import MdxPress.Total

/-!
# Lines put together and cut again

`Line.AreLines` says of a list of lines that it is what some text is cut into.  `lines_join` and
`areLines_lines` make the two views of a text equal: whatever a pass does line by line may be read
off the lines of its result, as long as the lines it leaves behind are lines.
-/

namespace MdxPress

/-- The ending of a line is blank. -/
theorem Ending.isBlank_of_mem {e : Ending} {c : Char} (mem : c ∈ e.text) : isBlank c = true := by
  have all : ∀ c ∈ e.text, isBlank c = true := by cases e <;> decide
  exact all c mem

namespace Line

/-- A line whose content stops where its ending begins. -/
structure IsWhole (l : Line) : Prop where
  noFeed : '\n' ∉ l.content
  noReturn : l.ending = .lf → l.content.getLast? ≠ some '\r'

/-- Lines that a text can be cut into: only the last of them may lack an ending, and it holds
something then. -/
def AreLines : List Line → Prop
  | [] => True
  | l :: ls => l.IsWhole ∧ (l.ending = .none → l.content ≠ [] ∧ ls = []) ∧ AreLines ls

/-- Every one of some lines has an ending, so that a line may follow them. -/
def AllEnded (ls : List Line) : Prop :=
  ∀ l ∈ ls, l.ending ≠ .none

@[simp]
theorem join_nil : join [] = [] := rfl

@[simp]
theorem join_cons (l : Line) (ls : List Line) : join (l :: ls) = l.text ++ join ls := rfl

@[simp]
theorem join_append (ls ms : List Line) : join (ls ++ ms) = join ls ++ join ms := by
  simp [join]

theorem isBlank_of_mem_text {l : Line} (blank : l.isBlank = true) {c : Char} (mem : c ∈ l.text) :
    MdxPress.isBlank c = true :=
  (List.mem_append.1 mem).elim (List.all_eq_true.1 blank c) Ending.isBlank_of_mem

theorem AreLines.isWhole {ls : List Line} {l : Line} (whole : AreLines ls) (mem : l ∈ ls) :
    l.IsWhole := by
  induction ls with
  | nil => cases mem
  | cons k ls ih =>
    rcases List.mem_cons.1 mem with rfl | mem
    · exact whole.1
    · exact ih whole.2.2 mem

theorem AreLines.append {ls ms : List Line} (left : AreLines ls) (ended : AllEnded ls)
    (right : AreLines ms) : AreLines (ls ++ ms) := by
  induction ls with
  | nil => exact right
  | cons l ls ih =>
    refine ⟨left.1, fun none => ?_, ih left.2.2 fun m mem => ended m (.tail _ mem)⟩
    exact (ended l (.head _) none).elim

/-- Taking lines away leaves lines. -/
theorem AreLines.sublist {ls ms : List Line} (whole : AreLines ls) (sub : ms.Sublist ls) :
    AreLines ms := by
  induction sub with
  | slnil => exact whole
  | cons l sub ih => exact ih whole.2.2
  | @cons_cons ms ls l sub ih =>
    refine ⟨whole.1, fun none => ?_, ih whole.2.2⟩
    obtain ⟨filled, rfl⟩ := whole.2.1 none
    exact ⟨filled, List.sublist_nil.1 sub⟩

/-- Only the last of some lines can lack an ending. -/
theorem AreLines.allEnded_or_eq_nil {ls ms : List Line} (whole : AreLines (ls ++ ms)) :
    AllEnded ls ∨ ms = [] := by
  induction ls with
  | nil => exact .inl nofun
  | cons l ls ih =>
    by_cases none : l.ending = .none
    · exact .inr (List.append_eq_nil_iff.1 (whole.2.1 none).2).2
    · exact (ih whole.2.2).imp_left fun ended => List.forall_mem_cons.2 ⟨none, ended⟩

/-- Lines that all have an ending end with a line feed. -/
theorem AllEnded.getLast?_join {ls : List Line} (ended : AllEnded ls) (filled : ls ≠ []) :
    (join ls).getLast? = some '\n' := by
  obtain ⟨ms, l, rfl⟩ := (List.eq_nil_or_concat ls).resolve_left filled
  have last : l.text.getLast? = some '\n' := by
    cases ending : l.ending with
    | none => exact (ended l (by simp) ending).elim
    | lf => simp [text, ending, Ending.text]
    | crlf => simp [text, ending, Ending.text]
  simp [List.getLast?_append, last]

/-- Rewriting the contents of lines leaves lines, as long as no line is cut or emptied. -/
theorem AreLines.map {α : Type} {xs : List α} {f g : α → Line} (whole : AreLines (xs.map f))
    (kept : ∀ x ∈ xs, (f x).IsWhole → (g x).IsWhole ∧ (g x).ending = (f x).ending ∧
      ((f x).content ≠ [] → (g x).content ≠ [])) : AreLines (xs.map g) := by
  induction xs with
  | nil => trivial
  | cons x xs ih =>
    obtain ⟨first, ending, filled⟩ := kept x (.head _) whole.1
    refine ⟨first, fun none => ?_, ih whole.2.2 fun y mem => kept y (.tail _ mem)⟩
    obtain ⟨hasContent, last⟩ := whole.2.1 (ending ▸ none)
    obtain rfl := List.map_eq_nil_iff.1 last
    exact ⟨filled hasContent, rfl⟩

end Line

namespace Text

open Line

/-- A character that ends no line goes in front of the first line. -/
theorem lines_cons {c : Char} {t : Text} (noFeed : c ≠ '\n')
    (noReturn : c = '\r' → t.head? ≠ some '\n') :
    lines (c :: t) =
      match lines t with
      | [] => [⟨[c], .none⟩]
      | l :: ls => l.cons c :: ls := by
  rw [lines]
  case x_1 => exact noFeed
  case x_2 =>
    rintro r rfl rfl
    exact noReturn rfl rfl
  all_goals rfl

theorem lines_append_lf {content : Text} (rest : Text) (noFeed : '\n' ∉ content)
    (noReturn : content.getLast? ≠ some '\r') :
    lines (content ++ '\n' :: rest) = ⟨content, .lf⟩ :: lines rest := by
  induction content with
  | nil => simp [lines]
  | cons c content ih =>
    have first : c = '\r' → (content ++ '\n' :: rest).head? ≠ some '\n' := by
      rintro rfl
      cases content with
      | nil => simp at noReturn
      | cons d content => intro h; simp at h; simp [h] at noFeed
    rw [List.cons_append, lines_cons (by rintro rfl; simp at noFeed) first,
      ih (fun h => noFeed (.tail _ h)) (by cases content <;> simp_all)]
    rfl

theorem lines_append_crlf {content : Text} (rest : Text) (noFeed : '\n' ∉ content) :
    lines (content ++ '\r' :: '\n' :: rest) = ⟨content, .crlf⟩ :: lines rest := by
  induction content with
  | nil => simp [lines]
  | cons c content ih =>
    have first : c = '\r' → (content ++ '\r' :: '\n' :: rest).head? ≠ some '\n' := by
      rintro -
      cases content with
      | nil => simp
      | cons d content => intro h; simp at h; simp [h] at noFeed
    rw [List.cons_append, lines_cons (by rintro rfl; simp at noFeed) first,
      ih fun h => noFeed (.tail _ h)]
    rfl

theorem lines_of_noFeed {content : Text} (filled : content ≠ []) (noFeed : '\n' ∉ content) :
    lines content = [⟨content, .none⟩] := by
  induction content with
  | nil => exact (filled rfl).elim
  | cons c content ih =>
    have first : c = '\r' → content.head? ≠ some '\n' := by
      rintro -
      cases content with
      | nil => simp
      | cons d content => intro h; simp at h; simp [h] at noFeed
    rw [lines_cons (by rintro rfl; simp at noFeed) first]
    cases content with
    | nil => rfl
    | cons d content => rw [ih (by simp) fun h => noFeed (.tail _ h)]; rfl

/-- **Cutting undoes putting together.** -/
theorem lines_join {ls : List Line} (whole : AreLines ls) : lines (join ls) = ls := by
  induction ls with
  | nil => rfl
  | cons l ls ih =>
    rcases l with ⟨content, ending⟩
    have rest := ih whole.2.2
    cases ending with
    | lf =>
      calc lines (content ++ ['\n'] ++ join ls)
          = lines (content ++ '\n' :: join ls) := by rw [List.append_assoc]; rfl
        _ = ⟨content, .lf⟩ :: lines (join ls) :=
          lines_append_lf _ whole.1.noFeed (whole.1.noReturn rfl)
        _ = ⟨content, .lf⟩ :: ls := by rw [rest]
    | crlf =>
      calc lines (content ++ ['\r', '\n'] ++ join ls)
          = lines (content ++ '\r' :: '\n' :: join ls) := by rw [List.append_assoc]; rfl
        _ = ⟨content, .crlf⟩ :: lines (join ls) := lines_append_crlf _ whole.1.noFeed
        _ = ⟨content, .crlf⟩ :: ls := by rw [rest]
    | none =>
      obtain ⟨filled, rfl⟩ := whole.2.1 rfl
      simpa [Line.text, Ending.text] using lines_of_noFeed filled whole.1.noFeed

/-- A line by itself. -/
theorem lines_text {l : Line} (whole : l.IsWhole) (filled : l.ending = .none → l.content ≠ []) :
    l.text.lines = [l] := by
  have lines : Line.AreLines [l] := ⟨whole, fun none => ⟨filled none, rfl⟩, trivial⟩
  simpa [Line.join] using lines_join lines

/-- What a text is cut into are lines. -/
theorem areLines_lines (t : Text) : AreLines t.lines := by
  fun_induction lines t with
  | case1 => trivial
  | case2 r ih => exact ⟨⟨by simp, by simp⟩, by simp, ih⟩
  | case3 r ih => exact ⟨⟨by simp, by simp⟩, by simp, ih⟩
  | case4 c r noFeed noReturn empty ih =>
    exact ⟨⟨by simpa using fun h => noFeed h.symm, by simp⟩, by simp, trivial⟩
  | case5 c r noFeed noReturn l ls cut ih =>
    rw [cut] at ih
    obtain ⟨whole, last, rest⟩ := ih
    refine ⟨⟨?_, fun lf => ?_⟩, fun none => ?_, rest⟩
    · simpa [Line.cons] using ⟨fun h => noFeed h.symm, whole.noFeed⟩
    · rcases l with ⟨_ | ⟨d, content⟩, ending⟩
      · rintro h
        obtain rfl : c = '\r' := by simpa [Line.cons] using h
        have text := join_lines r
        rw [cut] at text
        obtain rfl : ending = .lf := lf
        exact noReturn _ rfl text.symm
      · simpa [Line.cons] using whole.noReturn lf
    · exact ⟨by simp [Line.cons], (last none).2⟩

/-- The lines of a text with blanks only. -/
theorem isBlank_of_mem_lines {t : Text} (blank : ∀ c ∈ t, isBlank c = true) {l : Line} (mem : l ∈ t.lines) :
    l.isBlank = true := by
  refine List.all_eq_true.2 fun c inside => blank c ?_
  rw [← join_lines t]
  exact List.mem_flatMap.2 ⟨l, mem, List.mem_append_left _ inside⟩

theorem lines_append {a : Text} (ended : Line.AllEnded a.lines) (b : Text) :
    (a ++ b).lines = a.lines ++ b.lines := by
  have whole : Line.AreLines (a.lines ++ b.lines) :=
    (areLines_lines a).append ended (areLines_lines b)
  rw [← lines_join whole, Line.join_append, join_lines, join_lines]

/-- A text that ends with a line feed ends all its lines. -/
theorem allEnded_lines {t : Text} (feed : t.getLast? = some '\n') : Line.AllEnded t.lines := by
  fun_induction lines t with
  | case1 => cases feed
  | case2 r ih | case3 r ih =>
    refine List.forall_mem_cons.2 ⟨by simp, ?_⟩
    cases r with
    | nil => exact List.forall_mem_nil _
    | cons c r => exact ih (by simpa using feed)
  | case4 c r noFeed _ empty _ =>
    have text := join_lines r
    rw [empty] at text
    obtain rfl : r = [] := text.symm
    exact (noFeed (by simpa using feed)).elim
  | case5 c r _ _ l ls cut ih =>
    cases r with
    | nil => cases cut
    | cons d r =>
      have ended := List.forall_mem_cons.1 (cut ▸ ih (by simpa using feed))
      exact List.forall_mem_cons.2 ⟨ended.1, ended.2⟩

end Text

/-! ## Line feeds -/

theorem Line.IsWhole.count_feed {l : Line} (whole : l.IsWhole) :
    l.text.count '\n' = l.ending.text.count '\n' := by
  rw [Line.text, List.count_append, List.count_eq_zero.2 whole.noFeed, Nat.zero_add]

/-- The line feeds of a text are those of its endings. -/
theorem Text.count_feed (t : Text) :
    t.count '\n' = total (fun e => e.text.count '\n') (t.lines.map (·.ending)) := by
  have lines : ∀ ls, Line.AreLines ls →
      (Line.join ls).count '\n' = total (fun e => e.text.count '\n') (ls.map (·.ending)) := by
    intro ls whole
    induction ls with
    | nil => rfl
    | cons l ls ih =>
      rw [Line.join_cons, List.count_append, whole.1.count_feed, ih whole.2.2]
      rfl
  conv => lhs; rw [← Text.join_lines t]
  exact lines t.lines (Text.areLines_lines t)

end MdxPress
