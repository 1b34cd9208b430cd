import MdxPress.Proofs.Fence.InPlace

/-!
Line breaks in front of a text.  They are no code, and the code behind them stays in its place when they
are dropped, unless a bare carriage return hides the start of a block.

* `Text.HidesFence` is a line that opens a block of code once the breaks in front of it are dropped;
* `Text.HidesNone` says that no line of a text does;
* `Text.exists_codeInPlace_breaks` is the code behind line breaks.
-/

namespace MdxPress

/-! ## Line breaks in front of a text -/

/-- A line that opens no block as it stands, but one without the line breaks in front of it. -/
def Text.HidesFence (line : Text) : Prop :=
  FenceOpener.ofLine? line = none ∧ FenceOpener.ofLine? line.dropBreaks ≠ none

instance : DecidablePred Text.HidesFence :=
  fun _ => inferInstanceAs (Decidable (_ ∧ _))

section Breaks

variable {c : Char} {w t : Text}

/-- What a carriage return in front of a text makes of its lines: it goes to the ending of an empty line,
or to the start of the first line. -/
theorem Text.lines_return (t : Text) :
    (∃ ls, t.lines = ⟨[], .lf⟩ :: ls ∧ lines ('\r' :: t) = ⟨[], .crlf⟩ :: ls) ∨
      (t.lines = [] ∧ lines ('\r' :: t) = [⟨['\r'], .none⟩]) ∨
      ∃ l ls, t.lines = l :: ls ∧ lines ('\r' :: t) = l.cons '\r' :: ls := by
  by_cases feed : t.head? = some '\n'
  · obtain ⟨r, rfl⟩ := List.head?_eq_some_iff.1 feed
    exact .inl ⟨Text.lines r, by rw [lines], by rw [lines]⟩
  · right
    rw [lines_cons (by decide) fun _ => feed]
    cases t.lines with
    | nil => exact .inl ⟨rfl, rfl⟩
    | cons l ls => exact .inr ⟨l, ls, rfl, rfl⟩

/-- A line break is no mark. -/
theorem FenceOpener.ofLine?_of_break (break_ : c = '\n' ∨ c = '\r') (t : Text) :
    ofLine? (c :: t) = none := by
  refine ofLine?_eq_none_of_head (List.forall_mem_nil _) ?_
  rintro d ⟨⟩
  rcases break_ with rfl | rfl <;> decide

theorem FenceOpener.eq_none_of_break (break_ : c = '\n' ∨ c = '\r') (t : Text) :
    ∀ l ∈ (Text.lines (c :: t)).head?, ofLine? l.content = none := by
  intro l first
  rcases break_ with rfl | rfl
  · rw [Text.lines] at first
    cases first
    rfl
  · rcases Text.lines_return t with ⟨ls, -, lines⟩ | ⟨-, lines⟩ | ⟨k, ls, -, lines⟩
    all_goals
      rw [lines] at first
      cases first
    · rfl
    · rfl
    · exact ofLine?_of_break (.inr rfl) k.content

/-! ## Blocks that line breaks hide -/

/-- No line of the text hides the start of a block. -/
def Text.HidesNone (t : Text) : Prop :=
  ∀ l ∈ t.lines, ¬ l.content.HidesFence

instance : DecidablePred Text.HidesNone :=
  fun t => inferInstanceAs (Decidable (∀ l ∈ t.lines, ¬ l.content.HidesFence))

theorem Text.not_hidesFence_return (shown : ¬ HidesFence ('\r' :: t)) :
    FenceOpener.ofLine? t.dropBreaks = none := by
  by_contra opens
  exact shown ⟨FenceOpener.ofLine?_of_break (.inr rfl) t, opens⟩

theorem Text.HidesNone.of_break (break_ : c = '\n' ∨ c = '\r') (shown : HidesNone (c :: t)) :
    t.HidesNone := by
  rcases break_ with rfl | rfl
  · rw [HidesNone, lines] at shown
    exact (List.forall_mem_cons.1 shown).2
  · rcases lines_return t with ⟨ls, before, lines⟩ | ⟨before, -⟩ | ⟨k, ls, before, lines⟩
    · rw [HidesNone, lines] at shown
      rw [HidesNone, before]
      exact List.forall_mem_cons.2 (List.forall_mem_cons.1 shown)
    · rw [HidesNone, before]
      exact List.forall_mem_nil _
    · rw [HidesNone, lines] at shown
      rw [HidesNone, before]
      obtain ⟨first, rest⟩ := List.forall_mem_cons.1 shown
      exact List.forall_mem_cons.2 ⟨fun hides => hides.2 (not_hidesFence_return first), rest⟩

theorem Text.HidesNone.of_breaks (breaks : ∀ c ∈ w, c = '\n' ∨ c = '\r')
    (shown : HidesNone (w ++ t)) : t.HidesNone := by
  induction w with
  | nil => exact shown
  | cons c w ih =>
    obtain ⟨first, rest⟩ := List.forall_mem_cons.1 breaks
    exact ih rest (shown.of_break first)

/-- Where nothing is hidden, the line behind a carriage return opens no block by itself. -/
theorem Text.HidesNone.opener_eq_none (shown : HidesNone ('\r' :: t)) :
    ∀ l ∈ t.lines.head?, FenceOpener.ofLine? l.content = none := by
  intro l first
  rcases lines_return t with ⟨ls, before, -⟩ | ⟨before, -⟩ | ⟨k, ls, before, lines⟩
  all_goals
    rw [before] at first
    cases first
  · rfl
  · have plain := not_hidesFence_return (shown (l.cons '\r') (lines ▸ .head _))
    cases content : l.content with
    | nil => rfl
    | cons c r =>
      by_cases break_ : c = '\n' ∨ c = '\r'
      · exact FenceOpener.ofLine?_of_break break_ r
      · rw [content, dropBreaks, List.dropWhile_cons_of_neg (by simpa using break_)] at plain
        exact plain

theorem Text.eq_break_of_mem_leadingBreaks (mem : c ∈ t.leadingBreaks) : c = '\n' ∨ c = '\r' := by
  simpa using List.all_eq_true.1 List.all_takeWhile c mem

theorem Text.leadingBreaks_append_dropBreaks (t : Text) : t.leadingBreaks ++ t.dropBreaks = t :=
  List.takeWhile_append_dropWhile

theorem Text.HidesNone.dropBreaks (shown : t.HidesNone) : t.dropBreaks.HidesNone := by
  rw [← t.leadingBreaks_append_dropBreaks] at shown
  exact shown.of_breaks fun c => eq_break_of_mem_leadingBreaks

/-- Where nothing is hidden, a bare carriage return before the text uncovers no block. -/
theorem Text.HidesNone.uncovers (shown : t.HidesNone) (last : t.leadingBreaks.getLast? = some '\r') :
    ∀ l ∈ t.dropBreaks.lines.head?, FenceOpener.ofLine? l.content = none := by
  obtain ⟨v, whole⟩ := List.getLast?_eq_some_iff.1 last
  rw [← t.leadingBreaks_append_dropBreaks, whole, List.append_assoc] at shown
  refine (shown.of_breaks fun c mem => eq_break_of_mem_leadingBreaks (t := t) ?_).opener_eq_none
  rw [whole]
  exact List.mem_append_left _ mem

/-- **Line breaks in front of a text, one by one.**  None of them uncovers anything but a line with a
property that lines with a break in front have, when the last of them does not: behind the others there is
a break. -/
theorem Text.breaks_induction_of {P : Line → Prop} {motive : Text → Prop}
    (plain : ∀ c t, (c = '\n' ∨ c = '\r') → ∀ l ∈ (Text.lines (c :: t)).head?, P l)
    (breaks : ∀ c ∈ w, c = '\n' ∨ c = '\r') (uncovers : w.getLast? = some '\r' → ∀ l ∈ t.lines.head?, P l)
    (base : motive t)
    (step : ∀ c u, (c = '\n' ∨ c = '\r') → (c = '\r' → ∀ l ∈ (Text.lines u).head?, P l) →
      motive u → motive (c :: u)) : motive (w ++ t) := by
  induction w with
  | nil => exact base
  | cons c w ih =>
    obtain ⟨first, rest⟩ := List.forall_mem_cons.1 breaks
    refine step c (w ++ t) first ?_ (ih rest fun last => uncovers (by simp [List.getLast?_cons, last]))
    rintro rfl
    cases w with
    | nil => exact uncovers rfl
    | cons d w => exact plain d (w ++ t) (rest d (.head _))

/-- Line breaks in front of a text, none of which uncovers a block. -/
theorem Text.breaks_induction {motive : Text → Prop} (breaks : ∀ c ∈ w, c = '\n' ∨ c = '\r')
    (opens : w.getLast? = some '\r' → ∀ l ∈ t.lines.head?, FenceOpener.ofLine? l.content = none)
    (base : motive t)
    (step : ∀ c u, (c = '\n' ∨ c = '\r') →
      (c = '\r' → ∀ l ∈ (Text.lines u).head?, FenceOpener.ofLine? l.content = none) →
      motive u → motive (c :: u)) : motive (w ++ t) :=
  breaks_induction_of (fun _ t break_ => FenceOpener.eq_none_of_break break_ t) breaks opens base step

/-- **A line break in front of a text** is a line by itself, or stands in front of the first line. -/
theorem Text.exists_fenced_break {c : Char} {t : Text} (break_ : c = '\n' ∨ c = '\r')
    (opens : c = '\r' → ∀ l ∈ t.lines.head?, FenceOpener.ofLine? l.content = none) :
    (∃ l : Line, l.text = [c] ∧ fenced (c :: t) = ⟨l, none, none⟩ :: t.fenced) ∨
      c = '\r' ∧ ∃ (l k : Line) (below : List FencedLine), k ∈ t.lines.head? ∧ l.text = c :: k.text ∧
        fenced (c :: t) = ⟨l, none, none⟩ :: below ∧ t.fenced = ⟨k, none, none⟩ :: below := by
  have prose {l : Line} (plain : FenceOpener.ofLine? l.content = none) (ls : List Line) :
      fencedLines none (l :: ls) = ⟨l, none, none⟩ :: fencedLines none ls := by
    rw [fencedLines, FenceState.next, plain]
    rfl
  rcases break_ with rfl | rfl
  · refine .inl ⟨⟨[], .lf⟩, rfl, ?_⟩
    rw [fenced, lines]
    exact prose rfl _
  · rcases lines_return t with ⟨ls, before, lines⟩ | ⟨before, lines⟩ | ⟨l, ls, before, lines⟩
    · refine .inr ⟨rfl, ⟨[], .crlf⟩, ⟨[], .lf⟩, fencedLines none ls, by rw [before]; rfl, rfl, ?_, ?_⟩
      · rw [fenced, lines]
        exact prose rfl ls
      · rw [fenced, before]
        exact prose rfl ls
    · refine .inl ⟨⟨['\r'], .none⟩, rfl, ?_⟩
      rw [fenced, fenced, lines, before]
      rfl
    · have plain := opens rfl l (by rw [before]; rfl)
      refine .inr ⟨rfl, l.cons '\r', l, fencedLines none ls, by rw [before]; rfl, rfl, ?_, ?_⟩
      · rw [fenced, lines]
        exact prose (FenceOpener.ofLine?_of_break (.inr rfl) l.content) ls
      · rw [fenced, before]
        exact prose plain ls

/-! ## Code behind line breaks -/

/-- A line break in front of a text adds a gap, or nothing. -/
theorem Text.exists_codeInPlace_break (break_ : c = '\n' ∨ c = '\r')
    (opens : c = '\r' → ∀ l ∈ t.lines.head?, FenceOpener.ofLine? l.content = none) :
    ∃ n, codeInPlace (c :: t) = List.replicate n none ++ t.codeInPlace := by
  rcases break_ with rfl | rfl
  · exact ⟨1, codeInPlace_feed t⟩
  · rcases lines_return t with ⟨ls, before, lines⟩ | ⟨before, lines⟩ | ⟨l, ls, before, lines⟩
    · refine ⟨0, ?_⟩
      rw [codeInPlace, codeInPlace, before, lines, fencedCode_of_prose rfl, fencedCode_of_prose rfl]
      rfl
    · refine ⟨1, ?_⟩
      rw [codeInPlace, codeInPlace, before, lines]
      rfl
    · refine ⟨0, ?_⟩
      have plain := opens rfl l (by rw [before]; rfl)
      have returned : FenceOpener.ofLine? (l.cons '\r').content = none :=
        FenceOpener.ofLine?_of_break (.inr rfl) l.content
      rw [codeInPlace, codeInPlace, before, lines, fencedCode_of_prose plain, fencedCode_of_prose returned]
      rfl

/-- **Line breaks in front of a text** add gaps only, unless they hide a block. -/
theorem Text.exists_codeInPlace_breaks (breaks : ∀ c ∈ w, c = '\n' ∨ c = '\r')
    (opens : w.getLast? = some '\r' → ∀ l ∈ t.lines.head?, FenceOpener.ofLine? l.content = none) :
    ∃ n, codeInPlace (w ++ t) = List.replicate n none ++ t.codeInPlace := by
  refine breaks_induction breaks opens
    (motive := fun u => ∃ n, codeInPlace u = List.replicate n none ++ t.codeInPlace)
    ⟨0, rfl⟩ fun c u break_ uncovers ⟨m, behind⟩ => ?_
  obtain ⟨n, here⟩ := exists_codeInPlace_break break_ uncovers
  exact ⟨n + m, by rw [here, behind, List.replicate_add, List.append_assoc]⟩

/-- **A text without the breaks in front of it** has its code in the same place behind them. -/
theorem Text.HidesNone.exists_codeInPlace (shown : t.HidesNone) :
    ∃ n, t.codeInPlace = List.replicate n none ++ t.dropBreaks.codeInPlace := by
  conv => enter [1, n, 1]; rw [← t.leadingBreaks_append_dropBreaks]
  exact exists_codeInPlace_breaks (fun c => eq_break_of_mem_leadingBreaks) shown.uncovers

end Breaks

end MdxPress
