import MdxPress.Proofs.Mdx.Cover
import MdxPress.Proofs.Text.Blank

/-!
# An escaped line

What escaping leaves behind on one line.  `Escapes t u` says that `u` is `t` with some of its braces
replaced: such a line begins, ends and reads as `t` does wherever no brace is asked for.
`covered_escapeFrom` says that on the escaped line everything is covered as before, so nothing on it
is left to escape.
-/

namespace MdxPress.Brace

/-- The text of the reference for an opening brace. -/
def leftReference : Text := "&#123;".toList

theorem leftReference_eq : leftReference = ['&', '#', '1', '2', '3', ';'] := rfl

/-- The text of the reference for a closing brace. -/
def rightReference : Text := "&#125;".toList

theorem rightReference_eq : rightReference = ['&', '#', '1', '2', '5', ';'] := rfl

/-! ## The walk along the escaped line -/

/-- The rest of a line with its unprotected braces escaped, from a place on. -/
def escapeFrom (p : Place) (t : Text) : Text :=
  (covered p t).flatMap fun k => escapeChar (k.1, k.2.isProtected)

theorem escapeLine_eq_escapeFrom (line : Text) : escapeLine line = escapeFrom .prose line := by
  rw [escapeLine, mask_eq_covered, List.flatMap_map]
  rfl

theorem escapeFrom_cons (p : Place) (c : Char) (r : Text) :
    escapeFrom p (c :: r) =
      escapeChar (c, (p.step c r).1.isProtected) ++ escapeFrom (p.step c r).2 r := rfl

theorem escapeChar_of_isProtected (c : Char) : escapeChar (c, true) = [c] := by
  unfold escapeChar
  split
  case h_1 same => cases same
  case h_2 same => cases same
  case h_3 same => cases same; rfl

theorem escapeChar_of_not_brace {c : Char} (left : c ≠ '{') (right : c ≠ '}') (b : Bool) :
    escapeChar (c, b) = [c] := by
  unfold escapeChar
  split
  case h_1 same => cases same; exact (left rfl).elim
  case h_2 same => cases same; exact (right rfl).elim
  case h_3 same => cases same; rfl

/-- Escaping adds no backtick and takes none away. -/
theorem tick_mem_escapeFrom {p : Place} {t : Text} : '\x60' ∈ escapeFrom p t ↔ '\x60' ∈ t := by
  induction t generalizing p with
  | nil => rfl
  | cons c r ih =>
    rw [escapeFrom_cons, List.mem_append, ih, List.mem_cons]
    refine or_congr_left ?_
    by_cases left : c = '{'
    · subst left; cases (p.step '{' r).1 <;> decide
    · by_cases right : c = '}'
      · subst right; cases (p.step '}' r).1 <;> decide
      · rw [escapeChar_of_not_brace left right, List.mem_singleton]

/-- Where a marker or a code span is open, the next character stays. -/
theorem head?_escapeFrom {p : Place} {t : Text} (inside : p ≠ .prose) :
    (escapeFrom p t).head? = t.head? := by
  cases t with
  | nil => rfl
  | cons c r =>
    have kept : (p.step c r).1.isProtected = true := by
      cases p with
      | prose => exact (inside rfl).elim
      | marker =>
        simp only [Place.step]
        split
        · rfl
        · split <;> rfl
      | opening | closing | code => rfl
    rw [escapeFrom_cons, kept, escapeChar_of_isProtected]
    rfl

/-- What covers the characters that are written for one. -/
def settle (k : Char × Cover) : List (Char × Cover) :=
  (escapeChar (k.1, k.2.isProtected)).map fun c => (c, k.2)

theorem covered_prose_left (t : Text) :
    covered .prose (leftReference ++ t) =
      leftReference.map (fun c => (c, Cover.bare)) ++ covered .prose t := by
  simp [leftReference_eq, covered, Place.step]

theorem covered_prose_right (t : Text) :
    covered .prose (rightReference ++ t) =
      rightReference.map (fun c => (c, Cover.bare)) ++ covered .prose t := by
  simp [rightReference_eq, covered, Place.step]

/-- A step of the walk sees the same ahead of it on the escaped line. -/
theorem step_escapeFrom (p : Place) (c : Char) (r : Text)
    (kept : escapeChar (c, (p.step c r).1.isProtected) = [c]) :
    p.step c (escapeFrom (p.step c r).2 r) = p.step c r := by
  cases p with
  | opening | closing | code => rfl
  | prose =>
    by_cases opens : c = '\x60' ∧ '\x60' ∈ r
    · simp [Place.step, opens, tick_mem_escapeFrom]
    · by_cases brace : c = '{'
      · subst brace
        by_cases next : r.head? = some '%'
        · have same := head?_escapeFrom (p := .opening) (t := r) (by decide)
          simp [Place.step, next, same]
        · have bare : (Place.step .prose '{' r).1 = .bare := by simp [Place.step, next]
          rw [bare] at kept
          exact absurd kept (by decide)
      · simp [Place.step, brace, opens, tick_mem_escapeFrom]
  | marker =>
    by_cases opens : c = '\x60' ∧ '\x60' ∈ r
    · simp [Place.step, opens, tick_mem_escapeFrom]
    · by_cases next : c = '%' ∧ r.head? = some '}'
      · have same := head?_escapeFrom (p := .closing) (t := r) (by decide)
        simp [Place.step, next, same]
      · have same := head?_escapeFrom (p := .marker) (t := r) (by decide)
        simp [Place.step, opens, next, same, tick_mem_escapeFrom]

/-- Only a bare brace is replaced, and the walk stays in prose behind it. -/
theorem replaced_of_ne {p : Place} {c : Char} {r : Text}
    (replaced : escapeChar (c, (p.step c r).1.isProtected) ≠ [c]) :
    p = .prose ∧ p.step c r = (.bare, .prose) ∧ (c = '{' ∨ c = '}') := by
  have brace : c = '{' ∨ c = '}' := by
    refine Decidable.or_iff_not_not_and_not.2 fun none => ?_
    exact replaced (escapeChar_of_not_brace none.1 none.2 _)
  have bare : (p.step c r).1.isProtected = false := by
    refine Bool.eq_false_iff.2 fun isProtected => ?_
    exact replaced (by rw [isProtected, escapeChar_of_isProtected])
  cases p with
  | opening | closing | code => cases bare
  | marker =>
    simp only [Place.step] at bare
    split at bare
    · cases bare
    · split at bare <;> cases bare
  | prose =>
    refine ⟨rfl, ?_, brace⟩
    simp only [Place.step] at bare ⊢
    split at bare
    · cases bare
    · split at bare
      · cases bare
      · rw [if_neg ‹_›, if_neg ‹_›]

/-- On the escaped rest of a line everything is covered as before. -/
theorem covered_escapeFrom (p : Place) (t : Text) :
    covered p (escapeFrom p t) = (covered p t).flatMap settle := by
  induction t generalizing p with
  | nil => rfl
  | cons c r ih =>
    rw [escapeFrom_cons, covered, List.flatMap_cons, settle]
    by_cases kept : escapeChar (c, (p.step c r).1.isProtected) = [c]
    · have same := step_escapeFrom p c r kept
      rw [kept, List.singleton_append, covered, same, ih]
      rfl
    · obtain ⟨rfl, step, brace⟩ := replaced_of_ne kept
      rw [step]
      rcases brace with rfl | rfl
      · exact (covered_prose_left _).trans (congrArg _ (ih .prose))
      · exact (covered_prose_right _).trans (congrArg _ (ih .prose))

/-! ## Nothing is left to escape -/

/-- A character stays as it is, or is a bare brace and becomes a reference. -/
theorem settle_cases (k : Char × Cover) :
    settle k = [k] ∨
      (k = ('{', .bare) ∧ settle k = leftReference.map fun c => (c, .bare)) ∨
      (k = ('}', .bare) ∧ settle k = rightReference.map fun c => (c, .bare)) := by
  rcases k with ⟨c, cover⟩
  cases cover with
  | marker | code =>
    exact Or.inl (by simp [settle, Cover.isProtected, escapeChar_of_isProtected])
  | bare =>
    by_cases left : c = '{'
    · subst left; exact Or.inr (Or.inl ⟨rfl, rfl⟩)
    · by_cases right : c = '}'
      · subst right; exact Or.inr (Or.inr ⟨rfl, rfl⟩)
      · exact Or.inl (by simp [settle, escapeChar_of_not_brace left right])

theorem escape_settle (k : Char × Cover) :
    (settle k).flatMap (fun k => escapeChar (k.1, k.2.isProtected)) =
      escapeChar (k.1, k.2.isProtected) := by
  rcases settle_cases k with kept | ⟨rfl, -⟩ | ⟨rfl, -⟩
  · rw [kept, List.flatMap_singleton]
  · rfl
  · rfl

theorem not_isStray_settle (k : Char × Cover) :
    ∀ u ∈ settle k, isStray (u.1, u.2.isProtected) = false := by
  rcases settle_cases k with kept | ⟨rfl, -⟩ | ⟨rfl, -⟩
  · intro u mem
    obtain rfl : u = k := by simpa [kept] using mem
    rcases u with ⟨c, cover⟩
    have written : escapeChar (c, cover.isProtected) = [c] := by
      simpa [settle, List.map_eq_singleton_iff] using kept
    by_cases brace : c = '{' ∨ c = '}'
    · cases cover with
      | marker | code => simp [isStray, Cover.isProtected]
      | bare => rcases brace with rfl | rfl <;> cases written
    · simp [isStray, not_or.1 brace]
  · decide
  · decide

/-- **Escaping a line settles it.** -/
theorem escapeLine_escapeLine (line : Text) : escapeLine (escapeLine line) = escapeLine line := by
  rw [escapeLine_eq_escapeFrom, escapeLine_eq_escapeFrom line, escapeFrom, covered_escapeFrom,
    List.flatMap_assoc]
  simp only [escape_settle]
  rfl

theorem strays_escapeLine (line : Text) : strays (escapeLine line) = 0 := by
  rw [strays, mask_eq_covered, escapeLine_eq_escapeFrom, covered_escapeFrom, List.countP_eq_zero]
  intro masked mem
  obtain ⟨u, written, rfl⟩ := List.mem_map.1 mem
  obtain ⟨k, -, settled⟩ := List.mem_flatMap.1 written
  simp [not_isStray_settle k u settled]

/-! ## How the escaped line reads -/

/-- `Escapes t u`: the text `u` is `t` with some of its braces written as references. -/
inductive Escapes : Text → Text → Prop
  | nil : Escapes [] []
  | same (c : Char) {t u : Text} : Escapes t u → Escapes (c :: t) (c :: u)
  | left {t u : Text} : Escapes t u → Escapes ('{' :: t) (leftReference ++ u)
  | right {t u : Text} : Escapes t u → Escapes ('}' :: t) (rightReference ++ u)

theorem Escapes.append {t t' u u' : Text} (first : Escapes t u) (second : Escapes t' u') :
    Escapes (t ++ t') (u ++ u') := by
  induction first with
  | nil => exact second
  | same c _ ih => exact .same c ih
  | left _ ih => rw [List.append_assoc]; exact .left ih
  | right _ ih => rw [List.append_assoc]; exact .right ih

theorem escapes_escapeChar (k : Char × Bool) : Escapes [k.1] (escapeChar k) := by
  unfold escapeChar
  split
  · exact .left .nil
  · exact .right .nil
  · exact .same _ .nil

theorem escapes_escapeFrom (p : Place) (t : Text) : Escapes t (escapeFrom p t) := by
  induction t generalizing p with
  | nil => exact .nil
  | cons c r ih => exact (escapes_escapeChar (c, _)).append (ih _)

/-- The walk along a text in front of another: it comes to the other at a place that fits there. -/
theorem exists_escapeFrom_append {p : Place} {t r : Text} (fits : p.Fits (t ++ r)) :
    ∃ u q, q.Fits r ∧ Escapes t u ∧ escapeFrom p (t ++ r) = u ++ escapeFrom q r := by
  induction t generalizing p with
  | nil => exact ⟨[], p, fits, .nil, rfl⟩
  | cons c t ih =>
    obtain ⟨u, q, fits', escapes, walk⟩ := ih (p.fits_step c (t ++ r))
    have first := escapes_escapeChar (c, (p.step c (t ++ r)).1.isProtected)
    refine ⟨_, q, fits', first.append escapes, ?_⟩
    rw [List.cons_append, escapeFrom_cons, walk, List.append_assoc]

theorem escapes_escapeLine (line : Text) : Escapes line (escapeLine line) := by
  rw [escapeLine_eq_escapeFrom]
  exact escapes_escapeFrom .prose line

namespace Escapes

variable {t u : Text}

theorem length_le (h : Escapes t u) : t.length ≤ u.length := by
  induction h with
  | nil => exact Nat.le_refl _
  | same c _ ih => exact Nat.succ_le_succ ih
  | left _ ih | right _ ih => simp [leftReference_eq, rightReference_eq]; omega

theorem refl (t : Text) : Escapes t t := by
  induction t with
  | nil => exact .nil
  | cons c t ih => exact .same c ih

theorem eq_nil_iff (h : Escapes t u) : t = [] ↔ u = [] := by
  cases h <;> simp [leftReference_eq, rightReference_eq]

theorem trimEnd (h : Escapes t u) : Escapes t.trimEnd u.trimEnd := by
  induction h with
  | nil => exact .nil
  | @same c t u _ ih =>
    by_cases gone : t.trimEnd = []
    · have first (r : Text) (blank : r.trimEnd = []) : Text.trimEnd (c :: r) = Text.trimEnd [c] :=
        Text.trimEnd_append_of_blank [c] blank
      rw [first t gone, first u (ih.eq_nil_iff.1 gone)]
      exact .refl _
    · have first (r : Text) (filled : r.trimEnd ≠ []) : Text.trimEnd (c :: r) = c :: r.trimEnd :=
        Text.trimEnd_append_of_filled [c] filled
      rw [first t gone, first u (ih.eq_nil_iff.not.1 gone)]
      exact .same c ih
  | @left t u _ ih =>
    have brace : Text.trimEnd ('{' :: t) = '{' :: t.trimEnd :=
      Text.trimEnd_append_of_visible (w := ['{']) rfl (by decide) t
    rw [brace, Text.trimEnd_append_of_visible rfl (by decide)]
    exact .left ih
  | @right t u _ ih =>
    have brace : Text.trimEnd ('}' :: t) = '}' :: t.trimEnd :=
      Text.trimEnd_append_of_visible (w := ['}']) rfl (by decide) t
    rw [brace, Text.trimEnd_append_of_visible rfl (by decide)]
    exact .right ih

/-- The characters of the escaped text are those of the text and of references. -/
theorem mem_iff (h : Escapes t u) {c : Char} (noBrace : c ≠ '{' ∧ c ≠ '}')
    (noReference : c ∉ leftReference ∧ c ∉ rightReference) : c ∈ u ↔ c ∈ t := by
  induction h with
  | nil => rfl
  | same d _ ih => rw [List.mem_cons, List.mem_cons, ih]
  | left _ ih =>
    rw [List.mem_append, List.mem_cons, ih, or_iff_right noReference.1, or_iff_right noBrace.1]
  | right _ ih =>
    rw [List.mem_append, List.mem_cons, ih, or_iff_right noReference.2, or_iff_right noBrace.2]

theorem getLast?_eq (h : Escapes t u) {c : Char} (noBrace : '{' ≠ c ∧ '}' ≠ c) (noEnd : ';' ≠ c) :
    u.getLast? = some c ↔ t.getLast? = some c := by
  induction h with
  | nil => rfl
  | same d rest ih | left rest ih | right rest ih =>
    cases rest <;> simp_all [leftReference_eq, rightReference_eq]

/-- A class of characters without braces and without the ampersand reads the same. -/
theorem span (h : Escapes t u) {p : Char → Bool} (outside : ∀ c ∈ ['{', '}', '&'], p c = false) :
    u.takeWhile p = t.takeWhile p ∧ Escapes (t.dropWhile p) (u.dropWhile p) := by
  have left : p '{' = false := outside _ (by simp)
  have right : p '}' = false := outside _ (by simp)
  have ampersand : p '&' = false := outside _ (by simp)
  induction h with
  | nil => exact ⟨rfl, .nil⟩
  | @same c t u rest ih =>
    by_cases member : p c
    · simpa [member] using ih
    · simpa [member] using Escapes.same c rest
  | left rest => simpa [leftReference_eq, left, ampersand] using rest.left
  | right rest => simpa [rightReference_eq, right, ampersand] using rest.right

/-- Characters that are no braces are written as they are. -/
theorem exists_of_append {w : Text} (noBrace : '{' ∉ w ∧ '}' ∉ w) (h : Escapes (w ++ t) u) :
    ∃ v, u = w ++ v ∧ Escapes t v := by
  induction w generalizing u with
  | nil => exact ⟨u, rfl, h⟩
  | cons c w ih =>
    cases h with
    | same _ rest =>
      have bare : '{' ∉ w ∧ '}' ∉ w :=
        ⟨fun mem => noBrace.1 (.tail _ mem), fun mem => noBrace.2 (.tail _ mem)⟩
      obtain ⟨v, rfl, behind⟩ := ih bare rest
      exact ⟨v, rfl, behind⟩
    | left => exact (noBrace.1 (.head _)).elim
    | right => exact (noBrace.2 (.head _)).elim

/-- Characters of an escaped text that hold no reference were there before. -/
theorem exists_of_append_right {w : Text} (noAmpersand : '&' ∉ w) (h : Escapes t (w ++ u)) :
    ∃ v, t = w ++ v ∧ Escapes v u := by
  induction w generalizing t with
  | nil => exact ⟨t, rfl, h⟩
  | cons c w ih =>
    have other : c ≠ '&' := by rintro rfl; exact noAmpersand (.head _)
    generalize whole : c :: w ++ u = s at h
    cases h with
    | nil => cases whole
    | same d rest =>
      obtain ⟨rfl, rfl⟩ := List.cons.inj whole
      obtain ⟨v, rfl, behind⟩ := ih (fun mem => noAmpersand (.tail _ mem)) rest
      exact ⟨v, rfl, behind⟩
    | left | right => exact (other (List.cons.inj whole).1).elim

theorem of_isPrefixOf (h : Escapes t u) {w : Text} (noAmpersand : '&' ∉ w)
    (starts : w.isPrefixOf u = true) : w.isPrefixOf t = true := by
  rw [List.isPrefixOf_iff_prefix] at starts ⊢
  obtain ⟨r, rfl⟩ := starts
  obtain ⟨v, rfl, -⟩ := h.exists_of_append_right noAmpersand
  exact List.prefix_append w v

theorem indentColumns (h : Escapes t u) (col : Nat) :
    (u.indentColumns col).1 = (t.indentColumns col).1 ∧
      Escapes (t.indentColumns col).2 (u.indentColumns col).2 := by
  induction h generalizing col with
  | nil => exact ⟨rfl, .nil⟩
  | @same c t u rest ih =>
    by_cases space : c = ' '
    · subst space; exact ih _
    · by_cases tab : c = '\t'
      · subst tab; exact ih _
      · have stops (v : Text) : Text.indentColumns col (c :: v) = (col, c :: v) := by
          rw [Text.indentColumns] <;> simp [space, tab]
        rw [stops, stops]
        exact ⟨rfl, .same c rest⟩
  | left rest => exact ⟨rfl, rest.left⟩
  | right rest => exact ⟨rfl, rest.right⟩

/-- A run of fence marks is the same, and what follows it is escaped. -/
theorem fenceRun? (h : Escapes t u) :
    (t.fenceRun? = none ∧ u.fenceRun? = none) ∨ ∃ m n r s,
      t.fenceRun? = some (m, n, r) ∧ u.fenceRun? = some (m, n, s) ∧ Escapes r s := by
  cases h with
  | nil | left rest | right rest => exact Or.inl ⟨rfl, rfl⟩
  | @same c t u rest =>
    cases mark : FenceMark.ofChar? c with
    | none => exact Or.inl ⟨by simp [Text.fenceRun?, mark], by simp [Text.fenceRun?, mark]⟩
    | some m =>
      have outside : ∀ d ∈ ['{', '}', '&'], (d == c) = false := by
        intro d mem
        rw [beq_eq_false_iff_ne]
        rintro rfl
        simp only [List.mem_cons, List.not_mem_nil, or_false] at mem
        rcases mem with rfl | rfl | rfl <;> cases mark
      obtain ⟨run, behind⟩ := rest.span (p := (· == c)) outside
      by_cases long : 3 ≤ 1 + (t.takeWhile (· == c)).length
      · refine Or.inr ⟨m, 1 + (t.takeWhile (· == c)).length, _, _, ?_, ?_, behind⟩
        · simp [Text.fenceRun?, mark, long]
        · simp [Text.fenceRun?, mark, run, long]
      · exact Or.inl ⟨by simp [Text.fenceRun?, mark, long],
          by simp [Text.fenceRun?, mark, run, long]⟩

theorem tick_mem_trim (h : Escapes t u) : u.trim.contains ['\x60'] = t.trim.contains ['\x60'] := by
  rw [Bool.eq_iff_iff, Text.contains_singleton, Text.contains_singleton, Text.mem_trim rfl,
    Text.mem_trim rfl]
  exact h.mem_iff (by decide) (by decide)

/-- A line that opens no fence opens none when it is escaped. -/
theorem opener_eq_none (h : Escapes t u) (noOpener : FenceOpener.ofLine? t = none) :
    FenceOpener.ofLine? u = none := by
  obtain ⟨column, behind⟩ := h.indentColumns 0
  simp only [FenceOpener.ofLine?] at noOpener ⊢
  rw [column]
  by_cases deep : 3 < (t.indentColumns 0).1
  · rw [if_pos deep]
  · rw [if_neg deep] at noOpener ⊢
    rcases behind.fenceRun? with ⟨_, run⟩ | ⟨m, n, r, s, before, after, info⟩
    · rw [run]; rfl
    · rw [before] at noOpener
      rw [after]
      simpa [info.tick_mem_trim] using noOpener

theorem isExempt_eq_false (h : Escapes t u) (prose : MdxState.isExempt t = false) :
    MdxState.isExempt u = false := by
  obtain ⟨-, behind⟩ := h.span (p := isBlank) (by decide)
  have plain : ∀ word ∈ ["import ", "export ", ":::", "@tab "], '&' ∉ word.toList := by decide
  simp only [MdxState.isExempt, List.any_eq_false] at prose ⊢
  intro word mem starts
  exact prose word mem (behind.of_isPrefixOf (plain word mem) starts)

end Escapes

end MdxPress.Brace
