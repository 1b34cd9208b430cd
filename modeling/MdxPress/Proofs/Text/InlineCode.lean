import MdxPress.Proofs.Fence.SameCode
import MdxPress.Proofs.Text.Piece

/-!
The inline code of a stretch of prose, line by line.  Where the backticks of a line are paired, nothing
that stands before a place changes what is code behind it, so stretches may be replaced there.

* `Text.codes` is the inline code of a text, `Text.codes_append` cuts it at a place with paired
  backticks;
* `Text.KeepsCode` is the condition on a stretch that is replaced, `Text.Piece.KeepCode` on all that a
  rule replaces, and `Text.codes_rewrite` is what follows from it;
* `Text.codes_mapLineProse` is the same for a pass over the prose of lines, which has to add no
  backtick.
-/

namespace MdxPress

namespace Text

/-- The number of backticks in a text. -/
def ticks (t : Text) : Nat :=
  t.count '\x60'

theorem ticks_append (t u : Text) : ticks (t ++ u) = ticks t + ticks u :=
  List.count_append

theorem ticks_eq_zero {t : Text} : t.ticks = 0 ↔ '\x60' ∉ t :=
  List.count_eq_zero

/-- The inline code of a text, line by line. -/
def codes (t : Text) : List Text :=
  t.lines.flatMap fun l => l.text.inlineCode

/-! ## A line that is continued -/

/-- A text of paired backticks in front of a line leaves its inline code alone. -/
theorem inlineCode_append_of_even {t : Text} (even : t.ticks % 2 = 0) (u : Text) :
    inlineCode (t ++ u) = inlineCode t ++ inlineCode u := by
  induction t using codeSpans_induction with
  | span a x rest before inside ih =>
    have restEven : rest.ticks % 2 = 0 := by
      have total : ticks (a ++ '\x60' :: (x ++ '\x60' :: rest)) = rest.ticks + 2 := by
        simp [ticks, List.count_append, List.count_eq_zero.2 before, List.count_eq_zero.2 inside]
      omega
    have cut : a ++ '\x60' :: (x ++ '\x60' :: rest) ++ u =
        a ++ '\x60' :: (x ++ '\x60' :: (rest ++ u)) := by simp
    rw [cut, inlineCode_span before inside, inlineCode_span before inside,
      ih restEven, List.cons_append]
  | lone t lone =>
    have noTick : '\x60' ∉ t := by
      rw [← List.count_eq_zero]
      rw [ticks] at even
      omega
    rw [inlineCode_of_lone lone, List.nil_append]
    rcases exists_span_or_lone u with ⟨a, x, rest, rfl, before, inside⟩ | lone'
    · have both : '\x60' ∉ t ++ a := by simp [noTick, before]
      rw [← List.append_assoc, inlineCode_span both inside, inlineCode_span before inside]
    · rw [inlineCode_of_lone lone', inlineCode_of_lone]
      rw [List.count_append, List.count_eq_zero.2 noTick]
      omega

/-- Characters that end no line go in front of the first line. -/
theorem map_text_lines_append {t u : Text} (noFeed : '\n' ∉ t) (filled : u ≠ []) :
    ∃ x xs, u.lines.map (·.text) = x :: xs ∧ (lines (t ++ u)).map (·.text) = (t ++ x) :: xs := by
  induction t with
  | nil =>
    cases lines : u.lines with
    | nil =>
      have joined := join_lines u
      rw [lines] at joined
      exact (filled joined.symm).elim
    | cons l ls => exact ⟨l.text, ls.map (·.text), rfl, by simp [lines]⟩
  | cons c t ih =>
    obtain ⟨x, xs, behind, whole⟩ := ih fun mem => noFeed (.tail _ mem)
    refine ⟨x, xs, behind, ?_⟩
    have first : c ≠ '\n' := by rintro rfl; exact noFeed (.head _)
    by_cases broken : c = '\r' ∧ (t ++ u).head? = some '\n'
    · obtain ⟨rfl, head⟩ := broken
      obtain ⟨r, rest⟩ := List.head?_eq_some_iff.1 head
      rw [List.cons_append]
      rw [rest] at whole ⊢
      obtain ⟨same, rfl⟩ := List.cons.inj whole
      exact congrArg (· :: _) (congrArg ('\r' :: ·) same)
    · rw [List.cons_append, lines_cons first fun isReturn head => broken ⟨isReturn, head⟩]
      cases cut : lines (t ++ u) with
      | nil => simp [cut] at whole
      | cons l ls =>
        rw [cut] at whole
        obtain ⟨same, rfl⟩ := List.cons.inj whole
        simp [← same, Line.cons, Line.text]

theorem codes_append_of_endsLine {t : Text} (ends : t.EndsLine) (u : Text) :
    codes (t ++ u) = codes t ++ codes u := by
  rw [codes, lines_append ends.allEnded, List.flatMap_append]
  rfl

theorem codes_eq_flatMap_texts (t : Text) : t.codes = (t.lines.map (·.text)).flatMap inlineCode := by
  rw [codes, List.flatMap_map]

theorem codes_of_noFeed {t : Text} (noFeed : '\n' ∉ t) : t.codes = t.inlineCode := by
  by_cases filled : t = []
  · subst filled
    rfl
  · rw [codes, lines_of_noFeed filled noFeed]
    simp [Line.text, Ending.text]

/-- **The inline code of two texts put together**, where the backticks on the line between them are
paired. -/
theorem codes_append {t : Text} (even : t.lastLine.ticks % 2 = 0) (u : Text) :
    codes (t ++ u) = codes t ++ codes u := by
  by_cases filled : u = []
  · simp [filled, codes, lines]
  · obtain ⟨above, cut, ends⟩ := exists_lastLine t
    have noFeed := lastLine_noFeed t
    obtain ⟨x, xs, behind, whole⟩ := map_text_lines_append noFeed filled
    have line : codes (t.lastLine ++ u) = inlineCode t.lastLine ++ codes u := by
      rw [codes_eq_flatMap_texts, whole, codes_eq_flatMap_texts u, behind, List.flatMap_cons,
        List.flatMap_cons, inlineCode_append_of_even even, List.append_assoc]
    calc codes (t ++ u) = codes (above ++ (t.lastLine ++ u)) := by rw [← List.append_assoc, ← cut]
      _ = codes above ++ inlineCode t.lastLine ++ codes u := by
        rw [codes_append_of_endsLine ends, line, List.append_assoc]
      _ = codes t ++ codes u := by
        conv => rhs; rw [cut]
        rw [codes_append_of_endsLine ends, codes_of_noFeed noFeed]

theorem codes_of_lone {t : Text} (lone : t.ticks ≤ 1) : t.codes = [] := by
  rw [codes, List.flatMap_eq_nil_iff]
  intro l mem
  refine inlineCode_of_lone (Nat.le_trans ?_ lone)
  have part : l.text <:+: t := by
    rw [← join_lines t]
    obtain ⟨ls, ms, same⟩ := List.append_of_mem mem
    exact ⟨Line.join ls, Line.join ms, by rw [same]; simp⟩
  exact part.sublist.count_le _

/-- The first line of a text as it stands in it. -/
theorem exists_map_text_lines {t : Text} (filled : t ≠ []) :
    ∃ xs, t.lines.map (·.text) = t.firstLine :: xs := by
  obtain ⟨rest, cut, ⟨rfl, noFeed⟩ | ⟨w, feed, noFeed⟩⟩ := exists_firstLine t
  · rw [List.append_nil] at cut
    rw [← cut, lines_of_noFeed filled noFeed]
    exact ⟨[], by simp [Line.text, Ending.text]⟩
  · obtain ⟨l, line, text⟩ := exists_line_of_noFeed (e := ['\n']) noFeed (.inr rfl)
    refine ⟨rest.lines.map (·.text), ?_⟩
    conv => lhs; rw [cut, feed, lines_append (allEnded_lines List.getLast?_concat), line]
    simp [text, feed]

/-! ## Stretches that are replaced -/

/-- A stretch may be replaced without a change of the inline code around it: it stands where the
backticks of its line are paired, and so are its own and those of its replacement, which holds the same
inline code; or all that is left of the line, the stretch included, holds no backtick. -/
def KeepsCode (before old new behind : Text) : Prop :=
  (before.lastLine.ticks % 2 = 0 ∧ old.lastLine.ticks % 2 = 0 ∧ new.lastLine.ticks % 2 = 0 ∧
      new.codes = old.codes) ∨
    ('\x60' ∉ old ++ new ∧ '\n' ∉ old ++ new ∧ '\x60' ∉ behind.firstLine)

instance (before old new behind : Text) : Decidable (KeepsCode before old new behind) :=
  inferInstanceAs (Decidable (_ ∨ _))

/-- Every stretch among pieces may be replaced, when `before` stands in front of them. -/
def Piece.KeepCode : Text → List Piece → Prop
  | _, [] => True
  | before, .kept c :: ps => KeepCode (before ++ [c]) ps
  | before, .put old new :: ps => KeepsCode before old new (source ps) ∧ KeepCode (before ++ old) ps

instance Piece.decidableKeepCode : (before : Text) → (ps : List Piece) → Decidable (KeepCode before ps)
  | _, [] => .isTrue trivial
  | before, .kept c :: ps => decidableKeepCode (before ++ [c]) ps
  | before, .put old new :: ps =>
    have := decidableKeepCode (before ++ old) ps
    inferInstanceAs (Decidable (KeepsCode before old new (source ps) ∧ KeepCode (before ++ old) ps))

theorem ticks_lastLine_append (t u : Text) :
    (lastLine (t ++ u)).ticks = if '\n' ∈ u then u.lastLine.ticks else t.lastLine.ticks + u.ticks := by
  split
  case isTrue feed => rw [lastLine_append_of_feed feed]
  case isFalse noFeed =>
    obtain ⟨above, cut, ends⟩ := exists_lastLine t
    conv => lhs; rw [cut, List.append_assoc]
    rw [lastLine_append ends, lastLine_of_noFeed, ticks_append]
    simpa using ⟨lastLine_noFeed t, noFeed⟩

/-- Backticks that are paired before a text, and in it, are paired behind it. -/
theorem even_lastLine_append {t u : Text} (left : t.lastLine.ticks % 2 = 0)
    (right : u.lastLine.ticks % 2 = 0) : (lastLine (t ++ u)).ticks % 2 = 0 := by
  rw [ticks_lastLine_append]
  split
  case isTrue => exact right
  case isFalse noFeed =>
    rw [lastLine_of_noFeed noFeed] at right
    omega

/-- What stands behind the last backtick of a line does not matter. -/
theorem codes_append_plain (t : Text) {u v : Text} (noTick : '\x60' ∉ u) (noFeed : '\n' ∉ u)
    (rest : '\x60' ∉ v.firstLine) :
    codes (t ++ (u ++ v)) = codes t ++ codes v := by
  obtain ⟨above, cut, ends⟩ := exists_lastLine t
  have line : codes (t.lastLine ++ (u ++ v)) = inlineCode t.lastLine ++ codes v := by
    have joined : '\n' ∉ t.lastLine ++ u := by simpa using ⟨lastLine_noFeed t, noFeed⟩
    by_cases filled : v = []
    · subst filled
      rw [List.append_nil, codes_of_noFeed joined, inlineCode_append _ noTick]
      exact (List.append_nil _).symm
    · obtain ⟨x, xs, behind, whole⟩ := map_text_lines_append joined filled
      obtain ⟨ys, first⟩ := exists_map_text_lines filled
      obtain ⟨rfl, rfl⟩ := List.cons.inj (behind.symm.trans first)
      have none : inlineCode v.firstLine = [] :=
        inlineCode_of_lone (by rw [List.count_eq_zero.2 rest]; exact Nat.zero_le 1)
      rw [← List.append_assoc, codes_eq_flatMap_texts, whole, codes_eq_flatMap_texts v, behind,
        List.flatMap_cons, List.flatMap_cons, inlineCode_append _ rest, inlineCode_append _ noTick,
        none, List.nil_append]
  calc codes (t ++ (u ++ v)) = codes (above ++ (t.lastLine ++ (u ++ v))) := by
        rw [← List.append_assoc above, ← cut]
    _ = codes above ++ inlineCode t.lastLine ++ codes v := by
      rw [codes_append_of_endsLine ends, line, List.append_assoc]
    _ = codes t ++ codes v := by
      conv => rhs; rw [cut]
      rw [codes_append_of_endsLine ends, codes_of_noFeed (lastLine_noFeed t)]

/-- **Replacing stretches keeps the inline code**, from the first of them to the last: what was
replaced before has left the backticks of the line paired or unpaired as they were. -/
theorem codes_target {before after : Text} {ps : List Piece}
    (same : after.lastLine.ticks % 2 = before.lastLine.ticks % 2)
    (keep : Piece.KeepCode before ps) :
    codes (after ++ Piece.target ps) = codes (after ++ Piece.source ps) := by
  induction ps generalizing before after with
  | nil => rfl
  | cons p ps ih =>
    cases p with
    | kept c =>
      have parity : (lastLine (after ++ [c])).ticks % 2 = (lastLine (before ++ [c])).ticks % 2 := by
        rw [ticks_lastLine_append, ticks_lastLine_append]
        split
        · rfl
        · omega
      have later := ih parity keep
      rw [List.append_assoc, List.append_assoc] at later
      exact later
    | put old new =>
      obtain ⟨here, rest⟩ := keep
      rw [Piece.target_put, Piece.source_put]
      rcases here with ⟨even, oldEven, newEven, codesEq⟩ | ⟨noTick, noFeed, plain⟩
      · have afterEven : after.lastLine.ticks % 2 = 0 := same.trans even
        have parity : (lastLine (after ++ new)).ticks % 2 = (lastLine (before ++ old)).ticks % 2 :=
          (even_lastLine_append afterEven newEven).trans (even_lastLine_append even oldEven).symm
        have later := ih parity rest
        rw [List.append_assoc, List.append_assoc] at later
        rw [later, codes_append afterEven, codes_append newEven, codes_append afterEven,
          codes_append oldEven, codesEq]
      · simp only [List.mem_append, not_or] at noTick noFeed
        have parity : (lastLine (after ++ new)).ticks % 2 = (lastLine (before ++ old)).ticks % 2 := by
          rw [ticks_lastLine_append, ticks_lastLine_append, if_neg noFeed.1, if_neg noFeed.2,
            ticks_eq_zero.2 noTick.1, ticks_eq_zero.2 noTick.2]
          exact same
        have later := ih parity rest
        rw [List.append_assoc, List.append_assoc] at later
        rw [later, codes_append_plain after noTick.2 noFeed.2 plain,
          codes_append_plain after noTick.1 noFeed.1 plain]

/-- **A rule whose stretches keep the code around them keeps the inline code of a text.** -/
theorem codes_rewrite {rule : Text → Option (Text × Nat)} {t : Text}
    (keep : Piece.KeepCode [] (pieces rule t)) : codes (rewrite rule t) = codes t := by
  simpa using codes_target rfl keep

/-- Pieces that become no more backticks than they were. -/
theorem Piece.ticks_target_le {ps : List Piece} (fewer : ∀ p ∈ ps, ticks p.new ≤ ticks p.old) :
    ticks (target ps) ≤ ticks (source ps) := by
  induction ps with
  | nil => exact Nat.le_refl _
  | cons p ps ih =>
    obtain ⟨first, rest⟩ := List.forall_mem_cons.1 fewer
    have after : target (p :: ps) = p.new ++ target ps := rfl
    have before : source (p :: ps) = p.old ++ source ps := rfl
    rw [after, before, ticks_append, ticks_append]
    exact Nat.add_le_add first (ih rest)

/-- A rule that puts no more backticks than it reads adds none to a text. -/
theorem ticks_rewrite_le {rule : Text → Option (Text × Nat)}
    (fewer : ∀ ⦃t new : Text⦄ ⦃n : Nat⦄, rule t = some (new, n) →
      ticks new ≤ ticks (t.take (n - 1 + 1))) (t : Text) : ticks (rewrite rule t) ≤ ticks t := by
  have each : ∀ p ∈ pieces rule t, ticks p.new ≤ ticks p.old := by
    intro p mem
    cases p with
    | kept c => exact Nat.le_refl _
    | put old new =>
      obtain ⟨u, n, applies, rfl⟩ := exists_of_put_mem mem
      exact fewer applies
  simpa using Piece.ticks_target_le each

/-! ## The prose of lines -/

section LineProse

variable {f : Text → Text}

theorem codes_append_of_noTick {t : Text} (noTick : '\x60' ∉ t) (u : Text) :
    codes (t ++ u) = codes u := by
  have none : t.lastLine.ticks = 0 := by
    obtain ⟨above, cut, -⟩ := exists_lastLine t
    rw [cut, List.mem_append, not_or] at noTick
    exact ticks_eq_zero.2 noTick.2
  rw [codes_append (by rw [none]), codes_of_lone (by rw [ticks_eq_zero.2 noTick]; exact Nat.zero_le 1),
    List.nil_append]

theorem codes_span_append {x : Text} (noTick : '\x60' ∉ x) (noFeed : '\n' ∉ x) (rest : Text) :
    codes ('\x60' :: (x ++ '\x60' :: rest)) = ('\x60' :: (x ++ ['\x60'])) :: codes rest := by
  have spanFeed : '\n' ∉ '\x60' :: (x ++ ['\x60']) := by simpa using noFeed
  have even : (lastLine ('\x60' :: (x ++ ['\x60']))).ticks % 2 = 0 := by
    rw [lastLine_of_noFeed spanFeed]
    simp [ticks, List.count_append, List.count_eq_zero.2 noTick]
  have alone : inlineCode ('\x60' :: (x ++ ['\x60'])) = ['\x60' :: (x ++ ['\x60'])] :=
    inlineCode_span (a := []) nofun noTick []
  have cut : '\x60' :: (x ++ '\x60' :: rest) = '\x60' :: (x ++ ['\x60']) ++ rest := by simp
  rw [cut, codes_append even, codes_of_noFeed spanFeed, alone]
  rfl

/-- A pass over the prose of a line, as it stands in the text. -/
theorem codes_mapOutsideCode (fewer : ∀ t, ticks (f t) ≤ ticks t) {t : Text}
    (oneLine : '\n' ∉ t.dropLast) : codes (mapOutsideCode f t) = codes t := by
  have part (u : Text) : ticks (if u = [] then [] else f u) ≤ ticks u := by
    split
    case isTrue => exact Nat.zero_le _
    case isFalse => exact fewer u
  induction t using codeSpans_induction with
  | span a x rest before inside ih =>
    have rewritten : '\x60' ∉ (if a = [] then [] else f a) :=
      ticks_eq_zero.1 (Nat.le_zero.1 (Nat.le_trans (part a) (ticks_eq_zero.2 before).le))
    have dropLast : List.dropLast (a ++ '\x60' :: (x ++ '\x60' :: rest)) =
        a ++ '\x60' :: (x ++ List.dropLast ('\x60' :: rest)) := by
      rw [List.dropLast_append_of_ne_nil (by simp), List.dropLast_cons_of_ne_nil (by simp),
        List.dropLast_append_of_ne_nil (by simp)]
    rw [dropLast] at oneLine
    have noFeed : '\n' ∉ x := fun mem => oneLine (by simp [mem])
    have restLine : '\n' ∉ rest.dropLast := by
      intro mem
      have filled : rest ≠ [] := by rintro rfl; cases mem
      rw [List.dropLast_cons_of_ne_nil filled] at oneLine
      exact oneLine (by simp [mem])
    rw [mapOutsideCode_span before inside, codes_append_of_noTick rewritten,
      codes_append_of_noTick before, codes_span_append inside noFeed, codes_span_append inside noFeed,
      ih restLine]
  | lone t lone =>
    rw [mapOutsideCode_of_lone lone, codes_of_lone (Nat.le_trans (part t) lone),
      codes_of_lone lone]

/-- A pass that keeps the line feed at the end of the prose of a line keeps the line feed of the
line. -/
theorem getLast?_mapOutsideCode (whole : ∀ t, t.getLast? = some '\n' → (f t).getLast? = some '\n')
    {t : Text} (feed : t.getLast? = some '\n') : (mapOutsideCode f t).getLast? = some '\n' := by
  induction t using codeSpans_induction with
  | span a x rest before inside ih =>
    have last (a r : Text) :
        (a ++ '\x60' :: (x ++ '\x60' :: r)).getLast? = ('\x60' :: r).getLast? := by
      rw [List.getLast?_append_of_ne_nil _ (by simp), List.getLast?_cons_of_ne_nil (by simp),
        List.getLast?_append_of_ne_nil _ (by simp)]
    rw [last] at feed
    have filled : rest ≠ [] := by
      rintro rfl
      simp at feed
    rw [List.getLast?_cons_of_ne_nil filled] at feed
    have later := ih feed
    have rewritten : mapOutsideCode f rest ≠ [] := by
      intro empty
      rw [empty] at later
      cases later
    rw [mapOutsideCode_span before inside, last, List.getLast?_cons_of_ne_nil rewritten, later]
  | lone t lone =>
    have filled : t ≠ [] := by
      rintro rfl
      cases feed
    rw [mapOutsideCode_of_lone lone, if_neg filled]
    exact whole t feed

/-- A line that has an ending. -/
theorem getLast?_text {l : Line} (ended : l.ending ≠ .none) : l.text.getLast? = some '\n' := by
  cases ending : l.ending with
  | none => exact (ended ending).elim
  | lf => simp [Line.text, ending, Ending.text]
  | crlf => simp [Line.text, ending, Ending.text]

theorem noFeed_dropLast_text {l : Line} (whole : l.IsWhole) : '\n' ∉ l.text.dropLast := by
  have noFeed := whole.noFeed
  cases ending : l.ending with
  | none =>
    rw [Line.text, ending, Ending.text, List.append_nil]
    exact fun mem => noFeed (List.dropLast_subset _ mem)
  | lf => simpa [Line.text, ending, Ending.text] using noFeed
  | crlf =>
    rw [Line.text, ending, Ending.text, List.dropLast_append_of_ne_nil (by simp)]
    simpa using noFeed

/-- **A pass over the prose of lines keeps the inline code of a text**, if it adds no backtick and
keeps line feeds. -/
theorem codes_mapLineProse (fewer : ∀ t, ticks (f t) ≤ ticks t)
    (whole : ∀ t, t.getLast? = some '\n' → (f t).getLast? = some '\n') (t : Text) :
    codes (mapLineProse f t) = codes t := by
  have each : ∀ ls : List Line, Line.AreLines ls →
      codes (ls.flatMap fun l => mapOutsideCode f l.text) = ls.flatMap fun l => l.text.inlineCode := by
    intro ls lines
    induction ls with
    | nil => rfl
    | cons l ls ih =>
      obtain ⟨isWhole, last, rest⟩ := lines
      have alone : l.text.lines = [l] := lines_text isWhole fun none => (last none).1
      have line : codes (mapOutsideCode f l.text) = l.text.inlineCode := by
        rw [codes_mapOutsideCode fewer (noFeed_dropLast_text isWhole), codes, alone]
        simp
      rw [List.flatMap_cons, List.flatMap_cons]
      by_cases none : l.ending = .none
      · obtain ⟨-, rfl⟩ := last none
        simpa using line
      · have ends := getLast?_mapOutsideCode whole (getLast?_text none)
        rw [codes_append_of_endsLine (.inr ends), line, ih rest]
  exact each t.lines (areLines_lines t)

/-- A pass over the prose of lines keeps the line feed at the end of a text. -/
theorem endsLine_mapLineProse (whole : ∀ t, t.getLast? = some '\n' → (f t).getLast? = some '\n')
    {t : Text} (ends : t.EndsLine) : (mapLineProse f t).EndsLine := by
  have ended := ends.allEnded
  rw [mapLineProse]
  revert ended
  induction t.lines with
  | nil => exact fun _ => .inl rfl
  | cons l ls ih =>
    intro ended
    obtain ⟨first, rest⟩ := List.forall_mem_cons.1 ended
    exact EndsLine.append (.inr (getLast?_mapOutsideCode whole (getLast?_text first))) (ih rest)

end LineProse

end Text
end MdxPress
