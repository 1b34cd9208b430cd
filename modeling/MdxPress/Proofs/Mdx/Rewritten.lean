import MdxPress.Proofs.Mdx.Stretch

/-!
What escaping rewrites in a body, and what it leaves alone.

* `Brace.unescape` puts braces for their references; `Brace.Escapes.unescape_eq` says that a text and
  its escaping come out of it alike, so no character was lost, doubled or taken for another;
* `Brace.escapeLine_eq_self_iff` says when a line is left as it is;
* `Brace.Rewrites` is what becomes of a line of each class, and `escapeBraces_rewrites` the body.
-/

namespace MdxPress

namespace Brace

/-! ## References taken back -/

/-- A text with braces for their references. -/
def unescape (t : Text) : Text :=
  Text.replace rightReference ['}'] (Text.replace leftReference ['{'] t)

/-- A text whose references for opening braces are taken back is the escaping of what it was. -/
theorem escapes_replace_left (t : Text) : Escapes (Text.replace leftReference ['{'] t) t := by
  induction length : t.length using Nat.strongRecOn generalizing t with
  | ind n ih =>
    subst length
    by_cases starts : leftReference <+: t
    · obtain ⟨r, rfl⟩ := starts
      have shorter : r.length < (leftReference ++ r).length := by
        simp only [leftReference_eq, List.length_append, List.length_cons]
        omega
      rw [Text.replace_append _ (by decide)]
      exact .left (ih _ shorter r rfl)
    · cases t with
      | nil => exact .nil
      | cons c r =>
        rw [Text.replace_cons _ starts]
        exact .same c (ih _ (Nat.lt_succ_self _) r rfl)

theorem unescape_left (t : Text) : unescape (leftReference ++ t) = '{' :: unescape t := by
  rw [unescape, Text.replace_append _ (by decide), List.singleton_append, Text.replace_cons, unescape]
  rw [rightReference_eq, List.cons_prefix_cons]
  exact fun starts => absurd starts.1 (by decide)

theorem unescape_right (t : Text) : unescape (rightReference ++ t) = '}' :: unescape t := by
  have copied : Text.replace leftReference ['{'] (rightReference ++ t) =
      rightReference ++ Text.replace leftReference ['{'] t := by
    simp [rightReference_eq, leftReference_eq, Text.replace, Text.replaceFrom, List.isPrefixOf]
  rw [unescape, copied, Text.replace_append _ (by decide), List.singleton_append, unescape]

/-- A character at which no reference begins stays, whatever is put behind it. -/
theorem unescape_cons {c : Char} {t : Text} (noLeft : ¬ leftReference <+: c :: t)
    (noRight : ¬ rightReference <+: c :: t) : unescape (c :: t) = c :: unescape t := by
  rw [unescape, Text.replace_cons _ noLeft, Text.replace_cons, unescape]
  rw [rightReference_eq, List.cons_prefix_cons] at noRight ⊢
  rintro ⟨first, u, rest⟩
  have behind := escapes_replace_left t
  rw [← rest] at behind
  obtain ⟨v, rfl, -⟩ := behind.exists_of_append (by decide)
  exact noRight ⟨first, List.prefix_append _ v⟩

theorem unescape_brace {c : Char} (brace : c = '{' ∨ c = '}') (t : Text) :
    unescape (c :: t) = c :: unescape t := by
  have other : c ≠ '&' := by rcases brace with rfl | rfl <;> decide
  refine unescape_cons ?_ ?_
  · rw [leftReference_eq, List.cons_prefix_cons]
    exact fun starts => other starts.1.symm
  · rw [rightReference_eq, List.cons_prefix_cons]
    exact fun starts => other starts.1.symm

/-- A reference that was written out begins both texts, or neither of them. -/
theorem Escapes.reference_cases {w t u : Text} (h : Escapes t u) (c : Char) (noBrace : '{' ∉ w ∧ '}' ∉ w)
    (noAmpersand : '&' ∉ w) :
    (∃ v r, c :: t = '&' :: w ++ v ∧ c :: u = '&' :: w ++ r ∧ Escapes v r) ∨
      ¬ '&' :: w <+: c :: t ∧ ¬ '&' :: w <+: c :: u := by
  by_cases starts : '&' :: w <+: c :: u
  · obtain ⟨rfl, r, rfl⟩ := List.cons_prefix_cons.1 starts
    obtain ⟨v, rfl, behind⟩ := h.exists_of_append_right noAmpersand
    exact .inl ⟨v, r, rfl, rfl, behind⟩
  · refine .inr ⟨fun before => starts ?_, starts⟩
    obtain ⟨rfl, v, rfl⟩ := List.cons_prefix_cons.1 before
    obtain ⟨r, rfl, -⟩ := h.exists_of_append noBrace
    exact List.prefix_append ('&' :: w) r

/-- **An escaped text comes out as the text does**, when braces are put for references in both. -/
theorem Escapes.unescape_eq {t u : Text} (h : Escapes t u) : unescape u = unescape t := by
  induction length : u.length using Nat.strongRecOn generalizing t u with
  | ind n ih =>
    subst length
    have shorter (w r : Text) : r.length < ('&' :: w ++ r).length := by
      simp only [List.length_append, List.length_cons]
      omega
    cases h with
    | nil => rfl
    | @left t u rest =>
      rw [unescape_left, unescape_brace (.inl rfl), ih _ (shorter _ u) rest rfl]
    | @right t u rest =>
      rw [unescape_right, unescape_brace (.inr rfl), ih _ (shorter _ u) rest rfl]
    | @same c t u rest =>
      rcases rest.reference_cases c (w := "#123;".toList) (by decide) (by decide) with
        ⟨v, r, before, after, behind⟩ | ⟨noLeft, noLeft'⟩
      · rw [after] at ih
        have taken (x : Text) : unescape ('&' :: "#123;".toList ++ x) = '{' :: unescape x := unescape_left x
        rw [before, after, taken, taken, ih _ (shorter _ r) behind rfl]
      rcases rest.reference_cases c (w := "#125;".toList) (by decide) (by decide) with
        ⟨v, r, before, after, behind⟩ | ⟨noRight, noRight'⟩
      · rw [after] at ih
        have taken (x : Text) : unescape ('&' :: "#125;".toList ++ x) = '}' :: unescape x := unescape_right x
        rw [before, after, taken, taken, ih _ (shorter _ r) behind rfl]
      rw [unescape_cons noLeft' noRight', unescape_cons noLeft noRight,
        ih _ (Nat.lt_succ_self _) rest rfl]

/-! ## Lines that change -/

theorem map_fst_mask (line : Text) : (mask line).map (·.1) = line := by
  rw [mask, List.map_flatMap]
  conv => rhs; rw [← Text.flatMap_text_codeSpans line]
  refine List.flatMap_congr fun s _ => ?_
  cases s.isCode with
  | true => simp [Function.comp_def]
  | false => exact map_fst_markerMask false s.text

theorem escapeChar_of_not_isStray {k : Char × Bool} (plain : isStray k = false) :
    escapeChar k = [k.1] := by
  obtain ⟨c, isProtected⟩ := k
  by_cases brace : c = '{' ∨ c = '}'
  · have covered : isProtected = true := by simpa [isStray, brace] using plain
    rw [covered, escapeChar_of_isProtected]
  · obtain ⟨left, right⟩ := not_or.1 brace
    exact escapeChar_of_not_brace left right _

/-- A line is left as it is exactly when no brace of it stands unprotected. -/
theorem escapeLine_eq_self_iff {line : Text} : escapeLine line = line ↔ strays line = 0 := by
  constructor
  · intro same
    rw [← same, strays_escapeLine]
  · intro none
    rw [strays, List.countP_eq_zero] at none
    have kept : (mask line).flatMap escapeChar = (mask line).flatMap fun k => [k.1] :=
      List.flatMap_congr fun k mem => escapeChar_of_not_isStray (by simpa using none k mem)
    rw [escapeLine, kept, ← List.map_eq_flatMap, map_fst_mask]

/-! ## Lines and their classes -/

/-- What becomes of a line with its class: its ending stays, and so does all of it unless it is prose.
In prose, the stretches are those of the line, in the same order, the inline code and the markers as
they stood; and with braces put for references the two lines are the same. -/
structure Rewrites (k : Line × LineClass) (l : Line) : Prop where
  ending : l.ending = k.1.ending
  copied : k.2 ≠ .prose → l = k.1
  stretches : k.2 = .prose → l.content.stretches = k.1.content.stretches.map Stretch.escape
  unescaped : k.2 = .prose → unescape l.content = unescape k.1.content

theorem rewrites_escapeClassified (k : Line × LineClass) : Rewrites k (escapeClassified k) := by
  obtain ⟨l, c⟩ := k
  cases c with
  | fence | component | exempt => exact ⟨rfl, fun _ => rfl, nofun, nofun⟩
  | prose =>
    exact ⟨rfl, fun other => (other rfl).elim, fun _ => stretches_escapeLine l.content,
      fun _ => (escapes_escapeLine l.content).unescape_eq⟩

/-- A line changes exactly when it is prose with an unprotected brace. -/
theorem ne_escapeClassified_iff (k : Line × LineClass) :
    k.1 ≠ escapeClassified k ↔ k.2 = .prose ∧ strays k.1.content ≠ 0 := by
  obtain ⟨l, c⟩ := k
  cases c with
  | fence | component | exempt => simp [escapeClassified]
  | prose =>
    have changes : ¬ escapeLine l.content = l.content ↔ _ := escapeLine_eq_self_iff.not
    cases l
    simpa [escapeClassified, eq_comm] using changes

end Brace

/-- **Escaping only rewrites what would be evaluated.**  The escaped body has the lines of the body, one
for one, each rewritten as its class allows, and `escapedLines` counts those that differ. -/
theorem escapeBraces_rewrites (body : Text) :
    body.classified.1.map (·.1) = body.lines ∧
      List.Forall₂ Brace.Rewrites body.classified.1 (escapeBraces body).text.lines ∧
      (escapeBraces body).report.escapedLines =
        (body.lines.zip (escapeBraces body).text.lines).countP fun p => p.1 ≠ p.2 := by
  have lines : body.classified.1.map (·.1) = body.lines := classifyLines_lines _ _ _
  refine ⟨lines, ?_, ?_⟩
  · rw [lines_escapeBraces, List.forall₂_map_right_iff]
    exact List.forall₂_same.2 fun k _ => Brace.rewrites_escapeClassified k
  · rw [lines_escapeBraces, ← lines, List.zip_map', List.countP_map]
    refine List.countP_congr fun k _ => ?_
    simp [Brace.ne_escapeClassified_iff]

end MdxPress
