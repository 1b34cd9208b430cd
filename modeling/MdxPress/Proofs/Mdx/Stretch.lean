import MdxPress.Proofs.Marker.Written
import MdxPress.Proofs.Page.SameCode

/-!
A line cut into stretches: inline code, markers, a marker that does not end, and the plain text between
them.  The scan for markers and the mask of protected braces are written apart, one as a rule with hits
and one as a walk with a flag; they agree on the stretches, and still do behind the escaping.

* `Text.stretches` cuts a line, `Text.proseStretches` one of its prose parts, and `Text.prose_induction`
  is the induction on the cut;
* `Text.join_stretches` says that nothing is lost;
* `Brace.escapePart_plain`, `Brace.escapePart_marker` and `Brace.escapePart_unended` are the three things
  that escaping meets in a prose part;
* `Brace.stretches_escapeLine` is the result: an escaped line has the stretches of the line, each as
  `Stretch.escape` leaves it.
-/

namespace MdxPress

/-- A stretch of a line. -/
inductive Stretch where
  /-- Inline code, with its backticks. -/
  | code (text : Text)
  /-- Prose in which no marker begins. -/
  | plain (text : Text)
  /-- A marker, or what would be one if it had a name. -/
  | marker (inside : Text)
  /-- What follows a `{%` that has no `%}` behind it. -/
  | unended (behind : Text)
  deriving DecidableEq, Repr

namespace Stretch

/-- A stretch as it stands in the line. -/
def text : Stretch → Text
  | code t => t
  | plain t => t
  | marker inside => Marker.delimited inside
  | unended behind => '{' :: '%' :: behind

/-- Stretches put together. -/
def join (ss : List Stretch) : Text :=
  ss.flatMap text

end Stretch

namespace Text

set_option linter.unusedVariables false in
/-- The stretches of a prose part of a line.  A marker runs to the first `%}` behind its `{%`, or to the
end of the part. -/
def proseStretches (t : Text) : List Stretch :=
  match first : breakOn ['{', '%'] t with
  | none => [.plain t]
  | some (gap, behind) =>
    match last : breakOn ['%', '}'] behind with
    | none => [.plain gap, .unended behind]
    | some (inside, rest) => .plain gap :: .marker inside :: proseStretches rest
termination_by t.length
decreasing_by
  have opened := congrArg List.length (breakOn_append first)
  have closed := congrArg List.length (breakOn_append last)
  simp only [List.length_append, List.length_cons, List.length_nil] at opened closed
  omega

/-- The stretches of a line. -/
def stretches (line : Text) : List Stretch :=
  line.codeSpans.flatMap fun s => if s.isCode then [.code s.text] else s.text.proseStretches

/-! ## The cut of a prose part -/

section Steps

variable {t gap inside behind : Text}

theorem proseStretches_plain (noOpener : NoPair '{' '%' t) : proseStretches t = [.plain t] := by
  have absent : breakOn ['{', '%'] t = none := breakOn_eq_none_iff.2 noOpener
  rw [proseStretches]
  split
  case h_1 => rfl
  case h_2 cut => cases absent.symm.trans cut

theorem proseStretches_unended (noOpener : NoPair '{' '%' gap) (noCloser : NoPair '%' '}' behind) :
    proseStretches (gap ++ '{' :: '%' :: behind) = [.plain gap, .unended behind] := by
  have opened : breakOn ['{', '%'] (gap ++ '{' :: '%' :: behind) = some (gap, behind) :=
    breakOn_pair noOpener (by decide) behind
  have absent : breakOn ['%', '}'] behind = none := breakOn_eq_none_iff.2 noCloser
  rw [proseStretches]
  split
  case h_1 cut => cases opened.symm.trans cut
  case h_2 cut =>
    cases opened.symm.trans cut
    split
    case h_1 => rfl
    case h_2 cut => cases absent.symm.trans cut

theorem proseStretches_marker (noOpener : NoPair '{' '%' gap) (noCloser : NoPair '%' '}' inside)
    (rest : Text) : proseStretches (gap ++ (Marker.delimited inside ++ rest)) =
      .plain gap :: .marker inside :: proseStretches rest := by
  have whole : gap ++ (Marker.delimited inside ++ rest) =
      gap ++ '{' :: '%' :: (inside ++ '%' :: '}' :: rest) := by simp [Marker.delimited]
  have opened := breakOn_pair noOpener (by decide) (inside ++ '%' :: '}' :: rest)
  have closed := breakOn_pair noCloser (by decide) rest
  rw [whole, proseStretches]
  split
  case h_1 cut => cases opened.symm.trans cut
  case h_2 cut =>
    cases opened.symm.trans cut
    split
    case h_1 cut => cases closed.symm.trans cut
    case h_2 cut =>
      cases closed.symm.trans cut
      rfl

/-- **Induction on the stretches of a prose part**: plain text to its end, plain text and a marker that
does not end, or plain text, a marker, and the rest. -/
@[elab_as_elim]
theorem prose_induction {motive : Text → Prop} (plain : ∀ t, NoPair '{' '%' t → motive t)
    (unended : ∀ gap behind : Text, NoPair '{' '%' gap → NoPair '%' '}' behind →
      motive (gap ++ '{' :: '%' :: behind))
    (marker : ∀ gap inside rest : Text, NoPair '{' '%' gap → NoPair '%' '}' inside → motive rest →
      motive (gap ++ (Marker.delimited inside ++ rest))) (t : Text) : motive t := by
  induction length : t.length using Nat.strongRecOn generalizing t with
  | ind n ih =>
    subst length
    cases first : breakOn ['{', '%'] t with
    | none => exact plain t (breakOn_eq_none_iff.1 first)
    | some p =>
      have opened : t = p.1 ++ '{' :: '%' :: p.2 := by simp [← breakOn_append first]
      have noOpener := noPair_of_breakOn first
      cases last : breakOn ['%', '}'] p.2 with
      | none =>
        rw [opened]
        exact unended _ _ noOpener (breakOn_eq_none_iff.1 last)
      | some q =>
        have closed : t = p.1 ++ (Marker.delimited q.1 ++ q.2) := by
          rw [opened, ← breakOn_append last]
          simp [Marker.delimited]
        have shorter : q.2.length < t.length := by
          rw [closed]
          simp only [List.length_append, Marker.delimited, List.length_cons]
          omega
        rw [closed]
        exact marker _ _ _ noOpener (noPair_of_breakOn last) (ih _ shorter _ rfl)

end Steps

/-- The stretches of a prose part put together are the part. -/
theorem join_proseStretches (t : Text) : Stretch.join t.proseStretches = t := by
  induction t using prose_induction with
  | plain t noOpener => simp [proseStretches_plain noOpener, Stretch.join, Stretch.text]
  | unended gap behind noOpener noCloser =>
    simp [proseStretches_unended noOpener noCloser, Stretch.join, Stretch.text]
  | marker gap inside rest noOpener noCloser ih =>
    rw [proseStretches_marker noOpener noCloser, Stretch.join, List.flatMap_cons, List.flatMap_cons,
      ← Stretch.join, ih]
    rfl

/-- **The stretches of a line put together are the line.** -/
theorem join_stretches (line : Text) : Stretch.join line.stretches = line := by
  rw [Stretch.join, stretches, List.flatMap_assoc]
  conv => rhs; rw [← flatMap_text_codeSpans line]
  refine List.flatMap_congr fun s _ => ?_
  cases s.isCode with
  | true => simp [Stretch.text]
  | false => exact join_proseStretches s.text

end Text

/-! ## Escaping a prose part -/

namespace Brace

/-- Characters are covered as the first of them, up to a delimiter. -/
theorem markerMask_append {isOpen : Bool} {gap rest : Text}
    (noOpener : isOpen = false → Text.NoPair '{' '%' (gap ++ rest.head?.toList))
    (noCloser : isOpen = true → Text.NoPair '%' '}' (gap ++ rest.head?.toList)) :
    markerMask isOpen (gap ++ rest) = gap.map (fun c => (c, isOpen)) ++ markerMask isOpen rest := by
  induction gap with
  | nil => rfl
  | cons c gap ih =>
    rw [List.cons_append, markerMask_cons (fun closed => (noOpener closed).of_cons.1)
      (fun opened => (noCloser opened).of_cons.1),
      ih (fun closed => (noOpener closed).of_cons.2) fun opened => (noCloser opened).of_cons.2]
    rfl

theorem flatMap_escapeChar_protected (t : Text) :
    (t.map fun c => (c, true)).flatMap escapeChar = t := by
  simp [List.flatMap_map, escapeChar_of_isProtected]

/-- Prose in which no marker begins, with its braces escaped. -/
def escapePlain (t : Text) : Text :=
  t.flatMap fun c => escapeChar (c, false)

/-- No brace that opens a marker is written for an unprotected character. -/
theorem brace_not_mem_escapePlain (t : Text) : '{' ∉ escapePlain t := by
  intro mem
  obtain ⟨c, -, written⟩ := List.mem_flatMap.1 mem
  by_cases left : c = '{'
  · subst left; revert written; decide
  · by_cases right : c = '}'
    · subst right; revert written; decide
    · rw [escapeChar_of_not_brace left right, List.mem_singleton] at written
      exact left written.symm

theorem noPair_escapePlain (t : Text) : Text.NoPair '{' '%' (escapePlain t) :=
  Text.noPair_of_not_mem (.inl (brace_not_mem_escapePlain t))

/-- Up to where a marker begins, every brace is escaped. -/
theorem escapePart_append {gap rest : Text} (noOpener : Text.NoPair '{' '%' (gap ++ rest.head?.toList)) :
    escapePart (gap ++ rest) = escapePlain gap ++ escapePart rest := by
  rw [escapePart, markerMask_append (fun _ => noOpener) (by simp), List.flatMap_append, List.flatMap_map]
  rfl

theorem escapePart_plain {t : Text} (noOpener : Text.NoPair '{' '%' t) :
    escapePart t = escapePlain t := by
  have whole : escapePart (t ++ []) = escapePlain t ++ escapePart [] :=
    escapePart_append (by simpa using noOpener)
  simpa [escapePart, markerMask] using whole

section Opened

variable {gap : Text} (noOpener : Text.NoPair '{' '%' gap)

include noOpener

theorem escapePart_opened (behind : Text) :
    escapePart (gap ++ '{' :: '%' :: behind) =
      escapePlain gap ++ '{' :: '%' :: (markerMask true behind).flatMap escapeChar := by
  rw [escapePart_append (noOpener.concat (by decide)), escapePart, markerMask]
  simp [escapeChar_of_isProtected]

/-- A marker stays as it is, whatever its inside. -/
theorem escapePart_marker {inside : Text} (noCloser : Text.NoPair '%' '}' inside) (rest : Text) :
    escapePart (gap ++ (Marker.delimited inside ++ rest)) =
      escapePlain gap ++ (Marker.delimited inside ++ escapePart rest) := by
  have text (u : Text) : Marker.delimited inside ++ u = '{' :: '%' :: (inside ++ '%' :: '}' :: u) := by
    simp [Marker.delimited]
  rw [text, text, escapePart_opened noOpener,
    markerMask_append (by simp) fun _ => noCloser.concat (by decide), markerMask,
    List.flatMap_append, flatMap_escapeChar_protected]
  simp [escapePart, escapeChar_of_isProtected]

/-- Behind a marker that does not end, everything stays as it is. -/
theorem escapePart_unended {behind : Text} (noCloser : Text.NoPair '%' '}' behind) :
    escapePart (gap ++ '{' :: '%' :: behind) = escapePlain gap ++ '{' :: '%' :: behind := by
  have covered : markerMask true (behind ++ []) = behind.map (fun c => (c, true)) ++ markerMask true [] :=
    markerMask_append (by simp) fun _ => by simpa using noCloser
  rw [List.append_nil, markerMask, List.append_nil] at covered
  rw [escapePart_opened noOpener, covered, flatMap_escapeChar_protected]

end Opened

theorem escapePart_ne_nil {t : Text} (filled : t ≠ []) : escapePart t ≠ [] := by
  intro empty
  have none : markerMask false t = [] := by
    rw [List.eq_nil_iff_forall_not_mem]
    intro k mem
    have own := List.flatMap_eq_nil_iff.1 empty k mem
    unfold escapeChar at own
    split at own <;> cases own
  have whole := map_fst_markerMask false t
  rw [none] at whole
  exact filled whole.symm

end Brace

/-! ## The stretches of an escaped line -/

/-- What escaping makes of a stretch: only plain text is rewritten. -/
def Stretch.escape : Stretch → Stretch
  | plain t => plain (Brace.escapePlain t)
  | s => s

namespace Brace

theorem proseStretches_escapePart (t : Text) :
    (escapePart t).proseStretches = t.proseStretches.map Stretch.escape := by
  induction t using Text.prose_induction with
  | plain t noOpener =>
    rw [escapePart_plain noOpener, Text.proseStretches_plain (noPair_escapePlain t),
      Text.proseStretches_plain noOpener]
    rfl
  | unended gap behind noOpener noCloser =>
    rw [escapePart_unended noOpener noCloser,
      Text.proseStretches_unended (noPair_escapePlain gap) noCloser,
      Text.proseStretches_unended noOpener noCloser]
    rfl
  | marker gap inside rest noOpener noCloser ih =>
    rw [escapePart_marker noOpener noCloser,
      Text.proseStretches_marker (noPair_escapePlain gap) noCloser,
      Text.proseStretches_marker noOpener noCloser, ih]
    rfl

/-- **The stretches of an escaped line** are those of the line, in the same order: code and markers as
they stand, and the plain text between them with its braces escaped. -/
theorem stretches_escapeLine (line : Text) :
    (escapeLine line).stretches = line.stretches.map Stretch.escape := by
  rw [escapeLine_eq_mapOutsideCode, Text.stretches,
    Text.codeSpans_mapOutsideCode count_tick_escapePart, List.flatMap_assoc, Text.stretches,
    List.map_flatMap]
  refine List.flatMap_congr fun s mem => ?_
  cases code : s.isCode with
  | true => simp [code, Stretch.escape]
  | false =>
    have filled := escapePart_ne_nil (Text.of_mem_codeSpans mem).1
    simp [Text.prosePart, filled, proseStretches_escapePart]

end Brace

end MdxPress
