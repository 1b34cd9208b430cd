import MdxPress.Mdx.Glyph
import MdxPress.Proofs.CodeSpan
import MdxPress.Proofs.Fence.Opener
import MdxPress.Proofs.Text.Part

/-!
Texts of which the signs are mended: an entity becomes an ampersand, and an arrow becomes inline code.  A
sign is read from its first character on, which is `&` or `<`, so what stands before it never matters, and a
character that no sign holds divides the text.

* `Glyph.BeginsSign` is a text with a sign at its start, `Glyph.IsForeign` a character of no sign;
* `Glyph.part_induction` is the induction along a part of prose: nothing, an entity, an arrow, or a
  character with which no sign begins;
* `Glyph.Mended` compares a text with its mending, and `Glyph.weight` tells the two apart: mending makes
  a text lighter, or leaves it alone (`Glyph.Mended.eq_of_weight`);
* `Glyph.Mended.opener_eq_none` says that mending opens no block of code;
* `Glyph.mend` is the mending of a line, code aside.  `Glyph.mend_kept`, `Glyph.mend_span_of_even` and
  `Glyph.mend_lone_of_even` take a line apart, and `Glyph.mend_ne_self` says that no sign at its start
  survives.
-/

namespace MdxPress.Glyph

/-- The entity that stands for an ampersand. -/
def entity : Text :=
  "&amp;".toList

/-- A text that begins with a sign of prose. -/
def BeginsSign (t : Text) : Prop :=
  entity <+: t ∨ ∃ a ∈ arrows, a <+: t

/-- A character that stands in no sign of prose. -/
def IsForeign (c : Char) : Prop :=
  c ∉ entity ∧ ∀ a ∈ arrows, c ∉ a

instance : DecidablePred IsForeign :=
  fun _ => inferInstanceAs (Decidable (_ ∧ _))

theorem isForeign_tick : IsForeign '\x60' := by
  decide

theorem isForeign_of_isBlank {c : Char} (blank : isBlank c = true) : IsForeign c := by
  have visible : ∀ t ∈ entity :: arrows, ∀ d ∈ t, isBlank d = false := by decide
  obtain ⟨ofEntity, ofArrows⟩ := List.forall_mem_cons.1 visible
  constructor
  · intro mem
    rw [ofEntity c mem] at blank
    cases blank
  · intro a isArrow mem
    rw [ofArrows a isArrow c mem] at blank
    cases blank

/-! ## Where signs begin -/

section Prefixes

variable {x t u : Text} {c : Char}

theorem head_arrow : ∀ a ∈ arrows, ∃ r, a = '<' :: r ∧ '&' ∉ a ∧ '\x60' ∉ a := by
  intro a isArrow
  have shape : ∀ a ∈ arrows, a.head? = some '<' ∧ '&' ∉ a ∧ '\x60' ∉ a := by decide
  obtain ⟨head, plain⟩ := shape a isArrow
  obtain ⟨r, rfl⟩ := List.head?_eq_some_iff.1 head
  exact ⟨r, rfl, plain⟩

/-- A sign begins with an ampersand or with an angle bracket. -/
theorem BeginsSign.head (begins : BeginsSign (c :: t)) : c = '&' ∨ c = '<' := by
  rcases begins with ⟨r, same⟩ | ⟨a, isArrow, r, same⟩
  · exact .inl (List.cons.inj same).1.symm
  · obtain ⟨tail, rfl, -⟩ := head_arrow a isArrow
    exact .inr (List.cons.inj same).1.symm

theorem beginsSign_ampersand_iff : BeginsSign ('&' :: t) ↔ "amp;".toList <+: t := by
  have whole : entity <+: '&' :: t ↔ "amp;".toList <+: t := List.prefix_cons_inj '&'
  refine ⟨fun begins => ?_, fun here => .inl (whole.2 here)⟩
  rcases begins with here | ⟨a, isArrow, r, same⟩
  · exact whole.1 here
  · obtain ⟨tail, rfl, -⟩ := head_arrow a isArrow
    cases same

theorem not_beginsSign_nil : ¬ BeginsSign [] := by
  rintro (⟨r, same⟩ | ⟨a, isArrow, r, same⟩)
  · cases same
  · obtain ⟨tail, rfl, -⟩ := head_arrow a isArrow
    cases same

theorem BeginsSign.of_prefix (begins : BeginsSign t) (start : t <+: u) : BeginsSign u :=
  begins.imp (·.trans start) fun ⟨a, isArrow, here⟩ => ⟨a, isArrow, here.trans start⟩

/-- A foreign character divides a text: no sign reaches over it. -/
theorem beginsSign_append_iff (foreign : IsForeign c) : BeginsSign (t ++ c :: u) ↔ BeginsSign t := by
  refine or_congr (Text.prefix_append_cons_iff foreign.1) (exists_congr fun a => and_congr_right fun isArrow => ?_)
  exact Text.prefix_append_cons_iff (foreign.2 a isArrow)

/-- The rule for arrows asks for nothing but the arrow that a text begins with. -/
theorem arrowRule_congr (same : ∀ a ∈ arrows, a <+: t ↔ a <+: u) : arrowRule t = arrowRule u := by
  have found : (arrows.find? fun a => t.startsWith a) = arrows.find? fun a => u.startsWith a := by
    generalize arrows = as at same
    induction as with
    | nil => rfl
    | cons a as ih =>
      obtain ⟨first, rest⟩ := List.forall_mem_cons.1 same
      have alike : t.startsWith a = u.startsWith a := by
        rw [Text.startsWith, Text.startsWith, Bool.eq_iff_iff, List.isPrefixOf_iff_prefix,
          List.isPrefixOf_iff_prefix, first]
      rw [List.find?_cons, List.find?_cons, alike, ih rest]
  rw [arrowRule, arrowRule, found]

/-- The rule for arrows looks at the text up to a foreign character. -/
theorem arrowRule_append (foreign : IsForeign c) : arrowRule (t ++ c :: u) = arrowRule t :=
  arrowRule_congr fun a isArrow => Text.prefix_append_cons_iff (foreign.2 a isArrow)

/-- The rule for arrows applies where an arrow begins, and wraps it. -/
theorem arrowRule_cases (t : Text) :
    (arrowRule t = none ∧ ∀ a ∈ arrows, ¬ a <+: t) ∨
      ∃ a ∈ arrows, ∃ r, t = a ++ r ∧ arrowRule t = some ('\x60' :: a ++ ['\x60'], a.length) := by
  rw [arrowRule]
  cases found : arrows.find? fun a => t.startsWith a with
  | none =>
    refine .inl ⟨rfl, fun a isArrow here => ?_⟩
    exact List.find?_eq_none.1 found a isArrow (List.isPrefixOf_iff_prefix.2 here)
  | some a =>
    have starts : t.startsWith a = true := List.find?_some (p := fun a => t.startsWith a) found
    obtain ⟨r, same⟩ := List.isPrefixOf_iff_prefix.1 starts
    exact .inr ⟨a, List.mem_of_find?_eq_some found, r, same.symm, rfl⟩

/-- What is found behind decoded entities was there before, if it holds no ampersand. -/
theorem prefix_replace_iff (outside : '&' ∉ x) :
    x <+: Text.replace entity ['&'] t ↔ x <+: t := by
  induction x generalizing t with
  | nil => simp
  | cons d x ih =>
    obtain ⟨first, rest⟩ := not_or.1 (mt List.mem_cons.2 outside)
    by_cases decoded : entity <+: t
    · obtain ⟨r, rfl⟩ := decoded
      have new : Text.replace entity ['&'] (entity ++ r) = ['&'] ++ Text.replace entity ['&'] r :=
        Text.replace_append ['&'] (by decide) r
      have old : entity ++ r = '&' :: ("amp;".toList ++ r) := rfl
      rw [new, old, List.singleton_append, List.cons_prefix_cons, List.cons_prefix_cons]
      exact ⟨fun here => (first here.1.symm).elim, fun here => (first here.1.symm).elim⟩
    · cases t with
      | nil => rfl
      | cons c r =>
        rw [Text.replace_cons ['&'] decoded, List.cons_prefix_cons, List.cons_prefix_cons, ih rest]

theorem arrowRule_replace (t : Text) : arrowRule (Text.replace entity ['&'] t) = arrowRule t := by
  refine arrowRule_congr fun a isArrow => ?_
  obtain ⟨r, -, plain, -⟩ := head_arrow a isArrow
  exact prefix_replace_iff plain

end Prefixes

/-! ## Along a part -/

section Part

variable {t r : Text} {c : Char}

@[simp]
theorem normalizePart_nil : normalizePart [] = [] :=
  rfl

theorem normalizePart_eq (t : Text) :
    normalizePart t = Text.rewrite arrowRule (Text.replace entity ['&'] t) :=
  rfl

theorem normalizePart_entity (r : Text) : normalizePart (entity ++ r) = '&' :: normalizePart r := by
  have decoded : Text.replace entity ['&'] (entity ++ r) = '&' :: Text.replace entity ['&'] r :=
    Text.replace_append ['&'] (by decide) r
  have noArrow : arrowRule ('&' :: Text.replace entity ['&'] r) = none := rfl
  rw [normalizePart_eq, normalizePart_eq, decoded, Text.rewrite, Text.rewriteFrom, noArrow, Text.rewrite]

/-- Characters among which no entity begins stay when entities are decoded. -/
theorem replace_append_of_plain {a : Text} (plain : '&' ∉ a) (r : Text) :
    Text.replace entity ['&'] (a ++ r) = a ++ Text.replace entity ['&'] r := by
  induction a with
  | nil => rfl
  | cons c a ih =>
    obtain ⟨first, rest⟩ := not_or.1 (mt List.mem_cons.2 plain)
    have other : ¬ entity <+: c :: (a ++ r) := fun ⟨_, same⟩ => first (List.cons.inj same).1
    rw [List.cons_append, Text.replace_cons ['&'] other, ih rest, List.cons_append]

theorem normalizePart_arrow {a : Text} (isArrow : a ∈ arrows)
    (applies : arrowRule (a ++ r) = some ('\x60' :: a ++ ['\x60'], a.length)) :
    normalizePart (a ++ r) = '\x60' :: (a ++ '\x60' :: normalizePart r) := by
  obtain ⟨tail, rfl, plain, -⟩ := head_arrow a isArrow
  have kept := replace_append_of_plain plain r
  rw [← arrowRule_replace, kept] at applies
  rw [normalizePart_eq, normalizePart_eq, kept, Text.rewrite, List.cons_append, Text.rewriteFrom]
  rw [List.cons_append] at applies
  rw [applies]
  dsimp only
  rw [Text.rewriteFrom_drop, List.length_cons, Nat.add_sub_cancel, List.drop_left]
  simp

theorem normalizePart_kept (none_ : ¬ BeginsSign (c :: r)) :
    normalizePart (c :: r) = c :: normalizePart r := by
  obtain ⟨noEntity, noArrow⟩ := not_or.1 none_
  have kept : Text.replace entity ['&'] (c :: r) = c :: Text.replace entity ['&'] r :=
    Text.replace_cons ['&'] noEntity
  have rule : arrowRule (c :: Text.replace entity ['&'] r) = none := by
    rw [← kept, arrowRule_replace]
    rcases arrowRule_cases (c :: r) with ⟨rule, -⟩ | ⟨a, isArrow, tail, same, -⟩
    · exact rule
    · exact (noArrow ⟨a, isArrow, tail, same.symm⟩).elim
  rw [normalizePart_eq, normalizePart_eq, kept, Text.rewrite, Text.rewriteFrom, rule, Text.rewrite]

/-- Characters with which no sign begins stay in front of a part. -/
theorem normalizePart_append_of_plain {p : Text} (plain : ∀ c ∈ p, c ≠ '&' ∧ c ≠ '<') (t : Text) :
    normalizePart (p ++ t) = p ++ normalizePart t := by
  induction p with
  | nil => rfl
  | cons c p ih =>
    obtain ⟨⟨noAmpersand, noAngle⟩, rest⟩ := List.forall_mem_cons.1 plain
    have none_ : ¬ BeginsSign (c :: (p ++ t)) := fun begins => begins.head.elim noAmpersand noAngle
    rw [List.cons_append, normalizePart_kept none_, ih rest, List.cons_append]

/-- **Induction along a part**: an entity, an arrow, or a character with which no sign begins. -/
@[elab_as_elim]
theorem part_induction {motive : Text → Prop} (nil : motive [])
    (entity : ∀ r, motive r → motive (entity ++ r))
    (arrow : ∀ a r, a ∈ arrows → arrowRule (a ++ r) = some ('\x60' :: a ++ ['\x60'], a.length) →
      motive r → motive (a ++ r))
    (kept : ∀ c r, ¬ BeginsSign (c :: r) → motive r → motive (c :: r)) (t : Text) : motive t := by
  induction length : t.length using Nat.strongRecOn generalizing t with
  | ind n ih =>
    subst length
    by_cases decoded : Glyph.entity <+: t
    · obtain ⟨r, rfl⟩ := decoded
      have shorter : r.length < (Glyph.entity ++ r).length := by
        have : Glyph.entity.length = 5 := rfl
        rw [List.length_append]
        omega
      exact entity r (ih _ shorter r rfl)
    · rcases arrowRule_cases t with ⟨-, noArrow⟩ | ⟨a, isArrow, r, rfl, applies⟩
      · cases t with
        | nil => exact nil
        | cons c r =>
          refine kept c r ?_ (ih _ (by simp) r rfl)
          rintro (here | ⟨a, isArrow, here⟩)
          · exact decoded here
          · exact noArrow a isArrow here
      · obtain ⟨tail, rfl, -⟩ := head_arrow a isArrow
        have shorter : r.length < ('<' :: tail ++ r).length := by
          rw [List.length_append, List.length_cons]
          omega
        exact arrow _ r isArrow applies (ih _ shorter r rfl)

/-- A foreign character divides a part. -/
theorem normalizePart_append (foreign : IsForeign c) (t u : Text) :
    normalizePart (t ++ c :: u) = normalizePart t ++ c :: normalizePart u := by
  induction t using part_induction with
  | nil =>
    have none_ : ¬ BeginsSign (c :: u) := by
      rw [← List.nil_append (c :: u), beginsSign_append_iff foreign]
      exact not_beginsSign_nil
    rw [List.nil_append, normalizePart_kept none_, normalizePart_nil, List.nil_append]
  | entity r ih =>
    rw [List.append_assoc, normalizePart_entity, normalizePart_entity, ih, List.cons_append]
  | arrow a r isArrow applies ih =>
    have here := applies
    rw [← arrowRule_append (u := u) foreign, List.append_assoc] at here
    rw [List.append_assoc, normalizePart_arrow isArrow here, normalizePart_arrow isArrow applies, ih]
    simp
  | kept d r none_ ih =>
    have still : ¬ BeginsSign (d :: (r ++ c :: u)) := by
      rw [← List.cons_append, beginsSign_append_iff foreign]
      exact none_
    rw [List.cons_append, normalizePart_kept still, normalizePart_kept none_, ih, List.cons_append]

end Part

/-! ## Mended texts -/

/-- A text of which entities are decoded and arrows wrapped. -/
inductive Mended : Text → Text → Prop
  | nil : Mended [] []
  | same (c : Char) {t u : Text} (rest : Mended t u) : Mended (c :: t) (c :: u)
  | entity {t u : Text} (rest : Mended t u) : Mended (entity ++ t) ('&' :: u)
  | arrow {a : Text} (isArrow : a ∈ arrows) {t u : Text} (rest : Mended t u) :
      Mended (a ++ t) ('\x60' :: (a ++ '\x60' :: u))

theorem mended_normalizePart (t : Text) : Mended t (normalizePart t) := by
  induction t using part_induction with
  | nil => exact .nil
  | entity r ih =>
    rw [normalizePart_entity]
    exact .entity ih
  | arrow a r isArrow applies ih =>
    rw [normalizePart_arrow isArrow applies]
    exact .arrow isArrow ih
  | kept c r none_ ih =>
    rw [normalizePart_kept none_]
    exact .same c ih

namespace Mended

variable {t u v w x y : Text} {c : Char}

theorem append_left (x : Text) (mended : Mended t u) : Mended (x ++ t) (x ++ u) := by
  induction x with
  | nil => exact mended
  | cons c x ih => exact .same c ih

theorem append (left : Mended t u) (right : Mended v w) : Mended (t ++ v) (u ++ w) := by
  induction left with
  | nil => exact right
  | same c _ ih => exact .same c ih
  | entity _ ih => simpa [List.append_assoc] using Mended.entity ih
  | arrow isArrow _ ih => simpa [List.append_assoc] using Mended.arrow isArrow ih

/-- No character is new but backticks. -/
theorem mem (mended : Mended t u) (isIn : c ∈ u) : c ∈ t ∨ c = '\x60' := by
  induction mended with
  | nil => cases isIn
  | same d _ ih =>
    rcases List.mem_cons.1 isIn with rfl | isIn
    · exact .inl (.head _)
    · exact (ih isIn).imp_left (.tail _)
  | entity _ ih =>
    rcases List.mem_cons.1 isIn with rfl | isIn
    · exact .inl (.head _)
    · exact (ih isIn).imp_left (List.mem_append_right _)
  | arrow _ _ ih =>
    rcases List.mem_cons.1 isIn with rfl | isIn
    · exact .inr rfl
    · rcases List.mem_append.1 isIn with own | isIn
      · exact .inl (List.mem_append_left _ own)
      · rcases List.mem_cons.1 isIn with rfl | isIn
        · exact .inr rfl
        · exact (ih isIn).imp_left (List.mem_append_right _)

theorem tick_mem (mended : Mended t u) (isIn : '\x60' ∈ t) : '\x60' ∈ u := by
  induction mended with
  | nil => exact isIn
  | same d _ ih => exact (List.mem_cons.1 isIn).elim (· ▸ .head _) fun isIn => .tail _ (ih isIn)
  | entity _ ih =>
    have plain : '\x60' ∉ Glyph.entity := by decide
    exact .tail _ (ih ((List.mem_append.1 isIn).resolve_left plain))
  | arrow => exact .head _

/-- Backticks come in pairs. -/
theorem even_count_tick (mended : Mended t u) : u.count '\x60' % 2 = t.count '\x60' % 2 := by
  induction mended with
  | nil => rfl
  | same d _ ih =>
    rw [List.count_cons, List.count_cons, Nat.add_mod, ih, ← Nat.add_mod]
  | entity _ ih =>
    have none_ : List.count '\x60' Glyph.entity = 0 := by decide
    rw [List.count_cons_of_ne (by decide), List.count_append, none_, ih, Nat.zero_add]
  | @arrow a isArrow t u _ ih =>
    obtain ⟨-, -, -, plain⟩ := head_arrow a isArrow
    have none_ : a.count '\x60' = 0 := List.count_eq_zero.2 plain
    rw [List.count_cons_self, List.count_append, List.count_append, List.count_cons_self, none_]
    omega

/-- Nothing but backticks and ampersands is put in front of a text. -/
theorem exists_of_append (mended : Mended t (x ++ y)) (noAmpersand : '&' ∉ x) (noTick : '\x60' ∉ x) :
    ∃ z, t = x ++ z ∧ Mended z y := by
  induction x generalizing t with
  | nil => exact ⟨t, rfl, mended⟩
  | cons c x ih =>
    obtain ⟨first, rest⟩ := not_or.1 (mt List.mem_cons.2 noAmpersand)
    obtain ⟨first', rest'⟩ := not_or.1 (mt List.mem_cons.2 noTick)
    rw [List.cons_append] at mended
    generalize whole : x ++ y = v at mended
    cases mended with
    | same _ later =>
      obtain ⟨z, rfl, behind⟩ := ih (whole ▸ later) rest rest'
      exact ⟨z, rfl, behind⟩
    | entity => exact (first rfl).elim
    | arrow => exact (first' rfl).elim

/-- A run of backticks with none behind it was there before. -/
theorem exists_of_run {n : Nat} (mended : Mended t (List.replicate n '\x60' ++ y)) (noTick : '\x60' ∉ y) :
    ∃ z, t = List.replicate n '\x60' ++ z ∧ Mended z y := by
  induction n generalizing t with
  | zero => exact ⟨t, rfl, mended⟩
  | succ n ih =>
    rw [List.replicate_succ, List.cons_append] at mended
    generalize whole : List.replicate n '\x60' ++ y = v at mended
    cases mended with
    | same _ later =>
      obtain ⟨z, rfl, behind⟩ := ih (whole ▸ later)
      exact ⟨z, rfl, behind⟩
    | @arrow a isArrow t u later =>
      obtain ⟨tail, rfl, -⟩ := head_arrow a isArrow
      cases n with
      | zero =>
        refine (noTick ?_).elim
        rw [List.replicate_zero, List.nil_append] at whole
        simp [whole]
      | succ n => cases whole

theorem eq_nil (mended : Mended t []) : t = [] := by
  cases mended
  rfl

/-- A foreign character at the end of a mended text ended it before. -/
theorem getLast?_of_foreign (mended : Mended t u) (foreign : IsForeign c) (noTick : c ≠ '\x60')
    (last : u.getLast? = some c) : t.getLast? = some c := by
  have behind {x t u : Text} (mended : Mended t u) (ih : u.getLast? = some c → t.getLast? = some c)
      {d : Char} (other : d ≠ c) (last : (d :: u).getLast? = some c) : (x ++ t).getLast? = some c := by
    by_cases empty : u = []
    · rw [empty] at last
      exact (other (by simpa using last)).elim
    · rw [List.getLast?_cons_of_ne_nil empty] at last
      rw [List.getLast?_append, ih last]
      rfl
  induction mended with
  | nil => cases last
  | @same d t u mended ih =>
    by_cases empty : u = []
    · obtain rfl := eq_nil (empty ▸ mended)
      rwa [empty] at last
    · rw [List.getLast?_cons_of_ne_nil empty] at last
      have whole := ih last
      rw [List.getLast?_cons, whole]
      rfl
  | entity mended ih =>
    refine behind mended ih (fun same => ?_) last
    exact foreign.1 (same ▸ (by decide))
  | @arrow a isArrow t u mended ih =>
    refine behind mended ih (Ne.symm noTick) ?_
    rwa [← List.cons_append, List.getLast?_append_of_ne_nil _ (by simp)] at last

/-- **Mending opens no block**: what reads as an opener afterwards was one before. -/
theorem opener_eq_none (mended : Mended t u) (noOpener : FenceOpener.ofLine? t = none) :
    FenceOpener.ofLine? u = none := by
  rw [Option.eq_none_iff_forall_ne_some]
  intro o opens
  obtain ⟨before, behind, rfl, reads⟩ := FenceOpener.ofLine?_eq_some_iff.1 opens
  have noAmpersand : '&' ∉ before := fun mem => absurd (reads.indent _ mem) (by decide)
  have noTick : '\x60' ∉ before := fun mem => absurd (reads.indent _ mem) (by decide)
  obtain ⟨z, rfl, marks⟩ := mended.exists_of_append noAmpersand noTick
  have length := reads.long
  obtain ⟨⟨m, col, n⟩, info⟩ := o
  rw [Fence.run] at marks
  dsimp only at marks length
  cases m with
  | tilde =>
    have noSign {c : Char} (other : c ≠ '~') : c ∉ List.replicate n '~' :=
      fun mem => other (List.mem_replicate.1 mem).2
    obtain ⟨z, rfl, -⟩ := marks.exists_of_append (noSign (by decide)) (noSign (by decide))
    obtain ⟨k, rest, rfl, stops⟩ := Text.exists_run '~' z
    have opened : FenceOpener.ofLine? (before ++ (List.replicate n '~' ++ (List.replicate k '~' ++ rest))) =
        some ⟨⟨.tilde, col, n + k⟩, rest.trim⟩ := by
      refine FenceOpener.ofLine?_eq_some_iff.2 ⟨before, rest, ?_, reads.indent, reads.width, reads.near,
        Nat.le_add_right_of_le length, stops, rfl, FenceMark.noConfusion⟩
      rw [Fence.run, ← List.append_assoc (List.replicate n _), List.replicate_append_replicate]
      rfl
    cases noOpener.symm.trans opened
  | backtick =>
    have plain := reads.noTick rfl
    obtain ⟨z, rfl, behind⟩ := marks.exists_of_run plain
    have none_ : '\x60' ∉ z := fun mem => plain (behind.tick_mem mem)
    have opened : FenceOpener.ofLine? (before ++ (List.replicate n '\x60' ++ z)) =
        some ⟨⟨.backtick, col, n⟩, z.trim⟩ := by
      refine FenceOpener.ofLine?_eq_some_iff.2 ⟨before, z, rfl, reads.indent, reads.width, reads.near,
        length, fun head => none_ (List.mem_of_head? head), rfl, fun _ => none_⟩
    cases noOpener.symm.trans opened

end Mended

/-! ## The weight of a text -/

/-- What a text has more of before it is mended than afterwards: every sign that is mended takes a
semicolon or a bullet away, or adds backticks. -/
def weight (t : Text) : Int :=
  ((t.count ';' + t.countP fun c => bullets.contains c : Nat) : Int) - (t.count '\x60' : Nat)

theorem weight_append (t u : Text) : weight (t ++ u) = weight t + weight u := by
  simp only [weight, List.count_append, List.countP_append]
  omega

theorem weight_cons (c : Char) (t : Text) : weight (c :: t) = weight [c] + weight t :=
  weight_append [c] t

theorem Mended.weight_le {t u : Text} (mended : Mended t u) : weight u ≤ weight t := by
  induction mended with
  | nil => exact Int.le_refl _
  | @same c t u _ ih =>
    rw [weight_cons c t, weight_cons c u]
    omega
  | entity _ ih =>
    have old : weight Glyph.entity = 1 := by decide
    have new : weight ['&'] = 0 := by decide
    rw [weight_cons '&', weight_append, old, new]
    omega
  | @arrow a _ t u _ ih =>
    have tick : weight ['\x60'] = -1 := by decide
    rw [weight_cons '\x60', weight_append, weight_append, weight_cons '\x60' u, tick]
    omega

/-- **A text whose weight is kept has no sign that was mended.** -/
theorem Mended.eq_of_weight {t u : Text} (mended : Mended t u) (kept : weight t ≤ weight u) : u = t := by
  induction mended with
  | nil => rfl
  | @same c t u _ ih =>
    rw [weight_cons c t, weight_cons c u] at kept
    rw [ih (by omega)]
  | entity rest _ =>
    have old : weight Glyph.entity = 1 := by decide
    have new : weight ['&'] = 0 := by decide
    have lighter := rest.weight_le
    rw [weight_cons '&', weight_append, old, new] at kept
    omega
  | @arrow a _ t u rest _ =>
    have tick : weight ['\x60'] = -1 := by decide
    have lighter := rest.weight_le
    rw [weight_cons '\x60', weight_append, weight_append, weight_cons '\x60' u, tick] at kept
    omega

/-- Texts put together are left alone when each of them is. -/
theorem Mended.append_eq_iff {t u v w : Text} (left : Mended t u) (right : Mended v w) (x : Text) :
    u ++ (x ++ w) = t ++ (x ++ v) ↔ u = t ∧ w = v := by
  constructor
  · intro same
    have weights := congrArg weight same
    have lighter := left.weight_le
    have lighter' := right.weight_le
    simp only [weight_append] at weights
    exact ⟨left.eq_of_weight (by omega), right.eq_of_weight (by omega)⟩
  · rintro ⟨rfl, rfl⟩
    rfl

/-! ## Mended lines -/

/-- A line whose prose is mended. -/
def mend (t : Text) : Text :=
  t.mapOutsideCode normalizePart

section Mend

variable {a x t u : Text} {c : Char}

theorem mend_span (before : '\x60' ∉ a) (inside : '\x60' ∉ x) (rest : Text) :
    mend (a ++ '\x60' :: (x ++ '\x60' :: rest)) =
      normalizePart a ++ '\x60' :: (x ++ '\x60' :: mend rest) := by
  rw [mend, Text.mapOutsideCode_span before inside]
  split
  case isTrue empty => rw [empty]; rfl
  case isFalse => rfl

theorem mend_of_lone (lone : t.count '\x60' ≤ 1) : mend t = normalizePart t := by
  rw [mend, Text.mapOutsideCode_of_lone lone]
  split
  case isTrue empty => rw [empty]; rfl
  case isFalse => rfl

theorem mend_of_noTick (noTick : '\x60' ∉ t) : mend t = normalizePart t :=
  mend_of_lone (by rw [List.count_eq_zero.2 noTick]; exact Nat.zero_le 1)

theorem mended_mend (t : Text) : Mended t (mend t) := by
  induction t using Text.codeSpans_induction with
  | span a x rest before inside ih =>
    rw [mend_span before inside]
    exact (mended_normalizePart a).append (.same _ ((ih.append_left ['\x60']).append_left x))
  | lone t lone =>
    rw [mend_of_lone lone]
    exact mended_normalizePart t

/-- A line that begins with no sign keeps its first character. -/
theorem mend_kept (noTick : c ≠ '\x60') (none_ : ¬ BeginsSign (c :: t)) : mend (c :: t) = c :: mend t := by
  rcases Text.exists_span_or_lone t with ⟨a, x, rest, rfl, before, inside⟩ | lone
  · have part : ¬ BeginsSign (c :: a) :=
      fun begins => none_ (begins.of_prefix (List.prefix_append (c :: a) _))
    have plain : '\x60' ∉ c :: a := by simpa using ⟨Ne.symm noTick, before⟩
    rw [mend_span before inside, ← List.cons_append, mend_span plain inside, normalizePart_kept part,
      List.cons_append]
  · have still : (c :: t).count '\x60' ≤ 1 := by rwa [List.count_cons_of_ne noTick]
    rw [mend_of_lone lone, mend_of_lone still, normalizePart_kept none_]

/-- Characters with which no sign begins stay in front of a line. -/
theorem mend_append_of_plain {p : Text} (plain : ∀ c ∈ p, c ≠ '&' ∧ c ≠ '<' ∧ c ≠ '\x60') (t : Text) :
    mend (p ++ t) = p ++ mend t := by
  induction p with
  | nil => rfl
  | cons c p ih =>
    obtain ⟨⟨noAmpersand, noAngle, noTick⟩, rest⟩ := List.forall_mem_cons.1 plain
    have none_ : ¬ BeginsSign (c :: (p ++ t)) := fun begins => begins.head.elim noAmpersand noAngle
    rw [List.cons_append, mend_kept noTick none_, ih rest, List.cons_append]

theorem mend_entity (t : Text) : mend (entity ++ t) = '&' :: mend t := by
  have noTick : '\x60' ∉ entity := by decide
  rcases Text.exists_span_or_lone t with ⟨a, x, rest, rfl, before, inside⟩ | lone
  · have plain : '\x60' ∉ entity ++ a := fun mem => (List.mem_append.1 mem).elim noTick before
    rw [mend_span before inside, ← List.append_assoc, mend_span plain inside, normalizePart_entity,
      List.cons_append]
  · have still : (entity ++ t).count '\x60' ≤ 1 := by
      rwa [List.count_append, List.count_eq_zero.2 noTick, Nat.zero_add]
    rw [mend_of_lone lone, mend_of_lone still, normalizePart_entity]

/-- A line that begins with an arrow begins with a backtick when it is mended. -/
theorem head_mend_of_arrow (isArrow : a ∈ arrows) (t : Text) : (mend (a ++ t)).head? = some '\x60' := by
  have part {b : Text} (here : a <+: b) : (normalizePart b).head? = some '\x60' := by
    rcases arrowRule_cases b with ⟨-, noArrow⟩ | ⟨a', isArrow', r, rfl, applies⟩
    · exact (noArrow a isArrow here).elim
    · rw [normalizePart_arrow isArrow' applies]
      rfl
  obtain ⟨tail, rfl, -, noTick⟩ := head_arrow a isArrow
  rcases Text.exists_span_or_lone t with ⟨b, x, rest, rfl, before, inside⟩ | lone
  · have plain : '\x60' ∉ '<' :: tail ++ b := fun mem => (List.mem_append.1 mem).elim noTick before
    rw [← List.append_assoc, mend_span plain inside, List.head?_append, part (List.prefix_append _ b)]
    rfl
  · have still : List.count '\x60' ('<' :: tail ++ t) ≤ 1 := by
      rwa [List.count_append, List.count_eq_zero.2 noTick, Nat.zero_add]
    rw [mend_of_lone still]
    exact part (List.prefix_append _ t)

/-- **A line that begins with a sign is changed.** -/
theorem mend_ne_self (begins : BeginsSign t) : mend t ≠ t := by
  intro same
  rcases begins with ⟨r, rfl⟩ | ⟨a, isArrow, r, rfl⟩
  · have lighter := (mended_mend r).weight_le
    have old : weight entity = 1 := by decide
    have new : weight ['&'] = 0 := by decide
    have weights := congrArg weight same
    rw [mend_entity, weight_cons, weight_append, old, new] at weights
    omega
  · have head := head_mend_of_arrow isArrow r
    obtain ⟨tail, rfl, -⟩ := head_arrow a isArrow
    rw [same] at head
    cases head

/-- **A code span behind paired backticks** stays between what stands before it and behind it. -/
theorem mend_span_of_even (even : t.count '\x60' % 2 = 0) (inside : '\x60' ∉ x) (rest : Text) :
    mend (t ++ '\x60' :: (x ++ '\x60' :: rest)) = mend t ++ '\x60' :: (x ++ '\x60' :: mend rest) := by
  induction t using Text.codeSpans_induction with
  | span a y behind before inside' ih =>
    have later : behind.count '\x60' % 2 = 0 := by
      simp only [List.count_append, List.count_eq_zero.2 before, List.count_eq_zero.2 inside',
        List.count_cons_self] at even
      omega
    have cut : a ++ '\x60' :: (y ++ '\x60' :: behind) ++ '\x60' :: (x ++ '\x60' :: rest) =
        a ++ '\x60' :: (y ++ '\x60' :: (behind ++ '\x60' :: (x ++ '\x60' :: rest))) := by simp
    rw [cut, mend_span before inside', mend_span before inside', ih later]
    simp
  | lone t lone =>
    have noTick : '\x60' ∉ t := List.count_eq_zero.1 (by omega)
    rw [mend_span noTick inside, mend_of_lone lone]

/-- A backtick without a partner divides the prose behind paired ones. -/
theorem mend_lone_of_even (even : t.count '\x60' % 2 = 0) (noTick : '\x60' ∉ u) :
    mend (t ++ '\x60' :: u) = mend t ++ '\x60' :: normalizePart u := by
  induction t using Text.codeSpans_induction with
  | span a y behind before inside ih =>
    have later : behind.count '\x60' % 2 = 0 := by
      simp only [List.count_append, List.count_eq_zero.2 before, List.count_eq_zero.2 inside,
        List.count_cons_self] at even
      omega
    have cut : a ++ '\x60' :: (y ++ '\x60' :: behind) ++ '\x60' :: u =
        a ++ '\x60' :: (y ++ '\x60' :: (behind ++ '\x60' :: u)) := by simp
    rw [cut, mend_span before inside, mend_span before inside, ih later]
    simp
  | lone t lone =>
    have still : (t ++ '\x60' :: u).count '\x60' ≤ 1 := by
      rw [List.count_append, List.count_cons_self, List.count_eq_zero.2 noTick]
      omega
    rw [mend_of_lone still, mend_of_lone lone, normalizePart_append isForeign_tick]

theorem normalizePart_of_foreign {e : Text} (foreign : ∀ c ∈ e, IsForeign c) (t : Text) :
    normalizePart (t ++ e) = normalizePart t ++ e := by
  induction e generalizing t with
  | nil => rw [List.append_nil, List.append_nil]
  | cons c e ih =>
    obtain ⟨first, rest⟩ := List.forall_mem_cons.1 foreign
    have alone := ih rest []
    rw [List.nil_append, normalizePart_nil, List.nil_append] at alone
    rw [normalizePart_append first, alone]

/-- Blanks at the end of a line stay. -/
theorem mend_append_of_blank {e : Text} (blank : ∀ c ∈ e, isBlank c = true) (t : Text) :
    mend (t ++ e) = mend t ++ e := by
  have foreign : ∀ c ∈ e, IsForeign c := fun c mem => isForeign_of_isBlank (blank c mem)
  have noTick : '\x60' ∉ e := fun mem => absurd (blank _ mem) (by decide)
  induction t using Text.codeSpans_induction with
  | span a x rest before inside ih =>
    have cut : a ++ '\x60' :: (x ++ '\x60' :: rest) ++ e =
        a ++ '\x60' :: (x ++ '\x60' :: (rest ++ e)) := by simp
    rw [cut, mend_span before inside, mend_span before inside, ih]
    simp
  | lone t lone =>
    have still : (t ++ e).count '\x60' ≤ 1 := by
      rwa [List.count_append, List.count_eq_zero.2 noTick]
    rw [mend_of_lone lone, mend_of_lone still, normalizePart_of_foreign foreign]

end Mend

end MdxPress.Glyph
