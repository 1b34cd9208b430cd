import MdxPress.Proofs.Fence.SameCode
import MdxPress.Proofs.Mdx.Mended

/-!
The lines of a body whose glyphs are normalized.  A bullet becomes a dash if a blank follows it, and the
blank becomes a space.  That blank may be the line break: a line with nothing but a bullet on it is joined to
the one behind it, or its `\r\n` becomes `\n`.  Every other line of prose becomes one line with the ending it
had, and opens no block.

* `Glyph.dashBullet_cases` says what becomes of a line's start, and `Glyph.dashBullet_mend` that it does
  not matter whether the line is mended before or afterwards;
* `Glyph.weight_normalizeLine_le`: a line becomes lighter, or stays as it is, so that
  `Glyph.normalize_eq_self_iff` reads the bodies that stay as they are off their lines;
* `Glyph.IsBareBullet` is a line with nothing but a bullet, `Glyph.Normalized` what becomes of any other;
* `FencedLine.KeepsPlace` compares the lines of two bodies, with what is open around them, and
  `Glyph.keepsPlace_normalize_iff` says that bare bullets are all that moves the lines of a body.
-/

namespace MdxPress

/-! ## Lines in their places -/

/-- A line that stands where another one stood: with its ending, with the same block open before it and
behind it, and as it was if it is code. -/
structure FencedLine.KeepsPlace (l k : FencedLine) : Prop where
  ending : k.line.ending = l.line.ending
  before : k.before = l.before
  after : k.after = l.after
  block : l.isCode = true → k.line = l.line

/-- **Line by line.**  Lines keep their places if code stays and prose opens no block. -/
theorem forall₂_keepsPlace {s : FenceState} {ls ms : List Line}
    (each : List.Forall₂ (fun l k => k.ending = l.line.ending ∧ (l.isCode = true → k = l.line) ∧
      (l.isCode = false → FenceOpener.ofLine? k.content = none)) (fencedLines s ls) ms) :
    List.Forall₂ FencedLine.KeepsPlace (fencedLines s ls) (fencedLines s ms) := by
  induction ls generalizing s ms with
  | nil =>
    cases each
    exact .nil
  | cons l ls ih =>
    cases each with
    | @cons _ k _ ks first rest =>
      obtain ⟨ending, block, noOpener⟩ := first
      have after := FencedLine.next_eq block noOpener
      refine .cons ⟨ending, rfl, after, block⟩ ?_
      rw [after]
      exact ih rest

namespace Glyph

/-! ## Bullets -/

section Bullet

variable {before p r t u : Text} {b d : Char}

theorem isBlank_bullet : ∀ b ∈ bullets, isBlank b = false := by
  decide

theorem plain_bullet : ∀ b ∈ bullets, b ≠ '&' ∧ b ≠ '<' ∧ b ≠ '\x60' := by
  decide

theorem plain_of_isBlank (blank : isBlank d = true) : d ≠ '&' ∧ d ≠ '<' ∧ d ≠ '\x60' := by
  refine ⟨?_, ?_, ?_⟩ <;> rintro rfl <;> revert blank <;> decide

/-- Blanks stand in front of a bullet. -/
theorem dashBullet_append (blank : ∀ c ∈ before, isBlank c = true) (t : Text) :
    dashBullet (before ++ t) = before ++ dashBullet t := by
  have indentation : Text.indentation (before ++ t) = before ++ t.indentation :=
    List.takeWhile_append_of_pos blank
  rw [dashBullet, dashBullet, Text.trimStart_append blank, indentation]
  split
  · split
    · rw [List.append_assoc]
    · rfl
  · rfl

theorem dashBullet_bullet (isBullet : b ∈ bullets) (blank : isBlank d = true) (r : Text) :
    dashBullet (b :: d :: r) = '-' :: ' ' :: r := by
  have visible := isBlank_bullet b isBullet
  rw [dashBullet, Text.trimStart_of_visible visible]
  dsimp only
  rw [if_pos (by simp [isBullet, blank]), Text.indentation, List.takeWhile_cons_of_neg (by simp [visible])]
  rfl

/-- What begins with no bullet stays. -/
theorem dashBullet_eq_self (none_ : ∀ c ∈ t.trimStart.head?, c ∉ bullets) : dashBullet t = t := by
  rw [dashBullet]
  split
  case h_1 c d r same =>
    rw [same] at none_
    have other : bullets.contains c = false := by simpa using none_ c rfl
    rw [other, Bool.false_and, if_neg Bool.false_ne_true]
  case h_2 => rfl

/-- A line has a bullet at its start that becomes a dash, or stays. -/
theorem dashBullet_cases (t : Text) :
    dashBullet t = t ∨ ∃ before b d r, (∀ c ∈ before, isBlank c = true) ∧ b ∈ bullets ∧ isBlank d = true ∧
      t = before ++ b :: d :: r ∧ dashBullet t = before ++ '-' :: ' ' :: r := by
  have blank : ∀ c ∈ t.indentation, isBlank c = true := fun c => Text.isBlank_of_mem_indentation
  have cut := t.indentation_append_trimStart.symm
  cases start : t.trimStart with
  | nil => exact .inl (dashBullet_eq_self (by rw [start]; nofun))
  | cons b rest =>
    by_cases isBullet : b ∈ bullets
    · cases rest with
      | nil =>
        left
        rw [dashBullet, start]
      | cons d r =>
        rw [start] at cut
        by_cases isBlank : MdxPress.isBlank d = true
        · refine .inr ⟨t.indentation, b, d, r, blank, isBullet, isBlank, cut, ?_⟩
          conv_lhs => rw [cut]
          rw [dashBullet_append blank, dashBullet_bullet isBullet isBlank]
        · left
          rw [dashBullet, start]
          simp [isBlank]
    · refine .inl (dashBullet_eq_self ?_)
      rw [start]
      rintro c ⟨⟩
      exact isBullet

/-- Behind a dash there is no bullet. -/
theorem dashBullet_dash (blank : ∀ c ∈ before, isBlank c = true) (t : Text) :
    dashBullet (before ++ '-' :: t) = before ++ '-' :: t := by
  refine dashBullet_eq_self ?_
  rw [Text.trimStart_append blank, Text.trimStart_of_visible (by decide)]
  rintro c ⟨⟩
  decide

theorem mend_bullet (blank : ∀ c ∈ before, isBlank c = true) (first : b ≠ '&' ∧ b ≠ '<' ∧ b ≠ '\x60')
    (isBlank : isBlank d = true) (r : Text) : mend (before ++ b :: d :: r) = before ++ b :: d :: mend r := by
  have plain : ∀ c ∈ before ++ [b, d], c ≠ '&' ∧ c ≠ '<' ∧ c ≠ '\x60' := by
    intro c mem
    rcases List.mem_append.1 mem with mem | mem
    · exact plain_of_isBlank (blank c mem)
    · rcases List.mem_pair.1 mem with rfl | rfl
      · exact first
      · exact plain_of_isBlank isBlank
  simpa using mend_append_of_plain plain r

/-- **A line may be mended before** its bullet becomes a dash, or afterwards. -/
theorem dashBullet_mend (t : Text) : dashBullet (mend t) = mend (dashBullet t) := by
  rcases dashBullet_cases t with stays | ⟨before, b, d, r, blank, isBullet, isBlank, rfl, becomes⟩
  · rw [stays]
    rcases dashBullet_cases (mend t) with same | ⟨before, b, d, r, blank, isBullet, isBlank, cut, -⟩
    · exact same
    · -- a bullet that stands there now stood there before
      have plain : ∀ c ∈ before ++ [b, d], c ≠ '&' ∧ c ≠ '\x60' := by
        intro c mem
        rcases List.mem_append.1 mem with mem | mem
        · exact (plain_of_isBlank (blank c mem)).imp_right (·.2)
        · rcases List.mem_pair.1 mem with rfl | rfl
          · exact (plain_bullet c isBullet).imp_right (·.2)
          · exact (plain_of_isBlank isBlank).imp_right (·.2)
      have mended : Mended t ((before ++ [b, d]) ++ r) := by
        have whole := mended_mend t
        rw [cut] at whole
        simpa using whole
      obtain ⟨z, rfl, -⟩ :=
        mended.exists_of_append (fun mem => (plain _ mem).1 rfl) fun mem => (plain _ mem).2 rfl
      rw [List.append_assoc, dashBullet_append blank] at stays
      have dash := dashBullet_bullet isBullet isBlank z
      have same := List.append_cancel_left stays
      rw [List.cons_append, List.cons_append, List.nil_append, dash] at same
      obtain rfl := (List.cons.inj same).1
      exact absurd isBullet (by decide)
  · rw [becomes, mend_bullet blank (plain_bullet b isBullet) isBlank, dashBullet_append blank,
      dashBullet_bullet isBullet isBlank, mend_bullet blank (by decide) (by decide)]

theorem dashBullet_dashBullet (t : Text) : dashBullet (dashBullet t) = dashBullet t := by
  rcases dashBullet_cases t with stays | ⟨before, b, d, r, blank, -, -, -, becomes⟩
  · rw [stays, stays]
  · rw [becomes, dashBullet_dash blank]

/-! ## The weight of a line -/

theorem weight_bullet (isBullet : b ∈ bullets) (blank : isBlank d = true) : weight [b, d] = 1 := by
  have bullet : ∀ b ∈ bullets, weight [b] = 1 := by decide
  have noBullet : d ∉ bullets := by
    intro mem
    have visible := isBlank_bullet d mem
    rw [blank] at visible
    cases visible
  have noSemicolon : d ≠ ';' := by
    rintro rfl
    revert blank
    decide
  have space : weight [d] = 0 := by
    simp [weight, noBullet, noSemicolon, (plain_of_isBlank blank).2.2]
  rw [weight_cons, bullet b isBullet, space]
  rfl

theorem weight_dashBullet (t : Text) : dashBullet t = t ∨ weight (dashBullet t) < weight t := by
  rcases dashBullet_cases t with stays | ⟨before, b, d, r, blank, isBullet, isBlank, rfl, becomes⟩
  · exact .inl stays
  · have dash : weight ['-', ' '] = 0 := by decide
    have bullet := weight_bullet isBullet isBlank
    have old := weight_append [b, d] r
    have new := weight_append ['-', ' '] r
    rw [List.cons_append, List.cons_append, List.nil_append] at old new
    rw [becomes, weight_append, weight_append, old, new]
    exact .inr (by omega)

theorem normalizeLine_eq (l : Line) : normalizeLine l = mend (dashBullet l.text) :=
  rfl

theorem weight_normalizeLine_le (l : Line) : weight (normalizeLine l) ≤ weight l.text := by
  have mended := (mended_mend (dashBullet l.text)).weight_le
  rw [normalizeLine_eq]
  rcases weight_dashBullet l.text with same | lighter
  · rwa [same] at mended ⊢
  · omega

/-- A line as heavy as before is the line it was. -/
theorem normalizeLine_eq_of_weight {l : Line} (kept : weight l.text ≤ weight (normalizeLine l)) :
    normalizeLine l = l.text := by
  have mended := mended_mend (dashBullet l.text)
  rw [normalizeLine_eq] at kept ⊢
  rcases weight_dashBullet l.text with same | lighter
  · rw [same] at mended kept ⊢
    exact mended.eq_of_weight kept
  · have := mended.weight_le
    omega

end Bullet

/-! ## What stays as it is -/

/-- What stands in the place of a line afterwards. -/
def written (l : FencedLine) : Text :=
  if l.isCode then l.line.text else normalizeLine l.line

theorem written_of_code {l : FencedLine} (code : l.isCode = true) : written l = l.line.text :=
  if_pos code

theorem written_of_prose {l : FencedLine} (prose : l.isCode = false) : written l = normalizeLine l.line :=
  if_neg (by simp [prose])

theorem normalize_eq_flatMap (body : Text) : normalize body = body.fenced.flatMap written :=
  Text.mapProse_lines (fun t => mend (dashBullet t)) body

/-- What texts put together weigh as much as others, each of them at most as much as one of those, weighs
as much piece by piece. -/
theorem weighs_eq_of_flatMap {α : Type} (weighs : Text → Int) {f g : α → Text} {xs : List α}
    (additive : ∀ t u, weighs (t ++ u) = weighs t + weighs u)
    (lighter : ∀ x ∈ xs, weighs (f x) ≤ weighs (g x))
    (whole : weighs (xs.flatMap f) = weighs (xs.flatMap g)) : ∀ x ∈ xs, weighs (f x) = weighs (g x) := by
  have total : ∀ ys : List α, (∀ y ∈ ys, weighs (f y) ≤ weighs (g y)) →
      weighs (ys.flatMap f) ≤ weighs (ys.flatMap g) := by
    intro ys each
    induction ys with
    | nil => exact Int.le_refl _
    | cons y ys ih =>
      obtain ⟨first, rest⟩ := List.forall_mem_cons.1 each
      have later := ih rest
      rw [List.flatMap_cons, List.flatMap_cons, additive, additive]
      omega
  induction xs with
  | nil => exact nofun
  | cons x xs ih =>
    obtain ⟨first, rest⟩ := List.forall_mem_cons.1 lighter
    have later := total xs rest
    rw [List.flatMap_cons, List.flatMap_cons, additive, additive] at whole
    exact List.forall_mem_cons.2 ⟨by omega, ih rest (by omega)⟩

/-- **A body stays as it is** exactly when each of its lines of prose does. -/
theorem normalize_eq_self_iff (body : Text) :
    normalize body = body ↔
      ∀ l ∈ body.fenced, l.isCode = false → normalizeLine l.line = l.line.text := by
  have whole : body = body.fenced.flatMap (·.line.text) := by
    conv_lhs => rw [← Text.join_lines body, ← map_line_fencedLines none body.lines]
    rw [Line.join, List.flatMap_map]
    rfl
  constructor
  · intro same l mem prose
    have lighter : ∀ k ∈ body.fenced, weight (written k) ≤ weight k.line.text := by
      intro k _
      rw [written]
      split
      · exact Int.le_refl _
      · exact weight_normalizeLine_le k.line
    have weights : weight (normalize body) = weight (body.fenced.flatMap (·.line.text)) := by
      rw [same, ← whole]
    rw [normalize_eq_flatMap] at weights
    have here := weighs_eq_of_flatMap weight weight_append lighter weights l mem
    rw [written_of_prose prose] at here
    exact normalizeLine_eq_of_weight (Int.le_of_eq here.symm)
  · intro each
    rw [normalize_eq_flatMap]
    conv_rhs => rw [whole]
    refine List.flatMap_congr fun l mem => ?_
    cases code : l.isCode
    · rw [written_of_prose code, each l mem code]
    · exact written_of_code code

/-! ## Lines that hold a bullet and nothing else -/

/-- A line with nothing but a bullet on it: the blank behind the bullet is the line break. -/
def IsBareBullet (l : Line) : Prop :=
  l.ending ≠ .none ∧ l.content.trimStart ∈ bullets.map ([·])

instance : DecidablePred IsBareBullet :=
  fun _ => inferInstanceAs (Decidable (_ ∧ _))

section BareBullet

variable {l : Line} {t : Text}

theorem IsBareBullet.exists_bullet (bare : IsBareBullet l) :
    ∃ b ∈ bullets, l.content = l.content.indentation ++ [b] := by
  obtain ⟨b, isBullet, same⟩ := List.mem_map.1 bare.2
  refine ⟨b, isBullet, ?_⟩
  rw [same, Text.indentation_append_trimStart]

/-- The line break behind a bare bullet loses its first character. -/
theorem normalizeLine_of_bare (bare : IsBareBullet l) :
    normalizeLine l = l.content.indentation ++ '-' :: ' ' :: l.ending.text.tail := by
  obtain ⟨b, isBullet, content⟩ := bare.exists_bullet
  have blank : ∀ c ∈ l.content.indentation, isBlank c = true := fun c => Text.isBlank_of_mem_indentation
  obtain ⟨d, tail, ending, plain⟩ : ∃ d tail, l.ending.text = d :: tail ∧ mend tail = tail := by
    cases ending : l.ending with
    | none => exact (bare.1 ending).elim
    | lf => exact ⟨'\n', [], rfl, rfl⟩
    | crlf => exact ⟨'\r', ['\n'], rfl, by decide⟩
  have break_ : isBlank d = true := Ending.isBlank_of_mem (ending ▸ List.mem_cons_self)
  have text : l.text = l.content.indentation ++ b :: d :: tail := by
    rw [Line.text, ending]
    conv_lhs => rw [content]
    simp
  rw [normalizeLine_eq, text, dashBullet_append blank, dashBullet_bullet isBullet break_,
    mend_bullet blank (by decide) (by decide), plain, ending, List.tail_cons]

/-- Behind any other line its ending stays. -/
theorem dashBullet_text (more : ¬ IsBareBullet l) :
    dashBullet l.text = dashBullet l.content ++ l.ending.text := by
  rw [Line.text]
  rcases dashBullet_cases l.content with stays | ⟨before, b, d, r, blank, isBullet, isBlank, content, becomes⟩
  · rw [stays]
    rcases dashBullet_cases (l.content ++ l.ending.text) with
      same | ⟨before, b, d, r, blank, isBullet, isBlank, cut, -⟩
    · exact same
    · -- the bullet stands in the content, and the blank behind it does not
      exfalso
      have visible := isBlank_bullet b isBullet
      have start : Text.trimStart (l.content ++ l.ending.text) = b :: d :: r := by
        rw [cut, Text.trimStart_append blank, Text.trimStart_of_visible visible]
      have filled : l.content.trimStart ≠ [] := by
        intro empty
        have all : ∀ c ∈ l.content ++ l.ending.text, MdxPress.isBlank c = true := by
          intro c mem
          exact (List.mem_append.1 mem).elim (Text.trimStart_eq_nil_iff.1 empty c) Ending.isBlank_of_mem
        rw [Text.trimStart_eq_nil_iff.2 all] at start
        cases start
      rw [Text.trimStart_append_of_filled filled] at start
      obtain ⟨c, rest, content⟩ := List.exists_cons_of_ne_nil filled
      rw [content] at start
      obtain ⟨rfl, behind⟩ := List.cons.inj start
      cases rest with
      | nil =>
        refine more ⟨fun none => ?_, content ▸ List.mem_map_of_mem isBullet⟩
        rw [none] at behind
        cases behind
      | cons e rest =>
        obtain ⟨rfl, -⟩ := List.cons.inj behind
        have whole : l.content = l.content.indentation ++ c :: e :: rest := by
          rw [← content, Text.indentation_append_trimStart]
        have blank : ∀ c ∈ l.content.indentation, MdxPress.isBlank c = true :=
          fun c => Text.isBlank_of_mem_indentation
        rw [whole, dashBullet_append blank, dashBullet_bullet isBullet isBlank] at stays
        obtain rfl := (List.cons.inj (List.append_cancel_left stays)).1
        exact absurd isBullet (by decide)
  · rw [becomes, content, List.append_assoc, dashBullet_append blank, List.cons_append, List.cons_append,
      dashBullet_bullet isBullet isBlank]
    simp

/-- A line of prose, as it becomes: whole, ended, and no opening of a block. -/
structure Normalized (l k : Line) : Prop where
  text : k.text = normalizeLine l
  isWhole : k.IsWhole
  noOpener : FenceOpener.ofLine? k.content = none
  ended : k.ending = .none → l.ending = .none
  filled : l.content ≠ [] → k.content ≠ []
  ending : k.ending = l.ending ↔ ¬ IsBareBullet l

/-- What opens no block opens none behind a dash. -/
theorem opener_dash {before : Text} (blank : ∀ c ∈ before, isBlank c = true) (t : Text) :
    FenceOpener.ofLine? (before ++ '-' :: t) = none := by
  refine FenceOpener.ofLine?_eq_none_of_trimStart ?_
  rw [Text.trimStart_append blank, Text.trimStart_of_visible (by decide)]
  rintro c ⟨⟩
  rfl

theorem normalized_content (whole : l.IsWhole) (prose : FenceOpener.ofLine? l.content = none)
    (more : ¬ IsBareBullet l) : Normalized l ⟨mend (dashBullet l.content), l.ending⟩ := by
  have blank : ∀ c ∈ l.ending.text, isBlank c = true := fun c => Ending.isBlank_of_mem
  have mended := mended_mend (dashBullet l.content)
  obtain ⟨noFeed, noReturn, noOpener, filled⟩ : '\n' ∉ dashBullet l.content ∧
      ((dashBullet l.content).getLast? = some '\r' → l.content.getLast? = some '\r') ∧
      FenceOpener.ofLine? (dashBullet l.content) = none ∧ (l.content ≠ [] → dashBullet l.content ≠ []) := by
    rcases dashBullet_cases l.content with stays | ⟨before, b, d, r, blank, -, -, content, becomes⟩
    · rw [stays]
      exact ⟨whole.noFeed, id, prose, id⟩
    · have outside := whole.noFeed
      rw [content] at outside ⊢
      rw [content] at becomes
      rw [becomes]
      refine ⟨?_, ?_, opener_dash blank _, by simp⟩
      · simp only [List.mem_append, List.mem_cons, not_or] at outside ⊢
        exact ⟨outside.1, by decide, by decide, outside.2.2.2⟩
      · cases r with
        | nil => simp
        | cons c r => simp [List.getLast?_append, List.getLast?_cons_cons]
  refine ⟨?_, ⟨fun mem => ?_, fun lf last => ?_⟩, mended.opener_eq_none noOpener, id,
    fun some_ none_ => ?_, ?_⟩
  · rw [normalizeLine_eq, dashBullet_text more, mend_append_of_blank blank]
    rfl
  · exact (mended.mem mem).elim noFeed (by decide)
  · have foreign : IsForeign '\r' := by decide
    exact whole.noReturn lf (noReturn (mended.getLast?_of_foreign foreign (by decide) last))
  · exact filled some_ (Mended.eq_nil (none_ ▸ mended))
  · exact ⟨fun _ => more, fun _ => rfl⟩

/-- **A line of prose becomes a line**, if it is no bare bullet in front of a line feed. -/
theorem exists_normalized (whole : l.IsWhole) (prose : FenceOpener.ofLine? l.content = none)
    (more : IsBareBullet l → l.ending ≠ .lf) : ∃ k, Normalized l k := by
  by_cases bare : IsBareBullet l
  · have crlf : l.ending = .crlf := by
      cases ending : l.ending with
      | none => exact (bare.1 ending).elim
      | lf => exact (more bare ending).elim
      | crlf => rfl
    have blank : ∀ c ∈ l.content.indentation, isBlank c = true := fun c => Text.isBlank_of_mem_indentation
    refine ⟨⟨l.content.indentation ++ ['-', ' '], .lf⟩, ?_, ⟨?_, ?_⟩, opener_dash blank _, nofun, ?_, ?_⟩
    · rw [normalizeLine_of_bare bare, crlf]
      simp [Line.text, Ending.text]
    · obtain ⟨b, -, content⟩ := bare.exists_bullet
      have outside := whole.noFeed
      rw [content] at outside
      simp only [List.mem_append, not_or] at outside ⊢
      exact ⟨outside.1, by decide⟩
    · simp
    · simp
    · simp [crlf, bare]
  · exact ⟨_, normalized_content whole prose bare⟩

/-- The line breaks of a line: none is new, and a bare bullet in front of a line feed loses its own. -/
theorem count_feed_normalizeLine (whole : l.IsWhole) (prose : FenceOpener.ofLine? l.content = none) :
    (normalizeLine l).count '\n' ≤ l.text.count '\n' ∧
      ((normalizeLine l).count '\n' = l.text.count '\n' → IsBareBullet l → l.ending ≠ .lf) := by
  by_cases bare : IsBareBullet l
  · obtain ⟨b, -, content⟩ := bare.exists_bullet
    have outside := whole.noFeed
    rw [content] at outside
    have none_ : l.content.indentation.count '\n' = 0 :=
      List.count_eq_zero.2 fun mem => outside (List.mem_append_left _ mem)
    have count : (normalizeLine l).count '\n' = l.ending.text.tail.count '\n' := by
      rw [normalizeLine_of_bare bare, List.count_append, none_, List.count_cons_of_ne (by decide),
        List.count_cons_of_ne (by decide), Nat.zero_add]
    rw [count, whole.count_feed]
    cases l.ending <;> simp [Ending.text]
  · have normal := normalized_content whole prose bare
    rw [← normal.text, normal.isWhole.count_feed, whole.count_feed]
    exact ⟨Nat.le_refl _, fun _ isBare => (bare isBare).elim⟩

end BareBullet

/-! ## The lines of a body -/

section Body

variable {body : Text}

theorem ending_of_keepsPlace {ls ks : List FencedLine} (kept : List.Forall₂ FencedLine.KeepsPlace ls ks) :
    ks.map (·.line.ending) = ls.map (·.line.ending) := by
  induction kept with
  | nil => rfl
  | cons first _ ih => rw [List.map_cons, List.map_cons, first.ending, ih]

/-- What becomes of the lines of a body, when no bare bullet loses its line feed. -/
theorem forall₂_normalized
    (fed : ∀ l ∈ body.fenced, l.isCode = false → IsBareBullet l.line → l.line.ending ≠ .lf) :
    List.Forall₂ (fun l k => (l.isCode = true → k = l.line) ∧ (l.isCode = false → Normalized l.line k))
      body.fenced (normalize body).lines := by
  rw [normalize_eq_flatMap]
  refine Text.forall₂_lines_flatMap fun l mem whole => ?_
  cases code : l.isCode with
  | true => exact ⟨l.line, (written_of_code code).symm, ⟨fun _ => rfl, nofun⟩, id, whole, id⟩
  | false =>
    obtain ⟨k, normal⟩ := exists_normalized whole (FencedLine.opener_eq_none mem code) (fed l mem code)
    exact ⟨k, normal.text.trans (written_of_prose code).symm, ⟨nofun, fun _ => normal⟩, normal.ended,
      normal.isWhole, normal.filled⟩

/-- A body that has its line feeds afterwards has no bare bullet in front of one. -/
theorem ending_ne_lf_of_count (kept : (normalize body).count '\n' = body.count '\n') :
    ∀ l ∈ body.fenced, l.isCode = false → IsBareBullet l.line → l.line.ending ≠ .lf := by
  intro l mem prose bare
  have whole (k : FencedLine) (mem : k ∈ body.fenced) : k.line.IsWhole :=
    (Text.areLines_lines body).isWhole (map_line_fencedLines none body.lines ▸ List.mem_map_of_mem mem)
  have feeds : ((normalize body).count '\n' : Int) =
      ((body.fenced.flatMap (·.line.text)).count '\n' : Nat) := by
    rw [kept]
    conv_lhs => rw [← Text.join_lines body, ← map_line_fencedLines none body.lines]
    rw [Line.join, List.flatMap_map]
    rfl
  rw [normalize_eq_flatMap] at feeds
  have lighter : ∀ k ∈ body.fenced, ((written k).count '\n' : Int) ≤ (k.line.text.count '\n' : Nat) := by
    intro k mem
    cases code : k.isCode with
    | true => exact Int.le_of_eq (by rw [written_of_code code])
    | false =>
      rw [written_of_prose code]
      exact_mod_cast (count_feed_normalizeLine (whole k mem) (FencedLine.opener_eq_none mem code)).1
  have here := weighs_eq_of_flatMap (fun t => (t.count '\n' : Int))
    (fun t u => by rw [List.count_append]; rfl) lighter feeds l mem
  rw [written_of_prose prose] at here
  exact (count_feed_normalizeLine (whole l mem) (FencedLine.opener_eq_none mem prose)).2
    (by exact_mod_cast here) bare

/-- **Bare bullets are what moves lines.**  Normalizing the glyphs of a body leaves as many lines, each
with its ending, with the same block of code open around it, and as it was if it is code, exactly when no
line of prose is a bullet with nothing behind it but its line break. -/
theorem keepsPlace_normalize_iff (body : Text) :
    List.Forall₂ FencedLine.KeepsPlace body.fenced (normalize body).fenced ↔
      ∀ l ∈ body.fenced, l.isCode = false → ¬ IsBareBullet l.line := by
  constructor
  · intro kept
    have endings := ending_of_keepsPlace kept
    have lines : ∀ t : Text, t.fenced.map (·.line.ending) = t.lines.map (·.ending) := by
      intro t
      rw [← map_line_fencedLines none t.lines, List.map_map]
      rfl
    have feeds : (normalize body).count '\n' = body.count '\n' := by
      rw [Text.count_feed, Text.count_feed, ← lines, ← lines, endings]
    have normal := forall₂_normalized (ending_ne_lf_of_count feeds)
    rw [lines] at endings
    generalize (normalize body).lines = ks at normal endings
    generalize body.fenced = ls at normal endings
    induction normal with
    | nil => exact nofun
    | cons first _ ih =>
      obtain ⟨same, rest⟩ := List.cons.inj endings
      exact List.forall_mem_cons.2 ⟨fun prose => (first.2 prose).ending.1 same, ih rest⟩
  · intro more
    have normal := forall₂_normalized fun l mem prose bare => (more l mem prose bare).elim
    have places : List.Forall₂ (fun l k => k.ending = l.line.ending ∧ (l.isCode = true → k = l.line) ∧
        (l.isCode = false → FenceOpener.ofLine? k.content = none)) body.fenced (normalize body).lines := by
      refine ((List.forall₂_and_left _ _).2 ⟨more, normal⟩).imp ?_
      rintro l k ⟨more, block, normal⟩
      cases code : l.isCode with
      | true => exact ⟨by rw [block code], fun _ => block code, nofun⟩
      | false => exact ⟨(normal code).ending.2 (more code), nofun, fun _ => (normal code).noOpener⟩
    exact forall₂_keepsPlace places

/-- A bare bullet joins its line to the one behind it. -/
theorem not_keepsPlace_bareBullet :
    ¬ List.Forall₂ FencedLine.KeepsPlace (Text.fenced "•\nx\n".toList)
      (normalize "•\nx\n".toList).fenced := by
  intro kept
  have two : (Text.fenced "•\nx\n".toList).length = 2 := by decide +kernel
  have one : (normalize "•\nx\n".toList).fenced.length = 1 := by decide +kernel
  have same := kept.length_eq
  rw [two, one] at same
  cases same

end Body

end Glyph
end MdxPress
