import MdxPress.Proofs.Mdx.Bullet

/-!
Bodies whose glyphs are normalized twice.  Mending a line leaves two things behind that the second time
changes: an ampersand that was escaped twice, and an arrow behind a backtick that had no partner, since the
backticks put around the arrow become its partners.

The lines of the first result are those of the body, but for bare bullets: what comes of such a line is put
in front of the next one.  A dash in front of a line makes no difference to the second run, so that it is
enough to look at the lines of the body.

* `Glyph.MendsAtOnce` says of a part of prose that it has neither of the two, `Glyph.SettlesAtOnce` of a
  line, and `Glyph.mend_mend_eq_iff` that these are the lines that the second time leaves alone;
* `Glyph.IsPending` is what stands on a line before what comes of it, `Glyph.normalizeLine_eq_text_iff`
  what the second run makes of such a line;
* `Glyph.JoinsProse` says that no bare bullet is joined to a line of code, which would not be one then;
* `Glyph.normalize_normalize_iff` reads off the lines of a body whether the second run changes anything.
-/

namespace MdxPress.Glyph

/-! ## Prose that needs no second mending -/

/-- A part of prose that needs no second mending: no ampersand was escaped twice, and no arrow stands
behind a backtick. -/
structure MendsAtOnce (part : Text) : Prop where
  entity : part.contains "&amp;amp;".toList = false
  arrow : ∀ a ∈ arrows, Text.contains (part.dropWhile (· != '\x60')) a = false

instance : DecidablePred MendsAtOnce := fun part =>
  decidable_of_iff (part.contains "&amp;amp;".toList = false ∧
      ∀ a ∈ arrows, Text.contains (part.dropWhile (· != '\x60')) a = false)
    ⟨fun ⟨entity, arrow⟩ => ⟨entity, arrow⟩, fun once => ⟨once.entity, once.arrow⟩⟩

/-- A line none of whose parts of prose needs a second mending. -/
def SettlesAtOnce (line : Text) : Prop :=
  ∀ s ∈ line.codeSpans, s.isCode = false → MendsAtOnce s.text

instance : DecidablePred SettlesAtOnce :=
  fun line => inferInstanceAs (Decidable (∀ s ∈ line.codeSpans, _))

/-! ## Signs that mending makes -/

section Sign

variable {t u : Text} {c : Char}

/-- What was not there before mending begins no sign with the character before it. -/
theorem beginsSign_of_mended (mended : Mended t u) (begins : BeginsSign (c :: u)) : BeginsSign (c :: t) := by
  have behind {x : Text} (here : x <+: u) (noAmpersand : '&' ∉ x) (noTick : '\x60' ∉ x) : x <+: t := by
    obtain ⟨y, rfl⟩ := here
    obtain ⟨z, rfl, -⟩ := mended.exists_of_append noAmpersand noTick
    exact List.prefix_append x z
  rcases begins with here | ⟨a, isArrow, here⟩
  · obtain ⟨rfl, rest⟩ := List.cons_prefix_cons.1 (show '&' :: "amp;".toList <+: c :: u from here)
    exact .inl (List.cons_prefix_cons.2 ⟨rfl, behind rest (by decide) (by decide)⟩)
  · obtain ⟨tail, rfl, noAmpersand, noTick⟩ := head_arrow a isArrow
    obtain ⟨rfl, rest⟩ := List.cons_prefix_cons.1 here
    refine .inr ⟨_, isArrow, List.cons_prefix_cons.2 ⟨rfl, behind rest ?_ ?_⟩⟩
    · exact fun mem => noAmpersand (.tail _ mem)
    · exact fun mem => noTick (.tail _ mem)

end Sign

/-! ## A part of prose -/

section Part

variable {a u v : Text}

/-- **Prose without backticks** is left alone the second time, unless an ampersand was escaped twice. -/
theorem mend_normalizePart_iff (noTick : '\x60' ∉ a) :
    mend (normalizePart a) = normalizePart a ↔ a.contains "&amp;amp;".toList = false := by
  induction a using part_induction with
  | nil => exact ⟨fun _ => rfl, fun _ => rfl⟩
  | entity r ih =>
    have plain : '\x60' ∉ r := fun mem => noTick (List.mem_append_right _ mem)
    rw [normalizePart_entity]
    by_cases twice : "amp;".toList <+: r
    · obtain ⟨r, rfl⟩ := twice
      have found : Text.contains (entity ++ ("amp;".toList ++ r)) "&amp;amp;".toList = true := rfl
      have begins : BeginsSign ('&' :: normalizePart ("amp;".toList ++ r)) := by
        rw [beginsSign_ampersand_iff, normalizePart_append_of_plain (by decide)]
        exact List.prefix_append _ _
      rw [found]
      exact ⟨fun same => (mend_ne_self begins same).elim, fun absent => absurd absent (by decide)⟩
    · have none_ : ¬ BeginsSign ('&' :: normalizePart r) := fun begins =>
        twice (beginsSign_ampersand_iff.1 (beginsSign_of_mended (mended_normalizePart r) begins))
      have absent : ¬ "&amp;amp;".toList <+: '&' :: ("amp;".toList ++ r) := fun here =>
        have behind : entity ++ "amp;".toList <+: entity ++ r := here
        twice ((List.prefix_append_right_inj entity).1 behind)
      have contains : Text.contains (entity ++ r) "&amp;amp;".toList = Text.contains r "&amp;amp;".toList :=
        (Text.contains_cons_of_not_prefix absent).trans (Text.contains_append_of_head (by decide) (by decide))
      rw [mend_kept (by decide) none_, List.cons_inj_right, ih plain, contains]
  | arrow a r isArrow applies ih =>
    have plain : '\x60' ∉ r := fun mem => noTick (List.mem_append_right _ mem)
    obtain ⟨-, -, noAmpersand, inside⟩ := head_arrow a isArrow
    have other : ∀ d ∈ a, "&amp;amp;".toList.head? ≠ some d := by
      intro d mem same
      obtain rfl : '&' = d := Option.some.inj same
      exact noAmpersand mem
    have mends : mend ('\x60' :: (a ++ '\x60' :: normalizePart r)) =
        '\x60' :: (a ++ '\x60' :: mend (normalizePart r)) := mend_span (a := []) List.not_mem_nil inside _
    rw [normalizePart_arrow isArrow applies, mends, Text.contains_append_of_head other (by decide), ← ih plain]
    simp
  | kept c r none_ ih =>
    obtain ⟨noTick', plain⟩ := not_or.1 (mt List.mem_cons.2 noTick)
    have still : ¬ BeginsSign (c :: normalizePart r) := fun begins =>
      none_ (beginsSign_of_mended (mended_normalizePart r) begins)
    have absent : ¬ "&amp;amp;".toList <+: c :: r := fun here =>
      none_ (.inl ((show entity <+: "&amp;amp;".toList from ⟨"amp;".toList, rfl⟩).trans here))
    rw [normalizePart_kept none_, mend_kept (Ne.symm noTick') still, List.cons_inj_right, ih plain,
      Text.contains_cons_of_not_prefix absent]

/-- What mending makes of prose without backticks: nothing is wrapped, or a first arrow. -/
theorem normalizePart_cases (noTick : '\x60' ∉ a) :
    ((∀ b ∈ arrows, Text.contains a b = false) ∧ '\x60' ∉ normalizePart a) ∨
      (∃ b ∈ arrows, Text.contains a b = true) ∧
        ∃ w b rest, b ∈ arrows ∧ normalizePart a = w ++ '\x60' :: (b ++ '\x60' :: rest) ∧ '\x60' ∉ w := by
  induction a using part_induction with
  | nil => exact .inl ⟨by decide, List.not_mem_nil⟩
  | entity r ih =>
    have plain : '\x60' ∉ r := fun mem => noTick (List.mem_append_right _ mem)
    have contains : ∀ b ∈ arrows, Text.contains (entity ++ r) b = Text.contains r b := by
      intro b isArrow
      have other : ∀ b ∈ arrows, (∀ d ∈ entity, b.head? ≠ some d) ∧ b ≠ [] := by decide
      exact Text.contains_append_of_head (other b isArrow).1 (other b isArrow).2
    rw [normalizePart_entity]
    rcases ih plain with ⟨absent, still⟩ | ⟨⟨b, isArrow, found⟩, w, b', rest, isArrow', same, before⟩
    · refine .inl ⟨fun b isArrow => (contains b isArrow).trans (absent b isArrow), ?_⟩
      exact fun mem => (List.mem_cons.1 mem).elim (by decide) still
    · refine .inr ⟨⟨b, isArrow, (contains b isArrow).trans found⟩, '&' :: w, b', rest, isArrow', ?_, ?_⟩
      · rw [same, List.cons_append]
      · exact fun mem => (List.mem_cons.1 mem).elim (by decide) before
  | arrow b r isArrow applies ih =>
    have found : Text.contains (b ++ r) b = true := Text.contains_iff.2 (List.prefix_append b r).isInfix
    exact .inr ⟨⟨b, isArrow, found⟩, [], b, normalizePart r, isArrow, normalizePart_arrow isArrow applies,
      List.not_mem_nil⟩
  | kept c r none_ ih =>
    obtain ⟨noTick', plain⟩ := not_or.1 (mt List.mem_cons.2 noTick)
    have contains : ∀ b ∈ arrows, Text.contains (c :: r) b = Text.contains r b := fun b isArrow =>
      Text.contains_cons_of_not_prefix fun here => none_ (.inr ⟨b, isArrow, here⟩)
    rw [normalizePart_kept none_]
    rcases ih plain with ⟨absent, still⟩ | ⟨⟨b, isArrow, found⟩, w, b', rest, isArrow', same, before⟩
    · refine .inl ⟨fun b isArrow => (contains b isArrow).trans (absent b isArrow), ?_⟩
      exact fun mem => (List.mem_cons.1 mem).elim noTick' still
    · refine .inr ⟨⟨b, isArrow, (contains b isArrow).trans found⟩, c :: w, b', rest, isArrow', ?_, ?_⟩
      · rw [same, List.cons_append]
      · exact fun mem => (List.mem_cons.1 mem).elim noTick' before

theorem mendsAtOnce_iff_of_noTick (noTick : '\x60' ∉ a) :
    MendsAtOnce a ↔ a.contains "&amp;amp;".toList = false := by
  refine ⟨fun once => once.entity, fun entity => ⟨entity, ?_⟩⟩
  have none_ : a.dropWhile (· != '\x60') = [] := by
    refine List.dropWhile_eq_nil_iff.2 fun c mem => ?_
    rw [bne_iff_ne]
    rintro rfl
    exact noTick mem
  rw [none_]
  decide

theorem mendsAtOnce_tick_iff (before : '\x60' ∉ u) :
    MendsAtOnce (u ++ '\x60' :: v) ↔ u.contains "&amp;amp;".toList = false ∧
      v.contains "&amp;amp;".toList = false ∧ ∀ b ∈ arrows, Text.contains v b = false := by
  have behind : (u ++ '\x60' :: v).dropWhile (· != '\x60') = '\x60' :: v := by
    rw [List.dropWhile_append_of_pos, List.dropWhile_cons_of_neg (by decide)]
    intro c mem
    rw [bne_iff_ne]
    rintro rfl
    exact before mem
  have entity : Text.contains (u ++ '\x60' :: v) "&amp;amp;".toList = false ↔
      u.contains "&amp;amp;".toList = false ∧ v.contains "&amp;amp;".toList = false := by
    rw [Text.contains_append_cons (by decide) (by decide), Bool.or_eq_false_iff]
  have arrow : ∀ b ∈ arrows, Text.contains ('\x60' :: v) b = Text.contains v b := by
    intro b isArrow
    obtain ⟨tail, rfl, -⟩ := head_arrow b isArrow
    exact Text.contains_append_of_head (x := ['\x60']) (by simp) (by simp)
  constructor
  · rintro ⟨noEntity, noArrow⟩
    rw [behind] at noArrow
    obtain ⟨left, right⟩ := entity.1 noEntity
    exact ⟨left, right, fun b isArrow => (arrow b isArrow).symm.trans (noArrow b isArrow)⟩
  · rintro ⟨left, right, noArrow⟩
    refine ⟨entity.2 ⟨left, right⟩, fun b isArrow => ?_⟩
    rw [behind, arrow b isArrow, noArrow b isArrow]

/-- **Prose with a backtick that has no partner** is left alone the second time, unless an ampersand was
escaped twice or an arrow stands behind the backtick. -/
theorem mend_normalizePart_tick_iff (before : '\x60' ∉ u) (behind : '\x60' ∉ v) :
    mend (normalizePart (u ++ '\x60' :: v)) = normalizePart (u ++ '\x60' :: v) ↔
      MendsAtOnce (u ++ '\x60' :: v) := by
  have even : (normalizePart u).count '\x60' % 2 = 0 := by
    rw [(mended_normalizePart u).even_count_tick, List.count_eq_zero.2 before]
  rw [normalizePart_append isForeign_tick, mendsAtOnce_tick_iff before]
  rcases normalizePart_cases behind with
    ⟨absent, plain⟩ | ⟨⟨b, isArrow, found⟩, w, b', rest, isArrow', same, inside⟩
  · have together := Mended.append_eq_iff (mended_mend (normalizePart u))
      (mended_mend (normalizePart v)) ['\x60']
    rw [mend_lone_of_even even plain, ← mend_of_noTick plain]
    rw [List.singleton_append, List.singleton_append] at together
    rw [together, mend_normalizePart_iff before, mend_normalizePart_iff behind]
    exact ⟨fun ⟨left, right⟩ => ⟨left, right, absent⟩, fun ⟨left, right, _⟩ => ⟨left, right⟩⟩
  · refine ⟨fun stays => ?_, fun ⟨_, _, absent⟩ => absurd (absent b isArrow) (by simp [found])⟩
    have begins : BeginsSign (b' ++ '\x60' :: rest) := .inr ⟨b', isArrow', List.prefix_append _ _⟩
    have together := Mended.append_eq_iff (mended_mend (normalizePart u))
      (mended_mend (b' ++ '\x60' :: rest)) ('\x60' :: (w ++ ['\x60']))
    rw [same, mend_span_of_even even inside] at stays
    simp only [List.cons_append, List.append_assoc, List.nil_append] at together
    exact (mend_ne_self begins (together.1 stays).2).elim

end Part

/-! ## A line -/

/-- **A line that is mended twice** is left alone the second time exactly when none of its parts of prose
needs it. -/
theorem mend_mend_eq_iff (line : Text) : mend (mend line) = mend line ↔ SettlesAtOnce line := by
  have one {a : Text} : (∀ s ∈ Text.prosePart a, s.isCode = false → MendsAtOnce s.text) ↔ MendsAtOnce a := by
    by_cases empty : a = []
    · subst empty
      have trivially : MendsAtOnce [] := by decide
      exact ⟨fun _ => trivially, fun _ => nofun⟩
    · rw [Text.prosePart, if_neg empty]
      simp
  induction line using Text.codeSpans_induction with
  | span a x rest before inside ih =>
    have even : (normalizePart a).count '\x60' % 2 = 0 := by
      rw [(mended_normalizePart a).even_count_tick, List.count_eq_zero.2 before]
    have together := Mended.append_eq_iff (mended_mend (normalizePart a)) (mended_mend (mend rest))
      ('\x60' :: (x ++ ['\x60']))
    simp only [List.cons_append, List.append_assoc, List.nil_append] at together
    have later : mend (mend rest) = mend rest ↔ SettlesAtOnce rest := ih
    rw [mend_span before inside, mend_span_of_even even inside, together, mend_normalizePart_iff before,
      ← mendsAtOnce_iff_of_noTick before, later, SettlesAtOnce, SettlesAtOnce,
      Text.codeSpans_span before inside, List.forall_mem_append, List.forall_mem_cons, one]
    simp
  | lone t lone =>
    rw [mend_of_lone lone, SettlesAtOnce, Text.codeSpans_of_lone lone, one]
    by_cases tick : '\x60' ∈ t
    · obtain ⟨u, v, rfl, before⟩ := List.eq_append_cons_of_mem tick
      have behind : '\x60' ∉ v := by
        rw [List.count_append, List.count_cons_self] at lone
        exact List.count_eq_zero.1 (by omega)
      exact mend_normalizePart_tick_iff before behind
    · rw [mend_normalizePart_iff tick, mendsAtOnce_iff_of_noTick tick]

theorem mend_mend_dashBullet_iff (t : Text) :
    mend (mend (dashBullet t)) = mend (dashBullet t) ↔ SettlesAtOnce t := by
  rw [← mend_mend_eq_iff t]
  rcases dashBullet_cases t with stays | ⟨before, b, d, r, blank, isBullet, isBlank, rfl, becomes⟩
  · rw [stays]
  · have dash := mend_bullet (b := '-') (d := ' ') blank (by decide) (by decide)
    have bullet := mend_bullet blank (plain_bullet b isBullet) isBlank
    rw [becomes, dash, dash, bullet, bullet]
    simp

/-- **What a line becomes stays as it is** exactly when the line settles at once. -/
theorem mend_dashBullet_twice_iff (t : Text) :
    mend (dashBullet (mend (dashBullet t))) = mend (dashBullet t) ↔ SettlesAtOnce t := by
  rw [dashBullet_mend, dashBullet_dashBullet, mend_mend_dashBullet_iff]

/-! ## Dashes in front of a line -/

/-- What comes of bare bullets, one behind the other: blanks and dashes, the last of them a dash and a
space. -/
def IsPending (p : Text) : Prop :=
  ∃ q : Text, p = q ++ ['-', ' '] ∧ ∀ c ∈ q, c ≠ '\n' ∧ (isBlank c = true ∨ c = '-')

namespace IsPending

variable {p t : Text}

theorem exists_dash (pending : IsPending p) :
    ∃ before r, (∀ c ∈ before, isBlank c = true) ∧ p = before ++ '-' :: r := by
  obtain ⟨q, rfl, each⟩ := pending
  have cut := q.indentation_append_trimStart
  refine ⟨q.indentation, ?_⟩
  cases start : q.trimStart with
  | nil =>
    rw [start, List.append_nil] at cut
    rw [cut]
    exact ⟨[' '], fun c mem => Text.isBlank_of_mem_indentation (cut ▸ mem), rfl⟩
  | cons c r =>
    have visible : isBlank c = false := by
      have first := List.head?_dropWhile_not isBlank q
      rw [← Text.trimStart, start] at first
      simpa using first
    rw [start] at cut
    have dash := (each c (cut ▸ by simp)).2
    rw [visible] at dash
    obtain rfl : c = '-' := dash.resolve_left Bool.false_ne_true
    refine ⟨r ++ ['-', ' '], fun c => Text.isBlank_of_mem_indentation, ?_⟩
    conv_lhs => rw [← cut]
    simp

theorem plain (pending : IsPending p) : ∀ c ∈ p, c ≠ '&' ∧ c ≠ '<' ∧ c ≠ '\x60' := by
  obtain ⟨q, rfl, each⟩ := pending
  intro c mem
  rcases List.mem_append.1 mem with mem | mem
  · rcases (each c mem).2 with blank | rfl
    · exact plain_of_isBlank blank
    · decide
  · rcases List.mem_pair.1 mem with rfl | rfl <;> decide

theorem noFeed (pending : IsPending p) : '\n' ∉ p := by
  obtain ⟨q, rfl, each⟩ := pending
  intro mem
  rcases List.mem_append.1 mem with mem | mem
  · exact (each _ mem).1 rfl
  · exact absurd mem (by decide)

theorem noOpener (pending : IsPending p) (t : Text) : FenceOpener.ofLine? (p ++ t) = none := by
  obtain ⟨before, r, blank, rfl⟩ := pending.exists_dash
  rw [List.append_assoc]
  exact opener_dash blank _

/-- Behind dashes a line is mended by itself. -/
theorem mend_dashBullet (pending : IsPending p) (t : Text) : mend (dashBullet (p ++ t)) = p ++ mend t := by
  have stays : dashBullet (p ++ t) = p ++ t := by
    obtain ⟨before, r, blank, rfl⟩ := pending.exists_dash
    rw [List.append_assoc]
    exact dashBullet_dash blank _
  rw [stays, mend_append_of_plain pending.plain]

/-- One more bare bullet. -/
theorem append {l : Line} (noFeed : '\n' ∉ l.content) (before : p = [] ∨ IsPending p) :
    IsPending (p ++ (l.content.indentation ++ ['-', ' '])) := by
  have blanks : ∀ c ∈ l.content.indentation, c ≠ '\n' ∧ (isBlank c = true ∨ c = '-') := by
    intro c mem
    refine ⟨?_, .inl (Text.isBlank_of_mem_indentation mem)⟩
    rintro rfl
    exact noFeed (l.content.indentation_append_trimStart ▸ List.mem_append_left _ mem)
  rcases before with rfl | ⟨q, rfl, each⟩
  · exact ⟨l.content.indentation, by simp, blanks⟩
  · refine ⟨q ++ ['-', ' '] ++ l.content.indentation, by simp, fun c mem => ?_⟩
    rcases List.mem_append.1 mem with mem | mem
    · rcases List.mem_append.1 mem with mem | mem
      · exact each c mem
      · rcases List.mem_pair.1 mem with rfl | rfl <;> decide
    · exact blanks c mem

end IsPending

variable {p : Text} {k l : Line}

/-- **The second run on a line** with dashes in front of what has come of it. -/
theorem normalizeLine_eq_text_iff (before : p = [] ∨ IsPending p) (text : k.text = p ++ normalizeLine l) :
    normalizeLine k = k.text ↔ SettlesAtOnce l.text := by
  rw [normalizeLine_eq, text, normalizeLine_eq]
  rcases before with rfl | pending
  · rw [List.nil_append, mend_dashBullet_twice_iff]
  · rw [pending.mend_dashBullet, List.append_cancel_left_eq, mend_mend_dashBullet_iff]

/-- What comes of a line may stand behind dashes, as a line. -/
theorem Normalized.pending (normal : Normalized l k) (before : p = [] ∨ IsPending p) :
    Line.IsWhole ⟨p ++ k.content, k.ending⟩ ∧ FenceOpener.ofLine? (p ++ k.content) = none := by
  rcases before with rfl | pending
  · exact ⟨normal.isWhole, normal.noOpener⟩
  · refine ⟨⟨fun mem => ?_, fun lf last => ?_⟩, pending.noOpener _⟩
    · exact (List.mem_append.1 mem).elim pending.noFeed normal.isWhole.noFeed
    · by_cases empty : k.content = []
      · obtain ⟨q, rfl, -⟩ := pending
        rw [empty, List.append_nil, List.getLast?_append] at last
        cases last
      · rw [List.getLast?_append_of_ne_nil _ empty] at last
        exact normal.isWhole.noReturn lf last

/-- A bare bullet settles at once. -/
theorem settlesAtOnce_of_bare (bare : IsBareBullet l) (lf : l.ending = .lf) : SettlesAtOnce l.text := by
  have dash := normalizeLine_of_bare bare
  have blank : ∀ c ∈ l.content.indentation, isBlank c = true := fun c => Text.isBlank_of_mem_indentation
  rw [lf] at dash
  rw [← mend_mend_dashBullet_iff, ← normalizeLine_eq, dash, mend_bullet blank (by decide) (by decide)]
  rfl

/-! ## The lines of the first result -/

/-- A line may stand above another: no bare bullet is joined to a line of code. -/
def MayJoin (l m : FencedLine) : Prop :=
  l.isCode = false → IsBareBullet l.line → l.line.ending = .lf → m.isCode = false

instance : DecidableRel MayJoin :=
  fun _ _ => inferInstanceAs (Decidable (_ → _ → _ → _))

/-- No bare bullet of a body is joined to a line of code. -/
def JoinsProse (body : Text) : Prop :=
  body.fenced.IsChain MayJoin

instance : DecidablePred JoinsProse :=
  fun body => inferInstanceAs (Decidable (body.fenced.IsChain MayJoin))

/-- The lines of what comes of some lines stay as they are, whatever dashes stand in front, exactly when
those lines settle at once. -/
theorem settled_iff {s : FenceState} {ls : List Line} (whole : Line.AreLines ls)
    (joins : (fencedLines s ls).IsChain MayJoin)
    (before : p = [] ∨ IsPending p ∧ s = none ∧ ∀ l ∈ (fencedLines s ls).head?, l.isCode = false) :
    (∀ k ∈ fencedLines s (Text.lines (p ++ (fencedLines s ls).flatMap written)),
      k.isCode = false → normalizeLine k.line = k.line.text) ↔
      ∀ l ∈ fencedLines s ls, l.isCode = false → SettlesAtOnce l.line.text := by
  induction ls generalizing s p with
  | nil =>
    rcases before with rfl | ⟨pending, rfl, -⟩
    · exact ⟨fun _ _ mem => absurd mem List.not_mem_nil, fun _ _ mem => absurd mem List.not_mem_nil⟩
    · have filled : p ≠ [] := by
        obtain ⟨q, rfl, -⟩ := pending
        simp
      have one : Text.lines (p ++ []) = [⟨p, .none⟩] := by
        rw [List.append_nil, Text.lines_of_noFeed filled pending.noFeed]
      have stays : normalizeLine ⟨p, .none⟩ = p ++ mend [] := pending.mend_dashBullet []
      refine ⟨fun _ _ mem => absurd mem List.not_mem_nil, fun _ k mem _ => ?_⟩
      rw [fencedLines, List.flatMap_nil, one] at mem
      obtain rfl := List.mem_singleton.1 mem
      exact stays
  | cons l ls ih =>
    obtain ⟨isWhole, last, rest⟩ := whole
    obtain ⟨join, joins⟩ := List.isChain_cons.1 joins
    have nothing (none_ : l.ending = .none) : (fencedLines (s.next l.content) ls).flatMap written = [] := by
      rw [(last none_).2]
      rfl
    cases code : FencedLine.isCode ⟨l, s, s.next l.content⟩ with
    | true =>
      obtain rfl : p = [] := by
        refine before.resolve_right ?_
        rintro ⟨-, -, prose⟩
        rw [prose _ rfl] at code
        cases code
      have lines := Text.lines_text_append_of_last isWhole fun none_ => ⟨(last none_).1, nothing none_⟩
      have later := ih rest joins (.inl rfl)
      rw [List.nil_append] at later
      rw [fencedLines, List.flatMap_cons, written_of_code code, List.nil_append, lines, fencedLines,
        List.forall_mem_cons, List.forall_mem_cons, later]
      simp [code]
    | false =>
      obtain ⟨outside, after⟩ := FencedLine.isCode_eq_false_iff.1 code
      obtain rfl : s = none := outside
      have prose : FenceOpener.ofLine? l.content = none := Option.map_eq_none_iff.1 after
      have start : p = [] ∨ IsPending p := before.imp_right (·.1)
      have outside : FenceState.next none l.content = none := after
      rw [fencedLines, List.flatMap_cons, written_of_prose code, List.forall_mem_cons]
      rw [outside] at joins join nothing code ⊢
      by_cases bare : IsBareBullet l ∧ l.ending = .lf
      · -- its dash goes in front of the next line, or is the last line
        have dash := normalizeLine_of_bare bare.1
        rw [bare.2] at dash
        have below : ∀ m ∈ (fencedLines none ls).head?, m.isCode = false :=
          fun m mem => join m mem code bare.1 bare.2
        have later := ih rest joins (.inr ⟨.append isWhole.noFeed start, rfl, below⟩)
        rw [← later, dash]
        simp [Ending.text, settlesAtOnce_of_bare bare.1 bare.2]
      · obtain ⟨k, normal⟩ := exists_normalized isWhole prose fun isBare lf => bare ⟨isBare, lf⟩
        obtain ⟨isWhole', noOpener⟩ := normal.pending start
        have text : Line.text ⟨p ++ k.content, k.ending⟩ = p ++ normalizeLine l := by
          rw [← normal.text, Line.text, Line.text, List.append_assoc]
        have lines := Text.lines_text_append_of_last isWhole' fun none_ =>
          ⟨fun empty => normal.filled (last (normal.ended none_)).1 (List.append_eq_nil_iff.1 empty).2,
            nothing (normal.ended none_)⟩
        have open_ : FenceState.next none (p ++ k.content) = none := by rw [FenceState.next, noOpener]; rfl
        have later := ih rest joins (.inl rfl)
        rw [List.nil_append] at later
        rw [← List.append_assoc, ← text, lines, fencedLines, open_, List.forall_mem_cons, later]
        have here := normalizeLine_eq_text_iff start text
        simp [FencedLine.isCode, here]

/-- **Normalizing twice.**  The second run changes nothing exactly when every line of prose settles at
once: none of its prose holds an ampersand that was escaped twice, or an arrow behind a backtick without a
partner. -/
theorem normalize_normalize_iff {body : Text} (joins : JoinsProse body) :
    normalize (normalize body) = normalize body ↔
      ∀ l ∈ body.fenced, l.isCode = false → SettlesAtOnce l.line.text := by
  have settled : (∀ k ∈ Text.fenced (body.fenced.flatMap written),
      k.isCode = false → normalizeLine k.line = k.line.text) ↔
      ∀ l ∈ body.fenced, l.isCode = false → SettlesAtOnce l.line.text :=
    settled_iff (p := []) (Text.areLines_lines body) joins (.inl rfl)
  rw [← normalize_eq_flatMap] at settled
  exact (normalize_eq_self_iff (normalize body)).trans settled

/-- A body of which nothing changes the second time: bullets, one of them bare, an arrow beside inline
code, and code. -/
theorem normalize_normalize_bullets :
    JoinsProse "• Tom &amp; `a <- b` <- c\n•\n  ‣ it` <b>\n```\n&amp;amp; <-\n```\n".toList ∧
      normalize (normalize "• Tom &amp; `a <- b` <- c\n•\n  ‣ it` <b>\n```\n&amp;amp; <-\n```\n".toList) =
        normalize "• Tom &amp; `a <- b` <- c\n•\n  ‣ it` <b>\n```\n&amp;amp; <-\n```\n".toList :=
  ⟨by decide +kernel, (normalize_normalize_iff (by decide +kernel)).2 (by decide +kernel)⟩

/-- An ampersand that was escaped twice takes two runs. -/
theorem not_normalize_normalize_escapedTwice :
    normalize (normalize "&amp;amp;".toList) ≠ normalize "&amp;amp;".toList := by
  decide +kernel

/-- A bare bullet above a block: its lines settle at once, but what was code is prose afterwards. -/
example : ¬ JoinsProse "•\n```\n<-\n```\n".toList ∧
    normalize (normalize "•\n```\n<-\n```\n".toList) ≠ normalize "•\n```\n<-\n```\n".toList := by
  decide +kernel

end MdxPress.Glyph
