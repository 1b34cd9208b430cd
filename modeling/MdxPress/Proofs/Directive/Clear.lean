import MdxPress.Directive.Leftover
import MdxPress.Proofs.Marker.Place
import MdxPress.Proofs.Marker.Replace
import MdxPress.Proofs.Text.Edge

/-!
Clearing the leftover markers of two texts put together.  A decision looks at the marker behind its own
and, for a code directive, at the fence that may follow it; where neither lies in the second text, the
two are cleared apart.

* `Leftover.inOrder_decisions` says that the edits of the decisions neither overlap nor leave the page;
* `Leftover.Apart` is the condition on two texts, `Leftover.clear_append` what follows from it.
-/

namespace MdxPress

/-! ## The line around a marker -/

namespace Text

/-- The characters behind a place on its line are the first line of what follows it. -/
theorem takeWhile_append_take_eq_firstLine (t : Text) :
    t.takeWhile (· ≠ '\n') ++ (t.dropWhile (· ≠ '\n')).take 1 = t.firstLine := by
  induction t with
  | nil => rfl
  | cons c t ih =>
    by_cases feed : c = '\n'
    · simp [feed, firstLine]
    · simpa [feed, firstLine] using ih

theorem lineAround_eq (t : Text) (start stop : Nat) :
    t.lineAround start stop =
      if (lastLine (t.take start)).allBlank && (firstLine (t.drop stop)).allBlank then
        (start - (lastLine (t.take start)).length, stop + (firstLine (t.drop stop)).length)
      else (start, stop) := by
  rw [lineAround, takeWhile_append_take_eq_firstLine]

theorem length_firstLine_le (t : Text) : t.firstLine.length ≤ t.length := by
  obtain ⟨rest, cut, -⟩ := exists_firstLine t
  conv => rhs; rw [cut, List.length_append]
  exact Nat.le_add_right _ _

theorem length_lastLine_le (t : Text) : t.lastLine.length ≤ t.length := by
  obtain ⟨above, cut, -⟩ := exists_lastLine t
  conv => rhs; rw [cut, List.length_append]
  exact Nat.le_add_left _ _

/-- The line around a stretch holds the stretch, and lies in the text. -/
theorem lineAround_bounds (t : Text) (start : Nat) {stop : Nat} (inside : stop ≤ t.length) :
    (t.lineAround start stop).1 ≤ start ∧ stop ≤ (t.lineAround start stop).2 ∧
      (t.lineAround start stop).2 ≤ t.length := by
  have line := length_firstLine_le (t.drop stop)
  rw [List.length_drop] at line
  rw [lineAround_eq]
  split
  · exact ⟨Nat.sub_le _ _, Nat.le_add_right _ _, by dsimp only; omega⟩
  · exact ⟨Nat.le_refl _, Nat.le_refl _, inside⟩

/-- A text that ends a line holds a line feed behind every place in it. -/
theorem EndsLine.feed_mem_drop {t : Text} (ends : t.EndsLine) {n : Nat} (inside : n < t.length) :
    '\n' ∈ t.drop n := by
  have filled : t.drop n ≠ [] := by rw [Ne, List.drop_eq_nil_iff]; omega
  rw [← List.take_append_drop n t] at ends
  exact List.mem_of_getLast? (ends.of_append filled)

theorem lineAround_append_left {a : Text} (ends : a.EndsLine) {start stop : Nat}
    (ordered : start ≤ stop) (inside : stop < a.length) (b : Text) :
    lineAround (a ++ b) start stop = lineAround a start stop := by
  rw [lineAround_eq, lineAround_eq, List.take_append_of_le_length (by omega),
    List.drop_append_of_le_length (by omega), firstLine_append_of_feed (ends.feed_mem_drop inside)]

theorem lineAround_append_right {a : Text} (ends : a.EndsLine) (b : Text) (start stop : Nat)
    (inside : start ≤ b.length) :
    lineAround (a ++ b) (a.length + start) (a.length + stop) =
      (a.length + (lineAround b start stop).1, a.length + (lineAround b start stop).2) := by
  have before := length_lastLine_le (b.take start)
  rw [List.length_take_of_le inside] at before
  rw [lineAround_eq, lineAround_eq, List.take_length_add_append, List.drop_length_add_append,
    lastLine_append ends]
  split
  · exact Prod.ext (Nat.add_sub_assoc before _) (Nat.add_assoc _ _ _)
  · rfl

/-- The line around a stretch holds nothing but blanks behind it. -/
theorem allBlank_drop_lineAround (t : Text) (start stop : Nat) :
    allBlank (t.drop (t.lineAround start stop).2) = allBlank (t.drop stop) := by
  rw [lineAround_eq]
  split
  case isFalse => rfl
  case isTrue blank =>
    obtain ⟨rest, cut, -⟩ := exists_firstLine (t.drop stop)
    have behind (line : Text) (same : t.drop stop = line ++ rest) :
        t.drop (stop + line.length) = rest := by
      rw [← List.drop_drop, same, List.drop_left]
    have line : (firstLine (t.drop stop)).all isBlank = true := (Bool.and_eq_true_iff.1 blank).2
    rw [behind _ cut]
    conv => rhs; rw [cut]
    rw [allBlank, allBlank, List.all_append, line, Bool.true_and]

end Text

namespace Marker

variable {m : Marker} {t : Text}

/-- A marker ends before the line feed at the end of a text. -/
theorem StandsIn.stop_lt (stands : m.StandsIn t) (ends : t.EndsLine) : m.stop < t.length := by
  obtain ⟨before, inside, behind, rfl, -, stop, -⟩ := stands
  have filled : behind ≠ [] := by
    rintro rfl
    have cut : before ++ '{' :: '%' :: (inside ++ ['%', '}']) =
        (before ++ '{' :: '%' :: inside) ++ ['%', '}'] := by simp
    rw [cut] at ends
    have last := ends.of_append (by simp)
    simp at last
  have length := List.length_pos_iff.2 filled
  simp only [List.length_append, List.length_cons]
  omega

theorem StandsIn.within (stands : m.StandsIn t) : m.Within t.length := by
  obtain ⟨before, inside, behind, rfl, start, stop, -⟩ := stands
  refine ⟨by omega, ?_⟩
  simp only [List.length_append, List.length_cons]
  omega

end Marker

namespace Leftover

/-! ## The fence behind a code directive -/

theorem bareFence?_append_of_none (ls : List Line) {ms : List Line} (none : bareFence? ms = none) :
    bareFence? (ls ++ ms) = bareFence? ls := by
  induction ls with
  | nil => exact none
  | cons l ls ih => simp only [List.cons_append, bareFence?, ih]

theorem bareFence?_append_of_visible {ls : List Line} (visible : ∃ l ∈ ls, l.isBlank = false)
    (ms : List Line) : bareFence? (ls ++ ms) = bareFence? ls := by
  induction ls with
  | nil => obtain ⟨l, mem, -⟩ := visible; cases mem
  | cons l ls ih =>
    rw [List.cons_append, bareFence?, bareFence?]
    split
    case isFalse => rfl
    case isTrue blank =>
      obtain ⟨k, mem, shows⟩ := visible
      rcases List.mem_cons.1 mem with rfl | later
      · rw [blank] at shows
        cases shows
      · rw [ih ⟨k, later, shows⟩]

/-- The fence that is found ends inside the lines. -/
theorem length_of_bareFence? {ls : List Line} {n : Nat} {new : Text}
    (found : bareFence? ls = some (n, new)) : n ≤ (Line.join ls).length := by
  induction ls generalizing n new with
  | nil => cases found
  | cons l ls ih =>
    rw [bareFence?] at found
    rw [Line.join_cons, List.length_append]
    split at found
    case isTrue =>
      obtain ⟨p, later, same⟩ := Option.map_eq_some_iff.1 found
      cases same
      exact Nat.add_le_add_left (ih later) _
    case isFalse =>
      obtain ⟨o, -, bare⟩ := Option.bind_eq_some_iff.1 found
      split at bare
      case isTrue => cases bare; exact Nat.le_add_right _ _
      case isFalse => cases bare

/-- A text that shows something has a line that does. -/
theorem exists_visible_line {t : Text} (visible : t.allBlank = false) :
    ∃ l ∈ t.lines, l.isBlank = false := by
  by_contra none
  simp only [not_exists, not_and, Bool.not_eq_false] at none
  have blank : t.allBlank = true := by
    rw [← Text.join_lines t, Text.allBlank, List.all_eq_true]
    intro c mem
    obtain ⟨l, isIn, inside⟩ := List.mem_flatMap.1 mem
    rcases List.mem_append.1 inside with content | ending
    · exact List.all_eq_true.1 (none l isIn) c content
    · exact Ending.isBlank_of_mem ending
  rw [blank] at visible
  cases visible

theorem lines_drop_append {a : Text} (ends : a.EndsLine) {n : Nat} (inside : n ≤ a.length) (b : Text) :
    Text.lines ((a ++ b).drop n) = Text.lines (a.drop n) ++ b.lines := by
  have rest : Text.EndsLine (a.drop n) := by
    by_cases empty : a.drop n = []
    · exact .inl empty
    · rw [← List.take_append_drop n a] at ends
      exact .inr (ends.of_append empty)
  rw [List.drop_append_of_le_length inside, Text.lines_append rest.allEnded]

/-! ## One decision -/

/-- Two markers that the sweep takes as one directive when they follow each other. -/
def Joins (m k : Marker) : Prop :=
  k.closes m.name = true ∧ (ofPair? m []).isSome = true

instance (m k : Marker) : Decidable (Joins m k) :=
  inferInstanceAs (Decidable (_ ∧ _))

/-- Whether an opener is converted does not depend on what it encloses. -/
theorem isSome_ofPair? (m : Marker) (inner : Text) :
    (ofPair? m inner).isSome = (ofPair? m []).isSome := by
  unfold ofPair?
  split
  · rfl
  · split
    · rfl
    · rfl

theorem paired?_eq_none_iff {t : Text} {m k : Marker} : paired? t m k = none ↔ ¬ Joins m k := by
  rw [paired?, Joins, ← isSome_ofPair? m (t.slice m.stop k.start)]
  split
  case isTrue closes => simp [closes]
  case isFalse other => simp [other]

theorem paired?_append_left {a : Text} {m k : Marker} (inside : k.Within a.length) (b : Text) :
    paired? (a ++ b) m k = paired? a m k := by
  rw [paired?, paired?, Text.slice_append_left (Nat.le_trans inside.ordered inside.inside)]

/-- A code directive in `a` is decided on without a look at `b` behind it: something is shown behind the
marker in `a`, or `b` does not begin with a bare fence. -/
def Seen (a b : Text) (m : Marker) : Prop :=
  m.name = "code".toList → Text.allBlank (a.drop m.stop) = false ∨ bareFence? b.lines = none

theorem danglingCode_append_left {a : Text} {m : Marker} (stands : m.StandsIn a) (ends : a.EndsLine)
    {b : Text} (seen : Text.allBlank (a.drop m.stop) = false ∨ bareFence? b.lines = none) :
    danglingCode (a ++ b) m = danglingCode a m := by
  have within := stands.within
  have line := Text.lineAround_append_left ends within.ordered (stands.stop_lt ends) b
  obtain ⟨-, -, inside⟩ := a.lineAround_bounds m.start within.inside
  have fence : bareFence? (Text.lines ((a ++ b).drop (a.lineAround m.start m.stop).2)) =
      bareFence? (Text.lines (a.drop (a.lineAround m.start m.stop).2)) := by
    rw [lines_drop_append ends inside]
    rcases seen with visible | none
    · rw [← Text.allBlank_drop_lineAround a m.start m.stop] at visible
      exact bareFence?_append_of_visible (exists_visible_line visible) _
    · exact bareFence?_append_of_none _ none
  simp only [danglingCode, line, fence]

theorem single_append_left {a : Text} {m : Marker} (stands : m.StandsIn a) (ends : a.EndsLine)
    {b : Text} (seen : Seen a b m) : single (a ++ b) m = single a m := by
  have line := Text.lineAround_append_left ends stands.within.ordered (stands.stop_lt ends) b
  rw [single, single]
  split
  case isTrue isCode => exact danglingCode_append_left stands ends (seen isCode)
  case isFalse => rw [line]

/-- The same decision `n` characters further on. -/
def shift (n : Nat) (d : Leftover) : Leftover :=
  { d with marker := d.marker.shift n, edit := d.edit.shift n }

theorem paired?_append_right (a b : Text) (m k : Marker) :
    paired? (a ++ b) (m.shift a.length) (k.shift a.length) = (paired? b m k).map (shift a.length) := by
  have same : ofPair? (m.shift a.length) = ofPair? m := rfl
  have inner : Text.slice (a ++ b) (m.shift a.length).stop (k.shift a.length).start =
      Text.slice b m.stop k.start := Text.slice_append_right a b m.stop k.start
  rw [paired?, paired?, inner, same, Marker.closes_shift, Marker.name_shift]
  split
  · rw [Option.map_map]
    rfl
  · rfl

theorem single_append_right {a : Text} (ends : a.EndsLine) {b : Text} {m : Marker}
    (within : m.Within b.length) :
    single (a ++ b) (m.shift a.length) = (single b m).shift a.length := by
  have inside := Nat.le_trans within.ordered within.inside
  have line := Text.lineAround_append_right ends b m.start m.stop inside
  have same : ofSingle? (m.shift a.length) = ofSingle? m := rfl
  unfold single danglingCode
  rw [Marker.name_shift, Marker.start_shift, Marker.stop_shift, line, same]
  dsimp only
  rw [List.drop_length_add_append]
  split
  · split
    · simp [shift, Text.Edit.shift, Nat.add_assoc]
    · rfl
  · split <;> rfl

/-- The decision about a marker, wherever the decision before it ends. -/
def chosen (t : Text) (m : Marker) (rest : List Marker) : Leftover :=
  (rest.head?.bind (paired? t m)).getD (single t m)

theorem decide_eq (t : Text) (cursor : Nat) (m : Marker) (rest : List Marker) :
    decide t cursor m rest =
      if (chosen t m rest).edit.start < cursor then
        { chosen t m rest with edit := { (chosen t m rest).edit with start := m.start } }
      else chosen t m rest := rfl

theorem chosen_append_right {a : Text} (ends : a.EndsLine) {b : Text} {m : Marker}
    (within : m.Within b.length) (ms : List Marker) :
    chosen (a ++ b) (m.shift a.length) (ms.map (Marker.shift a.length)) =
      (chosen b m ms).shift a.length := by
  cases ms with
  | nil => exact single_append_right ends within
  | cons k ms =>
    simp only [chosen, List.map_cons, List.head?_cons, Option.bind_some, paired?_append_right,
      single_append_right ends within]
    cases paired? b m k <;> rfl

/-! ## All decisions -/

section Right

variable {a b : Text} {ms : List Marker}

theorem decide_append_right (ends : a.EndsLine) (cursor : Nat) {m : Marker}
    (within : m.Within b.length) :
    decide (a ++ b) (a.length + cursor) (m.shift a.length) (ms.map (Marker.shift a.length)) =
      (decide b cursor m ms).shift a.length := by
  rw [decide_eq, decide_eq, chosen_append_right ends within]
  by_cases early : (chosen b m ms).edit.start < cursor
  · simp [early, shift, Text.Edit.shift]
  · simp [early, shift, Text.Edit.shift]

theorem decisionsFrom_append_right (ends : a.EndsLine) (cursor : Nat)
    (within : ∀ m ∈ ms, m.Within b.length) :
    decisionsFrom (a ++ b) (a.length + cursor) (ms.map (Marker.shift a.length)) =
      (decisionsFrom b cursor ms).map (shift a.length) := by
  induction ms generalizing cursor with
  | nil => rfl
  | cons m ms ih =>
    have later := fun cursor => ih cursor fun k mem => within k (.tail _ mem)
    rw [List.map_cons, decisionsFrom, decisionsFrom, decide_append_right ends cursor (within m (.head _)),
      Marker.start_shift, later]
    by_cases covered : m.start < cursor
    · simp [covered]
    · have next := later (decide b cursor m ms).edit.stop
      simp only [covered, Nat.add_lt_add_iff_left, if_false, List.map_cons, List.cons.injEq, true_and]
      exact next

/-- A decision edits nothing before the end of the decision before it. -/
theorem start_decide {t : Text} {cursor : Nat} {m : Marker} {ms : List Marker}
    (behind : cursor ≤ m.start) : cursor ≤ (decide t cursor m ms).edit.start := by
  rw [decide_eq]
  split
  case isTrue => exact behind
  case isFalse late => exact Nat.le_of_not_lt late

/-- Where the last edit before them ends does not matter to decisions behind a line. -/
theorem decisionsFrom_cursor (ends : a.EndsLine) {cursor : Nat} (before : cursor ≤ a.length)
    (within : ∀ m ∈ ms, m.Within b.length) :
    decisionsFrom (a ++ b) cursor (ms.map (Marker.shift a.length)) =
      (decisionsFrom b 0 ms).map (shift a.length) := by
  rw [← decisionsFrom_append_right ends 0 within, Nat.add_zero]
  cases ms with
  | nil => rfl
  | cons m ms =>
    have late : ¬ a.length + m.start < cursor := by omega
    have behind : ¬ a.length + m.start < a.length := by omega
    have start : ¬ ((chosen b m ms).shift a.length).edit.start < cursor := by
      have moved : a.length ≤ ((chosen b m ms).shift a.length).edit.start := Nat.le_add_right _ _
      omega
    have first : ¬ ((chosen b m ms).shift a.length).edit.start < a.length :=
      Nat.not_lt.2 (Nat.le_add_right _ _)
    have same : decide (a ++ b) cursor (m.shift a.length) (ms.map (Marker.shift a.length)) =
        decide (a ++ b) a.length (m.shift a.length) (ms.map (Marker.shift a.length)) := by
      rw [decide_eq, decide_eq, chosen_append_right ends (within m (.head _)), if_neg start, if_neg first]
    simp only [List.map_cons, decisionsFrom, Marker.start_shift, late, behind, if_false, same]

end Right

section Left

variable {a b : Text} {m : Marker} {ms ns : List Marker}

/-- The first of some markers, if there are none before them, is not taken with the last before. -/
def FollowsAlone (ms ns : List Marker) : Prop :=
  ∀ m ∈ ms.getLast?, ∀ k ∈ ns.head?, ¬ Joins m k

theorem chosen_append_left (stands : ∀ k ∈ m :: ms, k.StandsIn a) (ends : a.EndsLine)
    (seen : Seen a b m) (alone : FollowsAlone (m :: ms) ns) :
    chosen (a ++ b) m (ms ++ ns) = chosen a m ms := by
  have single := single_append_left (stands m (.head _)) ends seen
  cases ms with
  | cons k ms =>
    have within := (stands k (.tail _ (.head _))).within
    simp only [chosen, List.cons_append, List.head?_cons, Option.bind_some,
      paired?_append_left within, single]
  | nil =>
    cases ns with
    | nil => exact single
    | cons k ns =>
      have apart := paired?_eq_none_iff (t := a ++ b).2 (alone m rfl k rfl)
      simp only [chosen, List.nil_append, List.head?_cons, Option.bind_some, apart, Option.getD_none,
        List.head?_nil, Option.bind_none, single]

end Left

/-! ## The edits -/

section Edits

variable {t : Text}

/-- A decision covers its marker and stays inside the page. -/
theorem chosen_bounds {m : Marker} {ms : List Marker} {first : Nat}
    (ordered : Text.Edit.InOrder first t.length ((m :: ms).map Marker.span)) :
    (chosen t m ms).edit.start ≤ m.start ∧ m.stop ≤ (chosen t m ms).edit.stop ∧
      (chosen t m ms).edit.stop ≤ t.length := by
  obtain ⟨-, within, rest⟩ := ordered
  have inside : m.stop ≤ t.length := rest.le
  obtain ⟨start, stop, last⟩ := t.lineAround_bounds m.start inside
  have alone : (single t m).edit.start ≤ m.start ∧ m.stop ≤ (single t m).edit.stop ∧
      (single t m).edit.stop ≤ t.length := by
    unfold single danglingCode
    dsimp only
    split
    · split
      case h_1 n new found =>
        have fence := length_of_bareFence? found
        rw [Text.join_lines, List.length_drop] at fence
        exact ⟨start, by dsimp only; omega, by dsimp only; omega⟩
      case h_2 => exact ⟨start, stop, last⟩
    · split
      · exact ⟨Nat.le_refl _, Nat.le_refl _, inside⟩
      · exact ⟨start, stop, last⟩
  unfold chosen
  cases ms with
  | nil => exact alone
  | cons k ms =>
    obtain ⟨apart, closer, behind⟩ := rest
    rw [List.head?_cons, Option.bind_some]
    cases taken : paired? t m k with
    | none => exact alone
    | some d =>
      unfold paired? at taken
      split at taken
      case isFalse => cases taken
      case isTrue =>
        obtain ⟨p, -, rfl⟩ := Option.map_eq_some_iff.1 taken
        exact ⟨Nat.le_refl _, Nat.le_trans apart closer, behind.le⟩

/-- **The edits of decisions come one after another**, from where the decision before them ends. -/
theorem inOrder_decisionsFrom {first cursor : Nat} {ms : List Marker}
    (ordered : Text.Edit.InOrder first t.length (ms.map Marker.span)) (inside : cursor ≤ t.length) :
    Text.Edit.InOrder cursor t.length ((decisionsFrom t cursor ms).map (·.edit)) := by
  induction ms generalizing first cursor with
  | nil => exact inside
  | cons m ms ih =>
    rw [decisionsFrom]
    split
    case isTrue => exact ih ordered.2.2 inside
    case isFalse late =>
      obtain ⟨start, stop, last⟩ := chosen_bounds ordered
      have within : m.start ≤ m.stop := ordered.2.1
      refine ⟨start_decide (Nat.le_of_not_lt late), ?_, ih ordered.2.2 ?_⟩
      · rw [decide_eq]
        split
        · exact Nat.le_trans within stop
        · exact Nat.le_trans start (Nat.le_trans within stop)
      · rw [decide_eq]
        split <;> exact last

theorem inOrder_decisions (t : Text) :
    Text.Edit.InOrder 0 t.length ((decisions t).map (·.edit)) :=
  inOrder_decisionsFrom t.inOrder_markers (Nat.zero_le _)

end Edits

/-! ## Two texts -/

/-- The decisions about the markers of the first text are made without a look at the second. -/
theorem decisionsFrom_append_left {a b : Text} {ms ns : List Marker} (ends : a.EndsLine)
    (within : ∀ m ∈ ns, m.Within b.length) (stands : ∀ m ∈ ms, m.StandsIn a)
    (seen : ∀ m ∈ ms, Seen a b m) (alone : FollowsAlone ms (ns.map (Marker.shift a.length)))
    {first cursor : Nat} (ordered : Text.Edit.InOrder first a.length (ms.map Marker.span))
    (before : cursor ≤ a.length) :
    decisionsFrom (a ++ b) cursor (ms ++ ns.map (Marker.shift a.length)) =
      decisionsFrom a cursor ms ++ (decisionsFrom b 0 ns).map (shift a.length) := by
  induction ms generalizing first cursor with
  | nil => exact decisionsFrom_cursor ends before within
  | cons m ms ih =>
    have apart : FollowsAlone ms (ns.map (Marker.shift a.length)) := by
      intro k last
      refine alone k ?_
      rw [List.getLast?_cons_of_ne_nil (by rintro rfl; cases last)]
      exact last
    have later {cursor : Nat} (before : cursor ≤ a.length) := ih (fun k mem => stands k (.tail _ mem))
      (fun k mem => seen k (.tail _ mem)) apart ordered.2.2 before
    have here : decide (a ++ b) cursor m (ms ++ ns.map (Marker.shift a.length)) =
        decide a cursor m ms := by
      rw [decide_eq, decide_eq, chosen_append_left stands ends (seen m (.head _)) alone]
    rw [List.cons_append, decisionsFrom, decisionsFrom, here]
    split
    case isTrue => exact later before
    case isFalse =>
      have stop : (decide a cursor m ms).edit.stop ≤ a.length := by
        rw [decide_eq]
        split <;> exact (chosen_bounds ordered).2.2
      dsimp only
      rw [later stop, List.cons_append]

/-- Two texts that are swept apart: the last marker of the first and the first marker of the second are
no directive, and no code directive of the first stands right before a bare fence of the second. -/
structure Apart (a b : Text) : Prop where
  alone : FollowsAlone a.markers b.markers
  seen : ∀ m ∈ a.markers, Seen a b m

instance (a b : Text) : Decidable (Apart a b) :=
  decidable_of_iff ((∀ m ∈ a.markers.getLast?, ∀ k ∈ b.markers.head?, ¬ Joins m k) ∧
      ∀ m ∈ a.markers, m.name = "code".toList →
        Text.allBlank (a.drop m.stop) = false ∨ bareFence? b.lines = none)
    ⟨fun h => ⟨h.1, h.2⟩, fun h => ⟨h.1, h.2⟩⟩

/-- The decisions about two texts put together. -/
theorem decisions_append {a b : Text} (closed : a.Closed) (apart : Apart a b) :
    decisions (a ++ b) = decisions a ++ (decisions b).map (shift a.length) := by
  have alone : FollowsAlone a.markers (b.markers.map (Marker.shift a.length)) := by
    intro m last k head
    rw [List.head?_map] at head
    obtain ⟨j, first, rfl⟩ := Option.map_eq_some_iff.1 head
    exact apart.alone m last j first
  rw [decisions, Text.markers_append closed]
  exact decisionsFrom_append_left (Text.endsLine_of_allEnded closed.ended)
    (fun _ => Text.markers_within) (fun _ => Text.standsIn_of_mem_markers) apart.seen alone
    a.inOrder_markers (Nat.zero_le _)

/-- **Two texts that are swept apart**: sweeping the whole is sweeping each. -/
theorem clear_append {a b : Text} (closed : a.Closed) (apart : Apart a b) :
    clear (a ++ b) = clear a ++ clear b := by
  have edits : (decisions (a ++ b)).map (·.edit) =
      (decisions a).map (·.edit) ++ ((decisions b).map (·.edit)).map (Text.Edit.shift a.length) := by
    rw [decisions_append closed apart, List.map_append, List.map_map, List.map_map]
    rfl
  rw [clear, edits, Text.splice_append (inOrder_decisions a) (inOrder_decisions b), clear, clear]

end Leftover
end MdxPress
