import MdxPress.Proofs.Directive.Clear
import MdxPress.Proofs.Directive.Leftover

/-!
The sweep over the leftover markers of a page takes every one of them exactly once.  A decision may
reach forward over blanks and a bare fence, where no marker begins, and back to the start of the line,
which no earlier decision has touched; so no decision meets another.

* `Text.IsEdge` is a place that no decision behind it reaches back over;
* `Leftover.endsClear_single` says where a decision about one marker ends;
* `Leftover.exists_shares` is the run over the markers: each is decided on, or taken with the one
  before it;
* `Leftover.decisions_account` is the sweep as a whole.
-/

namespace MdxPress

/-! ## Edges -/

namespace Text

theorem slice_append_slice (t : Text) {i j k : Nat} (first : i ≤ j) (second : j ≤ k) :
    t.slice i j ++ t.slice j k = t.slice i k := by
  obtain ⟨n, rfl⟩ := Nat.exists_eq_add_of_le first
  obtain ⟨m, rfl⟩ := Nat.exists_eq_add_of_le second
  rw [slice, slice, slice, Nat.add_sub_cancel_left, Nat.add_sub_cancel_left, Nat.add_assoc,
    Nat.add_sub_cancel_left, ← List.drop_drop, ← List.take_add]

/-- An end of the text, the end of a line, or the end of a marker. -/
def IsEdge (t : Text) (n : Nat) : Prop :=
  n = 0 ∨ n = t.length ∨ (t.take n).getLast? = some '\n' ∨ (t.take n).getLast? = some '}'

/-- The line around something behind an edge does not reach back over it: a line with only blanks
before the place holds neither of the characters that an edge stands behind. -/
theorem IsEdge.le_lineAround {t : Text} {n i : Nat} (edge : t.IsEdge n) (before : n ≤ i)
    (inside : i < t.length) (j : Nat) : n ≤ (t.lineAround i j).1 := by
  rw [lineAround_eq]
  split
  case isFalse => exact before
  case isTrue both =>
    have blank : allBlank (lastLine (t.take i)) = true := (Bool.and_eq_true_iff.1 both).1
    obtain ⟨above, cut, -⟩ := exists_lastLine (t.take i)
    have length : above.length + (lastLine (t.take i)).length = i := by
      rw [← List.length_append, ← cut, List.length_take_of_le (Nat.le_of_lt inside)]
    by_contra early
    replace early : i - (lastLine (t.take i)).length < n := Nat.lt_of_not_le early
    have stands {c : Char} (last : (t.take n).getLast? = some c) : c ∈ lastLine (t.take i) := by
      have same : t.take n = above ++ (lastLine (t.take i)).take (n - above.length) := by
        calc t.take n = (t.take i).take n := by rw [List.take_take, Nat.min_eq_left before]
          _ = (above ++ lastLine (t.take i)).take n := by rw [← cut]
          _ = _ := by rw [List.take_append, List.take_of_length_le (by omega)]
      have filled : (lastLine (t.take i)).take (n - above.length) ≠ [] := by
        rw [Ne, ← List.length_eq_zero_iff, List.length_take]
        omega
      rw [same, List.getLast?_append_of_ne_nil above filled] at last
      exact List.mem_of_mem_take (List.mem_of_getLast? last)
    rcases edge with start | stop | feed | brace
    · omega
    · omega
    · exact lastLine_noFeed _ (stands feed)
    · cases List.all_eq_true.1 blank _ (stands brace)

end Text

namespace Marker

variable {m : Marker} {t : Text} {n : Nat}

theorem StandsIn.getElem?_start (stands : m.StandsIn t) : t[m.start]? = some '{' := by
  obtain ⟨before, inside, behind, rfl, start, -⟩ := stands
  rw [start, List.getElem?_append_right (Nat.le_refl _), Nat.sub_self]
  rfl

theorem StandsIn.start_lt_stop (stands : m.StandsIn t) : m.start < m.stop := by
  obtain ⟨before, inside, behind, -, start, stop, -⟩ := stands
  omega

/-- A marker ends at an edge. -/
theorem StandsIn.isEdge (stands : m.StandsIn t) : t.IsEdge m.stop := by
  obtain ⟨before, inside, behind, rfl, -, stop, -⟩ := stands
  have cut : before ++ '{' :: '%' :: (inside ++ '%' :: '}' :: behind) =
      ((before ++ '{' :: '%' :: (inside ++ ['%'])) ++ ['}']) ++ behind := by simp
  have length : m.stop = ((before ++ '{' :: '%' :: (inside ++ ['%'])) ++ ['}']).length := by
    rw [stop]
    simp
  rw [cut, length]
  exact .inr (.inr (.inr (by rw [List.take_left, List.getLast?_concat])))

/-- Where no marker begins in a stretch, the next marker stands behind it. -/
theorem StandsIn.le_start (stands : m.StandsIn t) {i : Nat} (behind : i ≤ m.start)
    (free : '{' ∉ t.slice i n) : n ≤ m.start := by
  by_contra early
  refine free (List.mem_of_getElem? (i := m.start - i) ?_)
  rw [Text.slice, List.getElem?_take_of_lt (by omega), List.getElem?_drop,
    Nat.add_sub_cancel' behind]
  exact stands.getElem?_start

end Marker

namespace Leftover

variable {t : Text} {m k : Marker} {d : Leftover}

/-! ## Where a decision ends -/

/-- A place behind a marker up to which no other begins, and that no later decision reaches over. -/
structure EndsClear (t : Text) (m : Marker) (n : Nat) : Prop where
  behind : m.stop ≤ n
  inside : n ≤ t.length
  edge : t.IsEdge n
  free : '{' ∉ t.slice m.stop n

theorem endsClear_stop (stands : m.StandsIn t) : EndsClear t m m.stop where
  behind := Nat.le_refl _
  inside := stands.within.inside
  edge := stands.isEdge
  free := by simp [Text.slice]

/-- What is taken away with a marker that is alone on its line. -/
theorem endsClear_lineAround (stands : m.StandsIn t) :
    EndsClear t m (t.lineAround m.start m.stop).2 := by
  have inside := stands.within.inside
  have bounds := t.lineAround_bounds m.start inside
  rw [Text.lineAround_eq] at bounds ⊢
  split
  case isFalse => exact endsClear_stop stands
  case isTrue both =>
    rw [if_pos both] at bounds
    have blank : Text.allBlank (Text.firstLine (t.drop m.stop)) = true :=
      (Bool.and_eq_true_iff.1 both).2
    obtain ⟨rest, cut, ends⟩ := Text.exists_firstLine (t.drop m.stop)
    have line : t.slice m.stop (m.stop + (Text.firstLine (t.drop m.stop)).length) =
        Text.firstLine (t.drop m.stop) := by
      calc t.slice m.stop (m.stop + (Text.firstLine (t.drop m.stop)).length)
          = (t.drop m.stop).take (Text.firstLine (t.drop m.stop)).length := by
            rw [Text.slice, Nat.add_sub_cancel_left]
        _ = (Text.firstLine (t.drop m.stop) ++ rest).take
              (Text.firstLine (t.drop m.stop)).length := by rw [← cut]
        _ = Text.firstLine (t.drop m.stop) := List.take_left
    refine ⟨bounds.2.1, bounds.2.2, ?_, ?_⟩
    · rcases ends with ⟨rfl, -⟩ | ⟨w, feed, -⟩
      · have length := congrArg List.length cut
        rw [List.append_nil, List.length_drop] at length
        exact .inr (.inl (by dsimp only; omega))
      · have taken : t.take (m.stop + (Text.firstLine (t.drop m.stop)).length) =
            t.take m.stop ++ Text.firstLine (t.drop m.stop) := by
          rw [List.take_add]
          exact congrArg (t.take m.stop ++ ·)
            (by simpa [Text.slice] using line)
        exact .inr (.inr (.inl (by rw [taken, feed, ← List.append_assoc, List.getLast?_concat])))
    · rw [line]
      intro mem
      cases List.all_eq_true.1 blank _ mem

/-- No marker begins on a line that opens a block without info. -/
theorem noBrace_of_bare {line : Text} {o : FenceOpener} (opens : FenceOpener.ofLine? line = some o)
    (bare : o.info = []) : '{' ∉ line := by
  obtain ⟨before, behind, rfl, reads⟩ := FenceOpener.ofLine?_eq_some_iff.1 opens
  have blank : '{' ∉ behind := by
    rw [← Text.mem_trim (by decide), ← reads.info, bare]
    exact nofun
  rw [List.mem_append, List.mem_append]
  rintro (mem | mem | mem)
  · cases reads.indent _ mem
  · have same := List.eq_of_mem_replicate mem
    cases mark : o.fence.mark <;> rw [mark] at same <;> cases same
  · exact blank mem

theorem noBrace_text {l : Line} (noBrace : '{' ∉ l.content) : '{' ∉ l.text := by
  rw [Line.text, List.mem_append]
  rintro (mem | mem)
  · exact noBrace mem
  · cases Ending.isBlank_of_mem mem

/-- The bare fence that is found ends with a line, and no marker begins up to there. -/
theorem exists_of_bareFence? {ls : List Line} {n : Nat} {new : Text}
    (found : bareFence? ls = some (n, new)) :
    ∃ above below, ls = above ++ below ∧ above ≠ [] ∧ n = (Line.join above).length ∧
      '{' ∉ Line.join above := by
  induction ls generalizing n new with
  | nil => cases found
  | cons l ls ih =>
    rw [bareFence?] at found
    split at found
    case isTrue blank =>
      obtain ⟨⟨n, new⟩, later, same⟩ := Option.map_eq_some_iff.1 found
      cases same
      obtain ⟨above, below, rfl, -, rfl, noBrace⟩ := ih later
      refine ⟨l :: above, below, rfl, by simp, by rw [Line.join_cons, List.length_append], ?_⟩
      have first : '{' ∉ l.content := by
        intro mem
        cases List.all_eq_true.1 blank _ mem
      rw [Line.join_cons, List.mem_append]
      exact not_or.2 ⟨noBrace_text first, noBrace⟩
    case isFalse =>
      obtain ⟨o, opens, bare⟩ := Option.bind_eq_some_iff.1 found
      split at bare
      case isFalse => cases bare
      case isTrue empty =>
        cases bare
        have first := noBrace_text (noBrace_of_bare opens (List.isEmpty_iff.1 empty))
        have line : Line.join [l] = l.text := List.append_nil _
        exact ⟨[l], ls, rfl, by simp, by rw [line], by rw [line]; exact first⟩

/-- What is taken away with a lone code directive that a bare fence follows. -/
theorem EndsClear.bareFence {stop n : Nat} {new : Text} (ends : EndsClear t m stop)
    (found : bareFence? (Text.lines (t.drop stop)) = some (n, new)) :
    EndsClear t m (stop + n) := by
  obtain ⟨above, below, lines, filled, rfl, noBrace⟩ := exists_of_bareFence? found
  have cut : t.drop stop = Line.join above ++ Line.join below := by
    rw [← Text.join_lines (t.drop stop), lines, Line.join_append]
  have taken : t.take (stop + (Line.join above).length) = t.take stop ++ Line.join above := by
    rw [List.take_add, cut, List.take_left]
  have fence : t.slice stop (stop + (Line.join above).length) = Line.join above := by
    rw [Text.slice, Nat.add_sub_cancel_left, cut, List.take_left]
  have length := congrArg List.length cut
  rw [List.length_drop, List.length_append] at length
  have inside := ends.inside
  refine ⟨Nat.le_add_right_of_le ends.behind, by omega, ?_, ?_⟩
  · have whole : Line.AreLines (above ++ below) := lines ▸ Text.areLines_lines (t.drop stop)
    rcases whole.allEnded_or_eq_nil with ended | rfl
    · refine .inr (.inr (.inl ?_))
      have last := ended.getLast?_join filled
      rw [taken, List.getLast?_append, last]
      rfl
    · rw [Line.join_nil, List.length_nil] at length
      exact .inr (.inl (by omega))
  · rw [← Text.slice_append_slice t ends.behind (Nat.le_add_right _ _), fence, List.mem_append]
    exact not_or.2 ⟨ends.free, noBrace⟩

/-- **A decision about one marker** ends before the next. -/
theorem endsClear_single (stands : m.StandsIn t) : EndsClear t m (single t m).edit.stop := by
  have line := endsClear_lineAround stands
  unfold single danglingCode
  dsimp only
  split
  · split
    case h_1 found => exact line.bareFence found
    case h_2 => exact line
  · split
    · exact endsClear_stop stands
    · exact line

/-- It begins behind the one before. -/
theorem le_start_single (stands : m.StandsIn t) {n : Nat} (edge : t.IsEdge n)
    (before : n ≤ m.start) : n ≤ (single t m).edit.start := by
  have inside : m.start < t.length :=
    Nat.lt_of_lt_of_le stands.start_lt_stop stands.within.inside
  have line := edge.le_lineAround before inside m.stop
  unfold single danglingCode
  dsimp only
  split
  · split <;> exact line
  · split
    · exact before
    · exact line

theorem marker_single (t : Text) (m : Marker) : (single t m).marker = m := by
  unfold single danglingCode
  dsimp only
  repeat' split
  all_goals rfl

/-- A decision about two markers covers both, and nothing else. -/
theorem of_paired? (taken : paired? t m k = some d) :
    d.marker = m ∧ d.edit.start = m.start ∧ d.edit.stop = k.stop ∧ k.closes m.name = true := by
  rw [paired?] at taken
  split at taken
  case isFalse => cases taken
  case isTrue closes =>
    obtain ⟨p, -, rfl⟩ := Option.map_eq_some_iff.1 taken
    exact ⟨rfl, rfl, rfl, closes⟩

/-! ## The run over the markers -/

/-- A decision with the closer that it takes along, if it takes one. -/
structure Share where
  decision : Leftover
  closer : Option Marker

/-- The markers that a decision takes: its own first. -/
def Share.markers (s : Share) : List Marker :=
  s.decision.marker :: s.closer.toList

/-- The decision is the one about its marker and the closer, or about its marker alone. -/
def Share.IsMade (t : Text) (s : Share) : Prop :=
  match s.closer with
  | some k => paired? t s.decision.marker k = some s.decision
  | none => s.decision = single t s.decision.marker

/-- **The run over the markers.**  They fall into the shares of the decisions: every marker is decided
on, save a closer that the decision on the marker right before it takes along. -/
theorem exists_shares (ms : List Marker) {cursor : Nat} (stands : ∀ m ∈ ms, m.StandsIn t)
    (ordered : Text.Edit.InOrder cursor t.length (ms.map Marker.span)) (edge : t.IsEdge cursor) :
    ∃ ss : List Share, ms = ss.flatMap Share.markers ∧
      decisionsFrom t cursor ms = ss.map (·.decision) ∧ ∀ s ∈ ss, s.IsMade t := by
  match ms with
  | [] => exact ⟨[], rfl, rfl, nofun⟩
  | m :: ms =>
    obtain ⟨first, later⟩ := List.forall_mem_cons.1 stands
    obtain ⟨before, -, rest⟩ := ordered
    replace before : cursor ≤ m.start := before
    cases taken : ms.head?.bind (paired? t m) with
    | none =>
      -- Behind an edge the decision does not reach back over the cursor, so it need not be cut short.
      have alone : decide t cursor m ms = single t m := by
        have start := le_start_single first edge before
        rw [decide_eq, chosen, taken, Option.getD_none, if_neg (Nat.not_lt.2 start)]
      have ends := endsClear_single first
      have behind : Text.Edit.InOrder (single t m).edit.stop t.length (ms.map Marker.span) := by
        cases ms with
        | nil => exact ends.inside
        | cons k ms =>
          exact ⟨(later k (.head _)).le_start rest.1 ends.free, rest.2⟩
      obtain ⟨ss, cut, run, made⟩ := exists_shares ms later behind ends.edge
      refine ⟨⟨single t m, none⟩ :: ss, ?_, ?_, List.forall_mem_cons.2 ⟨?_, made⟩⟩
      · rw [List.flatMap_cons, ← cut, Share.markers, marker_single]
        rfl
      · rw [decisionsFrom, if_neg (Nat.not_lt.2 before), alone]
        exact congrArg (single t m :: ·) run
      · exact congrArg (single t) (marker_single t m).symm
    | some d =>
      obtain ⟨k, head, pair⟩ := Option.bind_eq_some_iff.1 taken
      obtain ⟨ms, rfl⟩ := List.head?_eq_some_iff.1 head
      obtain ⟨closer, later⟩ := List.forall_mem_cons.1 later
      obtain ⟨rfl, start, stop, -⟩ := of_paired? pair
      have together : decide t cursor d.marker (k :: ms) = d := by
        rw [decide_eq, chosen, taken, Option.getD_some, if_neg (by rw [start]; exact Nat.not_lt.2 before)]
      obtain ⟨ss, cut, run, made⟩ := exists_shares ms later rest.2.2 closer.isEdge
      refine ⟨⟨d, some k⟩ :: ss, ?_, ?_, List.forall_mem_cons.2 ⟨pair, made⟩⟩
      · rw [List.flatMap_cons, ← cut]
        rfl
      · -- The closer stands before the end of the edit, so it is passed over.
        have covered : k.start < d.edit.stop := stop ▸ closer.start_lt_stop
        have passed : decisionsFrom t d.edit.stop (k :: ms) = ss.map (·.decision) := by
          rw [decisionsFrom, if_pos covered, stop]
          exact run
        rw [decisionsFrom, if_neg (Nat.not_lt.2 before), together]
        exact congrArg (d :: ·) passed
termination_by ms.length

/-- The markers that decisions are about come in the order of the page. -/
theorem pairwise_subjects {t : Text} {ss : List Share} (cut : t.markers = ss.flatMap Share.markers) :
    ss.Pairwise fun r s => r.decision.marker.start < s.decision.marker.start ∧
      s.decision.marker.start ≤ t.length := by
  have starts : t.markers.Pairwise fun m k => m.start < k.start ∧ k.start ≤ t.length := by
    have apart := List.pairwise_map.1 t.inOrder_markers.pairwise
    refine apart.imp_of_mem fun {m k} mem mem' behind => ?_
    have within := (Text.standsIn_of_mem_markers mem').within
    exact ⟨Nat.lt_of_lt_of_le (Text.standsIn_of_mem_markers mem).start_lt_stop behind,
      Nat.le_trans within.ordered within.inside⟩
  have part : (ss.map (·.decision.marker)).Sublist (ss.flatMap Share.markers) := by
    clear cut
    induction ss with
    | nil => exact .slnil
    | cons s ss ih => exact (ih.trans (List.sublist_append_right _ _)).cons_cons _
  exact List.pairwise_map.1 (starts.sublist (cut ▸ part))

/-- **The sweep accounts for every marker.**  The markers of a page fall into shares, one for each
decision, and each decision is reported with the name and the place of its marker; the fallbacks of
every kind grow by the decisions on markers of the kind; the reports come in the order of their
positions; and what is put in stands between stretches of the page that are copied. -/
theorem decisions_account (t : Text) (tally : Tally) :
    (∃ ss : List Share, t.markers = ss.flatMap Share.markers ∧ (∀ s ∈ ss, s.IsMade t) ∧
        decisions t = ss.map (·.decision) ∧
        (decisions t).map (diagnostic t) = ss.map fun s =>
          ⟨.malformedDirective s.decision.marker.name s.decision.detail,
            .ofIndex t s.decision.marker.start⟩) ∧
      (∀ k, (tally.addLeftovers (decisions t)).get k =
        { tally.get k with
          fallback := (tally.get k).fallback +
            (decisions t).countP fun d => DirectiveKind.ofMarkerName d.marker.name = k }) ∧
      (tally.addLeftovers (decisions t)).fallbacks =
        tally.fallbacks + ((decisions t).map (diagnostic t)).length ∧
      ((decisions t).map (diagnostic t)).Pairwise (fun d e => d.position.Before e.position) ∧
      Text.Edit.Splices 0 t ((decisions t).map (·.edit)) (clear t) := by
  obtain ⟨ss, cut, run, made⟩ := exists_shares t.markers
    (fun _ => Text.standsIn_of_mem_markers) t.inOrder_markers (.inl rfl)
  refine ⟨⟨ss, cut, made, run, ?_⟩, tally.get_addLeftovers _, ?_, ?_, ?_⟩
  · rw [decisions, run, List.map_map]
    rfl
  · rw [List.length_map]
    exact tally.fallbacks_addLeftovers _
  · rw [decisions, run, List.map_map, List.pairwise_map]
    exact (pairwise_subjects cut).imp fun both => Position.before_ofIndex both.1 both.2
  · exact Text.splices_splice (inOrder_decisions t)

end Leftover
end MdxPress
