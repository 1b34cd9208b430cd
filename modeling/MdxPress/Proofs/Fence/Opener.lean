import MdxPress.Fence
import MdxPress.Proofs.Text.Blank

/-!
What opening and closing lines look like: an indentation, a run of marks, and what is behind it.

* `FenceOpener.ofLine?_eq_some_iff` and `FenceState.closedBy_iff` are the two forms;
* `FenceOpener.ofLine?_eq_none_of_head` and `FenceOpener.ofLine?_eq_none_of_trimStart` are enough to
  tell that a line opens nothing.
-/

namespace MdxPress

/-! ## Indentations -/

namespace Text

/-- A character that indents a line. -/
def isIndent (c : Char) : Bool :=
  c = ' ' || c = '\t'

/-- The columns that an indentation takes. -/
def width (before : Text) : Nat :=
  (before.indentColumns 0).1

theorem isBlank_of_isIndent {c : Char} (indent : isIndent c = true) : isBlank c = true := by
  simp only [isIndent, Bool.or_eq_true, decide_eq_true_eq] at indent
  rcases indent with rfl | rfl <;> decide

/-- An indentation is all that is taken off a line. -/
theorem indentColumns_append (col : Nat) {before rest : Text}
    (indent : ∀ c ∈ before, isIndent c = true) (visible : ∀ c ∈ rest.head?, isIndent c = false) :
    (before ++ rest).indentColumns col = ((before.indentColumns col).1, rest) := by
  induction before generalizing col with
  | nil =>
    cases rest with
    | nil => rfl
    | cons c rest =>
      have this := visible c rfl
      simp only [isIndent, Bool.or_eq_false_iff, decide_eq_false_iff_not] at this
      rw [List.nil_append, indentColumns.eq_def]
      split
      case h_1 r space => cases space; exact (this.1 rfl).elim
      case h_2 r tab => cases tab; exact (this.2 rfl).elim
      case h_3 => rfl
  | cons c before ih =>
    have later : ∀ d ∈ before, isIndent d = true := fun d mem => indent d (.tail _ mem)
    have this := indent c (.head _)
    simp only [isIndent, Bool.or_eq_true, decide_eq_true_eq] at this
    rcases this with rfl | rfl <;> simp only [List.cons_append, indentColumns, ih _ later]

theorem exists_indent (t : Text) :
    ∃ before rest, t = before ++ rest ∧ (∀ c ∈ before, isIndent c = true) ∧
      ∀ c ∈ rest.head?, isIndent c = false := by
  refine ⟨t.takeWhile isIndent, t.dropWhile isIndent, List.takeWhile_append_dropWhile.symm,
    fun c mem => List.all_eq_true.1 List.all_takeWhile c mem, fun c head => ?_⟩
  have stops := List.head?_dropWhile_not isIndent t
  rw [head] at stops
  simpa using stops

end Text

/-! ## Runs of marks -/

theorem FenceMark.ofChar?_eq_some_iff {c : Char} {m : FenceMark} :
    ofChar? c = some m ↔ c = m.char := by
  cases m <;> simp only [ofChar?, char] <;> split <;> simp_all

theorem FenceMark.ofChar?_char (m : FenceMark) : ofChar? m.char = some m :=
  ofChar?_eq_some_iff.2 rfl

namespace Text

theorem takeWhile_replicate_append {c : Char} {behind : Text} (n : Nat)
    (stops : behind.head? ≠ some c) :
    (List.replicate n c ++ behind).takeWhile (· == c) = List.replicate n c := by
  rw [List.takeWhile_append_of_pos (by simp)]
  cases behind with
  | nil => simp
  | cons d r =>
    have other : d ≠ c := by simpa using stops
    simp [other]

theorem dropWhile_replicate_append {c : Char} {behind : Text} (n : Nat)
    (stops : behind.head? ≠ some c) :
    (List.replicate n c ++ behind).dropWhile (· == c) = behind := by
  rw [List.dropWhile_append_of_pos (by simp)]
  cases behind with
  | nil => simp
  | cons d r =>
    have other : d ≠ c := by simpa using stops
    simp [other]

/-- Every text is a run of a character, which may be empty, and what follows it. -/
theorem exists_run (c : Char) (t : Text) :
    ∃ n behind, t = List.replicate n c ++ behind ∧ behind.head? ≠ some c := by
  induction t with
  | nil => exact ⟨0, [], rfl, by simp⟩
  | cons d t ih =>
    by_cases same : d = c
    · obtain ⟨n, behind, rfl, stops⟩ := ih
      exact ⟨n + 1, behind, by simp [List.replicate_succ, same], stops⟩
    · exact ⟨0, d :: t, rfl, by simpa using same⟩

theorem fenceRun?_replicate (m : FenceMark) {n : Nat} {behind : Text} (long : 3 ≤ n)
    (stops : behind.head? ≠ some m.char) :
    fenceRun? (List.replicate n m.char ++ behind) = some (m, n, behind) := by
  obtain ⟨k, rfl⟩ : ∃ k, n = k + 1 := ⟨n - 1, by omega⟩
  rw [List.replicate_succ, List.cons_append, fenceRun?, FenceMark.ofChar?_char, Option.bind_some,
    takeWhile_replicate_append k stops, dropWhile_replicate_append k stops,
    List.length_replicate, Nat.add_comm 1, if_pos long]

theorem fenceRun?_eq_some_iff {t : Text} {m : FenceMark} {n : Nat} {behind : Text} :
    t.fenceRun? = some (m, n, behind) ↔
      t = List.replicate n m.char ++ behind ∧ 3 ≤ n ∧ behind.head? ≠ some m.char := by
  constructor
  · intro found
    cases t with
    | nil => cases found
    | cons c r =>
      obtain ⟨k, tail, rfl, stops⟩ := exists_run c r
      rw [fenceRun?, takeWhile_replicate_append k stops, dropWhile_replicate_append k stops,
        List.length_replicate] at found
      obtain ⟨m', mark, kept⟩ := Option.bind_eq_some_iff.1 found
      obtain rfl := FenceMark.ofChar?_eq_some_iff.1 mark
      dsimp only at kept
      split at kept
      case isTrue long =>
        cases kept
        refine ⟨?_, long, stops⟩
        rw [Nat.add_comm, List.replicate_succ, List.cons_append]
      case isFalse => cases kept
  · rintro ⟨rfl, long, stops⟩
    exact fenceRun?_replicate m long stops

theorem isIndent_char (m : FenceMark) : isIndent m.char = false := by
  cases m <;> rfl

theorem isBlank_char (m : FenceMark) : isBlank m.char = false := by
  cases m <;> rfl

theorem ofChar?_of_isBlank {c : Char} (blank : isBlank c = true) : FenceMark.ofChar? c = none := by
  rw [Option.eq_none_iff_forall_ne_some]
  intro m mark
  rw [FenceMark.ofChar?_eq_some_iff.1 mark, isBlank_char] at blank
  cases blank

theorem head?_replicate_append {c : Char} {n : Nat} (filled : 0 < n) (t : Text) :
    (List.replicate n c ++ t).head? = some c := by
  obtain ⟨k, rfl⟩ : ∃ k, n = k + 1 := ⟨n - 1, by omega⟩
  rfl

/-- A line with a run of marks behind its indentation. -/
theorem indentColumns_run {before : Text} (indent : ∀ c ∈ before, isIndent c = true)
    (m : FenceMark) {n : Nat} (filled : 0 < n) (behind : Text) :
    indentColumns 0 (before ++ (List.replicate n m.char ++ behind)) =
      (width before, List.replicate n m.char ++ behind) := by
  refine indentColumns_append 0 indent fun c head => ?_
  rw [head?_replicate_append filled] at head
  cases head
  exact isIndent_char m

end Text

/-! ## Opening lines -/

/-- What an opening line consists of. -/
structure FenceOpener.Reads (o : FenceOpener) (before behind : Text) : Prop where
  indent : ∀ c ∈ before, Text.isIndent c = true
  width : before.width = o.fence.indent
  near : o.fence.indent ≤ 3
  long : 3 ≤ o.fence.length
  stops : behind.head? ≠ some o.fence.mark.char
  info : o.info = behind.trim
  noTick : o.fence.mark = .backtick → '\x60' ∉ behind

/-- **An opening line is an indentation, a run of marks, and an info.** -/
theorem FenceOpener.ofLine?_eq_some_iff {line : Text} {o : FenceOpener} :
    ofLine? line = some o ↔
      ∃ before behind, line = before ++ (o.fence.run ++ behind) ∧ o.Reads before behind := by
  constructor
  · intro opens
    obtain ⟨before, rest, rfl, indent, visible⟩ := Text.exists_indent line
    rw [ofLine?, Text.indentColumns_append 0 indent visible] at opens
    dsimp only at opens
    split at opens
    case isTrue => cases opens
    case isFalse near =>
      obtain ⟨⟨m, n, behind⟩, run, kept⟩ := Option.bind_eq_some_iff.1 opens
      obtain ⟨rfl, long, stops⟩ := Text.fenceRun?_eq_some_iff.1 run
      dsimp only at kept
      split at kept
      case isTrue => cases kept
      case isFalse closed =>
        cases kept
        refine ⟨before, behind, rfl, indent, rfl, Nat.le_of_not_lt near, long, stops, rfl, ?_⟩
        rintro rfl tick
        have inner : behind.trim.contains ['\x60'] = true :=
          Text.contains_singleton.2 ((Text.mem_trim (by decide)).2 tick)
        simp [inner] at closed
  · rintro ⟨before, behind, rfl, reads⟩
    obtain ⟨⟨m, col, n⟩, info⟩ := o
    have long : 3 ≤ n := reads.long
    have near : ¬ 3 < col := Nat.not_lt.2 reads.near
    have closed : (m = .backtick && behind.trim.contains ['\x60']) = false := by
      rw [Bool.and_eq_false_iff]
      by_cases mark : m = .backtick
      · refine .inr (Bool.eq_false_iff.2 fun tick => ?_)
        rw [Text.contains_singleton, Text.mem_trim (by decide)] at tick
        exact reads.noTick mark tick
      · exact .inl (by simpa using mark)
    have filled : 0 < n := Nat.lt_of_lt_of_le (by decide) long
    have width : before.width = col := reads.width
    obtain rfl : info = behind.trim := reads.info
    rw [ofLine?, Fence.run, Text.indentColumns_run reads.indent m filled]
    simp only [width, near, if_false, Text.fenceRun?_replicate m long reads.stops,
      Option.bind_some, closed, Bool.false_eq_true]

theorem FenceOpener.three_le_length {line : Text} {o : FenceOpener} (opens : ofLine? line = some o) :
    3 ≤ o.fence.length := by
  obtain ⟨_, _, _, reads⟩ := ofLine?_eq_some_iff.1 opens
  exact reads.long

/-- A line whose first character behind the indentation is no mark opens nothing. -/
theorem FenceOpener.ofLine?_eq_none_of_head {before rest : Text}
    (indent : ∀ c ∈ before, Text.isIndent c = true)
    (visible : ∀ c ∈ rest.head?, Text.isIndent c = false ∧ FenceMark.ofChar? c = none) :
    ofLine? (before ++ rest) = none := by
  have run : rest.fenceRun? = none := by
    cases rest with
    | nil => rfl
    | cons c r => simp [Text.fenceRun?, (visible c rfl).2]
  rw [ofLine?, Text.indentColumns_append 0 indent fun c head => (visible c head).1]
  simp [run]

/-- A line whose first visible character is no mark opens nothing. -/
theorem FenceOpener.ofLine?_eq_none_of_trimStart {line : Text}
    (noMark : ∀ c ∈ line.trimStart.head?, FenceMark.ofChar? c = none) : ofLine? line = none := by
  obtain ⟨before, rest, rfl, indent, visible⟩ := Text.exists_indent line
  refine ofLine?_eq_none_of_head indent fun c head => ⟨visible c head, ?_⟩
  by_cases blank : isBlank c = true
  · exact Text.ofChar?_of_isBlank blank
  · have trimmed : Text.trimStart (before ++ rest) = rest := by
      rw [Text.trimStart_append fun d mem => Text.isBlank_of_isIndent (indent d mem)]
      exact Text.trimStart_eq_self head (by simpa using blank)
    exact noMark c (by rw [trimmed]; exact head)

/-- An opening line that is changed behind a visible character, which is no mark, still opens a block:
its indentation and its run stand before that character.  A backtick must not be added. -/
theorem FenceOpener.exists_ofLine?_of_branch {p t u : Text} {c : Char} {o : FenceOpener}
    (visible : Text.isIndent c = false) (noMark : FenceMark.ofChar? c = none)
    (ticks : '\x60' ∈ u → '\x60' ∈ t) (opens : ofLine? (p ++ c :: t) = some o) :
    ∃ o', ofLine? (p ++ c :: u) = some o' := by
  obtain ⟨before, behind, line, reads⟩ := ofLine?_eq_some_iff.1 opens
  have outside : c ∉ before ++ o.fence.run := by
    intro mem
    rcases List.mem_append.1 mem with mem | mem
    · rw [reads.indent c mem] at visible
      cases visible
    · rw [(List.mem_replicate.1 mem).2, FenceMark.ofChar?_char] at noMark
      cases noMark
  obtain ⟨q, rfl, rfl⟩ : ∃ q, p = before ++ o.fence.run ++ q ∧ behind = q ++ c :: t := by
    rw [← List.append_assoc] at line
    rcases List.append_eq_append_iff.1 line with ⟨q, run, rest⟩ | ⟨q, prefix_, rest⟩
    · cases q with
      | nil => exact ⟨[], by simpa using run.symm, by simpa using rest.symm⟩
      | cons d q =>
        obtain ⟨rfl, -⟩ := List.cons.inj rest
        exact (outside (run ▸ List.mem_append_right _ (.head _))).elim
    · exact ⟨q, prefix_, rest⟩
  refine ⟨⟨o.fence, Text.trim (q ++ c :: u)⟩, ofLine?_eq_some_iff.2
    ⟨before, q ++ c :: u, by simp, reads.indent, reads.width, reads.near, reads.long, ?_, rfl, ?_⟩⟩
  · have stops := reads.stops
    cases q with
    | nil => exact stops
    | cons d q => exact stops
  · intro mark tick
    refine reads.noTick mark ?_
    rcases List.mem_append.1 tick with tick | tick
    · exact List.mem_append_left _ tick
    · rcases List.mem_cons.1 tick with rfl | tick
      · exact List.mem_append_right _ (.head _)
      · exact List.mem_append_right _ (.tail _ (ticks tick))

/-! ## Closing lines -/

/-- **A closing line is an indentation, a run of marks that is long enough, and blanks.** -/
theorem FenceState.closedBy_iff {f : Fence} {line : Text} :
    closedBy f line = true ↔
      ∃ before n behind, line = before ++ (List.replicate n f.mark.char ++ behind) ∧
        (∀ c ∈ before, Text.isIndent c = true) ∧ before.width ≤ 3 ∧ 3 ≤ n ∧ f.length ≤ n ∧
        behind.allBlank = true := by
  constructor
  · intro closes
    obtain ⟨before, rest, rfl, indent, visible⟩ := Text.exists_indent line
    rw [closedBy, Text.indentColumns_append 0 indent visible] at closes
    simp only [Bool.and_eq_true, decide_eq_true_eq] at closes
    obtain ⟨near, closes⟩ := closes
    split at closes
    case h_1 m n behind run =>
      obtain ⟨rfl, long, -⟩ := Text.fenceRun?_eq_some_iff.1 run
      simp only [Bool.and_eq_true, beq_iff_eq, decide_eq_true_eq] at closes
      obtain ⟨⟨rfl, enough⟩, blank⟩ := closes
      exact ⟨before, n, behind, rfl, indent, near, long, enough, blank⟩
    case h_2 => cases closes
  · rintro ⟨before, n, behind, rfl, indent, near, long, enough, blank⟩
    have stops : behind.head? ≠ some f.mark.char := by
      intro head
      have isBlank := List.all_eq_true.1 blank _ (List.mem_of_head? head)
      simp [Text.isBlank_char] at isBlank
    rw [closedBy, Text.indentColumns_run indent f.mark (by omega)]
    simp [Text.fenceRun?_replicate f.mark long stops, near, enough, blank]

/-- Whether a line closes a block depends on the marks of its fence only. -/
theorem FenceState.closedBy_congr {f g : Fence} (mark : f.mark = g.mark)
    (length : f.length = g.length) (line : Text) : closedBy f line = closedBy g line := by
  simp only [closedBy, mark, length]

end MdxPress
