import MdxPress.Proofs.Text.Blank
import MdxPress.Proofs.Text.Search

/-!
# Parts of a text

What cutting and trimming return stands in the text they are given.  A slice of a text is cut out of
its parts by their lengths.
-/

namespace MdxPress.Text

/-! ## Ends -/

theorem trimStart_suffix (t : Text) : t.trimStart <:+ t :=
  List.dropWhile_suffix _

theorem dropEndWhile_isPrefix (p : Char → Bool) (t : Text) : dropEndWhile p t <+: t := by
  obtain ⟨tail, cut, -⟩ := dropEndWhile_append_mem p t
  exact ⟨tail, cut.symm⟩

theorem trimEnd_isPrefix (t : Text) : t.trimEnd <+: t :=
  dropEndWhile_isPrefix isBlank t

theorem trim_part (t : Text) : t.trim <:+: t :=
  (trimStart_suffix _).isInfix.trans (trimEnd_isPrefix t).isInfix

theorem dropEnd?_append {stop t r : Text} (ends : dropEnd? stop t = some r) : r ++ stop = t := by
  obtain ⟨q, start, rfl⟩ := Option.map_eq_some_iff.1 ends
  have same := congrArg List.reverse (isPrefixOf?_eq_some_iff.1 start)
  rw [List.reverse_reverse, List.reverse_append, List.reverse_reverse] at same
  exact same.symm

theorem dropEnd?_of_append (r stop : Text) : dropEnd? stop (r ++ stop) = some r := by
  have start : stop.reverse.isPrefixOf? (r ++ stop).reverse = some r.reverse :=
    isPrefixOf?_eq_some_iff.2 List.reverse_append
  rw [dropEnd?, start, Option.map_some, List.reverse_reverse]

theorem dropEnd?_isPrefix {stop t r : Text} (ends : dropEnd? stop t = some r) : r <+: t :=
  ⟨stop, dropEnd?_append ends⟩

/-! ## Cuts at characters -/

section Cuts

variable {p : Char → Bool} {t : Text}

theorem breakAt_append {q : Text × Text} (cut : breakAt p t = some q) :
    ∃ c, q.1 ++ c :: q.2 = t ∧ p c = true := by
  induction t generalizing q with
  | nil => cases cut
  | cons c r ih =>
    rw [breakAt] at cut
    split at cut
    case isTrue sign => cases cut; exact ⟨c, rfl, sign⟩
    case isFalse =>
      obtain ⟨q', later, rfl⟩ := Option.map_eq_some_iff.1 cut
      obtain ⟨d, same, sign⟩ := ih later
      exact ⟨d, by simp [same], sign⟩

/-- A text is cut at the first character with the sign. -/
theorem breakAt_avoids {q : Text × Text} (cut : breakAt p t = some q) : ∀ c ∈ q.1, p c = false := by
  induction t generalizing q with
  | nil => cases cut
  | cons c r ih =>
    rw [breakAt] at cut
    split at cut
    case isTrue => cases cut; exact nofun
    case isFalse other =>
      obtain ⟨q', later, rfl⟩ := Option.map_eq_some_iff.1 cut
      exact List.forall_mem_cons.2 ⟨by simpa using other, ih later⟩

theorem breakAt_eq_none (outside : ∀ c ∈ t, p c = false) : breakAt p t = none := by
  rw [Option.eq_none_iff_forall_ne_some]
  intro q cut
  obtain ⟨c, rfl, sign⟩ := breakAt_append cut
  rw [outside c (by simp)] at sign
  cases sign

theorem breakAt_of_not_mem {c : Char} (outside : ∀ d ∈ t, p d = false) (sign : p c = true)
    (rest : Text) : breakAt p (t ++ c :: rest) = some (t, rest) := by
  induction t with
  | nil => simp [breakAt, sign]
  | cons d t ih =>
    simp [breakAt, outside d (.head _), ih fun e mem => outside e (.tail _ mem)]

/-- No character is a sign that does not stand in the text. -/
theorem not_sign_of_not_mem {c : Char} (absent : c ∉ t) : ∀ d ∈ t, decide (d = c) = false := by
  intro d mem
  refine decide_eq_false ?_
  rintro rfl
  exact absent mem

/-- The first piece begins the text, and every piece stands in it. -/
theorem splitOn_parts (p : Char → Bool) (t : Text) :
    (∀ piece ∈ (splitOn p t).head?, piece <+: t) ∧ ∀ piece ∈ splitOn p t, piece <:+: t := by
  induction t with
  | nil => simp [splitOn]
  | cons c r ih =>
    rw [splitOn]
    split
    case isTrue =>
      refine ⟨by simp, ?_⟩
      rintro piece (_ | ⟨_, mem⟩)
      · exact List.nil_infix
      · exact List.infix_cons (ih.2 piece mem)
    case isFalse =>
      split
      case h_1 empty =>
        refine ⟨by simp, fun piece mem => ?_⟩
        rw [List.mem_singleton.1 mem]
        exact ⟨[], r, rfl⟩
      case h_2 u us cut =>
        rw [cut] at ih
        have longer : c :: u <+: c :: r := List.cons_prefix_cons.2 ⟨rfl, ih.1 u rfl⟩
        refine ⟨by rintro piece ⟨⟩; exact longer, ?_⟩
        rintro piece (_ | ⟨_, mem⟩)
        · exact longer.isInfix
        · exact List.infix_cons (ih.2 piece (.tail _ mem))

theorem splitOn_part {piece : Text} (mem : piece ∈ splitOn p t) : piece <:+: t :=
  (splitOn_parts p t).2 piece mem

theorem words_part {word : Text} (mem : word ∈ t.words) : word <:+: t :=
  splitOn_part (List.mem_of_mem_filter mem)

/-- No piece holds a character that the text is cut at. -/
theorem splitOn_avoids {piece : Text} (mem : piece ∈ splitOn p t) : ∀ c ∈ piece, p c = false := by
  induction t generalizing piece with
  | nil => simp [splitOn] at mem; simp [mem]
  | cons c r ih =>
    rw [splitOn] at mem
    split at mem
    case isTrue =>
      rcases List.mem_cons.1 mem with rfl | mem
      · exact nofun
      · exact ih mem
    case isFalse other =>
      have own : p c = false := by simpa using other
      split at mem
      case h_1 => simp_all
      case h_2 u us cut =>
        rcases List.mem_cons.1 mem with rfl | mem
        · exact List.forall_mem_cons.2 ⟨own, ih (cut ▸ .head _)⟩
        · exact ih (cut ▸ .tail _ mem)

theorem mem_joinWith {sep : Text} {ts : List Text} {c : Char} (mem : c ∈ joinWith sep ts) :
    c ∈ sep ∨ ∃ t ∈ ts, c ∈ t := by
  induction ts with
  | nil => cases mem
  | cons t ts ih =>
    cases ts with
    | nil => exact .inr ⟨t, .head _, mem⟩
    | cons u ts =>
      rcases List.mem_append.1 mem with first | later
      · rcases List.mem_append.1 first with own | between
        · exact .inr ⟨t, .head _, own⟩
        · exact .inl between
      · exact (ih later).imp_right fun ⟨v, isIn, inside⟩ => ⟨v, .tail _ isIn, inside⟩

/-- A word has characters, and none of them is blank. -/
theorem isBlank_of_mem_words {word : Text} (mem : word ∈ t.words) :
    word ≠ [] ∧ ∀ c ∈ word, isBlank c = false := by
  obtain ⟨piece, filled⟩ := List.mem_filter.1 mem
  exact ⟨by simpa using filled, splitOn_avoids piece⟩

end Cuts

/-! ## What is no blank -/

/-- The characters of a text that are no blanks. -/
def visible (t : Text) : Text :=
  t.filter (!isBlank ·)

theorem visible_append (t u : Text) : visible (t ++ u) = visible t ++ visible u :=
  List.filter_append t u

theorem visible_of_blank {t : Text} (blank : ∀ c ∈ t, isBlank c = true) : visible t = [] :=
  List.filter_eq_nil_iff.2 fun c mem => by simp [blank c mem]

/-- Trimming takes nothing away that is visible. -/
theorem visible_trim (t : Text) : visible t.trim = visible t := by
  obtain ⟨tail, cut, blank⟩ := dropEndWhile_append_mem isBlank t
  have trimmed : t.trimEnd.indentation ++ t.trim = t.trimEnd := indentation_append_trimStart _
  calc visible t.trim
      = visible (t.trimEnd.indentation ++ t.trim) := by
        rw [visible_append, visible_of_blank fun c => isBlank_of_mem_indentation, List.nil_append]
    _ = visible (t.trimEnd ++ tail) := by
        rw [trimmed, visible_append, visible_of_blank blank, List.append_nil]
    _ = visible t := by rw [trimEnd, ← cut]

theorem flatten_splitOn (p : Char → Bool) (t : Text) : (splitOn p t).flatten = t.filter (!p ·) := by
  induction t with
  | nil => rfl
  | cons c r ih =>
    rw [splitOn]
    split
    case isTrue cuts => simp [cuts, ih]
    case isFalse stays =>
      rw [List.filter_cons_of_pos (by simpa using stays), ← ih]
      cases splitOn p r <;> rfl

theorem visible_joinWith_space (ts : List Text) : visible (joinWith [' '] ts) = ts.flatMap visible := by
  induction ts with
  | nil => rfl
  | cons t ts ih =>
    cases ts with
    | nil => simp [joinWith]
    | cons u ts =>
      rw [joinWith, visible_append, visible_append, ih]
      simp [visible_of_blank (t := [' ']) (by decide)]

/-- The words of a text hold all of it that is visible. -/
theorem visible_squash (t : Text) : visible t.squash = visible t := by
  have words : t.words.flatMap visible = t.words.flatMap id := by
    refine List.flatMap_congr fun word mem => ?_
    exact List.filter_eq_self.2 fun c inside => by simp [(isBlank_of_mem_words mem).2 c inside]
  rw [squash, visible_joinWith_space, words, List.flatMap_id, Text.words, List.flatten_filter_not_isEmpty,
    flatten_splitOn, visible]

/-! ## Slices -/

theorem slice_append_left {a b : Text} {start stop : Nat} (inside : stop ≤ a.length) :
    slice (a ++ b) start stop = slice a start stop := by
  by_cases behind : a.length ≤ start
  · have empty : stop - start = 0 := by omega
    simp [slice, empty]
  · rw [slice, slice, List.drop_append_of_le_length (by omega),
      List.take_append_of_le_length (by rw [List.length_drop]; omega)]

theorem slice_append_right (a b : Text) (start stop : Nat) :
    slice (a ++ b) (a.length + start) (a.length + stop) = slice b start stop := by
  rw [slice, slice, List.drop_length_add_append, Nat.add_sub_add_left]

/-- A text that stands in another, cut out at its place. -/
theorem slice_between (a b c : Text) {start stop : Nat} (first : start = a.length)
    (last : stop = start + b.length) : slice (a ++ (b ++ c)) start stop = b := by
  rw [slice, last, first, Nat.add_sub_cancel_left, List.drop_left, List.take_left]

/-! ## Two cuts of one text -/

section TwoCuts

/-- A list is cut where a property first fails. -/
theorem exists_cut_of_fails {α : Type} (p : α → Bool) (xs : List α) :
    ∃ a b, xs.takeWhile p = a ∧ xs.dropWhile p = b ∧ xs = a ++ b ∧ (∀ x ∈ a, p x = true) ∧
      ∀ x ∈ b.head?, p x = false := by
  refine ⟨_, _, rfl, rfl, List.takeWhile_append_dropWhile.symm, fun _ => List.mem_takeWhile_imp,
    fun x first => ?_⟩
  have stops := List.head?_dropWhile_not p xs
  rw [first] at stops
  simpa using stops

/-- A list is cut at the first of its members that fails. -/
theorem cut_of_fails {α : Type} {p : α → Bool} {xs : List α} {x : α} (all : ∀ y ∈ xs, p y = true)
    (fails : p x = false) (ys : List α) :
    (xs ++ x :: ys).takeWhile p = xs ∧ (xs ++ x :: ys).dropWhile p = x :: ys := by
  have stops : ¬ p x = true := by simp [fails]
  rw [List.takeWhile_append_of_pos all, List.dropWhile_append_of_pos all, List.takeWhile_cons_of_neg stops,
    List.dropWhile_cons_of_neg stops, List.append_nil]
  exact ⟨rfl, rfl⟩

/-- A sign stands in the one part of a list or in the other. -/
theorem append_eq_append_sign {α : Type} {a b y z : List α} {c : α} (same : a ++ b = y ++ c :: z) :
    (∃ x, y = a ++ x ∧ b = x ++ c :: z) ∨ ∃ x, a = y ++ c :: x ∧ z = x ++ b := by
  rcases List.append_eq_append_iff.1 same with ⟨x, left, right⟩ | ⟨x, left, right⟩
  · exact .inl ⟨x, left, right⟩
  · cases x with
    | nil => exact .inl ⟨[], by simpa using left.symm, right.symm⟩
    | cons d x =>
      obtain ⟨rfl, rest⟩ := List.cons.inj right
      exact .inr ⟨x, left, rest⟩

variable {a b y z : Text} {c : Char}

/-- A part without the sign ends before it. -/
theorem exists_behind_of_not_mem (same : a ++ b = y ++ c :: z) (outside : c ∉ a) :
    ∃ x, y = a ++ x ∧ b = x ++ c :: z := by
  refine (append_eq_append_sign same).resolve_right ?_
  rintro ⟨x, rfl, -⟩
  exact outside (by simp)

/-- A part ends before the sign, if its last character does not stand from there on. -/
theorem exists_behind_of_getLast? (same : a ++ b = y ++ c :: z) {d : Char} (last : a.getLast? = some d)
    (outside : d ∉ c :: z) : ∃ x, y = a ++ x ∧ b = x ++ c :: z := by
  refine (append_eq_append_sign same).resolve_right ?_
  rintro ⟨x, rfl, rfl⟩
  have ends : d ∈ c :: x := by
    refine List.mem_of_getLast? ?_
    rwa [List.getLast?_append_of_ne_nil _ (by simp)] at last
  exact outside (List.cons_subset_cons c (List.subset_append_left x b) ends)

theorem not_mem_of_allBlank (blank : a.allBlank = true) (visible : MdxPress.isBlank c = false) : c ∉ a := by
  intro mem
  rw [List.all_eq_true.1 blank c mem] at visible
  cases visible

end TwoCuts

/-! ## What a text begins with, and what stands in it -/

section Contains

variable {x sub t u : Text} {c : Char}

/-- What does not hold a character ends before it. -/
theorem prefix_append_cons_iff (outside : c ∉ x) : x <+: t ++ c :: u ↔ x <+: t := by
  induction x generalizing t with
  | nil => simp
  | cons d x ih =>
    obtain ⟨first, rest⟩ := not_or.1 (mt List.mem_cons.2 outside)
    cases t with
    | nil => simp [List.cons_prefix_cons, Ne.symm first]
    | cons e t => simp only [List.cons_append, List.cons_prefix_cons, ih rest]

theorem contains_cons_of_not_prefix (absent : ¬ sub <+: c :: t) :
    contains (c :: t) sub = contains t sub := by
  have none_ : List.isPrefixOf sub (c :: t) = false :=
    Bool.eq_false_iff.2 fun starts => absent (List.isPrefixOf_iff_prefix.1 starts)
  rw [contains, none_, Bool.false_or]

/-- A text is not found among characters that do not begin it. -/
theorem contains_append_of_head (other : ∀ d ∈ x, sub.head? ≠ some d) (filled : sub ≠ []) :
    contains (x ++ t) sub = contains t sub := by
  induction x with
  | nil => rfl
  | cons d x ih =>
    obtain ⟨first, rest⟩ := List.forall_mem_cons.1 other
    rw [List.cons_append, contains_cons_of_not_prefix, ih rest]
    rintro ⟨y, same⟩
    obtain ⟨e, sub, rfl⟩ := List.exists_cons_of_ne_nil filled
    exact first (congrArg some (List.cons.inj same).1)

/-- A character that a text does not hold divides what it may be found in. -/
theorem contains_append_cons (outside : c ∉ sub) (filled : sub ≠ []) :
    contains (t ++ c :: u) sub = (contains t sub || contains u sub) := by
  induction t with
  | nil =>
    have none_ : ¬ sub <+: c :: u := by
      rw [← List.nil_append (c :: u), prefix_append_cons_iff outside, List.prefix_nil]
      exact filled
    have empty : contains [] sub = false := by
      rw [contains, List.isEmpty_eq_false_iff]
      exact filled
    rw [List.nil_append, contains_cons_of_not_prefix none_, empty, Bool.false_or]
  | cons d t ih =>
    have starts : List.isPrefixOf sub (d :: (t ++ c :: u)) = List.isPrefixOf sub (d :: t) := by
      rw [Bool.eq_iff_iff, List.isPrefixOf_iff_prefix, List.isPrefixOf_iff_prefix, ← List.cons_append,
        prefix_append_cons_iff outside]
    rw [List.cons_append, contains, contains, starts, ih, Bool.or_assoc]

end Contains

end MdxPress.Text
