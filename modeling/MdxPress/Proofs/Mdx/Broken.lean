import MdxPress.Proofs.Mdx.Pared

/-!
Opening tags that are broken into lines.  On one line, the search for the end of a tag knows all that
stands before; over several lines it begins anew on each.  So a tag may be broken where every further
line, read by itself, shows the end of the tag just where the tag has it.

* `TagEndState.AtBreaks` says something of every break, and `TagEndState.Rereads` is what a break needs;
* `TagEndState.Rereads.of_isOutside`: a break outside of values and expressions is such a one, if it does
  not part a slash from the `>` behind it;
* `MdxState.classifyLines_broken` is the result: the lines leave what the tag on one line leaves;
* `MdxState.not_classifyLines_brokenValue` is a break inside of a value.
-/

namespace MdxPress

namespace TagEndState

/-! ## Breaks -/

/-- What holds at every break of a tag: of the state that the search has there, and of the line behind
it.  A break stands for a space. -/
def AtBreaks (P : TagEndState → Text → Prop) : TagEndState → List Text → Prop
  | _, [] => True
  | s, t :: ts => P s t ∧ ∀ s' ∈ s.along (t ++ [' ']), AtBreaks P s' ts

instance decidableAtBreaks (P : TagEndState → Text → Prop) [∀ s t, Decidable (P s t)] :
    ∀ (s : TagEndState) (ts : List Text), Decidable (AtBreaks P s ts)
  | _, [] => isTrue trivial
  | s, t :: ts =>
    have : ∀ s', Decidable (AtBreaks P s' ts) := fun s' => decidableAtBreaks P s' ts
    inferInstanceAs (Decidable (P s t ∧ ∀ s' ∈ s.along (t ++ [' ']), AtBreaks P s' ts))

theorem AtBreaks.mono {P Q : TagEndState → Text → Prop} (implies : ∀ s t, P s t → Q s t)
    {s : TagEndState} {ts : List Text} (breaks : AtBreaks P s ts) : AtBreaks Q s ts := by
  induction ts generalizing s with
  | nil => trivial
  | cons t ts ih => exact ⟨implies s t breaks.1, fun s' next => ih (breaks.2 s' next)⟩

/-- A line read by itself shows the end of the tag where the search that is on its way finds it. -/
def Rereads (s : TagEndState) (t : Text) : Prop :=
  tagEnd? t = s.find? t

instance (s : TagEndState) (t : Text) : Decidable (s.Rereads t) :=
  inferInstanceAs (Decidable (_ = _))

/-- Outside of quotation marks and braces, and not between a slash and a `>`. -/
structure IsOutside (s : TagEndState) (t : Text) : Prop where
  quote : s.quote = none
  depth : s.depth = 0
  slash : s.last = some '/' → t.trimStart.head? ≠ some '>'

instance (s : TagEndState) (t : Text) : Decidable (s.IsOutside t) :=
  decidable_of_iff
    (s.quote = none ∧ s.depth = 0 ∧ (s.last = some '/' → (Text.trimStart t).head? ≠ some '>'))
    ⟨fun ⟨quote, depth, slash⟩ => ⟨quote, depth, slash⟩, fun h => ⟨h.quote, h.depth, h.slash⟩⟩

/-- The visible character before a text matters only if the text goes on with a `>`. -/
theorem find?_of_last {a b : Option Char} {t : Text}
    (apart : (Text.trimStart t).head? = some '>' → (a == some '/') = (b == some '/')) :
    find? ⟨none, 0, a⟩ t = find? ⟨none, 0, b⟩ t := by
  induction t with
  | nil => rfl
  | cons c t ih =>
    cases blank : isBlank c with
    | true =>
      have trimmed : Text.trimStart (c :: t) = Text.trimStart t := List.dropWhile_cons_of_pos blank
      rw [trimmed] at apart
      obtain ⟨-, angle, double, single, left, right, -, -⟩ := Tag.isInert_ne (Tag.isInert_of_isBlank blank)
      have goesOn (last : Option Char) : next ⟨none, 0, last⟩ c = ⟨none, 0, last⟩ := by
        simp [next, blank, double, single, left, right]
      have more (last : Option Char) : isEnd ⟨none, 0, last⟩ c = false := by simp [isEnd, angle]
      rw [find?, find?, more, more, goesOn, goesOn, ih apart]
      rfl
    | false =>
      have first : (Text.trimStart (c :: t)).head? = some c := by
        rw [Text.trimStart_of_visible blank]
        rfl
      rw [find?, find?]
      by_cases angle : c = '>'
      · have same := apart (by rw [first, angle])
        simp [angle, isEnd, same]
      · have more (last : Option Char) : isEnd ⟨none, 0, last⟩ c = false := by simp [isEnd, angle]
        have same : next ⟨none, 0, a⟩ c = next ⟨none, 0, b⟩ c := by simp [next, blank]
        rw [more, more, same]
        rfl

/-- **A break outside of values and expressions** does no harm, if it parts no slash from a `>`. -/
theorem Rereads.of_isOutside {s : TagEndState} {t : Text} (outside : s.IsOutside t) : s.Rereads t := by
  obtain ⟨quote, depth, last⟩ := s
  obtain ⟨rfl, rfl, slash⟩ := outside
  refine find?_of_last fun ends => ?_
  cases sign : (last == some '/') with
  | false => rfl
  | true => exact absurd ends (slash (by simpa using sign))

/-- Breaks outside of values and expressions do no harm. -/
theorem AtBreaks.rereads {s : TagEndState} {ts : List Text} (outside : s.AtBreaks IsOutside ts) :
    s.AtBreaks Rereads ts :=
  outside.mono fun _ _ => Rereads.of_isOutside

/-! ## The end of a tag, break by break -/

/-- A stretch before the end of the tag is passed over. -/
theorem exists_along {s : TagEndState} {t u : Text} {n : Nat} {selfCloses : Bool}
    (ends : s.find? (t ++ u) = some (t.length + n, selfCloses)) (more : n ≠ 0) :
    ∃ s', s.along t = some s' ∧ s'.find? u = some (n, selfCloses) := by
  induction t generalizing s with
  | nil => exact ⟨s, rfl, by simpa using ends⟩
  | cons c t ih =>
    rcases find?_cons_eq_some ends with ⟨-, length⟩ | ⟨goes, m, length, found⟩
    · simp only [List.length_cons] at length
      omega
    · obtain rfl : m = t.length + n := by
        simp only [List.length_cons] at length
        omega
      rw [along, goes]
      exact ih found

/-- What ends a tag is a `>`. -/
theorem getLast?_of_find? {s : TagEndState} {t : Text} {selfCloses : Bool}
    (ends : s.find? t = some (t.length, selfCloses)) : t.getLast? = some '>' := by
  induction t generalizing s with
  | nil => cases ends
  | cons c t ih =>
    rcases find?_cons_eq_some ends with ⟨stops, length⟩ | ⟨-, m, length, found⟩
    · have last : t = [] := List.length_eq_zero_iff.1 (by simpa using length)
      have angle : c = '>' := by
        simp only [isEnd, Bool.and_eq_true, decide_eq_true_eq] at stops
        exact stops.1.1
      rw [last, angle]
      rfl
    · obtain rfl : m = t.length := by simpa using length.symm
      simp [List.getLast?_cons, ih found]

/-- A tag that ends on its last line goes on behind every other. -/
theorem exists_break {s : TagEndState} {t : Text} {ts : List Text} {selfCloses : Bool}
    (filled : ts ≠ [])
    (ends : s.find? (Text.joinWith [' '] (t :: ts)) =
      some ((Text.joinWith [' '] (t :: ts)).length, selfCloses)) :
    ∃ s', s.along (t ++ [' ']) = some s' ∧ s.find? t = none ∧
      s'.find? (Text.joinWith [' '] ts) = some ((Text.joinWith [' '] ts).length, selfCloses) := by
  have closes := getLast?_of_find? ends
  rw [Text.joinWith_cons _ _ filled] at ends closes
  have more : (Text.joinWith [' '] ts).length ≠ 0 := by
    intro empty
    rw [List.length_eq_zero_iff.1 empty, List.append_nil, List.getLast?_concat] at closes
    cases closes
  rw [List.length_append] at ends
  obtain ⟨s', passed, found⟩ := exists_along ends more
  have part := passed
  rw [along_append] at part
  obtain ⟨s'', first, -⟩ := Option.bind_eq_some_iff.1 part
  exact ⟨s', passed, find?_eq_none first, found⟩

end TagEndState

/-! ## Lines of a tag -/

namespace MdxState

open TagEndState

variable {s : MdxState} {p : OpenComponent} {t : Text}

/-- Between two lines of the tag `p`. -/
structure IsPending (s : MdxState) (p : OpenComponent) : Prop where
  fence : s.fence = none
  pending : s.pending = some p

/-- A line on which the tag goes on. -/
theorem advance_of_noEnd (inside : s.IsPending p) (noFence : FenceOpener.ofLine? t = none)
    (goesOn : tagEnd? t = none) (n : Nat) : (s.advance t n).2 = s := by
  rw [advance_of_noFence inside.fence noFence, advanceProse, inside.pending]
  simp only [goesOn]

/-- A line that ends with the tag. -/
theorem advance_of_end (inside : s.IsPending p) (noFence : FenceOpener.ofLine? t = none)
    {selfCloses : Bool} (ends : tagEnd? t = some (t.length, selfCloses)) (n : Nat) :
    (s.advance t n).2 =
      { s with pending := none, stack := if selfCloses then s.stack else s.stack ++ [p] } := by
  have covered : ∀ g ∈ Tag.ofLine t, g.offset < t.length := fun g mem =>
    offset_lt_of_mem_ofLine List.not_mem_nil (by rwa [List.append_nil])
  rw [advance_of_noFence inside.fence noFence, advanceProse, inside.pending]
  simp only [ends, tags_covered covered]

/-- **The lines behind the first** end the tag as the search on its way does, if each of them shows the
end where that search finds it. -/
theorem classifyLines_pending (inside : s.IsPending p) {e : TagEndState} {ts : List Text}
    {selfCloses : Bool} (filled : ts ≠ []) (breaks : e.AtBreaks Rereads ts)
    (ends : e.find? (Text.joinWith [' '] ts) = some ((Text.joinWith [' '] ts).length, selfCloses))
    (noFence : ∀ t ∈ ts, FenceOpener.ofLine? t = none) {ls : List Line}
    (lines : ls.map (·.content) = ts) (n : Nat) :
    (classifyLines s n ls).2 =
      { s with pending := none, stack := if selfCloses then s.stack else s.stack ++ [p] } := by
  induction ts generalizing e ls n with
  | nil => exact (filled rfl).elim
  | cons t ts ih =>
    obtain ⟨l, ls, rfl, rfl, rest⟩ := List.map_eq_cons_iff.1 lines
    obtain ⟨prose, later⟩ := List.forall_mem_cons.1 noFence
    obtain ⟨here, behind⟩ := breaks
    by_cases last : ts = []
    · subst last
      obtain rfl := List.map_eq_nil_iff.1 rest
      exact advance_of_end inside prose (here.trans ends) n
    · obtain ⟨e', passed, goesOn, found⟩ := exists_break last ends
      rw [classifyLines]
      dsimp only
      rw [advance_of_noEnd inside prose (here.trans goesOn)]
      exact ih last (behind e' passed) found later rest (n + 1)

/-- **The first line** of a tag that goes on opens it. -/
theorem advance_broken (between : s.IsBetween) {name first : Text}
    (reads : Tag.ofStart? ('<' :: (name ++ first)) = some (false, name))
    (goesOn : tagEnd? first = none) (n : Nat) :
    (s.advance ('<' :: (name ++ first)) n).2 = { s with pending := some ⟨name, n, 1⟩ } := by
  obtain ⟨more, tags⟩ := ofLine_eq_cons (List.forall_mem_nil _) reads
  have noFence := opener_eq_none_of_angle (List.forall_mem_nil _) (name ++ first)
  rw [List.nil_append, List.length_nil] at tags
  rw [List.nil_append] at noFence
  have rest : List.drop (0 + Tag.width ⟨0, false, name⟩) ('<' :: (name ++ first)) = first := by
    change List.drop (0 + (1 + name.length)) _ = _
    rw [Nat.zero_add, Nat.add_comm, List.drop_succ_cons, List.drop_left]
  have step : (s.tag ('<' :: (name ++ first)) n ⟨0, false, name⟩).1 =
      { s with pending := some ⟨name, n, 1⟩ } := by
    simp only [tag, rest, goesOn]
    rfl
  rw [advance_of_noFence between.fence noFence, advanceProse_of_settled between.pending, tags,
    MdxState.tags, if_neg (Nat.lt_irrefl 0)]
  dsimp only
  rw [step]
  rfl

/-- **A tag that is broken into lines** leaves behind what it leaves on one line, whatever is open
around it, if every further line shows the end of the tag where the tag has it: the component, unless
the tag closes itself, and no tag that goes on. -/
theorem classifyLines_broken (between : s.IsBetween) {name first : Text} {rest : List Text}
    {selfCloses : Bool}
    (reads : Tag.name? (name ++ Text.joinWith [' '] (first :: rest)) = some name)
    (ends : tagEnd? (Text.joinWith [' '] (first :: rest)) =
      some ((Text.joinWith [' '] (first :: rest)).length, selfCloses))
    (noFence : ∀ t ∈ rest, FenceOpener.ofLine? t = none)
    (breaks : ∀ e ∈ TagEndState.start.along (first ++ [' ']), e.AtBreaks Rereads rest)
    {ls : List Line} (lines : ls.map (·.content) = ('<' :: (name ++ first)) :: rest) (n : Nat) :
    (classifyLines s n ls).2 =
        (s.advance ('<' :: (name ++ Text.joinWith [' '] (first :: rest))) n).2 ∧
      (classifyLines s n ls).2.IsBetween ∧
      (classifyLines s n ls).2.names = s.names ++ (if selfCloses then [] else [name]) := by
  obtain ⟨behind, cut, isName, stops⟩ := Tag.name?_eq_some_iff.1 reads
  obtain rfl := List.append_cancel_left cut
  have opener {u : Text} (apart : ∀ c ∈ u.head?, Tag.isNameChar c = false) :
      Tag.ofStart? ('<' :: (name ++ u)) = some (false, name) :=
    Tag.ofStart?_eq_some_iff.2 ⟨u, rfl, isName, apart⟩
  have whole := advance_tag (opener stops) ends between n
  have run : (classifyLines s n ls).2 =
      (s.advance ('<' :: (name ++ Text.joinWith [' '] (first :: rest))) n).2 := by
    obtain ⟨l, ls, rfl, content, later⟩ := List.map_eq_cons_iff.1 lines
    by_cases last : rest = []
    · subst last
      obtain rfl := List.map_eq_nil_iff.1 later
      rw [classifyLines, content]
      rfl
    · obtain ⟨e, passed, goesOn, found⟩ := exists_break last ends
      rw [Text.joinWith_cons _ _ last] at stops
      have apart : ∀ c ∈ first.head?, Tag.isNameChar c = false := by
        intro c head
        obtain ⟨r, rfl⟩ := List.head?_eq_some_iff.1 head
        exact stops c rfl
      rw [classifyLines, content]
      dsimp only
      rw [advance_broken between (opener apart) goesOn, whole]
      have inside : IsPending { s with pending := some ⟨name, n, 1⟩ } ⟨name, n, 1⟩ :=
        ⟨between.fence, rfl⟩
      rw [classifyLines_pending inside last (breaks e passed) found noFence later (n + 1)]
      simp only [between.pending]
  rw [run, whole]
  refine ⟨rfl, ⟨between.fence, between.pending⟩, ?_⟩
  cases selfCloses <;> simp [names]

/-- A tag inside of a component, with a `>` in a value and a tag in an expression, broken between its
attributes, inside of an expression and before its end. -/
theorem classifyLines_broken_card :
    let s : MdxState := ⟨none, [⟨"Cards".toList, 1, 1⟩], none, 2⟩
    let first : Text := " title=\"a > b\"".toList
    let rest : List Text := ["icon=\x7b<B />\x7d".toList, "tags=\x7b[1,".toList, "2]\x7d".toList,
      "/>".toList]
    let ls : List Line := (('<' :: ("Card".toList ++ first)) :: rest).map fun t => ⟨t, .lf⟩
    (classifyLines s 2 ls).2.IsBetween ∧ (classifyLines s 2 ls).2.names = ["Cards".toList] := by
  intro s first rest ls
  have reads : Tag.name? ("Card".toList ++ Text.joinWith [' '] (first :: rest)) = some "Card".toList := by
    decide +kernel
  have ends : tagEnd? (Text.joinWith [' '] (first :: rest)) =
      some ((Text.joinWith [' '] (first :: rest)).length, true) := by
    decide +kernel
  have breaks : ∀ e ∈ TagEndState.start.along (first ++ [' ']), e.AtBreaks Rereads rest := by
    decide +kernel
  have lines : ls.map (·.content) = ('<' :: ("Card".toList ++ first)) :: rest := rfl
  have between : s.IsBetween := ⟨rfl, rfl⟩
  obtain ⟨-, settled, names⟩ := classifyLines_broken between reads ends (by decide +kernel) breaks lines 2
  exact ⟨settled, names⟩

/-- **A break inside of a value** turns the quotation marks around: the mark that ends the value begins
one, the tag never ends, and a tag that closes itself stays open. -/
theorem not_classifyLines_brokenValue :
    ¬ ∀ (s : MdxState) (name first : Text) (rest : List Text) (selfCloses : Bool) (n : Nat), s.IsBetween →
      Tag.name? (name ++ Text.joinWith [' '] (first :: rest)) = some name →
      tagEnd? (Text.joinWith [' '] (first :: rest)) =
        some ((Text.joinWith [' '] (first :: rest)).length, selfCloses) →
      (∀ t ∈ rest, FenceOpener.ofLine? t = none) →
      let ls : List Line := (('<' :: (name ++ first)) :: rest).map fun t => ⟨t, .lf⟩
      (classifyLines s n ls).2.names =
          (s.advance ('<' :: (name ++ Text.joinWith [' '] (first :: rest))) n).2.names ∧
        (classifyLines s n ls).2.pending = none := by
  intro all
  have settled := (all .start "Card".toList " a=\"b".toList ["c\" />".toList] true 1 ⟨rfl, rfl⟩
    (by decide) (by decide) (by decide)).2
  revert settled
  decide +kernel

end MdxState
end MdxPress
