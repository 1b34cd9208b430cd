import MdxPress.Proofs.Mdx.Run

/-!
Lines that are put inside of components.  By themselves such lines are read with nothing open; inside
of a component they are read on top of it, where a closer that had no effect by itself may take the
component away.  So a run inside keeps in step with the run outside, above what is left of the
components around it (`MdxState.Under`).

* `MdxState.Under.classifyLines` is the run in step;
* `MdxState.advance_tagLine` and `MdxState.closes_tagLine` read a tag on a line of its own;
* `Line.Balanced.of_quiet`: lines that leave nothing open by themselves leave nothing new open
  anywhere, and `Line.Balanced.element` closes an element around such lines;
* `Line.Steady.of_noTag` and `Line.Steady.element` are the same for lines that stay as they are.
-/

namespace MdxPress

namespace MdxState

instance (s : MdxState) : Decidable s.IsQuiet :=
  decidable_of_iff (s.fence = none ∧ s.stack = [] ∧ s.pending = none)
    ⟨fun h => ⟨h.1, h.2.1, h.2.2⟩, fun h => ⟨h.fence, h.stack, h.pending⟩⟩

/-- The names of the components that are open. -/
def names (s : MdxState) : List Text :=
  s.stack.map (·.name)

/-- Between two lines, outside of fences and tags. -/
structure IsBetween (s : MdxState) : Prop where
  fence : s.fence = none
  pending : s.pending = none

/-- The state behind a closer: the innermost component goes, if it has the name. -/
def close (s : MdxState) (name : Text) : MdxState :=
  if s.names.getLast? = some name then { s with stack := s.stack.dropLast } else s

theorem tag_closer (s : MdxState) (line : Text) (lineNo : Nat) {g : Tag} (closing : g.closing = true) :
    s.tag line lineNo g = (s.close g.name, g.offset + g.width) := by
  have top : (s.stack.getLast?.any fun top => top.name == g.name) = true ↔
      s.names.getLast? = some g.name := by
    rw [names, List.getLast?_map]
    cases s.stack.getLast? <;> simp
  simp only [tag, closing, if_true, top, close]
  split <;> rfl

theorem IsBetween.close {s : MdxState} (between : s.IsBetween) (name : Text) :
    (s.close name).IsBetween := by
  rw [MdxState.close]
  split
  · exact ⟨between.fence, between.pending⟩
  · exact between

/-- What a closer leaves of an element: nothing, if the element is still open. -/
theorem names_close {s : MdxState} {outer : List Text} {name : Text}
    (part : s.names <+: outer ++ [name]) : (s.close name).names <+: outer := by
  rcases List.prefix_concat_iff.1 part with whole | inner
  · have top : s.names.getLast? = some name := by simp [whole]
    have left : (s.close name).names = outer := by
      rw [close, if_pos top, names, List.map_dropLast, ← names, whole, List.dropLast_concat]
    exact left ▸ List.prefix_rfl
  · rw [close]
    split
    · rw [names, List.map_dropLast]
      exact (List.dropLast_prefix _).trans inner
    · exact inner

/-! ## Runs in step -/

/-- `s` is in step with `t`, inside of components with the names `outer`: above those of them that
are left, the same is open. -/
structure Under (outer : List Text) (s t : MdxState) : Prop where
  fence : s.fence = t.fence
  pending : s.pending.map (·.name) = t.pending.map (·.name)
  stack : ∃ left, left <+: outer ∧ s.names = left ++ t.names

variable {outer : List Text} {s t : MdxState}

theorem Under.isSome_pending (under : Under outer s t) : s.pending.isSome = t.pending.isSome := by
  have same := congrArg Option.isSome under.pending
  simpa using same

theorem Under.push (under : Under outer s t) {p q : OpenComponent} (same : p.name = q.name) :
    Under outer { s with stack := s.stack ++ [p] } { t with stack := t.stack ++ [q] } := by
  obtain ⟨fence, pending, left, part, stack⟩ := under
  refine ⟨fence, pending, left, part, ?_⟩
  simp only [names, List.map_append, List.map_singleton, same] at stack ⊢
  rw [stack, List.append_assoc]

/-- A closer takes away what it takes away outside, or one of the components around. -/
theorem Under.close (under : Under outer s t) (name : Text) :
    Under outer (s.close name) (t.close name) := by
  obtain ⟨fence, pending, left, part, stack⟩ := under
  by_cases bare : t.names = []
  · -- Outside nothing is open; inside, the innermost component around may go.
    have stays : t.close name = t := by simp [MdxState.close, bare]
    rw [bare, List.append_nil] at stack
    rw [stays, MdxState.close]
    split
    · refine ⟨fence, pending, left.dropLast, (List.dropLast_prefix left).trans part, ?_⟩
      rw [bare, List.append_nil, ← stack]
      exact List.map_dropLast
    · exact ⟨fence, pending, left, part, by rw [stack, bare, List.append_nil]⟩
  · have top : s.names.getLast? = t.names.getLast? := by
      rw [stack, List.getLast?_append_of_ne_nil left bare]
    rw [MdxState.close, MdxState.close, top]
    split
    · refine ⟨fence, pending, left, part, ?_⟩
      calc (s.stack.dropLast).map (·.name) = s.names.dropLast := List.map_dropLast
        _ = left ++ t.names.dropLast := by rw [stack, List.dropLast_append_of_ne_nil bare]
        _ = left ++ (t.stack.dropLast).map (·.name) := by rw [names, List.map_dropLast]
    · exact ⟨fence, pending, left, part, stack⟩

/-- One tag, read inside and outside: it covers the same characters. -/
theorem Under.tag (under : Under outer s t) (line : Text) (n m : Nat) (g : Tag) :
    Under outer (s.tag line n g).1 (t.tag line m g).1 ∧ (s.tag line n g).2 = (t.tag line m g).2 := by
  by_cases closing : g.closing = true
  · rw [tag_closer s line n closing, tag_closer t line m closing]
    exact ⟨under.close g.name, rfl⟩
  · simp only [MdxState.tag, if_neg closing]
    split
    case h_1 k selfClosing _ =>
      cases selfClosing with
      | true => exact ⟨under, rfl⟩
      | false => exact ⟨under.push rfl, rfl⟩
    case h_2 => exact ⟨⟨under.fence, rfl, under.stack⟩, rfl⟩

theorem Under.tags (under : Under outer s t) (line : Text) (n m resume : Nat) (gs : List Tag) :
    Under outer (s.tags line n resume gs).1 (t.tags line m resume gs).1 := by
  induction gs generalizing s t resume with
  | nil => exact under
  | cons g gs ih =>
    obtain ⟨next, behind⟩ := under.tag line n m g
    have pending := next.isSome_pending
    rw [MdxState.tags, MdxState.tags]
    split
    · exact ih under resume
    · dsimp only
      rw [pending, behind]
      split
      · exact next
      · exact ih next _

theorem Under.advanceProse (under : Under outer s t) (line : Text) (n m : Nat) :
    Under outer (s.advanceProse line n).2 (t.advanceProse line m).2 := by
  have pending := under.pending
  rw [MdxState.advanceProse, MdxState.advanceProse]
  cases inside : s.pending with
  | none =>
    rw [inside] at pending
    rw [Option.map_eq_none_iff.1 pending.symm]
    exact under.tags line n m 0 _
  | some p =>
    rw [inside] at pending
    obtain ⟨q, outside, same⟩ := Option.map_eq_some_iff.1 pending.symm
    rw [outside]
    cases tagEnd? line with
    | none => exact under
    | some found =>
      obtain ⟨k, selfClosing⟩ := found
      have ended : Under outer { s with pending := none } { t with pending := none } :=
        ⟨under.fence, rfl, under.stack⟩
      cases selfClosing with
      | true => exact ended.tags line n m k _
      | false => exact (ended.push same.symm).tags line n m k _

/-- **One line**, read inside and outside. -/
theorem Under.advance (under : Under outer s t) (line : Text) (n m : Nat) :
    Under outer (s.advance line n).2 (t.advance line m).2 := by
  have behind : Under outer { s with fence := t.fence.next line }
      { t with fence := t.fence.next line } := ⟨rfl, under.pending, under.stack⟩
  rw [MdxState.advance, MdxState.advance, under.fence]
  split
  · exact ⟨rfl, under.pending, under.stack⟩
  · exact behind.advanceProse line n m

/-- **Lines read inside and outside.** -/
theorem Under.classifyLines (under : Under outer s t) (n m : Nat) (ls : List Line) :
    Under outer (classifyLines s n ls).2 (classifyLines t m ls).2 := by
  induction ls generalizing s t n m with
  | nil => exact under
  | cons l ls ih => exact ih (under.advance l.content n m) _ _

/-! ## Lines that open and close an element -/

/-- Between lines, a line opens a component with the name. -/
def Opens (line name : Text) : Prop :=
  ∀ (s : MdxState) (lineNo : Nat), s.IsBetween → ∃ column,
    s.advance line lineNo = (.component, { s with stack := s.stack ++ [⟨name, lineNo, column⟩] })

/-- Between lines, a line is one closer with the name. -/
def Closes (line name : Text) : Prop :=
  ∀ (s : MdxState) (lineNo : Nat), s.IsBetween →
    s.advance line lineNo = (.component, s.close name)

/-- Blanks in front of a line are no code, and hold no tag. -/
theorem ofLine_blank_append {before : Text} (blank : ∀ c ∈ before, isBlank c = true) (t : Text) :
    Tag.ofLine (before ++ t) = Tag.scan before.length t.codeMask := by
  have mask : Text.codeMask (before ++ t) = before.map (fun c => (c, false)) ++ t.codeMask := by
    induction before with
    | nil => rfl
    | cons c before ih =>
      obtain ⟨first, rest⟩ := List.forall_mem_cons.1 blank
      have tick : c ≠ '\x60' := by rintro rfl; cases first
      have brace : c ≠ '{' := by rintro rfl; cases first
      rw [List.cons_append, List.map_cons, List.cons_append, ← ih rest, Brace.codeMask_eq_covered,
        Brace.codeMask_eq_covered]
      simp [Brace.covered, Brace.Place.step, tick, brace, Brace.Cover.isCode]
  have noAngle : ∀ k ∈ before.map (fun c => (c, false)), k.1 ≠ '<' := by
    refine List.forall_mem_map.2 fun c mem angle => ?_
    have shown := blank c mem
    rw [show c = '<' from angle] at shown
    cases shown
  rw [Tag.ofLine, mask, Tag.scan_append noAngle, List.length_map, Nat.zero_add]

/-- A line that begins with a tag, blanks aside, has that tag first. -/
theorem ofLine_eq_cons {before r name : Text} {closing : Bool}
    (blank : ∀ c ∈ before, isBlank c = true)
    (reads : Tag.ofStart? ('<' :: r) = some (closing, name)) :
    ∃ more, Tag.ofLine (before ++ '<' :: r) = ⟨before.length, closing, name⟩ :: more := by
  have mask : Text.codeMask ('<' :: r) =
      ('<', false) :: (Text.codeSpansFrom false r).flatMap Brace.codeOf :=
    Brace.flatMap_codeOf_extend '<' false _
  have behind : ((Text.codeSpansFrom false r).flatMap Brace.codeOf).map (·.1) = r := by
    have whole := Tag.map_fst_codeMask ('<' :: r)
    rw [mask] at whole
    exact (List.cons.inj whole).2
  refine ⟨Tag.scan (before.length + 1) ((Text.codeSpansFrom false r).flatMap Brace.codeOf), ?_⟩
  rw [ofLine_blank_append blank, mask, Tag.scan, behind]
  simp [reads]

/-- The tags of a line begin before the part that holds no `<`. -/
theorem offset_lt_of_mem_ofLine {line tail : Text} {g : Tag} (noAngle : '<' ∉ tail)
    (mem : g ∈ Tag.ofLine (line ++ tail)) : g.offset < line.length := by
  obtain ⟨before, rest, cut, place, reads⟩ := Tag.exists_of_mem_ofLine mem
  obtain ⟨r, rfl⟩ : ∃ r, rest = '<' :: r := by
    unfold Tag.ofStart? at reads
    split at reads
    · exact ⟨_, rfl⟩
    · exact ⟨_, rfl⟩
    · cases reads
  rw [place]
  by_contra late
  have part : '<' :: r <:+ tail := by
    have whole : '<' :: r <:+ line ++ tail := ⟨before, cut.symm⟩
    refine List.suffix_of_suffix_length_le whole (List.suffix_append line tail) ?_
    have length := congrArg List.length cut
    rw [List.length_append, List.length_append] at length
    omega
  exact noAngle (part.mem (.head _))

/-- A line that begins with `<`, blanks aside, opens no block. -/
theorem opener_eq_none_of_angle {before : Text} (blank : ∀ c ∈ before, isBlank c = true)
    (rest : Text) : FenceOpener.ofLine? (before ++ '<' :: rest) = none := by
  refine FenceOpener.ofLine?_eq_none_of_trimStart ?_
  rw [Text.trimStart_append blank, Text.trimStart_eq_self rfl rfl]
  rintro c ⟨⟩
  rfl

/-- **A closer on a line of its own**, be there blanks around it, closes its component. -/
theorem closes_tagLine {before name tail : Text} (blank : ∀ c ∈ before, isBlank c = true)
    (reads : Tag.ofStart? ('<' :: '/' :: (name ++ tail)) = some (true, name)) (noAngle : '<' ∉ tail) :
    Closes (before ++ '<' :: '/' :: (name ++ tail)) name := by
  obtain ⟨more, tags⟩ := ofLine_eq_cons blank reads
  have split : before ++ '<' :: '/' :: (name ++ tail) = (before ++ '<' :: '/' :: name) ++ tail := by
    simp
  have covered : ∀ g ∈ more, g.offset < before.length + Tag.width ⟨before.length, true, name⟩ := by
    intro g mem
    have isTag : g ∈ Tag.ofLine ((before ++ '<' :: '/' :: name) ++ tail) := by
      rw [← split, tags]
      exact .tail _ mem
    have within := offset_lt_of_mem_ofLine noAngle isTag
    rw [Tag.width]
    simpa [Nat.add_comm, Nat.add_left_comm] using within
  intro s lineNo between
  have settled := (between.close name).pending
  rw [advance_of_noFence between.fence (opener_eq_none_of_angle blank _),
    advanceProse_of_settled between.pending, tags, MdxState.tags, if_neg (Nat.not_lt_zero _),
    tag_closer s _ lineNo rfl]
  simp only [settled, tags_covered covered]
  rfl

/-- **An opening tag on a line of its own**, be there blanks around it, opens its component, unless it
closes itself.  Tags that stand in its attributes are passed over. -/
theorem advance_tagLine {before name behind tail : Text} {selfCloses : Bool}
    (blank : ∀ c ∈ before, isBlank c = true)
    (reads : Tag.ofStart? ('<' :: (name ++ (behind ++ tail))) = some (false, name))
    (ends : tagEnd? (behind ++ tail) = some (behind.length, selfCloses)) (noAngle : '<' ∉ tail)
    {s : MdxState} (between : s.IsBetween) (lineNo : Nat) :
    s.advance (before ++ '<' :: (name ++ (behind ++ tail))) lineNo = (.component,
      { s with stack := if selfCloses then s.stack
          else s.stack ++ [⟨name, lineNo, before.length + 1⟩] }) := by
  obtain ⟨more, tags⟩ := ofLine_eq_cons blank reads
  have noFence := opener_eq_none_of_angle blank (name ++ (behind ++ tail))
  have split : before ++ '<' :: (name ++ (behind ++ tail)) =
      (before ++ '<' :: (name ++ behind)) ++ tail := by simp
  have covered : ∀ g ∈ more, g.offset < (before ++ '<' :: (name ++ behind)).length := by
    intro g mem
    exact offset_lt_of_mem_ofLine noAngle (split ▸ tags ▸ .tail _ mem)
  have rest : List.drop (before.length + Tag.width ⟨before.length, false, name⟩)
      (before ++ '<' :: (name ++ (behind ++ tail))) = behind ++ tail := by
    rw [List.drop_length_add_append]
    change List.drop (1 + name.length) ('<' :: _) = _
    rw [Nat.add_comm, List.drop_succ_cons, List.drop_left]
  have length : before.length + Tag.width ⟨before.length, false, name⟩ + behind.length =
      (before ++ '<' :: (name ++ behind)).length := by
    rw [Tag.width]
    simp
    omega
  have step : s.tag (before ++ '<' :: (name ++ (behind ++ tail))) lineNo
        ⟨before.length, false, name⟩ =
      ({ s with stack := if selfCloses then s.stack
          else s.stack ++ [⟨name, lineNo, before.length + 1⟩] },
        (before ++ '<' :: (name ++ behind)).length) := by
    cases selfCloses <;>
      · simp only [tag, rest, ends, length]
        rfl
  have settled : ({ s with stack := if selfCloses then s.stack
      else s.stack ++ [⟨name, lineNo, before.length + 1⟩] } : MdxState).pending.isSome = false := by
    rw [between.pending]
    rfl
  rw [advance_of_noFence between.fence noFence, advanceProse_of_settled between.pending, tags,
    MdxState.tags, if_neg (Nat.not_lt_zero _), step]
  simp only [settled, tags_covered covered]
  rfl

/-- An opening tag that is a whole line. -/
theorem advance_tag {name behind : Text} {selfCloses : Bool}
    (reads : Tag.ofStart? ('<' :: (name ++ behind)) = some (false, name))
    (ends : tagEnd? behind = some (behind.length, selfCloses)) {s : MdxState} (between : s.IsBetween)
    (lineNo : Nat) :
    s.advance ('<' :: (name ++ behind)) lineNo = (.component,
      { s with stack := if selfCloses then s.stack else s.stack ++ [⟨name, lineNo, 1⟩] }) := by
  rw [← List.append_nil behind] at reads ⊢
  exact advance_tagLine (List.forall_mem_nil _) reads (by rwa [List.append_nil]) List.not_mem_nil between
    lineNo

/-- The opener of a component, when no slash stands at its end. -/
theorem opens_of_tag {name inner : Text} {last : Option Char}
    (reads : Tag.ofStart? ('<' :: (name ++ (inner ++ ['>']))) = some (false, name))
    (stays : TagEndState.start.along inner = some ⟨none, 0, last⟩) (noSlash : last ≠ some '/') :
    Opens ('<' :: (name ++ (inner ++ ['>']))) name := by
  have ends : tagEnd? (inner ++ ['>']) = some ((inner ++ ['>']).length, false) := by
    rw [tagEnd?, TagEndState.find?_append stays]
    simp [TagEndState.find?, TagEndState.isEnd, noSlash]
    omega
  exact fun s lineNo between => ⟨1, advance_tag reads ends between lineNo⟩

end MdxState

/-! ## Lines that leave nothing new open -/

namespace Line

open MdxState

/-- Wherever lines begin, no fence, no tag and no component is open behind them that was not open
before; but components around them may be closed. -/
def Balanced (ls : List Line) : Prop :=
  ∀ (s : MdxState) (lineNo : Nat), s.IsBetween →
    (classifyLines s lineNo ls).2.IsBetween ∧ (classifyLines s lineNo ls).2.names <+: s.names

namespace Balanced

variable {ls ms : List Line}

theorem nil : Balanced [] :=
  fun _ _ between => ⟨between, List.prefix_rfl⟩

theorem append (left : Balanced ls) (right : Balanced ms) : Balanced (ls ++ ms) := by
  intro s lineNo between
  obtain ⟨middle, first⟩ := left s lineNo between
  obtain ⟨final, second⟩ := right _ (lineNo + ls.length) middle
  rw [classifyLines_append]
  exact ⟨final, second.trans first⟩

theorem flatMap {α : Type} {f : α → List Line} {xs : List α} (each : ∀ x ∈ xs, Balanced (f x)) :
    Balanced (xs.flatMap f) := by
  induction xs with
  | nil => exact nil
  | cons x xs ih =>
    obtain ⟨first, rest⟩ := List.forall_mem_cons.1 each
    rw [List.flatMap_cons]
    exact first.append (ih rest)

theorem blank (e : Ending) : Balanced [⟨[], e⟩] := by
  intro s lineNo between
  have step : (classifyLines s lineNo [⟨[], e⟩]).2 = s := by
    rw [classifyLines, advance_blank between.fence between.pending]
    rfl
  rw [step]
  exact ⟨between, List.prefix_rfl⟩

/-- **Lines that leave nothing open by themselves** leave nothing new open anywhere. -/
theorem of_quiet (quiet : (classifyLines .start 1 ls).2.IsQuiet) : Balanced ls := by
  intro s lineNo between
  have start : Under s.names s .start := by
    refine ⟨between.fence, ?_, s.names, List.prefix_rfl, (List.append_nil _).symm⟩
    rw [between.pending]
    rfl
  obtain ⟨fence, pending, left, part, stack⟩ := start.classifyLines lineNo 1 ls
  rw [quiet.pending, Option.map_none, Option.map_eq_none_iff] at pending
  have above : left ++ (classifyLines .start 1 ls).2.names = left := by
    rw [names, quiet.stack, List.map_nil, List.append_nil]
  rw [stack, above]
  exact ⟨⟨fence.trans quiet.fence, pending⟩, part⟩

/-- **An element around balanced lines** is balanced. -/
theorem element {name : Text} {opener closer : Line} (opens : Opens opener.content name)
    (inner : Balanced ls) (closes : Closes closer.content name) :
    Balanced (opener :: (ls ++ [closer])) := by
  intro s lineNo between
  obtain ⟨column, first⟩ := opens s lineNo between
  obtain ⟨middle, part⟩ := inner { s with stack := s.stack ++ [⟨name, lineNo, column⟩] } (lineNo + 1)
    ⟨between.fence, between.pending⟩
  have opened : names { s with stack := s.stack ++ [⟨name, lineNo, column⟩] } = s.names ++ [name] :=
    List.map_append
  rw [opened] at part
  have last := closes _ (lineNo + 1 + ls.length) middle
  have run : (classifyLines s lineNo (opener :: (ls ++ [closer]))).2 =
      (classifyLines { s with stack := s.stack ++ [⟨name, lineNo, column⟩] } (lineNo + 1) ls).2.close
        name := by
    calc (classifyLines s lineNo (opener :: (ls ++ [closer]))).2
        = (classifyLines (s.advance opener.content lineNo).2 (lineNo + 1) (ls ++ [closer])).2 := rfl
      _ = _ := by
        rw [first, classifyLines_append]
        exact congrArg Prod.snd last
  rw [run]
  exact ⟨middle.close name, names_close part⟩

end Balanced

/-! ## Lines that stay as they are -/

/-- Inside of a component, the lines stay as they are, and what is open stays open. -/
def Steady (ls : List Line) : Prop :=
  ∀ (s : MdxState) (lineNo : Nat), s.IsBetween → s.stack ≠ [] →
    ∃ fences, Carries lineNo ls s { s with fences := fences }

namespace Steady

variable {ls ms : List Line}

theorem nil : Steady [] :=
  fun s _ _ _ => ⟨s.fences, .nil⟩

theorem append (left : Steady ls) (right : Steady ms) : Steady (ls ++ ms) := by
  intro s lineNo between inside
  obtain ⟨fences, first⟩ := left s lineNo between inside
  obtain ⟨more, second⟩ := right { s with fences := fences } (lineNo + ls.length)
    ⟨between.fence, between.pending⟩ inside
  exact ⟨more, first.append second⟩

theorem flatMap {α : Type} {f : α → List Line} {xs : List α} (each : ∀ x ∈ xs, Steady (f x)) :
    Steady (xs.flatMap f) := by
  induction xs with
  | nil => exact nil
  | cons x xs ih =>
    obtain ⟨first, rest⟩ := List.forall_mem_cons.1 each
    rw [List.flatMap_cons]
    exact first.append (ih rest)

theorem blank (e : Ending) : Steady [⟨[], e⟩] := by
  intro s lineNo between _
  exact ⟨s.fences, .line (advance_blank between.fence between.pending) (escapeClassified_blank e _)⟩

/-- **Balanced lines without tags**, code aside, stay as they are. -/
theorem of_noTag (balanced : Balanced ls)
    (noTag : ∀ l ∈ fencedLines none ls, l.isCode = false → Tag.ofLine l.line.content = []) :
    Steady ls := by
  intro s lineNo between inside
  have busy : s.unclosed ≠ [] := by simp [unclosed, inside]
  have idle : ∀ l ∈ fencedLines s.fence ls, l.isCode = false → s.Idle l.line.content := by
    intro l mem prose
    rw [between.fence] at mem
    rw [Idle, between.pending]
    exact noTag l mem prose
  obtain ⟨fences, carried⟩ := carries_idle lineNo busy idle
  have outside : s.fence.run ls = s.fence := by
    have closed := (balanced s lineNo between).1.fence
    rw [carried.state] at closed
    exact closed.trans between.fence.symm
  rw [outside] at carried
  exact ⟨fences, carried⟩

/-- **An element around steady lines** stays as it is, wherever it stands. -/
theorem carries_element {name : Text} {opener closer : Line} (opens : Opens opener.content name)
    (inner : Steady ls) (closes : Closes closer.content name) {s : MdxState} (lineNo : Nat)
    (between : s.IsBetween) :
    ∃ fences, Carries lineNo (opener :: (ls ++ [closer])) s { s with fences := fences } := by
  obtain ⟨column, first⟩ := opens s lineNo between
  obtain ⟨fences, middle⟩ := inner { s with stack := s.stack ++ [⟨name, lineNo, column⟩] }
    (lineNo + 1) ⟨between.fence, between.pending⟩ (by simp)
  have last := closes
    { s with stack := s.stack ++ [⟨name, lineNo, column⟩], fences := fences }
    (lineNo + 1 + ls.length) ⟨between.fence, between.pending⟩
  have closed : close { s with stack := s.stack ++ [⟨name, lineNo, column⟩], fences := fences } name =
      { s with fences := fences } := by
    simp [close, names]
  rw [closed] at last
  exact ⟨fences, .cons first rfl (middle.append (.line last rfl))⟩

theorem element {name : Text} {opener closer : Line} (opens : Opens opener.content name)
    (inner : Steady ls) (closes : Closes closer.content name) :
    Steady (opener :: (ls ++ [closer])) :=
  fun _ lineNo between _ => carries_element opens inner closes lineNo between

end Steady
end Line
end MdxPress
