import MdxPress.Proofs.Mdx.Pared

/-!
Lines that are read alike.  What a line does to the state is told by its tags, and its braces by what
covers them; two lines may differ in all else.

* `MdxState.readTags` is what the tags of a line do; `MdxState.advanceProse_eq` puts it back;
* `Text.Alike` says that two lines do the same from any state and hold as many stray braces;
* `Pared.alike` is the main result: a line and what is left of it are read alike.
-/

namespace MdxPress

open Brace

namespace MdxState

/-! ## States that differ in positions only -/

/-- The same is open in both states, whatever the places. -/
abbrev Level (s t : MdxState) : Prop :=
  Under [] s t

section Level

variable {s t u : MdxState}

theorem Level.names (level : Level s t) : s.names = t.names := by
  obtain ⟨left, part, same⟩ := level.stack
  rw [List.prefix_nil.1 part] at same
  exact same

theorem level_of_names (fence : s.fence = t.fence)
    (pending : s.pending.map (·.name) = t.pending.map (·.name)) (names : s.names = t.names) :
    Level s t :=
  ⟨fence, pending, [], List.prefix_rfl, names⟩

theorem Level.refl (s : MdxState) : Level s s :=
  level_of_names rfl rfl rfl

theorem Level.symm (level : Level s t) : Level t s :=
  level_of_names level.fence.symm level.pending.symm level.names.symm

theorem Level.trans (level : Level s t) (level' : Level t u) : Level s u :=
  level_of_names (level.fence.trans level'.fence) (level.pending.trans level'.pending)
    (level.names.trans level'.names)

theorem Level.classOf (level : Level s t) {line line' : Text} (exempt : isExempt line = isExempt line')
    (touched : Bool) : s.classOf touched line = t.classOf touched line' := by
  have empty : s.stack.isEmpty = t.stack.isEmpty := by
    have same := congrArg List.isEmpty level.names
    rwa [MdxState.names, MdxState.names, List.isEmpty_map, List.isEmpty_map] at same
  rw [MdxState.classOf, MdxState.classOf, empty, level.isSome_pending, exempt]

end Level

/-! ## What the tags of a line do -/

/-- The state behind the tags of a line, and whether there were any. -/
def readTags (s : MdxState) (line : Text) (lineNo : Nat) : MdxState × Bool :=
  match s.pending with
  | none => s.tags line lineNo 0 (Tag.ofLine line)
  | some p =>
    match tagEnd? line with
    | none => (s, true)
    | some (n, selfClosing) =>
      let s := { s with
        pending := none
        stack := if selfClosing then s.stack else s.stack ++ [p] }
      ((s.tags line lineNo n (Tag.ofLine line)).1, true)

theorem advanceProse_eq (s : MdxState) (line : Text) (lineNo : Nat) :
    s.advanceProse line lineNo = ((s.readTags line lineNo).1.classOf (s.readTags line lineNo).2 line,
      (s.readTags line lineNo).1) := by
  rw [advanceProse, readTags]
  cases s.pending with
  | none => rfl
  | some p =>
    dsimp only
    cases tagEnd? line with
    | none => rfl
    | some found => rfl

/-! ## The tags of a line, from a place on -/

section Scan

variable {s t : MdxState} {line : Text} {n offset : Nat}

theorem le_offset_of_mem_scan {ks : List (Char × Bool)} {g : Tag} (mem : g ∈ Tag.scan offset ks) :
    offset ≤ g.offset := by
  obtain ⟨before, -, -, place, -⟩ := Tag.exists_of_mem_scan mem
  omega

/-- Where all tags lie behind, it does not matter up to where they are covered. -/
theorem tags_of_le {gs : List Tag} {resume resume' : Nat} (less : resume ≤ resume')
    (behind : ∀ g ∈ gs, resume' ≤ g.offset) :
    s.tags line n resume gs = s.tags line n resume' gs := by
  cases gs with
  | nil => rfl
  | cons g gs =>
    have here := behind g (.head _)
    rw [tags, tags, if_neg (by omega), if_neg (by omega)]

/-- Tags in the stretch that is covered are passed over. -/
theorem tags_scan_drop (ks : List (Char × Bool)) (j : Nat) :
    s.tags line n (offset + j) (Tag.scan offset ks) =
      s.tags line n (offset + j) (Tag.scan (offset + j) (ks.drop j)) := by
  induction j generalizing offset ks with
  | zero => rfl
  | succ j ih =>
    cases ks with
    | nil => rfl
    | cons k ks =>
      have further := @ih (offset + 1) ks
      rw [Nat.add_assoc, Nat.add_comm 1] at further
      rw [List.drop_succ_cons, ← further, Tag.scan]
      split
      · rw [tags, if_pos (by simp)]
      · rfl

theorem tags_scan_succ (ks : List (Char × Bool)) (j : Nat) :
    s.tags line n offset (Tag.scan (offset + j) ks) =
      s.tags line n (offset + j) (Tag.scan (offset + j) ks) :=
  tags_of_le (Nat.le_add_right _ _) fun _ mem => le_offset_of_mem_scan mem

theorem scan_of_noTag {k : Char × Bool} {ks : List (Char × Bool)}
    (noTag : k.1 = '<' → Tag.ofStart? ('<' :: ks.map (·.1)) = none) :
    Tag.scan offset (k :: ks) = Tag.scan (offset + 1) ks := by
  obtain ⟨c, isCode⟩ := k
  rw [Tag.scan]
  by_cases angle : c = '<'
  · subst angle
    rw [noTag rfl, ite_self]
  · rw [if_pos (by simp [angle])]

theorem scan_of_code {c : Char} {ks : List (Char × Bool)} :
    Tag.scan offset ((c, true) :: ks) = Tag.scan (offset + 1) ks := by
  rw [Tag.scan, if_pos (by simp)]

theorem scan_of_tag {ks : List (Char × Bool)} {closing : Bool} {name : Text}
    (starts : Tag.ofStart? ('<' :: ks.map (·.1)) = some (closing, name)) :
    Tag.scan offset (('<', false) :: ks) = ⟨offset, closing, name⟩ :: Tag.scan (offset + 1) ks := by
  rw [Tag.scan, if_neg (by decide), starts]

end Scan

/-! ## Reading a line and what is left of it -/

section Read

variable {s t : MdxState} {line line' : Text} {n m : Nat} {a b : Bool}

/-- The rest of a line as it is scanned for tags. -/
def marks (ks : List (Char × Cover)) : List (Char × Bool) :=
  ks.map Tag.mark

theorem map_fst_marks (ks : List (Char × Cover)) : (marks ks).map (·.1) = ks.map (·.1) := by
  rw [marks, List.map_map]
  rfl

theorem drop_of_append {r r' : Text} {o : Nat} (here : line.drop o = r ++ r') :
    line.drop (o + r.length) = r' := by
  rw [← List.drop_drop, here, List.drop_left]

/-- One tag, before the rest of a line and before what is left of it: the search for its end fails on
both, or comes to the same. -/
theorem Level.tag (level : Level s t) (n m : Nat) (g g' : Tag) {ks ms : List (Char × Cover)}
    (pared : Pared (·.1) false false ks ms) (closing : g.closing = g'.closing) (name : g.name = g'.name)
    (left : line.drop (g.offset + g.width) = ks.map (·.1))
    (right : line'.drop (g'.offset + g'.width) = ms.map (·.1)) :
    Level (s.tag line n g).1 (t.tag line' m g').1 ∧
      ((s.tag line n g).1.pending.isSome = true ∨
        ∃ j j', (s.tag line n g).2 = g.offset + g.width + j ∧
          (t.tag line' m g').2 = g'.offset + g'.width + j' ∧
          Pared (·.1) false false (ks.drop j) (ms.drop j')) := by
  by_cases closes : g.closing = true
  · rw [tag_closer s line n closes, tag_closer t line' m (closing ▸ closes), name]
    exact ⟨level.close g'.name, .inr ⟨0, 0, rfl, rfl, pared⟩⟩
  · have closes' : ¬ g'.closing = true := closing ▸ closes
    simp only [MdxState.tag, if_neg closes, if_neg closes', left, right, tagEnd?]
    rcases pared.find? TagEndState.inStep_start with
      ⟨none_, none'⟩ | ⟨j, j', selfClosing, some_, some', behind⟩
    · rw [none_, none']
      refine ⟨level_of_names level.fence ?_ level.names, .inl rfl⟩
      simp only [Option.map_some, name]
    · rw [some_, some']
      refine ⟨?_, .inr ⟨j, j', rfl, rfl, behind⟩⟩
      cases selfClosing with
      | true => exact level
      | false => exact Under.push level name

/-! A tag in front of the rest of a line: its `<`, the name `ws` behind it, and the rest. -/

section Written

variable {cover : Cover} {ws js : List (Char × Cover)} {closing : Bool} {name text : Text} {o : Nat}

theorem drop_written (here : text.drop o = (('<', cover) :: (ws ++ js)).map (·.1)) :
    text.drop (o + 1 + ws.length) = js.map (·.1) := by
  have whole : text.drop o = '<' :: ws.map (·.1) ++ js.map (·.1) := by simpa using here
  have cut := drop_of_append whole
  rwa [List.length_cons, List.length_map, Nat.add_comm ws.length, ← Nat.add_assoc] at cut

theorem width_written (written : ws.map (·.1) = Tag.written closing name) :
    o + Tag.width ⟨o, closing, name⟩ = o + 1 + ws.length := by
  have length := congrArg List.length written
  rw [List.length_map] at length
  rw [length, Tag.width, Tag.written]
  cases closing <;> simp <;> omega

/-- A tag in code is passed over. -/
theorem scan_written_of_code (code : cover.isCode = true) (isName : Tag.IsName name)
    (written : ws.map (·.1) = Tag.written closing name) :
    Tag.scan o (marks (('<', cover) :: (ws ++ js))) = Tag.scan (o + 1 + ws.length) (marks js) := by
  have noAngle : ∀ k ∈ marks ws, k.1 ≠ '<' := by
    intro k mem same
    have inName : k.1 ∈ (marks ws).map (·.1) := List.mem_map_of_mem mem
    rw [map_fst_marks, written, same] at inName
    exact Tag.avoids_written isName (by decide) (by decide) inName
  have cut : marks (('<', cover) :: (ws ++ js)) = ('<', true) :: (marks ws ++ marks js) := by
    simp [marks, Tag.mark, code]
  rw [cut, scan_of_code, Tag.scan_append noAngle, marks, List.length_map]

theorem scan_written (prose : cover.isCode = false)
    (starts : Tag.ofStart? ('<' :: (ws ++ js).map (·.1)) = some (closing, name)) :
    Tag.scan o (marks (('<', cover) :: (ws ++ js))) =
      ⟨o, closing, name⟩ :: Tag.scan (o + 1) (marks (ws ++ js)) := by
  have cut : marks (('<', cover) :: (ws ++ js)) = ('<', false) :: marks (ws ++ js) := by
    simp [marks, Tag.mark, prose]
  rw [cut, scan_of_tag (by rw [map_fst_marks]; exact starts)]

/-- Behind a tag, the search goes on where the tag ends. -/
theorem tags_written (ws js : List (Char × Cover)) (o j : Nat) :
    s.tags text n (o + 1 + ws.length + j) (Tag.scan (o + 1) (marks (ws ++ js))) =
      s.tags text n (o + 1 + ws.length + j)
        (Tag.scan (o + 1 + ws.length + j) (marks (js.drop j))) := by
  have cut : (marks (ws ++ js)).drop (ws.length + j) = marks (js.drop j) := by
    rw [marks, ← List.map_drop, List.drop_length_add_append, marks]
  rw [Nat.add_assoc, tags_scan_drop, cut]

end Written

/-- **Tags do the same** on the rest of a line and on what is left of it. -/
theorem Level.tags (level : Level s t) {ks ms : List (Char × Cover)} (pared : Pared (·.1) a b ks ms)
    {o o' : Nat} (left : line.drop o = ks.map (·.1)) (right : line'.drop o' = ms.map (·.1)) :
    Level (s.tags line n o (Tag.scan o (marks ks))).1 (t.tags line' m o' (Tag.scan o' (marks ms))).1 ∧
      (s.tags line n o (Tag.scan o (marks ks))).2 = (t.tags line' m o' (Tag.scan o' (marks ms))).2 := by
  -- A tag can cover much of what follows it, so the induction is on the length of what is left.
  induction length : ks.length using Nat.strongRecOn generalizing ks ms a b s t o o' with
  | ind size ih =>
    subst length
    cases pared with
    | nil => exact ⟨level, rfl⟩
    | @same _ _ k ks ms noTag _ _ _ rest =>
      have passes {offset : Nat} {js : List (Char × Cover)}
          (noTag : k.1 = '<' → Tag.ofStart? ('<' :: js.map (·.1)) = none) :
          Tag.scan offset (marks (k :: js)) = Tag.scan (offset + 1) (marks js) :=
        scan_of_noTag (by rw [← map_fst_marks] at noTag; exact noTag)
      rw [passes fun angle => (noTag angle).1, passes fun angle => (noTag angle).2, tags_scan_succ,
        tags_scan_succ]
      exact ih ks.length (by simp) level rest (drop_of_append (r := [k.1]) left)
        (drop_of_append (r := [k.1]) right) rfl
    | @tag _ _ closing name k ws ks ms angle written starts starts' rest =>
      obtain ⟨c, cover⟩ := k
      obtain rfl : c = '<' := angle
      have behind := drop_written left
      have behind' := drop_written right
      cases code : cover.isCode with
      | true =>
        have isName : Tag.IsName name := by
          rw [List.map_append] at starts
          obtain ⟨-, -, isName, -⟩ := Tag.ofStart?_eq_some_iff.1 starts
          exact isName
        rw [scan_written_of_code code isName written, scan_written_of_code code isName written,
          Nat.add_assoc, Nat.add_assoc, tags_scan_succ, tags_scan_succ]
        have shorter : ks.length < (('<', cover) :: (ws ++ ks)).length := by
          rw [List.length_cons, List.length_append]
          omega
        exact ih ks.length shorter level rest (Nat.add_assoc o 1 _ ▸ behind)
          (Nat.add_assoc o' 1 _ ▸ behind') rfl
      | false =>
        rw [scan_written code starts, scan_written code starts', MdxState.tags, MdxState.tags,
          if_neg (Nat.lt_irrefl _), if_neg (Nat.lt_irrefl _)]
        have width (at_ : Nat) := width_written (o := at_) written
        obtain ⟨level', stopped | ⟨j, j', covered, covered', rest'⟩⟩ :=
          level.tag n m ⟨o, closing, name⟩ ⟨o', closing, name⟩ rest rfl rfl
            ((width o).symm ▸ behind) ((width o').symm ▸ behind')
        · dsimp only
          rw [if_pos stopped, if_pos (level'.isSome_pending ▸ stopped)]
          exact ⟨level', rfl⟩
        · dsimp only
          rw [← level'.isSome_pending, covered, covered', width, width]
          split
          · exact ⟨level', rfl⟩
          · rw [tags_written, tags_written]
            have shorter : (ks.drop j).length < (('<', cover) :: (ws ++ ks)).length := by
              rw [List.length_drop, List.length_cons, List.length_append]
              omega
            refine ⟨(ih _ shorter level' rest' ?_ ?_ rfl).1, rfl⟩
            · rw [← List.drop_drop, behind, List.map_drop]
            · rw [← List.drop_drop, behind', List.map_drop]
    | @drop _ _ k ks ms inert rest =>
      have other : k.1 ≠ '<' := (Tag.isInert_ne inert).1
      have passes : Tag.scan o (marks (k :: ks)) = Tag.scan (o + 1) (marks ks) :=
        scan_of_noTag fun angle => absurd angle other
      rw [passes, tags_scan_succ]
      exact ih ks.length (by simp) level rest (drop_of_append (r := [k.1]) left) right rfl

/-- The tags of a whole line, wherever an earlier one ends. -/
theorem ofLine_eq_scan (line : Text) : Tag.ofLine line = Tag.scan 0 (marks (covered .prose line)) := by
  rw [Tag.ofLine, codeMask_eq_covered]
  rfl

theorem tags_ofLine (line : Text) (n resume : Nat) :
    s.tags line n resume (Tag.ofLine line) =
      s.tags line n resume (Tag.scan resume (marks ((covered .prose line).drop resume))) := by
  have passed : s.tags line n (0 + resume) (Tag.scan 0 (marks (covered .prose line))) =
      s.tags line n (0 + resume)
        (Tag.scan (0 + resume) ((marks (covered .prose line)).drop resume)) :=
    tags_scan_drop _ resume
  rw [Nat.zero_add] at passed
  rw [ofLine_eq_scan, passed, marks, marks, List.map_drop]

/-- **A line and what is left of it** do the same, with a tag pending or without. -/
theorem Level.readTags (level : Level s t)
    (pared : Pared (·.1) false false (covered .prose line) (covered .prose line')) (n m : Nat) :
    Level (s.readTags line n).1 (t.readTags line' m).1 ∧
      (s.readTags line n).2 = (t.readTags line' m).2 := by
  have pending := level.pending
  rw [MdxState.readTags, MdxState.readTags]
  cases before : s.pending with
  | none =>
    rw [before] at pending
    rw [Option.map_eq_none_iff.1 pending.symm, tags_ofLine, tags_ofLine]
    exact level.tags pared (map_fst_covered .prose line).symm (map_fst_covered .prose line').symm
  | some p =>
    rw [before] at pending
    obtain ⟨q, before', same⟩ := Option.map_eq_some_iff.1 pending.symm
    rw [before']
    have ends := pared.find? TagEndState.inStep_start
    rw [map_fst_covered, map_fst_covered] at ends
    dsimp only
    rcases ends with ⟨none_, none'⟩ | ⟨j, j', selfClosing, some_, some', behind⟩
    · rw [tagEnd?, none_, tagEnd?, none']
      exact ⟨level, rfl⟩
    · rw [tagEnd?, some_, tagEnd?, some']
      have ended : Level { s with pending := none } { t with pending := none } :=
        level_of_names level.fence rfl level.names
      have left : line.drop j = ((covered .prose line).drop j).map (·.1) := by
        rw [List.map_drop, map_fst_covered]
      have right : line'.drop j' = ((covered .prose line').drop j').map (·.1) := by
        rw [List.map_drop, map_fst_covered]
      dsimp only
      rw [tags_ofLine, tags_ofLine]
      refine ⟨?_, rfl⟩
      cases selfClosing with
      | true => exact (ended.tags behind left right).1
      | false => exact (Level.tags (Under.push ended same.symm) behind left right).1

end Read

end MdxState

/-! ## Lines that are read alike -/

namespace Brace

/-- Leaving inert characters out keeps the stray braces. -/
theorem countP_pared {a b : Bool} {ks ms : List (Char × Cover)} (pared : Pared (·.1) a b ks ms)
    {p : Char × Cover → Bool} (inert : ∀ k, Tag.isInert k.1 = true → p k = false) :
    ks.countP p = ms.countP p := by
  induction pared with
  | nil => rfl
  | same _ _ _ _ _ ih => rw [List.countP_cons, List.countP_cons, ih]
  | tag _ _ _ _ _ ih =>
    rw [List.countP_cons, List.countP_cons, List.countP_append, List.countP_append, ih]
  | @drop a b k ks ms isInert _ ih =>
    rw [List.countP_cons, ih, inert k isInert]
    rfl

theorem strays_pared {line line' : Text}
    (pared : Pared (·.1) false false (covered .prose line) (covered .prose line')) :
    strays line = strays line' := by
  rw [strays, strays, mask_eq_covered, mask_eq_covered, List.countP_map, List.countP_map]
  apply countP_pared pared
  intro k inert
  obtain ⟨-, -, -, -, left, right, -, -⟩ := Tag.isInert_ne inert
  simp [isStray, left, right]

end Brace

/-- Two lines that do the same to what is open, and hold as many stray braces. -/
structure Text.Alike (line line' : Text) : Prop where
  tags : ∀ {s t : MdxState} (n m : Nat), MdxState.Level s t →
    MdxState.Level (s.readTags line n).1 (t.readTags line' m).1 ∧
      (s.readTags line n).2 = (t.readTags line' m).2
  strays : Brace.strays line = Brace.strays line'

/-- **A line and what is left of it are read alike.** -/
theorem Pared.alike {line line' : Text} (pared : Pared id false false line line') :
    Text.Alike line line' := by
  have carried := pared.covered (p := .prose) trivial trivial
  exact ⟨fun n m level => level.readTags carried n m, strays_pared carried⟩

namespace Text.Alike

open MdxState

variable {line line' line'' : Text} {s t : MdxState} {n m : Nat}

theorem symm (alike : Alike line line') : Alike line' line where
  tags n m level := by
    obtain ⟨level', touched⟩ := alike.tags m n level.symm
    exact ⟨level'.symm, touched.symm⟩
  strays := alike.strays.symm

theorem trans (first : Alike line line') (second : Alike line' line'') : Alike line line'' where
  tags {s t} n m level := by
    obtain ⟨level₁, touched₁⟩ := first.tags n n (Level.refl s)
    obtain ⟨level₂, touched₂⟩ := second.tags n m level
    exact ⟨level₁.trans level₂, touched₁.trans touched₂⟩
  strays := first.strays.trans second.strays

/-- Outside of fences, lines that are read alike have one class and leave the same behind. -/
theorem advance (alike : Alike line line') (level : Level s t) (outside : s.fence = none)
    (noOpener : FenceOpener.ofLine? line = none) (noOpener' : FenceOpener.ofLine? line' = none)
    (exempt : isExempt line = isExempt line') (n m : Nat) :
    (s.advance line n).1 = (t.advance line' m).1 ∧
      Level (s.advance line n).2 (t.advance line' m).2 := by
  rw [advance_of_noFence outside noOpener, advance_of_noFence (level.fence ▸ outside) noOpener',
    advanceProse_eq, advanceProse_eq]
  obtain ⟨level', touched⟩ := alike.tags n m level
  exact ⟨touched ▸ level'.classOf exempt _, level'⟩

end Text.Alike
end MdxPress
