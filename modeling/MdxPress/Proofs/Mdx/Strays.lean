import MdxPress.Proofs.Mdx.Alike
import MdxPress.Proofs.Page.SameCode

/-!
The stray braces of lines, counted from any state.  A line may be replaced by one that is read alike,
and what was open before may differ in its places.  Two lines are compared stretch by stretch: a stretch
that both share may be put before them, if no tag and no marker that begins in it goes on behind it.

* `Clear` is that condition; `clear_of_stops` and `clear_concat` are the two ways to meet it;
* `Pared.copy` puts the stretch before both lines, and `Text.alike_append_blank` and
  `Text.alike_blank_append` are lines with blanks at an end;
* `straysFrom` counts the braces; `countProseBraces_eq` is the whole body;
* `FencedLine.Reads` says that a line may stand in the place of another;
* `straysFrom_congr` is the run over such lines.
-/

namespace MdxPress

/-- A character that goes on with no tag and no marker. -/
def Tag.isStop (c : Char) : Bool :=
  !(isNameChar c || c == '/' || c == '%' || c == '\x7d')

/-- The text is empty or begins with a character that goes on with no tag and no marker. -/
def Text.Stops (t : Text) : Prop :=
  ∀ c ∈ t.head?, Tag.isStop c = true

/-- No tag and no marker that begins in `w` goes on in `t` behind it. -/
structure Clear (w t : Text) : Prop where
  tags : ∀ v : Text, '<' :: v <:+ w → Tag.ofStart? ('<' :: (v ++ t)) = Tag.ofStart? ('<' :: v)
  opener : w.getLast? = some '{' → t.head? ≠ some '%'
  closer : w.getLast? = some '%' → t.head? ≠ some '}'

section Clear

variable {w t u : Text} {c : Char} {a b : Bool}

theorem Tag.isStop_ne (stop : isStop c = true) :
    isNameChar c = false ∧ c ≠ '/' ∧ c ≠ '%' ∧ c ≠ '}' := by
  simpa [isStop, and_assoc] using stop

theorem Tag.isStop_of_isBlank (blank : isBlank c = true) : isStop c = true := by
  have noName := isNameChar_false_of_isBlank blank
  obtain ⟨-, -, -, -, -, right, percent, -⟩ := isInert_ne (isInert_of_isBlank blank)
  have noSlash : c ≠ '/' := by
    rintro rfl
    exact absurd blank (by decide)
  simp [isStop, noName, noSlash, percent, right]

theorem Tag.ofStart?_append (stops : t.Stops) (v : Text) :
    ofStart? ('<' :: (v ++ t)) = ofStart? ('<' :: v) := by
  apply Option.ext
  rintro ⟨closing, name⟩
  simp only [ofStart?_eq_some_iff]
  constructor
  · rintro ⟨rest, whole, isName, ends⟩
    rcases List.append_eq_append_iff.1 whole with ⟨x, inner, tail⟩ | ⟨x, outer, tail⟩
    · cases x with
      | nil => exact ⟨[], by simpa using inner.symm, isName, nofun⟩
      | cons d x =>
        have mem : d ∈ written closing name := by rw [inner]; simp
        have stop := isStop_ne (stops d (by rw [tail]; rfl))
        rcases mem_written isName mem with slash | inName
        · exact absurd slash stop.2.1
        · rw [stop.1] at inName
          cases inName
    · refine ⟨x, outer, isName, ?_⟩
      cases x with
      | nil => nofun
      | cons d x => exact fun e first => ends e (by rw [tail]; exact first)
  · rintro ⟨rest, rfl, isName, ends⟩
    refine ⟨rest ++ t, List.append_assoc _ _ _, isName, ?_⟩
    cases rest with
    | nil => exact fun d first => (isStop_ne (stops d first)).1
    | cons d rest => exact ends

theorem clear_of_stops (stops : t.Stops) (w : Text) : Clear w t where
  tags v _ := Tag.ofStart?_append stops v
  opener _ percent := (Tag.isStop_ne (stops _ percent)).2.2.1 rfl
  closer _ brace := (Tag.isStop_ne (stops _ brace)).2.2.2 rfl

/-- Behind a character that begins nothing and goes on with nothing, all is clear. -/
theorem clear_concat (stop : Tag.isStop c = true) (noAngle : c ≠ '<') (noBrace : c ≠ '{')
    (w t : Text) : Clear (w ++ [c]) t where
  tags v part := by
    obtain ⟨x, whole⟩ := part
    rcases List.eq_nil_or_concat v with rfl | ⟨v, d, rfl⟩
    · have last := (List.append_inj' whole rfl).2
      exact absurd (List.singleton_inj.1 last).symm noAngle
    · rw [List.concat_eq_append] at whole ⊢
      have cut : x ++ '<' :: (v ++ [d]) = x ++ '<' :: v ++ [d] := by simp
      obtain ⟨-, last⟩ := List.append_inj' (cut.symm.trans whole) rfl
      obtain rfl := List.singleton_inj.1 last
      have stops (r : Text) : Text.Stops (d :: r) := by
        rintro e ⟨⟩
        exact stop
      rw [List.append_assoc, List.singleton_append, Tag.ofStart?_append (stops t),
        Tag.ofStart?_append (stops [])]
  opener last := by
    rw [List.getLast?_concat] at last
    exact absurd (Option.some.inj last) noBrace
  closer last := by
    rw [List.getLast?_concat] at last
    exact absurd (Option.some.inj last) (Tag.isStop_ne stop).2.2.1

theorem Clear.suffix {v : Text} (clear : Clear w t) (part : v <:+ w) : Clear v t := by
  obtain ⟨x, rfl⟩ := part
  have last {c : Char} (ends : v.getLast? = some c) : (x ++ v).getLast? = some c := by
    rw [List.getLast?_append, ends]
    rfl
  exact ⟨fun w part => clear.tags w (part.trans (List.suffix_append x v)),
    fun ends => clear.opener (last ends), fun ends => clear.closer (last ends)⟩

theorem Clear.tail (clear : Clear (c :: w) t) : Clear w t :=
  clear.suffix (List.suffix_cons c w)

/-- **A stretch that both lines share**, before what differs. -/
theorem Pared.copy (left : Clear w t) (right : Clear w u)
    (rest : Pared id (w.foldl slashBehind a) (w.foldl slashBehind a) t u) :
    Pared id a a (w ++ t) (w ++ u) := by
  induction length : w.length using Nat.strongRecOn generalizing w a with
  | ind size ih =>
    subst length
    cases w with
    | nil => exact rest
    | cons c w =>
      have further := ih w.length (by simp) left.tail right.tail rest rfl
      by_cases angle : c = '<'
      · subst angle
        cases starts : Tag.ofStart? ('<' :: w) with
        | none =>
          have noTag {v : Text} (clear : Clear ('<' :: w) v) :
              Tag.ofStart? ('<' :: (w ++ v)) = none :=
            (clear.tags w List.suffix_rfl).trans starts
          apply Pared.same _ (fun _ => rfl) (fun brace => ?_) (fun percent => ?_) further
          · intro _
            simpa using ⟨noTag left, noTag right⟩
          · exact absurd brace (by decide)
          · exact absurd percent (by decide)
        | some p =>
          obtain ⟨closing, name⟩ := p
          obtain ⟨behind, rfl, isName, -⟩ := Tag.ofStart?_eq_some_iff.1 starts
          have starts' {v : Text} (clear : Clear ('<' :: (Tag.written closing name ++ behind)) v) :
              Tag.ofStart? ('<' :: (Tag.written closing name ++ (behind ++ v)).map id) =
                some (closing, name) := by
            rw [List.map_id, ← List.append_assoc]
            exact (clear.tags _ List.suffix_rfl).trans starts
          have part : behind <:+ '<' :: (Tag.written closing name ++ behind) :=
            (List.suffix_append _ _).trans (List.suffix_cons _ _)
          rw [List.cons_append, List.cons_append, List.append_assoc, List.append_assoc]
          refine .tag rfl (List.map_id _) (starts' left) (starts' right) ?_
          have shorter : behind.length < ('<' :: (Tag.written closing name ++ behind)).length := by
            rw [List.length_cons, List.length_append]
            omega
          refine ih behind.length shorter (left.suffix part) (right.suffix part) ?_ rfl
          rw [List.foldl_cons, List.foldl_append, foldl_slashBehind_written isName] at rest
          exact rest
      · have heads (d : Char) (ahead : w = [] → t.head? ≠ some d ∧ u.head? ≠ some d) :
            ((w ++ t).map id).head? = some d ↔ ((w ++ u).map id).head? = some d := by
          rw [List.map_id, List.map_id]
          cases w with
          | nil => simp [ahead rfl]
          | cons e w => rfl
        refine .same (fun same => absurd same angle) (fun _ => rfl) (fun brace => ?_)
          (fun percent => ?_) further
        · apply heads
          rintro rfl
          exact ⟨left.opener (congrArg some brace), right.opener (congrArg some brace)⟩
        · apply heads
          rintro rfl
          exact ⟨left.closer (congrArg some percent), right.closer (congrArg some percent)⟩

/-! ## Blanks -/

theorem Pared.drop_blanks {blanks : Text} (blank : blanks.allBlank = true) (rest : Pared id a b t u) :
    Pared id a b (blanks ++ t) u := by
  induction blanks with
  | nil => exact rest
  | cons c r ih =>
    obtain ⟨first, others⟩ : isBlank c = true ∧ Text.allBlank r = true := by
      simpa [Text.allBlank] using blank
    refine .drop (Tag.isInert_of_isBlank first) ?_
    rw [show slashBehind a (id c) = a from if_pos first]
    exact ih others

theorem Text.stops_of_allBlank (blank : t.allBlank = true) : t.Stops := by
  intro c first
  apply Tag.isStop_of_isBlank
  exact List.all_eq_true.1 blank c (List.mem_of_mem_head? first)

/-- Blanks at the end of a line make no difference. -/
theorem Text.alike_append_blank {blanks : Text} (blank : blanks.allBlank = true) (line : Text) :
    Text.Alike (line ++ blanks) line := by
  have pared : Pared id false false (line ++ blanks) (line ++ []) := by
    apply Pared.copy (clear_of_stops (stops_of_allBlank blank) line)
      (clear_of_stops (stops_of_allBlank rfl) line)
    have dropped := Pared.drop_blanks blank (t := []) (u := [])
      (a := line.foldl slashBehind false) (b := line.foldl slashBehind false) .nil
    rwa [List.append_nil] at dropped
  rw [List.append_nil] at pared
  exact pared.alike

theorem Pared.refl (line : Text) : Pared id a a line line := by
  have pared : Pared id a a (line ++ []) (line ++ []) :=
    Pared.copy (clear_of_stops (Text.stops_of_allBlank rfl) line)
      (clear_of_stops (Text.stops_of_allBlank rfl) line) .nil
  rwa [List.append_nil] at pared

/-- Blanks at the start of a line make no difference to its tags and braces. -/
theorem Text.alike_blank_append {blanks : Text} (blank : blanks.allBlank = true) (line : Text) :
    Text.Alike (blanks ++ line) line :=
  (Pared.drop_blanks blank (Pared.refl line)).alike

theorem Text.Alike.refl (line : Text) : Text.Alike line line :=
  (Pared.refl line).alike

end Clear

/-! ## Braces counted from a state on -/

open MdxState

/-- The stray braces of lines, the first of which has the number `lineNo`, from a state on. -/
def straysFrom (s : MdxState) (lineNo : Nat) (ls : List Line) : Nat :=
  total (fun (l, c) => if c = .prose then Brace.strays l.content else 0) (classifyLines s lineNo ls).1

theorem countProseBraces_eq (body : Text) :
    countProseBraces body = straysFrom .start 1 body.lines := rfl

/-- The stray braces of a line by itself. -/
def straysAt (s : MdxState) (lineNo : Nat) (content : Text) : Nat :=
  if (s.advance content lineNo).1 = .prose then Brace.strays content else 0

section Run

variable {s t : MdxState} {n m : Nat} {l : Line} {ls : List Line}

theorem straysFrom_cons (s : MdxState) (n : Nat) (l : Line) (ls : List Line) :
    straysFrom s n (l :: ls) =
      straysAt s n l.content + straysFrom (s.advance l.content n).2 (n + 1) ls := rfl

/-- A line that may stand in the place of another: code stays as it is, and prose is read alike. -/
structure FencedLine.Reads (l : FencedLine) (k : Line) : Prop where
  block : l.isCode = true → k.content = l.line.content
  noOpener : l.isCode = false → FenceOpener.ofLine? k.content = none
  alike : l.isCode = false → Text.Alike l.line.content k.content
  exempt : l.isCode = false → isExempt l.line.content = isExempt k.content

/-- **One line**, or another in its place: as many stray braces, and the same behind it. -/
theorem FencedLine.Reads.advance {k : Line} (level : Level s t)
    (reads : Reads ⟨l, s.fence, s.fence.next l.content⟩ k) (n m : Nat) :
    straysAt s n l.content = straysAt t m k.content ∧
      Level (s.advance l.content n).2 (t.advance k.content m).2 := by
  cases code : isCode ⟨l, s.fence, s.fence.next l.content⟩ with
  | true =>
    rw [reads.block code]
    refine ⟨?_, Under.advance level l.content n m⟩
    have inside (s' : MdxState) (fence : s'.fence = s.fence) (no : Nat) :
        (s'.advance l.content no).1 = .fence := by
      have covers : s.fence.covers l.content = true := by
        simpa [FencedLine.isCode, FenceState.covers] using code
      rw [MdxState.advance, fence, if_pos covers]
    simp [straysAt, inside s rfl, inside t level.fence.symm]
  | false =>
    have outside := code
    rw [isCode_eq_false_iff] at outside
    have noOpener := FencedLine.opener_eq_none (show _ ∈ fencedLines s.fence [l] from .head _) code
    obtain ⟨class_, level'⟩ := (reads.alike code).advance level outside.1 noOpener
      (reads.noOpener code) (reads.exempt code) n m
    exact ⟨by rw [straysAt, straysAt, class_, (reads.alike code).strays], level'⟩

/-- **Lines in the places of others** hold as many stray braces. -/
theorem straysFrom_congr (level : Level s t) {ms : List Line}
    (reads : List.Forall₂ FencedLine.Reads (fencedLines s.fence ls) ms) (n m : Nat) :
    straysFrom s n ls = straysFrom t m ms := by
  induction ls generalizing s t ms n m with
  | nil =>
    cases reads
    rfl
  | cons l ls ih =>
    cases reads with
    | @cons _ k _ ks first rest =>
      obtain ⟨here, level'⟩ := first.advance level n m
      rw [← fence_advance s l.content n] at rest
      rw [straysFrom_cons, straysFrom_cons, here, ih level' rest]

theorem forall₂_reads_self (s : FenceState) (ls : List Line) :
    List.Forall₂ FencedLine.Reads (fencedLines s ls) ls := by
  induction ls generalizing s with
  | nil => exact .nil
  | cons l ls ih =>
    refine .cons ⟨fun _ => rfl, fun prose => ?_, fun _ => .refl _, fun _ => rfl⟩ (ih _)
    exact FencedLine.opener_eq_none (show _ ∈ fencedLines s [l] from .head _) prose

/-- Where a run starts makes no difference but for what is open. -/
theorem straysFrom_level (level : Level s t) (n m : Nat) (ls : List Line) :
    straysFrom s n ls = straysFrom t m ls :=
  straysFrom_congr level (forall₂_reads_self s.fence ls) n m

end Run

end MdxPress
