import MdxPress.Fence.Repair
import MdxPress.Proofs.Fence.Opener
import MdxPress.Proofs.Fence.Closed
import MdxPress.Proofs.Text.Part

/-!
Fence repair takes away lines of code only, and what it keeps is read as before.  A repair can bring debris
about: where the second of three openers goes, the third stands behind the first, and where the line that
was taken for content goes, a block may hold blank lines only.

* `FenceOpener.hasDebris` is what calls for a repair, and `FenceRepair.decide_cases` says so;
* `Text.Repaired` is repair line by line, `Text.thinned_repairFences` compares the lines before and after;
* `Text.repairFences_eq_self_iff` says that a repair always takes lines away;
* `Text.repairFences_takes_code` is the result, line by line;
* `Text.repairFences_eq_zero_iff` says what is left alone: a text without debris;
* `Text.repairFences_repairFences_iff` is the condition for the result of a repair to be one, read off the
  text itself.

Caveat: repair goes on behind the opener that it drops, and does not look again at the lines that now
follow the one that it kept.
-/

namespace MdxPress

/-! ## Taking code away -/

/-- Lines of which some that are code have been taken away. -/
inductive FencedLine.Thinned : List FencedLine → List FencedLine → Prop
  | nil : Thinned [] []
  | keep (l : FencedLine) {ls ms : List FencedLine} (rest : Thinned ls ms) :
      Thinned (l :: ls) (l :: ms)
  | drop {l : FencedLine} (code : l.isCode = true) {ls ms : List FencedLine}
      (rest : Thinned ls ms) : Thinned (l :: ls) ms

namespace FencedLine.Thinned

variable {ls ms : List FencedLine}

theorem sublist (thinned : Thinned ls ms) : ms.Sublist ls := by
  induction thinned with
  | nil => exact .slnil
  | keep l _ ih => exact ih.cons_cons l
  | drop _ _ ih => exact ih.cons _

theorem filter_prose (thinned : Thinned ls ms) :
    ms.filter (!·.isCode) = ls.filter (!·.isCode) := by
  induction thinned with
  | nil => rfl
  | keep l _ ih => simp [List.filter_cons, ih]
  | drop code _ ih => simp [code, ih]

theorem drop_append {code : List FencedLine} (all : ∀ l ∈ code, l.isCode = true)
    (thinned : Thinned ls ms) : Thinned (code ++ ls) ms := by
  induction code with
  | nil => exact thinned
  | cons l code ih => exact .drop (all l (.head _)) (ih fun m mem => all m (.tail _ mem))

/-- Every line with whether it was kept. -/
theorem exists_choice (thinned : Thinned ls ms) :
    ∃ choice : List (FencedLine × Bool), choice.map (·.1) = ls ∧
      (∀ k ∈ choice, k.2 = false → k.1.isCode = true) ∧ (choice.filter (·.2)).map (·.1) = ms := by
  induction thinned with
  | nil => exact ⟨[], rfl, nofun, rfl⟩
  | keep l _ ih =>
    obtain ⟨choice, rfl, code, rfl⟩ := ih
    exact ⟨(l, true) :: choice, rfl, List.forall_mem_cons.2 ⟨nofun, code⟩, rfl⟩
  | @drop l isCode _ _ _ ih =>
    obtain ⟨choice, rfl, code, rfl⟩ := ih
    exact ⟨(l, false) :: choice, rfl, List.forall_mem_cons.2 ⟨fun _ => isCode, code⟩, rfl⟩

end FencedLine.Thinned

/-! ## What stays inside a block -/

namespace FenceState

theorem closedBy_of_blank {f : Fence} {line : Text} (blank : line.allBlank = true) :
    closedBy f line = false := by
  rw [Bool.eq_false_iff]
  intro closes
  obtain ⟨before, n, behind, rfl, _, _, long, _⟩ := closedBy_iff.1 closes
  have mark : f.mark.char ∈ before ++ (List.replicate n f.mark.char ++ behind) := by
    refine List.mem_append_right _ (List.mem_append_left _ (List.mem_replicate.2 ⟨?_, rfl⟩))
    omega
  have isBlank := List.all_eq_true.1 blank _ mark
  simp [Text.isBlank_char] at isBlank

/-- A line with a language opens a block, and closes none. -/
theorem closedBy_of_language {f : Fence} {line : Text} {o : FenceOpener}
    (opens : FenceOpener.ofLine? line = some o) (language : o.language?.isSome = true) :
    closedBy f line = false := by
  rw [Bool.eq_false_iff]
  intro closes
  obtain ⟨before, rest, rfl, indent, visible⟩ := Text.exists_indent line
  rw [closedBy, Text.indentColumns_append 0 indent visible] at closes
  rw [FenceOpener.ofLine?, Text.indentColumns_append 0 indent visible] at opens
  simp only [Bool.and_eq_true] at closes
  obtain ⟨_, closes⟩ := closes
  dsimp only at opens
  split at opens
  case isTrue => cases opens
  case isFalse =>
    obtain ⟨⟨m, n, behind⟩, run, kept⟩ := Option.bind_eq_some_iff.1 opens
    rw [run] at closes
    simp only [Bool.and_eq_true] at closes
    have empty : behind.trim = [] := Text.trim_of_allBlank closes.2
    dsimp only at kept
    split at kept
    case isTrue => cases kept
    case isFalse =>
      cases kept
      rw [FenceOpener.language?, empty] at language
      cases language

/-- Lines that close nothing are code. -/
theorem isCode_of_mem_fencedLines {f : Fence} {ls : List Line}
    {l : FencedLine} (inside : ∀ l ∈ ls, closedBy f l.content = false)
    (mem : l ∈ fencedLines (some f) ls) : l.isCode = true := by
  induction ls with
  | nil => cases mem
  | cons k ls ih =>
    have stays : next (some f) k.content = some f := by simp [next, inside k (.head _)]
    rw [fencedLines, stays] at mem
    rcases List.mem_cons.1 mem with rfl | later
    · rfl
    · exact ih (fun m isIn => inside m (.tail _ isIn)) later

end FenceState

/-! ## Debris -/

/-- The first line that is not blank behind blank lines, of which there is at least one, and the lines
behind it. -/
def Line.behindBlanks? (ls : List Line) : Option (Line × List Line) :=
  match ls.takeWhile isBlank, ls.dropWhile isBlank with
  | _ :: _, l :: behind => some (l, behind)
  | _, _ => none

theorem Line.behindBlanks?_eq_some_iff {ls behind : List Line} {l : Line} :
    behindBlanks? ls = some (l, behind) ↔ ∃ blanks, ls = blanks ++ l :: behind ∧ blanks ≠ [] ∧
      (∀ b ∈ blanks, b.isBlank = true) ∧ l.isBlank = false := by
  constructor
  · intro found
    obtain ⟨blanks, rest, first, last, cut, blank, stops⟩ := Text.exists_cut_of_fails isBlank ls
    rw [behindBlanks?, first, last] at found
    split at found
    case h_1 b bs k below => cases found; exact ⟨b :: bs, cut, by simp, blank, stops l rfl⟩
    case h_2 => cases found
  · rintro ⟨blanks, rfl, filled, blank, shown⟩
    obtain ⟨b, bs, rfl⟩ := List.exists_cons_of_ne_nil filled
    obtain ⟨first, last⟩ := Text.cut_of_fails blank shown behind
    rw [behindBlanks?, first, last]

/-- Lines that begin with the same blank lines and the same other line. -/
theorem Line.map_behindBlanks?_congr {ls ms : List Line}
    (blanks : ms.takeWhile isBlank = ls.takeWhile isBlank)
    (first : (ms.dropWhile isBlank).head? = (ls.dropWhile isBlank).head?) :
    (behindBlanks? ms).map (·.1) = (behindBlanks? ls).map (·.1) := by
  rw [behindBlanks?, behindBlanks?, blanks]
  cases ls.takeWhile isBlank <;> cases left : ms.dropWhile isBlank <;>
    cases right : ls.dropWhile isBlank <;> simp_all

namespace FenceOpener

/-- Whether a line opens a block with the same marks once more, and both openers have a language. -/
def isRepeatedBy (o : FenceOpener) (l : Line) : Bool :=
  (ofLine? l.content).any fun second =>
    second.fence.mark = o.fence.mark && second.language?.isSome && o.language?.isSome

/-- Whether the lines behind an opener begin with debris: with blank lines, and a line that closes the
block or repeats the opener. -/
def hasDebris (o : FenceOpener) (rest : List Line) : Bool :=
  ((Line.behindBlanks? rest).map (·.1)).any fun l =>
    FenceState.closedBy o.fence l.content || o.isRepeatedBy l

theorem hasDebris_of_behindBlanks {o : FenceOpener} {rest behind : List Line} {l : Line}
    (gap : Line.behindBlanks? rest = some (l, behind)) :
    o.hasDebris rest = (FenceState.closedBy o.fence l.content || o.isRepeatedBy l) := by
  rw [hasDebris, gap]
  rfl

/-- A line that repeats an opener does not close its block. -/
theorem closedBy_of_isRepeatedBy {o : FenceOpener} {l : Line} (again : o.isRepeatedBy l = true) :
    FenceState.closedBy o.fence l.content = false := by
  obtain ⟨second, opens, both⟩ := (Option.any_eq_true _ _).1 again
  simp only [Bool.and_eq_true] at both
  exact FenceState.closedBy_of_language opens both.1.2

end FenceOpener

/-! ## What is repaired -/

/-- A repair meets blank lines behind an opener, and then a line that closes the block or another
opener with a language. -/
theorem FenceRepair.decide_cases (o : FenceOpener) (rest : List Line) :
    (decide o rest = none ∧ o.hasDebris rest = false) ∨
      ∃ l behind, Line.behindBlanks? rest = some (l, behind) ∧
        ((FenceState.closedBy o.fence l.content = true ∧
            ∃ k, decide o rest = emptyBlock k ∧ rest.drop k = behind) ∨
          (o.isRepeatedBy l = true ∧ ∃ k, decide o rest = secondOpener k ∧ rest.drop k = behind)) := by
  obtain ⟨blanks, tail, first, last, rfl, blank, stops⟩ := Text.exists_cut_of_fails Line.isBlank rest
  have dropped : (blanks ++ tail).drop blanks.length = tail := List.drop_left
  rw [decide, first, dropped]
  match blanks, tail with
  | _, [] =>
    refine .inl ⟨rfl, ?_⟩
    rw [FenceOpener.hasDebris, Line.behindBlanks?, last]
    simp
  | [], l :: behind =>
    refine .inl ⟨rfl, ?_⟩
    rw [FenceOpener.hasDebris, Line.behindBlanks?, first]
    rfl
  | b :: bs, l :: behind =>
    have gap : Line.behindBlanks? (b :: bs ++ l :: behind) = some (l, behind) :=
      Line.behindBlanks?_eq_some_iff.2 ⟨b :: bs, rfl, by simp, blank, stops l rfl⟩
    have passed : (b :: bs ++ l :: behind).drop ((b :: bs).length + 1) = behind := by
      rw [List.drop_length_add_append]
      rfl
    cases closes : FenceState.closedBy o.fence l.content with
    | true => exact .inr ⟨l, behind, gap, .inl ⟨closes, _, by simp [closes], passed⟩⟩
    | false =>
      cases again : o.isRepeatedBy l with
      | true =>
        obtain ⟨second, opens, both⟩ := (Option.any_eq_true _ _).1 again
        exact .inr ⟨l, behind, gap, .inr ⟨again, _, by simp [closes, opens, both], passed⟩⟩
      | false =>
        refine .inl ⟨?_, by rw [FenceOpener.hasDebris_of_behindBlanks gap, closes, again]; rfl⟩
        rw [FenceOpener.isRepeatedBy] at again
        cases opens : FenceOpener.ofLine? l.content with
        | none => simp [closes, opens]
        | some second =>
          rw [opens, Option.any_some] at again
          simp [closes, opens, again]

namespace Text

/-- The lines that repair makes of lines from a state on, and how often it repairs. -/
inductive Repaired : FenceState → List Line → List Line → Nat → Prop
  | nil (s : FenceState) : Repaired s [] [] 0
  | keep {s : FenceState} {l : Line} {ls ms : List Line} {n : Nat}
      (quiet : s.isSome = true ∨ FenceOpener.ofLine? l.content = none)
      (rest : Repaired (s.next l.content) ls ms n) : Repaired s (l :: ls) (l :: ms) n
  | opener {l : Line} {o : FenceOpener} {ls ms : List Line} {n : Nat}
      (opens : FenceOpener.ofLine? l.content = some o) (clear : o.hasDebris ls = false)
      (rest : Repaired (some o.fence) ls ms n) : Repaired none (l :: ls) (l :: ms) n
  | emptyBlock {l m : Line} {o : FenceOpener} {ls behind ms : List Line} {n : Nat}
      (opens : FenceOpener.ofLine? l.content = some o)
      (gap : Line.behindBlanks? ls = some (m, behind))
      (closes : FenceState.closedBy o.fence m.content = true)
      (rest : Repaired none behind ms n) : Repaired none (l :: ls) ms (n + 1)
  | secondOpener {l m : Line} {o : FenceOpener} {ls behind ms : List Line} {n : Nat}
      (opens : FenceOpener.ofLine? l.content = some o)
      (gap : Line.behindBlanks? ls = some (m, behind)) (again : o.isRepeatedBy m = true)
      (rest : Repaired (some o.fence) behind ms n) : Repaired none (l :: ls) (l :: ms) (n + 1)

theorem repairLines_skip (s : FenceState) (k : Nat) (ls : List Line) :
    repairLines s k ls = repairLines s 0 (ls.drop k) := by
  induction ls generalizing k with
  | nil => cases k <;> rfl
  | cons l ls ih =>
    cases k with
    | zero => rfl
    | succ k => rw [repairLines, ih, List.drop_succ_cons]

theorem repairLines_keep {s : FenceState} {l : Line}
    (quiet : s.isSome = true ∨ FenceOpener.ofLine? l.content = none) (ls : List Line) :
    repairLines s 0 (l :: ls) =
      (l :: (repairLines (s.next l.content) 0 ls).1, (repairLines (s.next l.content) 0 ls).2) := by
  rw [repairLines]
  rintro o rfl opens
  rw [opens] at quiet
  simp at quiet

theorem repairLines_open {l : Line} {o : FenceOpener}
    (opens : FenceOpener.ofLine? l.content = some o) (ls : List Line) :
    repairLines none 0 (l :: ls) =
      match FenceRepair.decide o ls with
      | .none => (l :: (repairLines (some o.fence) 0 ls).1, (repairLines (some o.fence) 0 ls).2)
      | .emptyBlock k =>
        ((repairLines none 0 (ls.drop k)).1, (repairLines none 0 (ls.drop k)).2 + 1)
      | .secondOpener k =>
        (l :: (repairLines (some o.fence) 0 (ls.drop k)).1,
          (repairLines (some o.fence) 0 (ls.drop k)).2 + 1) := by
  cases repair : FenceRepair.decide o ls with
  | none => simp only [repairLines, opens, repair]
  | emptyBlock k => simp only [repairLines, opens, repair]; rw [repairLines_skip]
  | secondOpener k => simp only [repairLines, opens, repair]; rw [repairLines_skip]

/-- Repair, line by line. -/
theorem repaired_repairLines (s : FenceState) (ls : List Line) :
    Repaired s ls (repairLines s 0 ls).1 (repairLines s 0 ls).2 := by
  induction length : ls.length using Nat.strongRecOn generalizing s ls with
  | ind n ih =>
    subst length
    cases ls with
    | nil => exact .nil s
    | cons l ls =>
      have shorter (k : Nat) : (ls.drop k).length < (l :: ls).length := by
        rw [List.length_drop, List.length_cons]
        omega
      have later (s : FenceState) (k : Nat) := ih (ls.drop k).length (shorter k) s _ rfl
      by_cases quiet : s.isSome = true ∨ FenceOpener.ofLine? l.content = none
      · rw [repairLines_keep quiet]
        exact .keep quiet (later _ 0)
      · obtain ⟨outside, opens⟩ := not_or.1 quiet
        obtain rfl : s = none := by simpa using outside
        obtain ⟨o, opens⟩ := Option.ne_none_iff_exists'.1 opens
        rw [repairLines_open opens]
        rcases FenceRepair.decide_cases o ls with
          ⟨none, clear⟩ | ⟨m, behind, gap, ⟨closes, k, repair, rfl⟩ | ⟨again, k, repair, rfl⟩⟩
        · rw [none]
          exact .opener opens clear (later _ 0)
        · rw [repair]
          exact .emptyBlock opens gap closes (later _ k)
        · rw [repair]
          exact .secondOpener opens gap again (later _ k)

theorem fencedLines_inside {f : Fence} {ls : List Line}
    (inside : ∀ l ∈ ls, FenceState.closedBy f l.content = false) (m : Line)
    (behind : List Line) :
    fencedLines (some f) (ls ++ m :: behind) =
      fencedLines (some f) ls ++ ⟨m, some f, FenceState.next (some f) m.content⟩ ::
        fencedLines (FenceState.next (some f) m.content) behind := by
  rw [fencedLines_append, run_content inside, fencedLines]

namespace Repaired

variable {s : FenceState} {ls ms : List Line} {n : Nat}

/-- **Repair takes code away, and nothing else changes.** -/
theorem thinned (repaired : Repaired s ls ms n) :
    FencedLine.Thinned (fencedLines s ls) (fencedLines s ms) := by
  have inside {f : Fence} {blanks : List Line} (blank : ∀ b ∈ blanks, b.isBlank = true) :
      ∀ b ∈ blanks, FenceState.closedBy f b.content = false :=
    fun b mem => FenceState.closedBy_of_blank (blank b mem)
  induction repaired with
  | nil s => exact .nil
  | keep quiet _ ih => exact .keep _ ih
  | opener opens _ _ ih =>
    simp only [fencedLines, FenceState.next_of_opens opens]
    exact .keep _ ih
  | emptyBlock opens gap closes _ ih =>
    obtain ⟨blanks, rfl, -, blank, -⟩ := Line.behindBlanks?_eq_some_iff.1 gap
    rw [fencedLines, FenceState.next_of_opens opens, fencedLines_inside (inside blank),
      FenceState.next_of_closes closes]
    exact .drop rfl (.drop_append (fun k => FenceState.isCode_of_mem_fencedLines (inside blank))
      (.drop rfl ih))
  | secondOpener opens gap again _ ih =>
    obtain ⟨blanks, rfl, -, blank, -⟩ := Line.behindBlanks?_eq_some_iff.1 gap
    rw [fencedLines, fencedLines, FenceState.next_of_opens opens, fencedLines_inside (inside blank),
      FenceState.next_of_stays (FenceOpener.closedBy_of_isRepeatedBy again)]
    exact .keep _ (.drop_append (fun k => FenceState.isCode_of_mem_fencedLines (inside blank))
      (.drop rfl ih))

/-- Every repair takes a line away, and without a repair all of them stay. -/
theorem count (repaired : Repaired s ls ms n) : ms.length + n ≤ ls.length ∧ (n = 0 → ms = ls) := by
  have shorter {ls behind : List Line} {m : Line} (gap : Line.behindBlanks? ls = some (m, behind)) :
      behind.length < ls.length := by
    obtain ⟨blanks, rfl, -, -, -⟩ := Line.behindBlanks?_eq_some_iff.1 gap
    rw [List.length_append, List.length_cons]
    omega
  induction repaired with
  | nil s => exact ⟨Nat.le_refl 0, fun _ => rfl⟩
  | keep _ _ ih | opener _ _ _ ih =>
    simp only [List.length_cons]
    exact ⟨by omega, fun none => by rw [ih.2 none]⟩
  | emptyBlock _ gap _ _ ih | secondOpener _ gap _ _ ih =>
    have := shorter gap
    simp only [List.length_cons]
    exact ⟨by omega, fun none => by omega⟩

end Repaired

/-- The lines of a text that is repaired. -/
theorem lines_repairFences (t : Text) :
    (t.repairFences).1.lines = (repairLines none 0 t.lines).1 := by
  have sub := (repaired_repairLines none t.lines).thinned.sublist.map (·.line)
  rw [map_line_fencedLines, map_line_fencedLines] at sub
  exact lines_join ((areLines_lines t).sublist sub)

/-- **What repair keeps is read as before.** -/
theorem thinned_repairFences (t : Text) : FencedLine.Thinned t.fenced (t.repairFences).1.fenced := by
  rw [fenced, fenced, lines_repairFences]
  exact (repaired_repairLines none t.lines).thinned

/-! ## How much is repaired -/

/-- **A text is left as it is exactly when no repair is counted.** -/
theorem repairFences_eq_self_iff (t : Text) : t.repairFences.1 = t ↔ t.repairFences.2 = 0 := by
  obtain ⟨short, same⟩ := (repaired_repairLines none t.lines).count
  have count : t.repairFences.2 = (repairLines none 0 t.lines).2 := rfl
  rw [← lines_repairFences, ← count] at short same
  constructor
  · intro stays
    rw [stays] at short
    omega
  · intro none
    rw [← join_lines t.repairFences.1, same none, join_lines]

/-- **Repair takes whole lines of code away, and nothing else.**  Every line that is kept stands as it
stood, in its order, with the same fences open before and behind it; and some line is gone exactly when a
repair is counted. -/
theorem repairFences_takes_code (t : Text) :
    (∃ choice : List (FencedLine × Bool), choice.map (·.1) = t.fenced ∧
        (∀ k ∈ choice, k.2 = false → k.1.isCode = true) ∧
        (choice.filter (·.2)).map (·.1) = t.repairFences.1.fenced) ∧
      (t.repairFences.1 = t ↔ t.repairFences.2 = 0) :=
  ⟨(thinned_repairFences t).exists_choice, repairFences_eq_self_iff t⟩

/-! ## Repairing twice -/

open FencedLine (AtOpeners)

/-- No block of a text begins with debris: no opener with a language is followed by blank lines and a
second opener of the same marks with a language, and no block holds blank lines only, and some. -/
def IsClear (t : Text) : Prop :=
  AtOpeners (fun o rest => o.hasDebris rest = false) t.fenced

instance (t : Text) : Decidable t.IsClear :=
  FencedLine.decidableAtOpeners _

/-- Where a second opener is dropped, no debris follows it. -/
def ClearsAtOnce (t : Text) : Prop :=
  AtOpeners (fun o rest => ∀ gap ∈ Line.behindBlanks? rest,
    o.isRepeatedBy gap.1 = true → o.hasDebris gap.2 = false) t.fenced

instance (t : Text) : Decidable t.ClearsAtOnce :=
  FencedLine.decidableAtOpeners _

namespace Repaired

variable {s : FenceState} {ls ms : List Line} {n : Nat}

/-- Inside of a block all lines stay, up to the one that closes it. -/
theorem inside {f : Fence} (repaired : Repaired (some f) ls ms n) :
    ms.takeWhile Line.isBlank = ls.takeWhile Line.isBlank ∧
      (ms.dropWhile Line.isBlank).head? = (ls.dropWhile Line.isBlank).head? := by
  induction ls generalizing ms with
  | nil => cases repaired; exact ⟨rfl, rfl⟩
  | cons l ls ih =>
    cases repaired with
    | keep _ rest =>
      cases blank : l.isBlank with
      | false => simp [blank]
      | true =>
        rw [FenceState.next_of_stays (FenceState.closedBy_of_blank blank)] at rest
        simpa [blank] using ih rest

/-- So a block begins with debris after a repair if it did so before. -/
theorem hasDebris_eq {o : FenceOpener} (repaired : Repaired (some o.fence) ls ms n) :
    o.hasDebris ms = o.hasDebris ls := by
  obtain ⟨blanks, first⟩ := repaired.inside
  rw [FenceOpener.hasDebris, Line.map_behindBlanks?_congr blanks first]
  rfl

/-- **What calls for a repair is debris.** -/
theorem eq_zero_iff (repaired : Repaired s ls ms n) :
    n = 0 ↔ AtOpeners (fun o rest => o.hasDebris rest = false) (fencedLines s ls) := by
  induction repaired with
  | nil s => exact iff_of_true rfl FencedLine.atOpeners_nil
  | keep quiet _ ih => rw [FencedLine.atOpeners_of_quiet quiet, ih]
  | opener opens clear _ ih => rw [FencedLine.atOpeners_of_opens opens, and_iff_right clear, ih]
  | emptyBlock opens gap closes _ _ | secondOpener opens gap again _ _ =>
    rw [FencedLine.atOpeners_of_opens opens, FenceOpener.hasDebris_of_behindBlanks gap]
    simp [*]

/-- **What a repair leaves is clear** exactly when no debris follows an opener that it drops. -/
theorem clear_iff (repaired : Repaired s ls ms n) :
    AtOpeners (fun o rest => o.hasDebris rest = false) (fencedLines s ms) ↔
      AtOpeners (fun o rest => ∀ gap ∈ Line.behindBlanks? rest,
        o.isRepeatedBy gap.1 = true → o.hasDebris gap.2 = false) (fencedLines s ls) := by
  induction repaired with
  | nil s => exact iff_of_true FencedLine.atOpeners_nil FencedLine.atOpeners_nil
  | keep quiet _ ih => rw [FencedLine.atOpeners_of_quiet quiet, FencedLine.atOpeners_of_quiet quiet, ih]
  | @opener l o ls ms n opens clear rest ih =>
    have once : ∀ gap ∈ Line.behindBlanks? ls, o.isRepeatedBy gap.1 = true → o.hasDebris gap.2 = false := by
      intro gap found again
      rw [FenceOpener.hasDebris_of_behindBlanks found, again, Bool.or_true] at clear
      cases clear
    rw [FencedLine.atOpeners_of_opens opens, FencedLine.atOpeners_of_opens opens, rest.hasDebris_eq,
      and_iff_right clear, and_iff_right once, ih]
  | @emptyBlock l m o ls behind ms n opens gap closes _ ih =>
    have once : ∀ gap ∈ Line.behindBlanks? ls, o.isRepeatedBy gap.1 = true → o.hasDebris gap.2 = false := by
      rw [gap]
      rintro _ ⟨⟩ again
      rw [FenceOpener.closedBy_of_isRepeatedBy again] at closes
      cases closes
    obtain ⟨blanks, rfl, -, blank, -⟩ := Line.behindBlanks?_eq_some_iff.1 gap
    rw [FencedLine.atOpeners_of_opens opens, and_iff_right once, FencedLine.atOpeners_closed
      (fun b mem => FenceState.closedBy_of_blank (blank b mem)) closes, ih]
  | @secondOpener l m o ls behind ms n opens gap again rest ih =>
    have once : (∀ gap ∈ Line.behindBlanks? ls, o.isRepeatedBy gap.1 = true → o.hasDebris gap.2 = false) ↔
        o.hasDebris behind = false := by
      rw [gap]
      simp [again]
    obtain ⟨blanks, rfl, -, blank, -⟩ := Line.behindBlanks?_eq_some_iff.1 gap
    rw [FencedLine.atOpeners_of_opens opens, FencedLine.atOpeners_of_opens opens, rest.hasDebris_eq, once, ih,
      FencedLine.atOpeners_inside fun b mem => FenceState.closedBy_of_blank (blank b mem),
      FencedLine.atOpeners_of_quiet (.inl rfl),
      FenceState.next_of_stays (FenceOpener.closedBy_of_isRepeatedBy again)]

end Repaired

/-- A text is left as it is exactly when it is clear. -/
theorem repairFences_eq_zero_iff (t : Text) : t.repairFences.2 = 0 ↔ t.IsClear :=
  (repaired_repairLines none t.lines).eq_zero_iff

/-- **When a second repair finds nothing to do**: when the first one leaves a clear text, which is exactly
when no debris follows an opener that it drops. -/
theorem repairFences_repairFences_iff (t : Text) :
    (t.repairFences.1.repairFences = (t.repairFences.1, 0) ↔ t.repairFences.1.IsClear) ∧
      (t.repairFences.1.IsClear ↔ t.ClearsAtOnce) := by
  constructor
  · rw [← repairFences_eq_zero_iff]
    refine ⟨fun same => congrArg Prod.snd same, fun none => ?_⟩
    exact Prod.ext ((repairFences_eq_self_iff _).2 none) none
  · rw [IsClear, fenced, lines_repairFences]
    exact (repaired_repairLines none t.lines).clear_iff

/-- **A third opener**, behind a second one that is dropped, is second to the one that is kept. -/
theorem not_repairFences_repairFences_thirdOpener :
    ¬ ∀ t : Text, t.repairFences.1.repairFences = (t.repairFences.1, 0) := by
  intro all
  have same := all "\x60\x60\x60cpp\n\n\x60\x60\x60cpp\n\n\x60\x60\x60cpp\nint x;\n\x60\x60\x60\n".toList
  revert same
  decide +kernel

end Text
end MdxPress
