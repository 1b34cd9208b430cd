import MdxPress.Proofs.Mdx.Escape
import MdxPress.Proofs.Text.Line

/-!
# Escaped bodies are settled

Classifying an escaped body gives every line the class it had before, and leaves the same behind.
A line of prose is escaped only where no component is open and no tag pending, and there it leaves
no trace in the state; so the classes before and after run side by side (`classifyLines_escaped`).

`escapeBraces_settled` is the result: no stray brace is left, and a second run changes nothing and
reports the same.
-/

namespace MdxPress

open Brace

/-! ## Tags of an escaped line -/

namespace Tag

/-- A character with whether it is code. -/
def mark (k : Char × Cover) : Char × Bool :=
  (k.1, k.2.isCode)

theorem name?_escaped {t u : Text} (h : Escapes t u) (noName : name? t = none) :
    name? u = none := by
  cases h with
  | nil => rfl
  | same c rest =>
    by_cases capital : isCapital c
    · simp [name?, capital] at noName
    · simp [name?, capital]
  | left rest | right rest => rfl

theorem ofStart?_of_not_slash {t : Text} (noSlash : t.head? ≠ some '/') :
    ofStart? ('<' :: t) = (name? t).map fun n => (false, n) := by
  rw [ofStart?]
  rintro r rfl
  exact noSlash rfl

theorem ofStart?_escaped {t u : Text} (h : Escapes t u) (noTag : ofStart? ('<' :: t) = none) :
    ofStart? ('<' :: u) = none := by
  cases h with
  | nil | left rest | right rest => rfl
  | same c rest =>
    by_cases slash : c = '/'
    · subst slash
      simp only [ofStart?, Option.map_eq_none_iff] at noTag ⊢
      exact name?_escaped rest noTag
    · rw [ofStart?_of_not_slash (by simpa using slash), Option.map_eq_none_iff] at noTag ⊢
      exact name?_escaped (.same c rest) noTag

theorem escapes_settle (ks : List (Char × Cover)) :
    Escapes (ks.map (·.1)) ((ks.flatMap settle).map (·.1)) := by
  induction ks with
  | nil => exact .nil
  | cons k ks ih =>
    rw [List.flatMap_cons, List.map_append, List.map_cons]
    rcases settle_cases k with kept | ⟨rfl, -⟩ | ⟨rfl, -⟩
    · rw [kept]; exact .same _ ih
    · exact .left ih
    · exact .right ih

/-- A stretch without angle brackets begins no tag. -/
theorem scan_append {offset : Nat} {ks : List (Char × Bool)} (noAngle : ∀ k ∈ ks, k.1 ≠ '<')
    (rest : List (Char × Bool)) : scan offset (ks ++ rest) = scan (offset + ks.length) rest := by
  induction ks generalizing offset with
  | nil => rfl
  | cons k ks ih =>
    have first : k.1 ≠ '<' := noAngle k (.head _)
    rw [List.cons_append, scan]
    simp only [bne_iff_ne, ne_eq, first, not_false_eq_true, Bool.or_eq_true, or_true, if_true]
    rw [ih fun k mem => noAngle k (.tail _ mem), List.length_cons, Nat.add_assoc,
      Nat.add_comm 1]

theorem scan_escaped {offset offset' : Nat} {ks : List (Char × Cover)}
    (noTag : scan offset (ks.map mark) = []) : scan offset' ((ks.flatMap settle).map mark) = [] := by
  induction ks generalizing offset offset' with
  | nil => rfl
  | cons k ks ih =>
    rw [List.map_cons, mark, scan] at noTag
    split at noTag
    · cases noTag
    · rename_i closed
      rw [List.flatMap_cons, List.map_append]
      rcases settle_cases k with kept | ⟨rfl, -⟩ | ⟨rfl, -⟩
      · rw [kept, List.map_singleton, List.singleton_append, mark, scan]
        have still : (if (k.2.isCode || k.1 != '<') = true then none
            else ofStart? (k.1 :: ((ks.flatMap settle).map mark).map (·.1))) = none := by
          by_cases inert : (k.2.isCode || k.1 != '<') = true
          · rw [if_pos inert]
          · rw [if_neg inert, List.map_map] at closed ⊢
            obtain ⟨-, angle⟩ : k.2.isCode = false ∧ k.1 = '<' := by simpa using inert
            rw [angle] at closed ⊢
            exact ofStart?_escaped (escapes_settle ks) closed
        rw [still]
        exact ih noTag
      · rw [scan_append (by decide)]; exact ih noTag
      · rw [scan_append (by decide)]; exact ih noTag

/-- A line without tags has none when it is escaped. -/
theorem ofLine_escapeLine {line : Text} (noTag : ofLine line = []) :
    ofLine (escapeLine line) = [] := by
  rw [ofLine, codeMask_eq_covered] at noTag ⊢
  rw [escapeLine_eq_escapeFrom, covered_escapeFrom]
  exact scan_escaped noTag

end Tag

/-! ## The class of an escaped line -/

namespace MdxState

/-- A line that is prose where nothing is open. -/
structure IsPlain (line : Text) : Prop where
  noFence : FenceOpener.ofLine? line = none
  noTag : Tag.ofLine line = []
  notExempt : isExempt line = false

/-- Nothing is open: no fence, no component and no tag. -/
structure IsQuiet (s : MdxState) : Prop where
  fence : s.fence = none
  stack : s.stack = []
  pending : s.pending = none

theorem IsPlain.escapeLine {line : Text} (plain : IsPlain line) : IsPlain (escapeLine line) where
  noFence := (escapes_escapeLine line).opener_eq_none plain.noFence
  noTag := Tag.ofLine_escapeLine plain.noTag
  notExempt := (escapes_escapeLine line).isExempt_eq_false plain.notExempt

/-- Where nothing is open, a plain line is prose and changes nothing. -/
theorem IsQuiet.advance {s : MdxState} {line : Text} (quiet : s.IsQuiet) (plain : IsPlain line)
    (lineNo : Nat) : s.advance line lineNo = (.prose, s) := by
  rcases s with ⟨fence, stack, pending, fences⟩
  obtain ⟨rfl, rfl, rfl⟩ := quiet
  simp [MdxState.advance, FenceState.covers, FenceState.next, plain.noFence, advanceProse,
    plain.noTag, tags, classOf, plain.notExempt]

theorem touched_of_tag {s : MdxState} {line : Text} {lineNo : Nat} (t : Tag) (ts : List Tag) :
    (s.tags line lineNo 0 (t :: ts)).2 = true := by
  rw [tags, if_neg (Nat.not_lt_zero _)]
  dsimp only
  split <;> rfl

/-- A line is prose only where nothing is open, and if it is plain. -/
theorem isPlain_of_prose {s : MdxState} {line : Text} {lineNo : Nat}
    (prose : (s.advance line lineNo).1 = .prose) : s.IsQuiet ∧ IsPlain line := by
  rcases s with ⟨fence, stack, pending, fences⟩
  rw [MdxState.advance] at prose
  split at prose
  · cases prose
  rename_i outside
  obtain ⟨fenceClosed, noFence⟩ :
      fence = none ∧ (FenceState.next fence line).isSome = false := by
    simpa [FenceState.covers] using outside
  subst fenceClosed
  simp only [FenceState.next, Option.isSome_map, Option.isSome_eq_false_iff,
    Option.isNone_iff_eq_none] at noFence
  cases pending with
  | some p =>
    dsimp only [advanceProse] at prose
    cases found : tagEnd? line <;> simp [found] at prose
  | none =>
    rw [advanceProse] at prose
    cases tags : Tag.ofLine line with
    | cons t ts =>
      simp only [tags] at prose
      simp [classOf, touched_of_tag] at prose
    | nil =>
      simp only [tags, MdxState.tags, classOf, FenceState.next, noFence, Option.map_none] at prose
      cases stack with
      | cons c cs => simp at prose
      | nil =>
        cases exempt : isExempt line with
        | true => simp [exempt] at prose
        | false => exact ⟨⟨rfl, rfl, rfl⟩, noFence, tags, exempt⟩

/-- **Escaping a line does not change its class, nor what it leaves behind.** -/
theorem advance_escapeLine {s : MdxState} {line : Text} {lineNo : Nat}
    (prose : (s.advance line lineNo).1 = .prose) :
    s.advance (escapeLine line) lineNo = s.advance line lineNo := by
  obtain ⟨quiet, plain⟩ := isPlain_of_prose prose
  rw [quiet.advance plain, quiet.advance plain.escapeLine]

end MdxState

/-! ## The run over the lines -/

/-- A classified line as escaping leaves it, with its class. -/
def Brace.settleLine (k : Line × LineClass) : Line × LineClass :=
  (escapeClassified k, k.2)

/-- **The runs side by side.**  From any state, the escaped lines have the classes of the lines, and
the state behind them is the same. -/
theorem classifyLines_escaped (s : MdxState) (lineNo : Nat) (ls : List Line) :
    classifyLines s lineNo ((classifyLines s lineNo ls).1.map escapeClassified) =
      ((classifyLines s lineNo ls).1.map settleLine, (classifyLines s lineNo ls).2) := by
  induction ls generalizing s lineNo with
  | nil => rfl
  | cons l ls ih =>
    have same : s.advance (escapeClassified (l, (s.advance l.content lineNo).1)).content lineNo =
        s.advance l.content lineNo := by
      cases class_ : (s.advance l.content lineNo).1 with
      | prose => exact MdxState.advance_escapeLine class_
      | fence | component | exempt => rfl
    simp only [classifyLines, List.map_cons, same, ih, settleLine]

theorem classifyLines_lines (s : MdxState) (lineNo : Nat) (ls : List Line) :
    (classifyLines s lineNo ls).1.map (·.1) = ls := by
  induction ls generalizing s lineNo with
  | nil => rfl
  | cons l ls ih => simp [classifyLines, ih]

/-! ## The settled body -/

theorem isWhole_escapeLine {l : Line} (whole : l.IsWhole) :
    ({ l with content := escapeLine l.content } : Line).IsWhole where
  noFeed := fun mem => whole.noFeed
    (((escapes_escapeLine l.content).mem_iff (by decide) (by decide)).1 mem)
  noReturn := fun lf last => whole.noReturn lf
    (((escapes_escapeLine l.content).getLast?_eq (by decide) (by decide)).1 last)

/-- The lines of the escaped body are the escaped lines. -/
theorem lines_escapeBraces (body : Text) :
    (escapeBraces body).text.lines = body.classified.1.map escapeClassified := by
  have lines : body.classified.1.map (·.1) = body.lines := classifyLines_lines _ _ _
  have whole : Line.AreLines (body.classified.1.map (·.1)) := lines ▸ Text.areLines_lines body
  refine Text.lines_join (whole.map fun k _ first => ?_)
  rcases k with ⟨l, c⟩
  cases c with
  | fence | component | exempt => exact ⟨first, rfl, id⟩
  | prose =>
    refine ⟨isWhole_escapeLine first, rfl, fun filled empty => filled ?_⟩
    have shorter := (escapes_escapeLine l.content).length_le
    rw [show escapeLine l.content = [] from empty] at shorter
    exact List.eq_nil_of_length_eq_zero (Nat.le_zero.1 shorter)

/-- **Classified anew**, the escaped lines have the classes of the lines. -/
theorem classified_escapeBraces (body : Text) :
    (escapeBraces body).text.classified =
      (body.classified.1.map settleLine, body.classified.2) := by
  rw [Text.classified, lines_escapeBraces]
  exact classifyLines_escaped _ _ _

/-- A settled line is escaped already. -/
theorem escapeClassified_settleLine (k : Line × LineClass) :
    escapeClassified (settleLine k) = escapeClassified k := by
  rcases k with ⟨l, c⟩
  cases c with
  | fence | component | exempt => rfl
  | prose => simp [settleLine, escapeClassified, escapeLine_escapeLine]

theorem strays_settleLine {k : Line × LineClass} (prose : k.2 = .prose) :
    strays (settleLine k).1.content = 0 := by
  rcases k with ⟨l, c⟩
  obtain rfl : c = .prose := prose
  exact strays_escapeLine l.content

/-- No stray brace is left in an escaped body. -/
theorem countProseBraces_escapeBraces (body : Text) :
    countProseBraces (escapeBraces body).text = 0 := by
  rw [countProseBraces, classified_escapeBraces]
  refine total_eq_zero fun settled mem => ?_
  obtain ⟨k, -, rfl⟩ := List.mem_map.1 mem
  by_cases prose : k.2 = .prose
  · simp [strays_settleLine prose]
  · simp [settleLine, prose]

theorem text_escapeBraces_escapeBraces (body : Text) :
    (escapeBraces (escapeBraces body).text).text = (escapeBraces body).text := by
  have again := classified_escapeBraces body
  calc Line.join ((escapeBraces body).text.classified.1.map escapeClassified)
      = Line.join ((body.classified.1.map settleLine).map escapeClassified) := by rw [again]
    _ = Line.join (body.classified.1.map escapeClassified) := by
      rw [List.map_map]
      exact congrArg Line.join (List.map_congr_left fun k _ => escapeClassified_settleLine k)

theorem escapedLines_escapeBraces (body : Text) :
    (escapeBraces (escapeBraces body).text).report.escapedLines = 0 := by
  have again := classified_escapeBraces body
  show (escapeBraces body).text.classified.1.countP _ = 0
  rw [again, List.countP_eq_zero]
  intro settled mem
  obtain ⟨k, -, rfl⟩ := List.mem_map.1 mem
  by_cases prose : k.2 = .prose
  · simp [strays_settleLine prose]
  · simp [settleLine, prose]

/-- **An escaped body is settled.**  It holds no stray brace, and escaping it again changes no line
and reports the same fences and the same components left open, at the same places. -/
theorem escapeBraces_settled (body : Text) :
    (escapeBraces body).report.remaining = 0 ∧
      countProseBraces (escapeBraces body).text = 0 ∧
      (escapeBraces (escapeBraces body).text).text = (escapeBraces body).text ∧
      (escapeBraces (escapeBraces body).text).report.escapedLines = 0 ∧
      (escapeBraces (escapeBraces body).text).report.fences = (escapeBraces body).report.fences ∧
      (escapeBraces (escapeBraces body).text).report.unclosed =
        (escapeBraces body).report.unclosed ∧
      (escapeBraces (escapeBraces body).text).diagnostics = (escapeBraces body).diagnostics := by
  have none := countProseBraces_escapeBraces body
  have state : (escapeBraces body).text.classified.2 = body.classified.2 := by
    rw [classified_escapeBraces]
  refine ⟨none, none, text_escapeBraces_escapeBraces body, escapedLines_escapeBraces body,
    ?_, ?_, ?_⟩
  · exact congrArg MdxState.fences state
  · exact congrArg (fun s => s.unclosed.map (·.name)) state
  · exact congrArg (fun s => s.unclosed.map (·.diagnostic)) state

end MdxPress
