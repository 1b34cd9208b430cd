import MdxPress.Mdx.Component
import MdxPress.Proofs.Fence.Stands
import MdxPress.Proofs.Mdx.Opened
import MdxPress.Proofs.Mdx.Settled

/-!
Written components, read line by line.  A run over lines is cut wherever a line ends, and the lines
that a component is written with have one effect each: they open it, close it or stand in it.  A tag is
cut where it does not end.

* `TagEndState.along` is the state behind a stretch in which the search for the end of a tag does not
  stop, `TagEndState.find?_append` goes on behind such a stretch, and `along_plain`, `along_quoted` and
  `along_value` are the stretches that a written tag is made of;
* `MdxState.Carries` is a run that leaves every line as it is; it composes along the lines;
* `MdxState.carries_idle` is a run inside of a component, over lines that neither open nor close
  one;
* `MdxState.Carries.escapeBraces` is what such a run says about the whole body.
-/

namespace MdxPress

/-! ## Stretches of a tag -/

namespace TagEndState

/-- The state behind a stretch of a tag; none, when the tag ends in it. -/
def along : TagEndState → Text → Option TagEndState
  | s, [] => some s
  | s, c :: r => if s.isEnd c then none else along (s.next c) r

theorem along_append (s : TagEndState) (t u : Text) :
    s.along (t ++ u) = (s.along t).bind fun s => s.along u := by
  induction t generalizing s with
  | nil => rfl
  | cons c t ih =>
    rw [List.cons_append, along, along]
    split
    · rfl
    · exact ih (s.next c)

/-- The tag ends at once, or behind the first character. -/
theorem find?_cons_eq_some {s : TagEndState} {c : Char} {t : Text} {n : Nat} {selfCloses : Bool}
    (ends : s.find? (c :: t) = some (n, selfCloses)) :
    (s.isEnd c = true ∧ n = 1) ∨
      (s.isEnd c = false ∧ ∃ m, n = m + 1 ∧ (s.next c).find? t = some (m, selfCloses)) := by
  rw [find?] at ends
  cases stops : s.isEnd c with
  | true =>
    rw [if_pos stops] at ends
    exact .inl ⟨rfl, (Prod.mk.inj (Option.some.inj ends)).1.symm⟩
  | false =>
    rw [if_neg (by simp [stops])] at ends
    obtain ⟨⟨m, sign⟩, found, same⟩ := Option.map_eq_some_iff.1 ends
    obtain ⟨rfl, rfl⟩ := Prod.mk.inj same
    exact .inr ⟨rfl, m, rfl, found⟩

/-- The search goes on behind a stretch in which the tag does not end. -/
theorem find?_append {s s' : TagEndState} {t : Text} (stays : s.along t = some s') (u : Text) :
    s.find? (t ++ u) = (s'.find? u).map fun p => (p.1 + t.length, p.2) := by
  induction t generalizing s with
  | nil =>
    cases stays
    simp
  | cons c t ih =>
    rw [along] at stays
    split at stays
    · cases stays
    · rename_i more
      rw [List.cons_append, find?, if_neg more, ih stays, Option.map_map]
      simp only [Function.comp_def, List.length_cons, Nat.add_assoc]

theorem find?_eq_none {s s' : TagEndState} {t : Text} (stays : s.along t = some s') :
    s.find? t = none := by
  have behind := find?_append stays []
  rwa [List.append_nil] at behind

/-- Outside of quotation marks and braces, a stretch without such marks and without `>` leaves the
search there. -/
theorem along_plain {t : Text} (plain : ∀ c ∈ t, c ∉ ['>', '"', '\'', '\x7b', '\x7d'])
    (last : Option Char) : ∃ last', along ⟨none, 0, last⟩ t = some ⟨none, 0, last'⟩ := by
  induction t generalizing last with
  | nil => exact ⟨last, rfl⟩
  | cons c t ih =>
    have inert : c ≠ '>' ∧ c ≠ '"' ∧ c ≠ '\'' ∧ c ≠ '{' ∧ c ≠ '}' := by
      simpa using plain c (.head _)
    obtain ⟨angle, double, single, left, right⟩ := inert
    have more : isEnd ⟨none, 0, last⟩ c = false := by simp [isEnd, angle]
    have step : next ⟨none, 0, last⟩ c = ⟨none, 0, if isBlank c then last else some c⟩ := by
      simp [next, double, single, left, right]
    rw [along, more, step]
    exact ih (fun d mem => plain d (.tail _ mem)) _

/-- Inside of quotation marks the search goes on up to the next such mark. -/
theorem along_quoted {q : Char} {t : Text} (open_ : q ∉ t) (depth : Nat) (last : Option Char) :
    ∃ last', along ⟨some q, depth, last⟩ t = some ⟨some q, depth, last'⟩ := by
  induction t generalizing last with
  | nil => exact ⟨last, rfl⟩
  | cons c t ih =>
    have inner : c ≠ q := fun same => open_ (same ▸ .head _)
    have more : isEnd ⟨some q, depth, last⟩ c = false := by simp [isEnd]
    have step : next ⟨some q, depth, last⟩ c = ⟨some q, depth, if isBlank c then last else some c⟩ := by
      simp [next, inner]
    rw [along, more, step]
    exact ih (fun mem => open_ (.tail _ mem)) _

/-- **A quoted value** behind a plain stretch is passed over as a whole. -/
theorem along_value {before value : Text}
    (plain : ∀ c ∈ before, c ∉ ['>', '"', '\'', '\x7b', '\x7d']) (noQuote : '"' ∉ value)
    (last : Option Char) :
    along ⟨none, 0, last⟩ (before ++ '"' :: (value ++ ['"'])) = some ⟨none, 0, some '"'⟩ := by
  obtain ⟨l, outside⟩ := along_plain plain last
  obtain ⟨m, inside⟩ := along_quoted noQuote 0 (some '"')
  have opens : along ⟨none, 0, l⟩ ('"' :: (value ++ ['"'])) =
      along ⟨some '"', 0, some '"'⟩ (value ++ ['"']) := rfl
  rw [along_append, outside, Option.bind_some, opens, along_append, inside]
  rfl

end TagEndState

/-- What stands in a text when a character is replaced: what is put in, and the other characters. -/
theorem Text.mem_replaceChar {old c : Char} {new t : Text}
    (mem : c ∈ replaceChar old new t) : c ∈ new ∨ (c ∈ t ∧ c ≠ old) := by
  obtain ⟨d, stands, written⟩ := List.mem_flatMap.1 mem
  split at written
  · exact .inl written
  · rename_i other
    obtain rfl : c = d := List.mem_singleton.1 written
    exact .inr ⟨stands, other⟩

open Brace

/-! ## Lines and what they hold -/

theorem classifyLines_append (s : MdxState) (lineNo : Nat) (ls ms : List Line) :
    classifyLines s lineNo (ls ++ ms) =
      ((classifyLines s lineNo ls).1 ++
          (classifyLines (classifyLines s lineNo ls).2 (lineNo + ls.length) ms).1,
        (classifyLines (classifyLines s lineNo ls).2 (lineNo + ls.length) ms).2) := by
  induction ls generalizing s lineNo with
  | nil => rfl
  | cons l ls ih =>
    simp only [List.cons_append, classifyLines, ih, List.length_cons, Nat.add_assoc,
      Nat.add_comm 1]

/-- The state behind lines does not depend on how they end. -/
theorem classifyLines_congr {ls ms : List Line} (same : ls.map (·.content) = ms.map (·.content))
    (s : MdxState) (lineNo : Nat) : (classifyLines s lineNo ls).2 = (classifyLines s lineNo ms).2 := by
  induction ls generalizing s lineNo ms with
  | nil => rw [List.map_eq_nil_iff.1 same.symm]
  | cons l ls ih =>
    obtain ⟨m, ms, rfl, first, rest⟩ := List.map_eq_cons_iff.1 same.symm
    rw [classifyLines, classifyLines, first]
    exact ih rest.symm _ _

theorem FenceState.run_congr {ls ms : List Line} (same : ls.map (·.content) = ms.map (·.content))
    (s : FenceState) : s.run ls = s.run ms := by
  have contents (ks : List Line) : s.run ks = (ks.map (·.content)).foldl FenceState.next s :=
    (List.foldl_map ..).symm
  rw [contents, contents, same]

/-- Which lines are code does not depend on how they end. -/
theorem forall_fencedLines_congr {ls ms : List Line} {P : Text → Prop}
    (same : ls.map (·.content) = ms.map (·.content)) {s : FenceState}
    (prose : ∀ l ∈ fencedLines s ls, l.isCode = false → P l.line.content) :
    ∀ l ∈ fencedLines s ms, l.isCode = false → P l.line.content := by
  induction ls generalizing s ms with
  | nil =>
    rw [List.map_eq_nil_iff.1 same.symm]
    nofun
  | cons l ls ih =>
    obtain ⟨m, ms, rfl, first, rest⟩ := List.map_eq_cons_iff.1 same.symm
    obtain ⟨here, later⟩ := List.forall_mem_cons.1 prose
    rw [fencedLines, first]
    exact List.forall_mem_cons.2 ⟨by rw [first]; exact here, ih rest.symm later⟩

/-- A line feed behind a text that shows something at its end does not change what lines hold. -/
theorem Text.map_content_append_feed {t : Text} {c : Char} (last : t.getLast? = some c)
    (noFeed : c ≠ '\n') (noReturn : c ≠ '\r') :
    (t ++ ['\n']).lines.map (·.content) = t.lines.map (·.content) := by
  obtain ⟨ls, u, lines, ended⟩ := lines_append_feed last noFeed noReturn
  rw [lines, ended, List.map_append, List.map_append]
  rfl

theorem Text.joinWith_concat_feed (ts : List Text) (last : Text) :
    joinWith ['\n'] (ts ++ [last]) = ofLines ts ++ last := by
  induction ts with
  | nil => rfl
  | cons t ts ih =>
    rw [List.cons_append, joinWith_cons _ _ (by simp), ih, ofLines_cons]
    simp

/-- Texts with line feeds between them are cut at those. -/
theorem Text.lines_joinWith_feed (ts : List Text) (last : Text) :
    (joinWith ['\n'] (ts ++ [last])).lines =
      (ts.flatMap fun t => Text.lines (t ++ ['\n'])) ++ last.lines := by
  rw [joinWith_concat_feed]
  induction ts with
  | nil => rfl
  | cons t ts ih =>
    have cut : ofLines (t :: ts) ++ last = (t ++ ['\n']) ++ (ofLines ts ++ last) := by simp
    rw [cut, lines_append (endsLine_append_feed t).allEnded, ih, List.flatMap_cons,
      List.append_assoc]

/-- A line without angle brackets has no tags. -/
theorem Tag.ofLine_eq_nil {line : Text} (noAngle : '<' ∉ line) : ofLine line = [] := by
  have inert : ∀ k ∈ line.codeMask, k.1 ≠ '<' := by
    intro k mem angle
    have stands : k.1 ∈ line.codeMask.map (·.1) := List.mem_map_of_mem mem
    rw [map_fst_codeMask, angle] at stands
    exact noAngle stands
  have scanned : scan 0 (line.codeMask ++ []) = [] := scan_append inert []
  rwa [List.append_nil] at scanned

namespace MdxState

/-! ## Runs that leave the lines as they are -/

/-- From `s` on, lines of which the first has the number `lineNo` lead to `t`, and escaping leaves
every one of them as it is. -/
structure Carries (lineNo : Nat) (ls : List Line) (s t : MdxState) : Prop where
  state : (classifyLines s lineNo ls).2 = t
  kept : ∀ k ∈ (classifyLines s lineNo ls).1, escapeClassified k = k.1

variable {s t u : MdxState} {lineNo : Nat}

theorem Carries.nil : Carries lineNo [] s s :=
  ⟨rfl, nofun⟩

theorem Carries.append {ls ms : List Line} (left : Carries lineNo ls s t)
    (right : Carries (lineNo + ls.length) ms t u) : Carries lineNo (ls ++ ms) s u := by
  obtain ⟨rfl, leftKept⟩ := left
  constructor
  · rw [classifyLines_append]
    exact right.state
  · rw [classifyLines_append]
    exact List.forall_mem_append.2 ⟨leftKept, right.kept⟩

theorem Carries.line {l : Line} {c : LineClass} (step : s.advance l.content lineNo = (c, t))
    (kept : escapeClassified (l, c) = l) : Carries lineNo [l] s t := by
  constructor
  · rw [classifyLines, step]
    rfl
  · rw [classifyLines, step]
    exact List.forall_mem_singleton.2 kept

theorem Carries.cons {l : Line} {ls : List Line} {c : LineClass}
    (step : s.advance l.content lineNo = (c, t)) (kept : escapeClassified (l, c) = l)
    (rest : Carries (lineNo + 1) ls t u) : Carries lineNo (l :: ls) s u :=
  (Carries.line step kept).append rest

/-- **A body that is carried** is left as it is, and what is open at its end is reported. -/
theorem Carries.escapeBraces {body : Text} (carried : Carries 1 body.lines .start t) :
    (escapeBraces body).text = body ∧ (escapeBraces body).unclosed = t.unclosed := by
  obtain ⟨state, kept⟩ := carried
  have lines : body.classified.1.map (·.1) = body.lines := classifyLines_lines _ _ _
  constructor
  · calc (MdxPress.escapeBraces body).text
        = Line.join (body.classified.1.map escapeClassified) := rfl
      _ = Line.join (body.classified.1.map (·.1)) :=
        congrArg Line.join (List.map_congr_left kept)
      _ = body := by rw [lines, Text.join_lines]
  · exact congrArg unclosed state

/-! ## Lines outside of fences -/

variable {line : Text}

/-- Outside of fences, a line that opens none is read by its tags. -/
theorem advance_of_noFence (outside : s.fence = none) (prose : FenceOpener.ofLine? line = none) :
    s.advance line lineNo = s.advanceProse line lineNo := by
  rcases s with ⟨fence, stack, pending, fences⟩
  obtain rfl : fence = none := outside
  simp [advance, FenceState.covers, FenceState.next, prose]

/-- Where no tag is pending, a line is read from its first tag on. -/
theorem advanceProse_of_settled (settled : s.pending = none) :
    s.advanceProse line lineNo =
      ((s.tags line lineNo 0 (Tag.ofLine line)).1.classOf
          (s.tags line lineNo 0 (Tag.ofLine line)).2 line,
        (s.tags line lineNo 0 (Tag.ofLine line)).1) := by
  rw [advanceProse]
  simp only [settled]

/-- Where no tag is pending, a line without tags changes nothing. -/
theorem advanceProse_of_noTag (settled : s.pending = none) (noTag : Tag.ofLine line = []) :
    s.advanceProse line lineNo = (s.classOf false line, s) := by
  rw [advanceProse_of_settled settled, noTag]
  rfl

/-- Tags that an earlier one covers are not read. -/
theorem tags_covered {resume : Nat} {ts : List Tag} (covered : ∀ t ∈ ts, t.offset < resume) :
    s.tags line lineNo resume ts = (s, false) := by
  induction ts with
  | nil => rfl
  | cons t ts ih =>
    rw [tags, if_pos (covered t (.head _))]
    exact ih fun t mem => covered t (.tail _ mem)

/-- An empty line changes nothing. -/
theorem advance_blank (outside : s.fence = none) (settled : s.pending = none) :
    s.advance [] lineNo = (s.classOf false [], s) := by
  rw [advance_of_noFence outside rfl, advanceProse_of_noTag settled rfl]

/-- An empty line is left as it is, whatever its class. -/
theorem escapeClassified_blank (e : Ending) (c : LineClass) : escapeClassified (⟨[], e⟩, c) = ⟨[], e⟩ := by
  cases c <;> rfl

/-! ## Lines inside of a component -/

/-- A line that neither opens nor closes a component, as it is read from `s`. -/
def Idle (s : MdxState) (line : Text) : Prop :=
  if s.pending.isSome then tagEnd? line = none else Tag.ofLine line = []

/-- Inside of a component, an idle line outside of code is left as it is and changes nothing. -/
theorem advanceProse_idle (busy : s.unclosed ≠ []) (idle : s.Idle line) :
    s.advanceProse line lineNo = (.component, s) := by
  rcases s with ⟨fence, stack, pending, fences⟩
  cases pending with
  | some p =>
    have open_ : tagEnd? line = none := idle
    simp [advanceProse, open_]
  | none =>
    have noTag : Tag.ofLine line = [] := idle
    have inner : stack ≠ [] := by simpa [unclosed] using busy
    rw [advanceProse_of_noTag rfl noTag]
    simp [classOf, inner]

/-- **A run inside of a component**: over lines that are idle outside of code, only what is fenced
changes, and no line is escaped. -/
theorem carries_idle {ls : List Line} (lineNo : Nat) (busy : s.unclosed ≠ [])
    (idle : ∀ l ∈ fencedLines s.fence ls, l.isCode = false → s.Idle l.line.content) :
    ∃ fences, Carries lineNo ls s { s with fence := s.fence.run ls, fences := fences } := by
  induction ls generalizing s lineNo with
  | nil => exact ⟨s.fences, .nil⟩
  | cons l ls ih =>
    obtain ⟨first, rest⟩ := List.forall_mem_cons.1 idle
    -- The line is code, or idle: either way it changes at most what is fenced.
    obtain ⟨c, fences, step, kept⟩ : ∃ c fences,
        s.advance l.content lineNo =
            (c, { s with fence := s.fence.next l.content, fences := fences }) ∧
          escapeClassified (l, c) = l := by
      rw [advance]
      split
      · exact ⟨.fence, _, rfl, rfl⟩
      · rename_i outside
        have prose : FencedLine.isCode ⟨l, s.fence, s.fence.next l.content⟩ = false := by
          simpa [FenceState.covers, FencedLine.isCode] using outside
        exact ⟨.component, s.fences, advanceProse_idle busy (first prose), rfl⟩
    obtain ⟨more, carried⟩ := ih (s := { s with fence := s.fence.next l.content, fences := fences })
      (lineNo + 1) busy rest
    exact ⟨more, .cons step kept carried⟩

end MdxState
end MdxPress
