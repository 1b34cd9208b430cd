import MdxPress.Proofs.Fence.Covered
import MdxPress.Proofs.Fence.SameCode

/-!
A page and its segments.  The page is cut behind line feeds only, where its lines change between code and
prose, and nothing of it is lost: a pass that leaves the prose as it is leaves the page as it is.

* `Segment.isChain_ofLines` says that neighbours are of different kinds;
* `Text.getLast?_of_mem_dropLast_segments` says where the page is cut;
* `Text.map_fenced` tells the kind of a line by what the lines above it leave open;
* `Text.segments_partition` puts them together, and `Text.eq_segments` says that nothing else has the same
  properties.
-/

namespace MdxPress

namespace Segment

/-- **Code and prose alternate.** -/
theorem isChain_ofLines (ls : List FencedLine) :
    (ofLines ls).IsChain fun a b => a.fenced ≠ b.fenced := by
  induction ls with
  | nil => exact .nil
  | cons l ls ih =>
    rw [ofLines]
    split
    case h_1 => exact .singleton _
    case h_2 s ss same =>
      rw [same] at ih
      split
      case isTrue => exact List.isChain_cons.2 (List.isChain_cons.1 ih)
      case isFalse changes => exact .cons_cons (Ne.symm changes) ih

/-- Lines of one kind, in front of lines whose first segment is of the other, are a segment. -/
theorem ofLines_append {kind : Bool} {ls ms : List FencedLine} (filled : ls ≠ [])
    (alike : ∀ l ∈ ls, l.isCode = kind) (changes : ∀ s ∈ (ofLines ms).head?, s.fenced ≠ kind) :
    ofLines (ls ++ ms) = ⟨kind, Line.join (ls.map (·.line))⟩ :: ofLines ms := by
  induction ls with
  | nil => exact (filled rfl).elim
  | cons l ls ih =>
    obtain ⟨rfl, later⟩ := List.forall_mem_cons.1 alike
    by_cases last : ls = []
    · subst last
      rw [List.singleton_append, ofLines]
      split
      case h_1 none => simp [none]
      case h_2 s ss same =>
        rw [same] at changes ⊢
        rw [if_neg (changes s rfl)]
        simp
    · rw [List.cons_append, ofLines, ih last later]
      simp

/-- Segments that are not empty, of which neighbours differ in their kinds, are those of their lines. -/
theorem eq_ofLines {ss : List Segment} {ls : List FencedLine} (filled : ∀ s ∈ ss, s.text ≠ [])
    (turns : ss.IsChain fun a b => a.fenced ≠ b.fenced)
    (kinds : (ss.flatMap fun s => s.text.lines.map fun l => (l, s.fenced)) =
      ls.map fun l => (l.line, l.isCode)) : ss = ofLines ls := by
  induction ss generalizing ls with
  | nil =>
    obtain rfl := List.map_eq_nil_iff.1 kinds.symm
    rfl
  | cons s ss ih =>
    rw [List.flatMap_cons] at kinds
    obtain ⟨as, bs, rfl, first, rest⟩ := List.map_eq_append_iff.1 kinds.symm
    obtain ⟨own, others⟩ := List.forall_mem_cons.1 filled
    obtain ⟨next, inner⟩ := List.isChain_cons.1 turns
    have later := ih others inner rest.symm
    have lines : as.map (·.line) = s.text.lines := by
      simpa [Function.comp_def] using congrArg (List.map Prod.fst) first
    have alike : ∀ l ∈ as, l.isCode = s.fenced := by
      intro l mem
      have pair := List.mem_map_of_mem (f := fun l : FencedLine => (l.line, l.isCode)) mem
      rw [first] at pair
      obtain ⟨k, -, same⟩ := List.mem_map.1 pair
      exact (Prod.mk.inj same).2.symm
    have some_ : as ≠ [] := by
      rintro rfl
      refine own ?_
      rw [← Text.join_lines s.text, ← lines]
      rfl
    rw [ofLines_append some_ alike, lines, Text.join_lines, ← later]
    rw [← later]
    exact fun s' head => (next s' head).symm

/-- Every segment holds something, and all but the last are closed. -/
theorem AreCut.spec {ss : List Segment} (cut : AreCut ss) :
    (∀ s ∈ ss, s.text ≠ []) ∧ ∀ s ∈ ss.dropLast, s.text.Closed := by
  induction ss with
  | nil => exact ⟨nofun, nofun⟩
  | cons s ss ih =>
    obtain ⟨run, closed, later⟩ := cut
    obtain ⟨filled, inner⟩ := ih later
    refine ⟨List.forall_mem_cons.2 ⟨run.filled, filled⟩, ?_⟩
    cases ss with
    | nil => exact nofun
    | cons s' ss => exact List.forall_mem_cons.2 ⟨closed nofun, inner⟩

end Segment

namespace Text

/-- **A page is cut behind line feeds.** -/
theorem getLast?_of_mem_dropLast_segments {t : Text} {s : Segment} (mem : s ∈ t.segments.dropLast) :
    s.text.getLast? = some '\n' := by
  obtain ⟨filled, closed⟩ := (areCut_segments t).spec
  rw [← join_lines s.text]
  refine (closed s mem).ended.getLast?_join fun none => filled s ((List.dropLast_sublist _).subset mem) ?_
  rw [← join_lines s.text, none]
  rfl

/-- The lines of a page with their kinds: a line is code if something is open above it, or if it opens
something itself. -/
theorem map_fenced (t : Text) :
    t.fenced.map (fun l => (l.line, l.isCode)) = t.lines.zipIdx.map fun k =>
      (k.1, (FenceState.run none (t.lines.take k.2)).covers k.1.content) := by
  refine List.ext_getElem? fun i => ?_
  rw [List.getElem?_map, List.getElem?_map, fenced, getElem?_fencedLines, List.getElem?_zipIdx]
  cases line : t.lines[i]? with
  | none => rfl
  | some l =>
    simp only [Option.map_some, FencedLine.isCode, FenceState.run_take_succ line, FenceState.covers,
      Nat.zero_add]

/-- **Nothing else is a cut of a page into code and prose:** segments that are not empty, are code and
prose in turn, and have the lines of the page with their kinds, are those of the page. -/
theorem eq_segments {t : Text} {ss : List Segment} (filled : ∀ s ∈ ss, s.text ≠ [])
    (turns : ss.IsChain fun a b => a.fenced ≠ b.fenced)
    (kinds : (ss.flatMap fun s => s.text.lines.map fun l => (l, s.fenced)) =
      t.lines.zipIdx.map fun k =>
        (k.1, (FenceState.run none (t.lines.take k.2)).covers k.1.content)) : ss = t.segments :=
  Segment.eq_ofLines filled turns (kinds.trans (map_fenced t).symm)

/-- **Segments partition a page.**  None of them is empty, and put together they are the page.  All but
the last end with a line feed, and they are code and prose in turn.  Their lines are the lines of the
page, and a line stands in a fenced segment exactly when it is code, as the state that the lines above it
leave has it.  Hence nothing changes when the prose is rewritten as it is. -/
theorem segments_partition (t : Text) :
    (∀ s ∈ t.segments, s.text ≠ []) ∧ t.segments.flatMap (·.text) = t ∧
      (∀ s ∈ t.segments.dropLast, s.text.getLast? = some '\n') ∧
      (t.segments.IsChain fun a b => a.fenced ≠ b.fenced) ∧
      (t.segments.flatMap fun s => s.text.lines.map fun l => (l, s.fenced)) =
        (t.lines.zipIdx.map fun k =>
          (k.1, (FenceState.run none (t.lines.take k.2)).covers k.1.content)) ∧
      t.mapProse id = t := by
  refine ⟨(areCut_segments t).spec.1, flatMap_text_segments t,
    fun s => getLast?_of_mem_dropLast_segments, Segment.isChain_ofLines t.fenced, ?_,
    mapProse_eq_self fun _ _ => rfl⟩
  have kinds := flatMap_lines_segments (fun l code => [(l, code)]) t
  simp only [← List.map_eq_flatMap] at kinds
  rw [kinds, map_fenced]

/-- Two blocks with nothing between them, prose between carriage returns, and a block left open. -/
example :
    segments "\x60\x60\x60\na\n\x60\x60\x60\n~~~\n~~~\nb\r\n\r\n\x60\x60\x60\nc".toList =
      [⟨true, "\x60\x60\x60\na\n\x60\x60\x60\n~~~\n~~~\n".toList⟩,
        ⟨false, "b\r\n\r\n".toList⟩, ⟨true, "\x60\x60\x60\nc".toList⟩] := by
  decide +kernel

end Text
end MdxPress
