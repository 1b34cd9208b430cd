import Mathlib.Data.List.Nodup
import MdxPress.Directive.Convert
import MdxPress.Proofs.Fence.Repair
import MdxPress.Proofs.Fence.Tag
import MdxPress.Proofs.Marker.Place

/-!
What follows the passes for directives.  When they leave no marker behind, nothing is decided about
leftovers, and neither fence repair nor refinement brings a marker to light: both change code only.

* `Text.markers_eq_nil_congr` compares texts that have the same prose;
* `Tally.get_addLeftovers` and `Tally.fallbacks_addLeftovers` count the markers that are left, kind by
  kind and in all;
* `convertDirectives_of_quiet` is the conversion of a body whose passes leave no marker.
-/

namespace MdxPress

theorem Marker.inLines_eq_nil_iff (pos : Nat) (ls : List FencedLine) :
    inLines pos ls = [] ↔
      ∀ l ∈ ls.filter (!·.isCode), inSpans 0 l.line.content.codeSpans = [] := by
  induction ls generalizing pos with
  | nil => simp [inLines]
  | cons l ls ih =>
    rw [inLines, List.append_eq_nil_iff, ih, List.filter_cons]
    cases l.isCode
    · rw [inSpans_eq]
      simp
    · simp

namespace Text

/-- Texts with the same prose hold markers both or neither. -/
theorem markers_eq_nil_congr {t u : Text}
    (prose : t.fenced.filter (!·.isCode) = u.fenced.filter (!·.isCode)) :
    t.markers = [] ↔ u.markers = [] := by
  rw [markers, markers, Marker.inLines_eq_nil_iff, Marker.inLines_eq_nil_iff, prose]

theorem markers_repairFences_eq_nil {t : Text} (quiet : t.markers = []) :
    t.repairFences.1.markers = [] :=
  (markers_eq_nil_congr (thinned_repairFences t).filter_prose).2 quiet

theorem markers_refineText_eq_nil {t : Text} (quiet : t.markers = []) :
    t.refineText.1.markers = [] :=
  (markers_eq_nil_congr (filter_prose_refineText t)).2 quiet

end Text

namespace Leftover

theorem decisions_eq_nil {t : Text} (quiet : t.markers = []) : decisions t = [] := by
  rw [decisions, quiet, decisionsFrom]

theorem clear_eq_self {t : Text} (quiet : t.markers = []) : clear t = t := by
  rw [clear, decisions_eq_nil quiet]
  rfl

end Leftover

/-! ## What is counted -/

/-- A total in which one member, listed once, counts for one more. -/
theorem total_succ {α : Type} [DecidableEq α] (f : α → Nat) {xs : List α} (once : xs.Nodup) {x : α}
    (mem : x ∈ xs) : total (fun y => if y = x then f y + 1 else f y) xs = total f xs + 1 := by
  induction xs with
  | nil => cases mem
  | cons y ys ih =>
    obtain ⟨absent, rest⟩ := List.nodup_cons.1 once
    rw [total_cons, total_cons]
    by_cases same : y = x
    · subst same
      have others : total (fun z => if z = y then f z + 1 else f z) ys = total f ys :=
        total_congr fun z later => if_neg (ne_of_mem_of_not_mem later absent)
      rw [if_pos rfl, others]
      omega
    · rw [if_neg same, ih rest ((List.mem_cons.1 mem).resolve_left (Ne.symm same))]
      omega

namespace Tally

theorem lookup_filter_ne {j k : DirectiveKind} (differ : j ≠ k)
    (es : List (DirectiveKind × Counts)) :
    (es.filter fun e => e.1 ≠ k).lookup j = es.lookup j := by
  induction es with
  | nil => rfl
  | cons e es ih =>
    rw [List.filter_cons]
    split
    case isTrue => rw [List.lookup_cons, List.lookup_cons, ih]
    case isFalse other =>
      obtain rfl : e.1 = k := by simpa using other
      rw [ih, List.lookup_cons, beq_false_of_ne differ]

theorem get_modify (t : Tally) (k j : DirectiveKind) (f : Counts → Counts) :
    (t.modify k f).get j = if j = k then f (t.get k) else t.get j := by
  rw [get, get?, modify, List.lookup_cons]
  by_cases same : j = k
  · rw [if_pos same, same, beq_self_eq_true]
    rfl
  · rw [if_neg same, beq_false_of_ne same, lookup_filter_ne same]
    rfl

/-! ## Markers that are left -/

/-- The markers left to the fallback are those of all kinds. -/
theorem fallbacks_eq_total (t : Tally) :
    t.fallbacks = total (fun k => (t.get k).fallback) DirectiveKind.all := by
  rw [fallbacks, report]
  induction DirectiveKind.all with
  | nil => rfl
  | cons k ks ih =>
    rw [List.filterMap_cons, total_cons, ← ih, get]
    cases t.get? k with
    | none => exact (Nat.zero_add _).symm
    | some c => rfl

theorem fallbacks_addFallback (t : Tally) (k : DirectiveKind) :
    (t.addFallback k).fallbacks = t.fallbacks + 1 := by
  have listed : k ∈ DirectiveKind.all := by cases k <;> decide
  rw [fallbacks_eq_total, fallbacks_eq_total, ← total_succ _ (by decide) listed]
  refine total_congr fun j _ => ?_
  rw [addFallback, get_modify]
  split
  case isTrue same => rw [same]
  case isFalse => rfl

theorem addLeftovers_nil (t : Tally) : t.addLeftovers [] = t := rfl

variable (t : Tally) (ds : List Leftover)

/-- **Counting what is left**: the fallbacks of a kind grow by the markers of the kind, and nothing
else of it changes. -/
theorem get_addLeftovers (k : DirectiveKind) :
    (t.addLeftovers ds).get k =
      { t.get k with
        fallback := (t.get k).fallback +
          ds.countP fun d => DirectiveKind.ofMarkerName d.marker.name = k } := by
  induction ds generalizing t with
  | nil => rfl
  | cons d ds ih =>
    have later := ih (t.addFallback (DirectiveKind.ofMarkerName d.marker.name))
    rw [addLeftovers, List.foldl_cons, ← addLeftovers, later, addFallback, get_modify,
      List.countP_cons]
    by_cases same : DirectiveKind.ofMarkerName d.marker.name = k
    · simp only [same, if_true, decide_true]
      rw [Nat.add_assoc, Nat.add_comm 1]
    · simp [same, Ne.symm same]

theorem fallbacks_addLeftovers :
    (t.addLeftovers ds).fallbacks = t.fallbacks + ds.length := by
  induction ds generalizing t with
  | nil => rfl
  | cons d ds ih =>
    have later := ih (t.addFallback (DirectiveKind.ofMarkerName d.marker.name))
    rw [addLeftovers, List.foldl_cons, ← addLeftovers, later, fallbacks_addFallback,
      List.length_cons]
    omega

end Tally
/-! ## Bodies without markers -/

/-- **Where the passes leave no marker, their tally is the report and no marker comes back.** -/
theorem convertDirectives_of_quiet {o : DirectiveOptions} {body : Text}
    (quiet : (convertKinds o body).text.markers = []) :
    (convertDirectives o body).report.tally = (convertKinds o body).tally ∧
      (convertDirectives o body).diagnostics = [] ∧
      (convertDirectives o body).text.markers = [] := by
  have repaired := Text.markers_repairFences_eq_nil quiet
  have refined := Text.markers_refineText_eq_nil repaired
  simp only [convertDirectives, Leftover.decisions_eq_nil quiet, Leftover.clear_eq_self quiet,
    Tally.addLeftovers_nil, List.map_nil, true_and]
  split
  · exact refined
  · dsimp only
    exact repaired

end MdxPress
