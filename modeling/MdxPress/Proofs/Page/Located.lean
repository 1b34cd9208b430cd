import MdxPress.Proofs.Directive.Swept
import MdxPress.Proofs.Marker.Place
import MdxPress.Proofs.Mdx.Opened
import MdxPress.Proofs.Page.Settled

/-!
Where the diagnostics of a conversion point.  A stage reports a place in the body it was given, and
the lines of the header are added to it; so a diagnostic points at what it names in the body of its
stage, and points at it in the page exactly when the page reads alike at the same place.

* `Diagnostic.IsLocated` is what a diagnostic should point at;
* `convertPage_diagnostics` lists the diagnostics with the bodies their stages were given;
* `isLocated_convertPage_iff` is the condition;
* `isLocated_convertPage_of_untouched` is the case of bodies that stand in the page as they are.

Caveat: the stages before may have moved lines.  A directive that is replaced by more or fewer lines
moves everything behind it, and so does a description that is shown below the title.
-/

namespace MdxPress

/-! ## What a diagnostic points at -/

/-- The name of the marker that a text starts with. -/
def Marker.startName? (t : Text) : Option Text :=
  (rule t).bind fun r => r.1.map (·.1)

/-- A diagnostic points into a page: at a marker with the name it gives, or at the `<` before the name
of its component.  Headers are reported as a whole. -/
def Diagnostic.IsLocated (page : Text) (d : Diagnostic) : Prop :=
  match d.fault with
  | .malformedDirective name _ =>
    ∃ before behind : Text, page = before ++ behind ∧ d.position.IsBehind before ∧
      Marker.startName? behind = some name
  | .unclosedComponent tag =>
    ∃ before behind : Text, page = before ++ '<' :: (tag ++ behind) ∧ d.position.IsBehind before
  | .unparseableHeader _ | .unterminatedHeader => True

/-- A place in a page is a place in a body with `offset` lines more before it. -/
def Text.IsSamePlace (offset : Nat) (inPage inBody : Text) : Prop :=
  inPage.lineCount = inBody.lineCount + offset ∧ inPage.lastLine.length = inBody.lastLine.length

/-! ## Leftover markers -/

namespace Marker

/-- A marker is read again at its place. -/
theorem StandsIn.startName? {m : Marker} {t : Text} (stands : m.StandsIn t) :
    startName? (t.drop m.start) = some m.name := by
  obtain ⟨before, inside, behind, rfl, start, -, apart, -, read⟩ := stands
  rw [start, List.drop_left, Marker.startName?, rule,
    Text.breakOn_pair apart (by decide) behind]
  simp [read]

end Marker

namespace Leftover

/-- A decision is about the marker it was made for. -/
theorem marker_decide (t : Text) (cursor : Nat) (m : Marker) (rest : List Marker) :
    (decide t cursor m rest).marker = m := by
  have chosen : ((rest.head?.bind (paired? t m)).getD (single t m)).marker = m := by
    cases pairs : rest.head?.bind (paired? t m) with
    | none => exact marker_single t m
    | some l =>
      obtain ⟨closer, -, takes⟩ := Option.bind_eq_some_iff.1 pairs
      exact (of_paired? takes).1
  unfold decide
  dsimp only
  split <;> exact chosen

theorem marker_mem_of_mem_decisionsFrom {t : Text} {cursor : Nat} {ms : List Marker} {l : Leftover}
    (mem : l ∈ decisionsFrom t cursor ms) : l.marker ∈ ms := by
  induction ms generalizing cursor with
  | nil => cases mem
  | cons m ms ih =>
    rw [decisionsFrom] at mem
    split at mem
    case isTrue => exact .tail _ (ih mem)
    case isFalse =>
      rcases List.mem_cons.1 mem with rfl | mem
      · rw [marker_decide]
        exact .head _
      · exact .tail _ (ih mem)

/-- **A leftover marker is read at the place that its diagnostic gives.** -/
theorem startName?_of_mem_decisions {t : Text} {l : Leftover} (mem : l ∈ decisions t) :
    Marker.startName? (t.drop l.marker.start) = some l.marker.name :=
  (Text.standsIn_of_mem_markers (marker_mem_of_mem_decisionsFrom mem)).startName?

/-- A page reads as a body does at the place of a leftover marker, `offset` lines further down. -/
def IsInPlace (page : Text) (offset : Nat) (body : Text) (l : Leftover) : Prop :=
  ∃ before behind : Text, page = before ++ behind ∧
    Text.IsSamePlace offset before (body.take l.marker.start) ∧
    Marker.startName? behind = Marker.startName? (body.drop l.marker.start)

theorem isLocated_diagnostic_iff {page body : Text} {l : Leftover} (mem : l ∈ decisions body)
    (file : Option Text) (offset : Nat) :
    ((diagnostic body l).rebase file offset).IsLocated page ↔ l.IsInPlace page offset body := by
  rw [IsInPlace, startName?_of_mem_decisions mem]
  simp only [Diagnostic.IsLocated, Diagnostic.rebase, diagnostic, Position.ofIndex, Position.behind,
    Position.IsBehind, Text.IsSamePlace, Nat.add_right_cancel_iff, eq_comm]

end Leftover

/-! ## Components that are never closed -/

namespace OpenComponent

/-- A page has the tag of a component where a body has it, `offset` lines further down. -/
def IsInPlace (page : Text) (offset : Nat) (body : Text) (k : OpenComponent) : Prop :=
  ∃ before behind above below : Text, page = before ++ '<' :: (k.name ++ behind) ∧
    body = above ++ '<' :: (k.name ++ below) ∧ Position.IsBehind ⟨none, k.line, k.column⟩ above ∧
    Text.IsSamePlace offset before above

theorem isLocated_diagnostic_iff {page body : Text} {k : OpenComponent}
    (mem : k ∈ (escapeBraces body).unclosed) (file : Option Text) (offset : Nat) :
    (k.diagnostic.rebase file offset).IsLocated page ↔ k.IsInPlace page offset body := by
  obtain ⟨above, below, text, line, column⟩ := standsIn_of_mem_unclosed mem
  dsimp only at line column
  simp only [Diagnostic.IsLocated, Diagnostic.rebase, diagnostic, IsInPlace, Position.IsBehind,
    Text.IsSamePlace]
  constructor
  · rintro ⟨before, behind, rfl, sameLine, sameColumn⟩
    exact ⟨before, behind, above, below, rfl, text, ⟨line, column⟩, by omega, by omega⟩
  · rintro ⟨before, behind, above', -, rfl, -, ⟨line', column'⟩, sameLine, sameColumn⟩
    exact ⟨before, behind, rfl, by omega, by omega⟩

end OpenComponent

/-! ## The diagnostics of a conversion -/

/-- Whether a fault is one of the header. -/
def Fault.isOfHeader : Fault → Bool
  | .unparseableHeader _ | .unterminatedHeader => true
  | _ => false

theorem Diagnostic.isLocated_of_header {d : Diagnostic} (header : d.fault.isOfHeader = true)
    (page : Text) : d.IsLocated page := by
  unfold IsLocated
  split
  case h_1 fault => simp [fault, Fault.isOfHeader] at header
  case h_2 fault => simp [fault, Fault.isOfHeader] at header
  all_goals trivial

namespace SplitPage

variable {d : Diagnostic}

theorem isOfHeader_ofBlock {b : HeaderBlock} (mem : d ∈ (ofBlock b).diagnostics) :
    d.fault.isOfHeader = true := by
  unfold ofBlock at mem
  split at mem
  case h_1 => cases mem
  case h_2 => rw [List.mem_singleton.1 mem]; rfl

theorem isOfHeader_ofLead {page : Text} (mem : d ∈ (ofLead page).diagnostics) :
    d.fault.isOfHeader = true := by
  unfold ofLead at mem
  split at mem
  case h_1 => cases mem
  case h_2 =>
    dsimp only at mem
    split at mem
    case isTrue => cases mem
    case isFalse =>
      split at mem
      case h_1 => cases mem
      case h_2 => rw [List.mem_singleton.1 mem]; rfl

/-- Cutting a page reports faults of the header only. -/
theorem isOfHeader_ofText {page : Text} (mem : d ∈ (ofText page).diagnostics) :
    d.fault.isOfHeader = true := by
  unfold ofText at mem
  split at mem
  case h_1 => exact isOfHeader_ofBlock mem
  case h_2 => exact isOfHeader_ofLead mem
  case h_3 => rw [List.mem_singleton.1 mem]; rfl

end SplitPage

/-- The body of a page that leftover markers are looked for in. -/
def sweptBody (o : Options) (page : Text) : Text :=
  (convertDirectives o.directives (SplitPage.ofText page).body).passed

/-- The body of a page that open components are looked for in. -/
def escapedBody (o : Options) (page : Text) : Text :=
  bodyAfter o [.directives, .inlineHtml, .prose] (SplitPage.ofText page).body

/-- **The diagnostics of a conversion:** of the header, of the leftover markers, and of the components
that are never closed. -/
theorem convertPage_diagnostics (o : Options) (path page : Text) :
    (convertPage o path page).diagnostics =
      (SplitPage.ofText page).diagnostics.map (·.rebase (some path) 0) ++
        (Leftover.decisions (sweptBody o page)).map (fun l =>
          (l.diagnostic (sweptBody o page)).rebase (some path)
            (SplitPage.ofText page).header.sourceLines) ++
        (escapeBraces (escapedBody o page)).unclosed.map fun k =>
          k.diagnostic.rebase (some path) (SplitPage.ofText page).header.sourceLines := by
  simp only [convertPage, Stage.order, List.foldl_cons, List.foldl_nil, Stage.run, Stage.apply,
    Conversion.note, Conversion.located, Conversion.start, sweptBody, escapedBody, bodyAfter,
    Stage.body, convertDirectives, Escaped.diagnostics, List.map_map, List.nil_append]
  rfl

/-- Bodies that read as the page does, at the places of what is reported in them. -/
theorem isLocated_of_inPlace {o : Options} {path page : Text}
    (leftovers : ∀ l ∈ Leftover.decisions (sweptBody o page),
      l.IsInPlace page (convertPage o path page).header.sourceLines (sweptBody o page))
    (components : ∀ k ∈ (escapeBraces (escapedBody o page)).unclosed,
      k.IsInPlace page (convertPage o path page).header.sourceLines (escapedBody o page)) :
    ∀ d ∈ (convertPage o path page).diagnostics, d.IsLocated page := by
  rw [convertPage_header] at leftovers components
  rw [convertPage_diagnostics, List.forall_mem_append, List.forall_mem_append,
    List.forall_mem_map, List.forall_mem_map, List.forall_mem_map]
  exact ⟨⟨fun d mem => Diagnostic.isLocated_of_header (SplitPage.isOfHeader_ofText mem :) page,
    fun l mem => (Leftover.isLocated_diagnostic_iff mem _ _).2 (leftovers l mem)⟩,
    fun k mem => (OpenComponent.isLocated_diagnostic_iff mem _ _).2 (components k mem)⟩

/-- A text behind whole lines reads as it does by itself. -/
theorem Text.isSamePlace_append {head : Text} (whole : head = [] ∨ head.getLast? = some '\n')
    (t : Text) : IsSamePlace (head.count '\n') (head ++ t) t :=
  ⟨lineCount_append head t, by rw [lastLine_append whole]⟩

/-- Bodies that stand in the page as they are, right behind the header, are reported at the right
places. -/
theorem isLocated_convertPage_of_untouched (o : Options) (path : Text) {page head : Text}
    (whole : head = [] ∨ head.getLast? = some '\n')
    (lines : (convertPage o path page).header.sourceLines = head.count '\n')
    (swept : page = head ++ sweptBody o page) (escaped : page = head ++ escapedBody o page) :
    ∀ d ∈ (convertPage o path page).diagnostics, d.IsLocated page := by
  refine isLocated_of_inPlace (fun l _ => ?_) fun k mem => ?_
  · rw [lines]
    refine ⟨head ++ (sweptBody o page).take l.marker.start, (sweptBody o page).drop l.marker.start,
      ?_, Text.isSamePlace_append whole _, rfl⟩
    rw [List.append_assoc, List.take_append_drop]
    exact swept
  · rw [lines]
    obtain ⟨above, below, text, place⟩ := OpenComponent.standsIn_of_mem_unclosed mem
    refine ⟨head ++ above, below, above, below, ?_, text, place, Text.isSamePlace_append whole _⟩
    rw [List.append_assoc, ← text]
    exact escaped

end MdxPress
