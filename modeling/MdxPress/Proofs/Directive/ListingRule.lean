import MdxPress.Proofs.Fence.Segment
import MdxPress.Proofs.Text.Piece
import MdxPress.Proofs.Text.Edge

/-!
What the rules for HTML listings read and write: from the `<` of the opening tag up to the `>` of the
closing one, and a fenced block whose language can stand behind its fence.

* `Listing.IsRule` says so of a rule;
* `Listing.isRule_optionsRule` and `Listing.isRule_preRule` say so of the two.
-/

namespace MdxPress.Listing

/-- A rule for listings: it reads from `<` up to `>`, and puts a fenced block. -/
structure IsRule (rule : Text → Option (Text × Nat)) : Prop where
  starts : ∀ {t : Text}, t.head? ≠ some '<' → rule t = none
  stopsInLine : Text.StopsInLine rule
  writes : ∀ {t new : Text} {n : Nat}, rule t = some (new, n) →
    ∃ language content, language.IsTag ∧ new = fenced language content

theorem tagRest?_suffix {t : Text} {p : Text × Text} (reads : tagRest? t = some p) : p.2 <:+ t := by
  obtain ⟨c, rfl, -⟩ := Text.breakAt_append reads
  exact ⟨p.1 ++ [c], by simp⟩

theorem openTag?_suffix {name t : Text} {p : Text × Text} (reads : openTag? name t = some p) :
    p.2 <:+ t := by
  obtain ⟨r, word, rest⟩ := Option.bind_eq_some_iff.1 reads
  exact (tagRest?_suffix rest).trans (Text.dropWord?_suffix word)

theorem exactTag?_suffix {name t : Text} {p : Text × Text} (reads : exactTag? name t = some p) :
    p.2 <:+ t := by
  obtain ⟨r, word, rest⟩ := Option.bind_eq_some_iff.1 reads
  split at rest
  case isFalse => cases rest
  case isTrue => exact (tagRest?_suffix rest).trans (Text.dropWord?_suffix word)

theorem isRule_optionsRule : IsRule optionsRule where
  starts := optionsRule_eq_none
  stopsInLine := by
    intro t new n applies
    obtain ⟨⟨attributes, r⟩, opening, later⟩ := Option.bind_eq_some_iff.1 applies
    obtain ⟨⟨inner, rest⟩, found, hit⟩ := Option.map_eq_some_iff.1 later
    cases hit
    obtain ⟨v, rfl, closing⟩ := Text.exists_seek found
    have part := (List.suffix_append inner v).trans (exactTag?_suffix opening)
    obtain ⟨inside, rfl⟩ := Text.exists_inside part closing (by decide)
    simp [Text.getLast?_take_taken]
  writes := by
    intro t new n applies
    obtain ⟨⟨attributes, r⟩, -, later⟩ := Option.bind_eq_some_iff.1 applies
    obtain ⟨⟨inner, rest⟩, -, hit⟩ := Option.map_eq_some_iff.1 later
    cases hit
    exact ⟨"txt".toList, inner, by decide, rfl⟩

/-- The language of a class name can stand behind a fence. -/
theorem isTag_languageOf (attributes : Text) : (languageOf attributes).IsTag := by
  have chars {l : Text} (all : ∀ c ∈ l, isLanguageChar c = true) : l.IsTag := by
    refine ⟨⟨fun mem => ?_, fun mem => ?_⟩, fun c mem => ?_⟩
    · exact absurd (all _ mem) (by decide)
    · exact absurd (all _ mem) (by decide)
    · have plain := all c mem
      rw [FenceMark.ofChar?]
      split
      case isTrue tick => subst tick; exact absurd plain (by decide)
      case isFalse =>
        split
        case isTrue tilde => subst tilde; exact absurd plain (by decide)
        case isFalse => rfl
  unfold languageOf
  dsimp only
  cases found : Text.seek _ attributes with
  | none => decide
  | some p =>
    obtain ⟨u, -, reads⟩ := Text.exists_seek found
    obtain ⟨r, -, kept⟩ := Option.bind_eq_some_iff.1 reads
    split at kept
    case isTrue => cases kept
    case isFalse =>
      rw [Option.map_some, Option.getD_some, ← Option.some.inj kept]
      exact chars fun c mem => List.all_eq_true.1 List.all_takeWhile c mem

theorem isRule_preRule : IsRule preRule where
  starts := preRule_eq_none
  stopsInLine := by
    intro t new n applies
    obtain ⟨⟨preAttrs, r⟩, pre, later⟩ := Option.bind_eq_some_iff.1 applies
    obtain ⟨⟨codeAttrs, r'⟩, code, later⟩ := Option.bind_eq_some_iff.1 later
    obtain ⟨⟨inner, rest⟩, found, hit⟩ := Option.map_eq_some_iff.1 later
    cases hit
    obtain ⟨v, read, ending⟩ := Text.exists_seek found
    obtain ⟨behind, word, closing⟩ := Option.bind_eq_some_iff.1 ending
    have inCode : v <:+ r' := ⟨inner, read.symm⟩
    have inPre : r' <:+ r := (openTag?_suffix code).trans (Text.trimStart_suffix r)
    have part : behind.trimStart <:+ t :=
      (Text.trimStart_suffix behind).trans ((Text.dropWord?_suffix word).trans
        (inCode.trans (inPre.trans (openTag?_suffix pre))))
    obtain ⟨inside, rfl⟩ := Text.exists_inside part closing (by decide)
    simp [Text.getLast?_take_taken]
  writes := by
    intro t new n applies
    obtain ⟨⟨preAttrs, r⟩, -, later⟩ := Option.bind_eq_some_iff.1 applies
    obtain ⟨⟨codeAttrs, r'⟩, -, later⟩ := Option.bind_eq_some_iff.1 later
    obtain ⟨⟨inner, rest⟩, -, hit⟩ := Option.map_eq_some_iff.1 later
    cases hit
    exact ⟨_, _, isTag_languageOf _, rfl⟩

end MdxPress.Listing
