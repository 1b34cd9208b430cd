import Mathlib.Data.List.Induction
import MdxPress.Mdx.Html
import MdxPress.Proofs.Directive.ListingRule
import MdxPress.Proofs.Text.InlineCode

/-!
What the rules for inline HTML read and put.

* `Html.StopsAt` says with which character an application ends, and `Text.StopsInLine` of each rule that
  it is no line feed;
* `Html.IsInline` says of the rules for the prose of a line that they add no backtick, as long as the
  site path of the assets has none: `Html.ticks_normalizeInline_le` is what follows for a line.
-/

namespace MdxPress.Html

open Listing (openTag? exactTag? tagRest? openTag?_suffix tagRest?_suffix exactTag?_suffix)
open Text (ticks ticks_append)

/-- An application reads up to a character and covers what it reads. -/
def StopsAt (t : Text) (n : Nat) (c : Char) : Prop :=
  ∃ inside rest, t = inside ++ c :: rest ∧ n = t.taken rest

theorem StopsAt.stops {t : Text} {n : Nat} {c : Char} (ends : StopsAt t n c) (visible : c ≠ '\n') :
    (t.take (n - 1 + 1)).getLast? ≠ some '\n' := by
  obtain ⟨inside, rest, rfl, rfl⟩ := ends
  rw [Text.getLast?_take_taken]
  simpa using visible

/-- A reading that ended with the `>` of a word. -/
theorem stopsAt_word {word t u rest : Text} (part : u <:+ t)
    (reads : Text.dropWord? word u = some rest) (ends : word.getLast? = some '>') :
    StopsAt t (t.taken rest) '>' := by
  obtain ⟨inside, same⟩ := Text.exists_inside part reads ends
  exact ⟨inside, rest, same, rfl⟩

theorem stopsAt_tagRest? {t u : Text} {p : Text × Text} (part : u <:+ t)
    (reads : tagRest? u = some p) : StopsAt t (t.taken p.2) '>' := by
  obtain ⟨before, rfl⟩ := part
  obtain ⟨c, rfl, sign⟩ := Text.breakAt_append reads
  obtain rfl : c = '>' := by simpa using sign
  exact ⟨before ++ p.1, p.2, by simp, rfl⟩

theorem stopsAt_openTag? {name t u : Text} {p : Text × Text} (part : u <:+ t)
    (reads : openTag? name u = some p) : StopsAt t (t.taken p.2) '>' := by
  obtain ⟨r, word, rest⟩ := Option.bind_eq_some_iff.1 reads
  exact stopsAt_tagRest? ((Text.dropWord?_suffix word).trans part) rest

theorem suffix_seek {α : Type} {reader : Text → Option α} {t : Text} {p : Text × α}
    (found : Text.seek reader t = some p) : ∃ u, u <:+ t ∧ reader u = some p.2 := by
  obtain ⟨u, rfl, reads⟩ := Text.exists_seek found
  exact ⟨u, List.suffix_append _ _, reads⟩

/-! ## Rules for a stretch of prose -/

theorem stopsAt_figureEnd? {t u rest : Text} (part : u <:+ t) (reads : figureEnd? u = some rest) :
    StopsAt t (t.taken rest) '>' :=
  stopsAt_word ((Text.trimStart_suffix u).trans part) reads (by decide)

theorem stopsInLine_figureRule : Text.StopsInLine figureRule := by
  intro t new n applies
  obtain ⟨⟨attributes, r⟩, opening, later⟩ := Option.bind_eq_some_iff.1 applies
  obtain ⟨⟨imageRest, behind⟩, image, later⟩ := Option.bind_eq_some_iff.1 later
  obtain ⟨rest, ends, hit⟩ := Option.map_eq_some_iff.1 later
  cases hit
  have part : behind.trimStart <:+ t :=
    (Text.trimStart_suffix behind).trans ((exactTag?_suffix image).trans
      ((Text.trimStart_suffix r).trans (openTag?_suffix opening)))
  refine StopsAt.stops (c := '>') ?_ (by decide)
  rcases Option.or_eq_some_iff.1 ends with caption | ⟨-, ends⟩
  · obtain ⟨⟨captionRest, r'⟩, opening', inCaption⟩ := Option.bind_eq_some_iff.1 caption
    obtain ⟨⟨inner, rest'⟩, found, rfl⟩ := Option.map_eq_some_iff.1 inCaption
    obtain ⟨u, isIn, reads⟩ := suffix_seek found
    obtain ⟨behind', word, ends⟩ := Option.bind_eq_some_iff.1 reads
    have inner' : behind' <:+ t := (Text.dropWord?_suffix word).trans
      (isIn.trans ((openTag?_suffix opening').trans part))
    exact stopsAt_figureEnd? inner' ends
  · exact stopsAt_figureEnd? part ends

theorem stopsInLine_customSpanRule : Text.StopsInLine customSpanRule := by
  intro t new n applies
  obtain ⟨r, word, later⟩ := Option.bind_eq_some_iff.1 applies
  split at later
  case h_2 => cases later
  case h_1 c r =>
    split at later
    case isFalse => cases later
    case isTrue =>
      obtain ⟨⟨attributes, r'⟩, opening, later⟩ := Option.bind_eq_some_iff.1 later
      obtain ⟨⟨inner, rest⟩, found, hit⟩ := Option.map_eq_some_iff.1 later
      cases hit
      obtain ⟨behind, name, tag⟩ := Option.bind_eq_some_iff.1 opening
      obtain ⟨u, isIn, reads⟩ := suffix_seek found
      have part : u <:+ t := isIn.trans ((tagRest?_suffix tag).trans
        ((Text.dropWord?_suffix name).trans ((Text.trimStart_suffix _).trans
          (Text.dropWord?_suffix word))))
      exact (stopsAt_word part reads (by decide)).stops (by decide)

theorem stopsInLine_captionRule : Text.StopsInLine captionRule := by
  intro t new n applies
  obtain ⟨⟨attributes, r⟩, opening, later⟩ := Option.bind_eq_some_iff.1 applies
  obtain ⟨⟨inner, rest⟩, found, hit⟩ := Option.map_eq_some_iff.1 later
  cases hit
  obtain ⟨u, isIn, reads⟩ := suffix_seek found
  exact (stopsAt_word (isIn.trans (openTag?_suffix opening)) reads (by decide)).stops (by decide)

theorem stopsInLine_figureTagRule : Text.StopsInLine figureTagRule := by
  intro t new n applies
  obtain ⟨rest, tag, hit⟩ := Option.map_eq_some_iff.1 applies
  cases hit
  refine StopsAt.stops (c := '>') ?_ (by decide)
  rcases Option.or_eq_some_iff.1 tag with figure | ⟨-, caption⟩
  · obtain ⟨p, either, rfl⟩ := Option.map_eq_some_iff.1 figure
    rcases Option.or_eq_some_iff.1 either with opening | ⟨-, closing⟩
    · exact stopsAt_openTag? List.suffix_rfl opening
    · exact stopsAt_openTag? List.suffix_rfl closing
  · rcases Option.or_eq_some_iff.1 caption with opening | ⟨-, closing⟩
    · exact stopsAt_word List.suffix_rfl opening (by decide)
    · exact stopsAt_word List.suffix_rfl closing (by decide)

/-! ## Rules for the prose of a line -/

/-- A rule that reads up to a character that is no line feed, and puts no more backticks than it
reads. -/
def IsInline (rule : Text → Option (Text × Nat)) : Prop :=
  ∀ ⦃t new : Text⦄ ⦃n : Nat⦄, rule t = some (new, n) →
    ∃ inside c rest, t = inside ++ c :: rest ∧ n = t.taken rest ∧ c ≠ '\n' ∧
      ticks new ≤ ticks (inside ++ [c])

section Inline

variable {rule : Text → Option (Text × Nat)} (isInline : IsInline rule)
include isInline

theorem IsInline.stopsInLine : Text.StopsInLine rule := by
  intro t new n applies
  obtain ⟨inside, c, rest, cut, taken, visible, -⟩ := isInline applies
  exact StopsAt.stops ⟨inside, rest, cut, taken⟩ visible

theorem IsInline.ticks_rewrite_le (t : Text) : ticks (t.rewrite rule) ≤ ticks t := by
  refine Text.ticks_rewrite_le (fun t new n applies => ?_) t
  obtain ⟨inside, c, rest, rfl, rfl, -, fewer⟩ := isInline applies
  have cover : (inside ++ c :: rest).take (Text.taken (inside ++ c :: rest) rest - 1 + 1) =
      inside ++ [c] := by
    have length : Text.taken (inside ++ c :: rest) rest = inside.length + 1 := by
      simp only [Text.taken, List.length_append, List.length_cons]
      omega
    have cut : inside ++ c :: rest = inside ++ [c] ++ rest := by simp
    rw [length, Nat.add_sub_cancel, cut, List.take_left' (by simp)]
  rw [cover]
  exact fewer

end Inline

theorem ticks_baseName_le (t : Text) : ticks (Target.baseName t) ≤ ticks t := by
  unfold Target.baseName
  cases last : (Text.splitOn (· = '/') t).getLast? with
  | none => exact Nat.zero_le _
  | some piece => exact (Text.splitOn_part (List.mem_of_getLast? last)).sublist.count_le _

theorem dropUpward_suffix (t : Text) : dropUpward t <:+ t := by
  fun_induction dropUpward t with
  | case1 r ih => exact ih.trans ⟨['.', '/'], rfl⟩
  | case2 r ih => exact ih.trans ⟨['.', '.', '/'], rfl⟩
  | case3 => exact List.suffix_rfl

theorem dropStart?_suffix {start t rest : Text} (reads : Text.dropStart? start t = some rest) :
    rest <:+ t :=
  ⟨start, (Text.isPrefixOf?_eq_some_iff.1 reads).symm⟩

theorem assetPath?_suffix {t path : Text} (reads : assetPath? t = some path) : path <:+ t := by
  refine (dropStart?_suffix reads).trans ?_
  cases docs : Text.dropStart? "docs/".toList (dropUpward t) with
  | none => exact dropUpward_suffix t
  | some r => exact (dropStart?_suffix docs).trans (dropUpward_suffix t)

theorem assetPathAnyCase?_suffix {t path : Text} (reads : assetPathAnyCase? t = some path) :
    path <:+ t := by
  refine (Text.dropWord?_suffix reads).trans ?_
  cases docs : Text.dropWord? "docs/".toList (dropUpward t) with
  | none => exact dropUpward_suffix t
  | some r => exact (Text.dropWord?_suffix docs).trans (dropUpward_suffix t)

theorem imageStart?_append {t start target : Text} (reads : imageStart? t = some (start, target)) :
    t = start ++ target := by
  unfold imageStart? at reads
  split at reads
  case h_2 => cases reads
  case h_1 r =>
    obtain ⟨⟨alt, behind⟩, cut, later⟩ := Option.bind_eq_some_iff.1 reads
    obtain ⟨c, rfl, sign⟩ := Text.breakAt_append cut
    obtain rfl : c = ']' := by simpa using sign
    dsimp only at later ⊢
    split at later
    case h_1 => cases later; simp
    case h_2 => cases later

section Assets

variable {site : Text} (noTick : '\x60' ∉ site)
include noTick

theorem isInline_imageAssetRule : IsInline (imageAssetRule site) := by
  intro t new n applies
  have plain := Text.ticks_eq_zero.2 noTick
  obtain ⟨⟨start, target⟩, image, later⟩ := Option.bind_eq_some_iff.1 applies
  obtain rfl := imageStart?_append image
  rcases Option.or_eq_some_iff.1 later with bracketed | ⟨-, bare⟩
  · split at bracketed
    case h_2 => cases bracketed
    case h_1 r =>
      obtain ⟨path, asset, later⟩ := Option.bind_eq_some_iff.1 bracketed
      obtain ⟨⟨file, rest⟩, tag, later⟩ := Option.bind_eq_some_iff.1 later
      obtain ⟨folder, rfl⟩ := assetPath?_suffix asset
      obtain ⟨c, rfl, sign⟩ := Text.breakAt_append tag
      obtain rfl : c = '>' := by simpa using sign
      dsimp only at later
      split at later
      case isTrue => cases later
      case isFalse =>
        cases later
        refine ⟨start ++ '<' :: (folder ++ file), '>', rest, by simp, rfl, by decide, ?_⟩
        have fewer := ticks_baseName_le file
        simp only [ticks, List.count_append, List.count_cons, List.count_nil] at plain fewer ⊢
        simp
        omega
  · obtain ⟨path, asset, later⟩ := Option.bind_eq_some_iff.1 bare
    obtain ⟨folder, rfl⟩ := assetPath?_suffix asset
    dsimp only at later
    split at later
    case isTrue => cases later
    case isFalse filled =>
      cases later
      obtain ⟨inside, c, last⟩ :=
        (List.eq_nil_or_concat' (path.takeWhile fun c => !(c == ')' || isBlank c))).resolve_left
          (by simpa using filled)
      have visible : isBlank c = false := by
        have all := List.all_eq_true.1 (List.all_takeWhile (p := fun c => !(c == ')' || isBlank c))
          (l := path)) c (by rw [last]; simp)
        simp only [Bool.not_or, Bool.and_eq_true, Bool.not_eq_eq_eq_not, Bool.not_true] at all
        exact all.2
      have cut : path = inside ++ [c] ++ path.drop (inside ++ [c]).length := by
        have prefix_ : path.takeWhile (fun c => !(c == ')' || isBlank c)) <+: path :=
          List.takeWhile_prefix _
        rw [last] at prefix_
        exact (List.prefix_iff_eq_append.1 prefix_).symm
      rw [last]
      refine ⟨start ++ (folder ++ inside), c, path.drop (inside ++ [c]).length, ?_, rfl, ?_, ?_⟩
      · conv => lhs; rw [cut]
        simp
      · rintro rfl
        exact absurd visible (by decide)
      · have fewer := ticks_baseName_le (inside ++ [c])
        have written : ticks (start ++ site ++ '/' :: Target.baseName (inside ++ [c])) =
            ticks start + ticks site + ticks (Target.baseName (inside ++ [c])) := by
          simp [ticks, List.count_append, Nat.add_assoc]
        have read : ticks (start ++ (folder ++ inside) ++ [c]) =
            ticks start + ticks folder + ticks (inside ++ [c]) := by
          rw [List.append_assoc, List.append_assoc, ticks_append, ticks_append, Nat.add_assoc]
        rw [written, read]
        omega

end Assets

theorem take_taken (u r : Text) : (u ++ r).take ((u ++ r).taken r) = u := by
  rw [Text.taken, List.length_append, Nat.add_sub_cancel, List.take_left]

theorem equals?_suffix {t rest : Text} (reads : equals? t = some rest) : rest <:+ t := by
  unfold equals? at reads
  split at reads
  case h_2 => cases reads
  case h_1 r shape =>
    cases reads
    exact (Text.trimStart_suffix r).trans
      ((shape ▸ List.suffix_cons '=' r).trans (Text.trimStart_suffix t))

/-- A source in an element: what stands before the path, the path, and its marks of quotation. -/
theorem exists_assetSource? {t source file rest : Text} {q : Char}
    (reads : assetSource? t = some (source, q, file, rest)) :
    ∃ folder c, t = source ++ q :: (folder ++ (file ++ c :: rest)) ∧ isQuote q = true ∧
      isQuote c = true := by
  obtain ⟨r, name, later⟩ := Option.bind_eq_some_iff.1 reads
  obtain ⟨word, src, sign⟩ := Option.bind_eq_some_iff.1 name
  have part : r <:+ t := (equals?_suffix sign).trans (Text.dropWord?_suffix src)
  split at later
  case h_2 => cases later
  case h_1 q' path =>
    split at later
    case isFalse => cases later
    case isTrue quote =>
      obtain ⟨path', asset, later⟩ := Option.bind_eq_some_iff.1 later
      obtain ⟨⟨file', rest'⟩, cut, later⟩ := Option.bind_eq_some_iff.1 later
      dsimp only at later
      split at later
      case isTrue => cases later
      case isFalse =>
        cases later
        obtain ⟨d, rfl, closing⟩ := Text.breakAt_append cut
        obtain ⟨folder, rfl⟩ := assetPathAnyCase?_suffix asset
        obtain ⟨before, rfl⟩ := part
        exact ⟨folder, d, by rw [take_taken], quote, closing⟩

/-- What `assetInTag?` finds. -/
theorem assetInTag?_append {inWord : Bool} {t before source file rest : Text} {q : Char}
    (found : assetInTag? inWord t = some (before, source, q, file, rest)) :
    ∃ u, t = before ++ u ∧ assetSource? u = some (source, q, file, rest) := by
  induction t generalizing inWord before with
  | nil => cases found
  | cons c r ih =>
    rw [assetInTag?] at found
    split at found
    case h_1 f here =>
      cases found
      cases inWord with
      | true => cases here
      | false => exact ⟨c :: r, rfl, here⟩
    case h_2 =>
      split at found
      case isTrue => cases found
      case isFalse =>
        obtain ⟨⟨before', f⟩, later, same⟩ := Option.map_eq_some_iff.1 found
        cases same
        obtain ⟨u, rfl, reads⟩ := ih later
        exact ⟨u, rfl, reads⟩

theorem tick_ne_quote {c : Char} (quote : isQuote c = true) : c ≠ '\x60' ∧ c ≠ '\n' := by
  constructor <;> rintro rfl <;> exact absurd quote (by decide)

theorem isInline_sourceAssetRule {site : Text} (noTick : '\x60' ∉ site) :
    IsInline (sourceAssetRule site) := by
  intro t new n applies
  have plain := Text.ticks_eq_zero.2 noTick
  obtain ⟨r, name, later⟩ := Option.bind_eq_some_iff.1 applies
  obtain ⟨⟨before, source, q, file, rest⟩, found, hit⟩ := Option.map_eq_some_iff.1 later
  cases hit
  split at found
  case isFalse => cases found
  case isTrue =>
    obtain ⟨v, rfl, length, -⟩ := Text.exists_dropWord? name
    obtain ⟨u, rfl, reads⟩ := assetInTag?_append found
    obtain ⟨folder, c, rfl, left, right⟩ := exists_assetSource? reads
    have start : (v ++ (before ++ (source ++ q :: (folder ++ (file ++ c :: rest))))).take 4 = v :=
      List.take_left' length
    refine ⟨v ++ (before ++ (source ++ q :: (folder ++ file))), c, rest, by simp, rfl,
      (tick_ne_quote right).2, ?_⟩
    have fewer := ticks_baseName_le file
    rw [start]
    simp only [ticks, List.count_append, List.count_cons, List.count_nil] at plain fewer ⊢
    simp [(tick_ne_quote left).1]
    omega

/-- The end of a void element. -/
theorem exists_voidEnd? {t rest : Text} (reads : voidEnd? t = some rest) :
    ∃ v, t = v ++ '>' :: rest := by
  obtain ⟨blanks, same⟩ := Text.trimStart_suffix t
  unfold voidEnd? at reads
  split at reads
  case h_1 r shape => cases reads; exact ⟨blanks, by rw [← shape, same]⟩
  case h_2 r shape =>
    cases reads
    exact ⟨blanks ++ ['/'], by rw [← same, shape]; simp⟩
  case h_3 => cases reads

theorem voidRest?_of_end {t rest : Text} (ends : voidEnd? t = some rest) :
    voidRest? t = some ([], rest) := by
  cases t with
  | nil => cases ends
  | cons c t =>
    cases t with
    | nil => exact congrArg (Option.map fun r => ([], r)) ends
    | cons d t => rw [voidRest?_cons_cons, ends]

/-- A slash goes with the character behind it. -/
theorem voidRest?_slash {d : Char} {t : Text} (goesOn : voidEnd? ('/' :: d :: t) = none) :
    voidRest? ('/' :: d :: t) = (voidRest? t).map fun p => ('/' :: d :: p.1, p.2) := by
  rw [voidRest?_cons_cons, goesOn]
  exact if_pos rfl

theorem voidRest?_cons {c : Char} {t : Text} (goesOn : voidEnd? (c :: t) = none) (other : c ≠ '/')
    (filled : t ≠ []) : voidRest? (c :: t) = (voidRest? t).map fun p => (c :: p.1, p.2) := by
  obtain ⟨d, t, rfl⟩ := List.exists_cons_of_ne_nil filled
  rw [voidRest?_cons_cons, goesOn]
  exact if_neg other

/-- The attributes of a void element, and its end behind them. -/
theorem exists_voidRest? {t attrs rest : Text} (reads : voidRest? t = some (attrs, rest)) :
    ∃ v, t = attrs ++ (v ++ '>' :: rest) := by
  have atEnd {t attrs rest r : Text} (ends : voidEnd? t = some r)
      (reads : voidRest? t = some (attrs, rest)) : ∃ v, t = attrs ++ (v ++ '>' :: rest) := by
    rw [voidRest?_of_end ends] at reads
    cases reads
    exact exists_voidEnd? ends
  induction t using List.twoStepInduction generalizing attrs with
  | nil => cases reads
  | singleton c =>
    obtain ⟨r, ends, -⟩ := Option.map_eq_some_iff.1 reads
    exact atEnd ends reads
  | cons_cons c d t ih ihd =>
    cases ends : voidEnd? (c :: d :: t) with
    | some r => exact atEnd ends reads
    | none =>
      by_cases slash : c = '/'
      · subst slash
        rw [voidRest?_slash ends] at reads
        obtain ⟨⟨attrs', rest'⟩, later, same⟩ := Option.map_eq_some_iff.1 reads
        cases same
        obtain ⟨v, rfl⟩ := ih later
        exact ⟨v, rfl⟩
      · rw [voidRest?_cons ends slash (List.cons_ne_nil d t)] at reads
        obtain ⟨⟨attrs', rest'⟩, later, same⟩ := Option.map_eq_some_iff.1 reads
        cases same
        obtain ⟨v, same⟩ := ihd d later
        exact ⟨v, by rw [same]; rfl⟩

theorem isInline_voidRule : IsInline voidRule := by
  intro t new n applies
  obtain ⟨name, -, applies⟩ := List.exists_of_findSome?_eq_some applies
  obtain ⟨r, word, later⟩ := Option.bind_eq_some_iff.1 applies
  obtain ⟨⟨attrs, rest⟩, found, hit⟩ := Option.map_eq_some_iff.1 later
  cases hit
  split at found
  case isFalse => cases found
  case isTrue =>
    obtain ⟨before, rfl⟩ := Text.dropWord?_suffix word
    obtain ⟨v, rfl⟩ := exists_voidRest? found
    refine ⟨before ++ (attrs ++ v), '>', rest, by simp, rfl, by decide, ?_⟩
    have fewer : ticks attrs.trimEnd ≤ ticks attrs :=
      (Text.trimEnd_isPrefix attrs).sublist.count_le _
    rw [take_taken]
    simp only [ticks, List.count_append, List.count_cons, List.count_nil] at fewer ⊢
    simp
    omega

/-! ## The prose of a line -/

section NormalizeInline

variable {site : Text} (noTick : '\x60' ∉ site)
include noTick

theorem ticks_normalizeInline_le (part : Text) : ticks (normalizeInline site part) ≤ ticks part :=
  (isInline_voidRule.ticks_rewrite_le _).trans
    (((isInline_sourceAssetRule noTick).ticks_rewrite_le _).trans
      ((isInline_imageAssetRule noTick).ticks_rewrite_le _))

theorem getLast?_normalizeInline {part : Text} (feed : part.getLast? = some '\n') :
    (normalizeInline site part).getLast? = some '\n' :=
  Text.getLast?_rewrite isInline_voidRule.stopsInLine
    (Text.getLast?_rewrite (isInline_sourceAssetRule noTick).stopsInLine
      (Text.getLast?_rewrite (isInline_imageAssetRule noTick).stopsInLine feed))

end NormalizeInline

end MdxPress.Html
