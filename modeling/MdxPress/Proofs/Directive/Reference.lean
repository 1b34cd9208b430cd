import MdxPress.Directive.Reference
import MdxPress.Proofs.Marker.Inert

/-!
References are inert: a card, an embedded URL or a link shows texts and targets as they were given,
or in another case, and nothing in it is taken for a marker or for code.

* `Reference.inert_card`, `Reference.isProse_link` are the two shapes;
* `Reference.linkLabel?_line` reads the link that a content reference holds.
-/

namespace MdxPress

theorem Name.stripExtension_isPrefix (t : Text) : Name.stripExtension t <+: t := by
  unfold Name.stripExtension
  cases md : Text.dropEnd? ".md".toList t with
  | some r => exact Text.dropEnd?_isPrefix md
  | none =>
    cases mdx : Text.dropEnd? ".mdx".toList t with
    | some r => exact Text.dropEnd?_isPrefix mdx
    | none => exact List.prefix_rfl

namespace Target

theorem lastSegment_part (t : Text) : lastSegment t <:+: t := by
  have last : ∀ path : Text,
      ((Text.splitOn (· = '/') (Text.dropEndWhile (· = '/') path)).getLast?).getD [] <:+: path := by
    intro path
    cases found : (Text.splitOn (· = '/') (Text.dropEndWhile (· = '/') path)).getLast? with
    | none => exact List.nil_infix
    | some piece =>
      exact (Text.splitOn_part (List.mem_of_getLast? found)).trans
        (Text.dropEndWhile_isPrefix _ path).isInfix
  have path : ∀ u : Text, u <:+: t.takeWhile (fun c => c ≠ '?' && c ≠ '#') → u <:+: t := by
    intro u part
    have start : t.takeWhile (fun c => c ≠ '?' && c ≠ '#') <+: t := List.takeWhile_prefix _
    exact part.trans start.isInfix
  unfold lastSegment
  dsimp only
  split
  case h_1 before rest cut =>
    have inner : rest <:+: t.takeWhile (fun c => c ≠ '?' && c ≠ '#') := by
      rw [← Text.breakOn_append cut]
      exact (List.suffix_append _ _).isInfix
    split
    case h_1 before p behind =>
      obtain ⟨c, same, -⟩ := Text.breakAt_append behind
      have tail : p <:+: rest := by
        rw [← same]
        exact ⟨before ++ [c], [], by simp⟩
      exact (last p).trans (path _ (tail.trans inner))
    case h_2 => exact List.nil_infix
  case h_2 => exact (last _).trans (path _ (List.infix_refl _))

end Target

namespace Text

theorem isForm_ite_space {c : Char} (p : Prop) [Decidable p] :
    IsForm c [if p then ' ' else c] := by
  split
  · exact .of_not_sign (by decide)
  · exact .self c

namespace IsPlain

variable {t : Text}

theorem trim (plain : t.IsPlain) : (Text.trim t).IsPlain :=
  plain.of_part (trim_part t)

theorem stripExtension (plain : t.IsPlain) : (Name.stripExtension t).IsPlain :=
  plain.of_part (Name.stripExtension_isPrefix t).isInfix

theorem lastSegment (plain : t.IsPlain) : (Target.lastSegment t).IsPlain :=
  plain.of_part (Target.lastSegment_part t)

theorem titleCase (plain : t.IsPlain) : (Text.titleCase t).IsPlain :=
  plain.recased (recased_titleCase t)

theorem lower (plain : t.IsPlain) : (Text.lower t).IsPlain :=
  plain.recased (recased_lower t)

theorem humanize (plain : t.IsPlain) : (Name.humanize t).IsPlain :=
  (plain.trim.stripExtension.recased (.map (fun _ => isForm_ite_space _) _)).titleCase

theorem clean (plain : t.IsPlain) : (Target.clean t).IsPlain := by
  unfold Target.clean
  cases stripped : Target.stripped? t.trim with
  | none => exact plain.trim
  | some u =>
    simp only [Target.stripped?] at stripped
    split at stripped
    case isTrue => cases stripped
    case isFalse =>
      split at stripped
      case h_1 path anchor cut =>
        obtain ⟨c, same, sign⟩ := breakAt_append cut
        obtain rfl : c = '#' := by simpa using sign
        have whole : (path ++ '#' :: anchor).IsPlain := same ▸ plain.trim
        split at stripped
        case isTrue => cases stripped
        case isFalse =>
          cases stripped
          exact (whole.of_part (List.prefix_append _ _).isInfix).stripExtension.append
            (whole.of_part (List.suffix_append _ _).isInfix) (.inr (by simp))
      case h_2 =>
        split at stripped
        case isTrue => cases stripped
        case isFalse =>
          cases stripped
          rw [List.append_nil]
          exact plain.trim.stripExtension

/-- A plain text between two others, when neither meets it with a half of a delimiter. -/
theorem between {left right : Text} (plain : t.IsPlain) (before : left.IsPlain)
    (behind : right.IsPlain) (ends : left.getLast? ≠ some '{') (starts : right.head? ≠ some '%') :
    (left ++ t ++ right).IsPlain :=
  (before.append plain (.inl ends)).append behind (.inr starts)

end IsPlain

end Text

/-! ## Links -/

namespace Reference

theorem isProse_link {label target : Text} (shown : label.IsPlain) (leads : target.IsPlain) :
    (link label target).IsProse where
  toIsPlain := by
    have opening : Text.IsPlain ['['] := by decide
    have middle : Text.IsPlain "](".toList := by decide
    have closing : Text.IsPlain [')'] := by decide
    exact leads.between (shown.between opening middle (by decide) (by decide)) closing
      (by rw [List.getLast?_append]; simp) (by decide)
  start := by rintro c ⟨⟩; decide

/-! ## Cards -/

theorem dropHere_isSuffix (t : Text) : dropHere t <:+ t := by
  fun_induction dropHere t with
  | case1 r ih => exact ih.trans (List.suffix_append ['.', '/'] r)
  | case2 t => exact List.suffix_rfl

theorem isPlain_cardHref {clean : Text} (plain : clean.IsPlain) : (cardHref clean).IsPlain := by
  have slash : Text.IsPlain ['/'] := by decide
  unfold cardHref
  split
  · exact plain
  · exact slash.append (plain.of_part (dropHere_isSuffix clean).isInfix) (.inl (by decide))

/-- The texts of a card under the usual choices: curated, or made from a plain label. -/
theorem isPlain_cardText (clean : Text) {label : Text} (plain : label.IsPlain) :
    (cardText clean label .standard).1.IsPlain ∧ (cardText clean label .standard).2.IsPlain := by
  have curated : ∀ c ∈ DirectiveOptions.standard.curatedCards,
      c.title.IsPlain ∧ c.description.IsPlain := by
    refine List.forall_mem_cons.2 ⟨⟨?_, ?_⟩, List.forall_mem_cons.2 ⟨⟨?_, ?_⟩, List.forall_mem_nil _⟩⟩
    all_goals
      dsimp only
      rw [String.toList_ofList]
      decide +kernel
  unfold cardText
  split
  case h_1 c found => exact curated c (List.mem_of_find?_eq_some found)
  case h_2 =>
    have title : (Text.titleCase ((Name.stripExtension label.trim).map
        fun c => if c = '-' then ' ' else c)).IsPlain :=
      (plain.trim.stripExtension.recased (.map (fun _ => Text.isForm_ite_space _) _)).titleCase
    have lead : Text.IsPlain "Learn more about ".toList := by decide
    exact ⟨title, lead.append title.lower (.inl (by decide))⟩

theorem isProse_cardLine {left t right : Text} (plain : t.IsPlain)
    (before : left.IsPlain ∧ left.getLast? ≠ some '{' ∧ left.trimStart.head? = some '<')
    (behind : right.IsPlain ∧ right.head? ≠ some '%') : (left ++ t ++ right).IsProse where
  toIsPlain := plain.between before.1 behind.1 before.2.1 behind.2
  start c head := by
    have filled : left.trimStart ≠ [] := by
      intro empty
      rw [empty] at before
      cases before.2.2
    rw [List.append_assoc, Text.trimStart_append_of_filled filled, List.head?_append, before.2.2] at head
    cases head
    decide

theorem isProse_cardLines {href title description : Text} (leads : href.IsPlain)
    (shown : title.IsPlain) (described : description.IsPlain) :
    ∀ l ∈ cardLines href title description, l.IsProse := by
  simp only [cardLines, List.forall_mem_cons]
  refine ⟨?_, isProse_cardLine leads ?_ ?_, ?_, isProse_cardLine shown ?_ ?_,
    isProse_cardLine described ?_ ?_, ?_, ?_, ?_, ?_, List.forall_mem_nil _⟩
  -- Lists of characters are evaluated faster than the strings that they are read from.
  all_goals
    rw [String.toList_ofList]
    decide +kernel

/-- **A card is inert.** -/
theorem inert_card {href title description : Text} (leads : href.IsPlain)
    (shown : title.IsPlain) (described : description.IsPlain) :
    (card href title description ++ ['\n']).Inert := by
  have filled : cardLines href title description ≠ [] := List.cons_ne_nil _ _
  rw [card, Text.joinWith_feed filled]
  exact .of_lines (isProse_cardLines leads shown described)

/-! ## Conversions -/

/-- The link on a line of its own is found. -/
theorem linkLabel?_line {label : Text} (noBracket : ']' ∉ label) (target rest : Text) :
    linkLabel? ('\n' :: (link label target ++ rest)) = some label := by
  have line : link label target ++ rest =
      '[' :: (label ++ ']' :: '(' :: (target ++ ')' :: rest)) := by
    simp [link]
  have cut := Text.breakAt_of_not_mem (p := (· = ']')) (t := label) (c := ']')
    (Text.not_sign_of_not_mem noBracket) (by decide)
    ('(' :: (target ++ ')' :: rest))
  rw [line, linkLabel?]
  simp [Text.seek, cut]

variable {m : Marker}

/-- **A content reference becomes a card, which is inert.** -/
theorem exists_ofContentRef? {url label inner : Text} (named : m.attribute? "url".toList = some url)
    (holds : linkLabel? inner = some label) (leads : url.IsPlain) (shown : label.IsPlain) :
    ∃ new, ofContentRef? .standard m inner = some new ∧ Text.Inert (new ++ ['\n']) := by
  obtain ⟨title, description⟩ := isPlain_cardText (Target.clean url) shown
  refine ⟨_, ?_, inert_card (isPlain_cardHref leads.clean) title description⟩
  simp only [ofContentRef?, named, holds, Option.bind_some, Option.map_some]
  rfl

theorem isPlain_embedLabel {url : Text} (leads : url.IsPlain) :
    (embedLabel url .standard).IsPlain := by
  have labels : ∀ l ∈ DirectiveOptions.standard.embedLabels, l.label.IsPlain := by
    refine List.forall_mem_cons.2 ⟨?_, List.forall_mem_cons.2 ⟨?_,
      List.forall_mem_cons.2 ⟨?_, List.forall_mem_nil _⟩⟩⟩
    all_goals
      dsimp only
      rw [String.toList_ofList]
      decide +kernel
  unfold embedLabel
  split
  case h_1 l found => exact labels l (List.mem_of_find?_eq_some found)
  case h_2 =>
    dsimp only
    split
    · decide +kernel
    · exact (leads.lastSegment.recased (.map (fun _ => Text.isForm_ite_space _) _)).titleCase

/-- **An embedded URL becomes a link, which is inert.** -/
theorem exists_ofEmbed? {url : Text} (named : m.attribute? "url".toList = some url)
    (leads : url.IsPlain) :
    ∃ new, ofEmbed? .standard m = some new ∧ Text.Inert (new ++ ['\n']) := by
  refine ⟨_, ?_, .of_line (isProse_link (isPlain_embedLabel leads.trim) leads.trim)⟩
  rw [ofEmbed?, named]
  rfl

/-- **A page reference becomes a link, which is inert.** -/
theorem exists_ofPageRef? {page : Text} (named : m.attribute? "page".toList = some page)
    (leads : page.IsPlain) :
    ∃ new, ofPageRef? m = some new ∧ Text.Inert (new ++ ['\n']) := by
  refine ⟨_, ?_, .of_line (isProse_link leads.clean.lastSegment.humanize leads.clean)⟩
  rw [ofPageRef?, named]
  rfl

end Reference
end MdxPress
