import MdxPress.Link.Rewrite
import MdxPress.Proofs.CodeSpan
import MdxPress.Proofs.Fence.Opener
import MdxPress.Proofs.Text.Part

/-!
Links on a line, before and after they are rewritten.  A link loses the extension of its target and
the blanks around it, and nothing else: it still begins and ends where it did, and no backtick and no
line break is added or lost.

* `Link.ofStart?_eq_some` and `Link.isRead_of_ofStart?` say what a link that was read looks like;
* `Link.Renews` compares a link with what is written for it;
* `Text.Relinked` compares whole texts, and `Text.relinked_mapOutsideCode` is the line.
-/

namespace MdxPress

namespace Link

/-! ## Links as they stand in a page -/

/-- The target with its brackets, if it has any. -/
def shown (l : Link) : Text :=
  if l.bracketed then '<' :: l.target ++ ['>'] else l.target

/-- A link as it stands in a page, with the blanks before its target and those before its end. -/
def written (l : Link) (before behind : Text) : Text :=
  (if l.isImage then ['!'] else []) ++
    ('[' :: (l.label ++ ("](".toList ++ (before ++ (l.shown ++ (l.title ++ (behind ++ [')'])))))))

section Reading

variable {t rest : Text}

theorem ending?_eq_some {title : Text} (read : ending? t = some (title, rest)) :
    ∃ behind : Text, t = title ++ (behind ++ ')' :: rest) ∧ behind.allBlank = true := by
  have cut : t.indentation ++ t.drop t.indentation.length = t :=
    List.prefix_iff_eq_append.1 (List.takeWhile_prefix isBlank)
  have blank : t.indentation.allBlank = true := List.all_takeWhile
  dsimp only [ending?] at read
  split at read
  case h_1 r same =>
    cases read
    exact ⟨t.indentation, by rw [← same, List.nil_append, cut], blank⟩
  case h_2 r same =>
    split at read
    case isTrue => cases read
    case isFalse =>
      obtain ⟨⟨inside, behind⟩, quote, closes⟩ := Option.bind_eq_some_iff.1 read
      obtain ⟨c, whole, isQuote⟩ := Text.breakAt_append quote
      obtain rfl : c = '"' := by simpa using isQuote
      dsimp only at closes whole
      split at closes
      case h_1 after trimmed =>
        cases closes
        refine ⟨behind.indentation, ?_, List.all_takeWhile⟩
        have parts : behind.indentation ++ ')' :: rest = behind := by
          rw [← trimmed]
          exact List.takeWhile_append_dropWhile
        calc t = t.indentation ++ '"' :: r := by rw [← same, cut]
          _ = t.indentation ++ '"' :: (inside ++ '"' :: behind) := by rw [whole]
          _ = t.indentation ++ '"' :: inside ++ ['"'] ++ (behind.indentation ++ ')' :: rest) := by
            rw [parts]
            simp
      case h_2 => cases closes
  case h_3 => cases read

theorem bracketedTarget?_eq_some {target title : Text}
    (read : bracketedTarget? t = some (target, title, rest)) :
    ∃ behind : Text, t = '<' :: target ++ ['>'] ++ (title ++ (behind ++ ')' :: rest)) ∧
      behind.allBlank = true := by
  unfold bracketedTarget? at read
  split at read
  case h_2 => cases read
  case h_1 r =>
    split at read
    case h_2 => cases read
    case h_1 c cs after broken =>
      split at read
      case isFalse => cases read
      case isTrue closes =>
        obtain ⟨⟨title', rest'⟩, ends, same⟩ := Option.map_eq_some_iff.1 read
        cases same
        obtain ⟨d, whole, -⟩ := Text.breakAt_append broken
        obtain rfl : d = '>' := by
          rw [← whole] at closes
          simpa using closes
        obtain ⟨behind, rfl, blank⟩ := ending?_eq_some ends
        exact ⟨behind, by rw [← whole]; simp, blank⟩

theorem bareTarget?_eq_some {target title : Text}
    (read : bareTarget? t = some (target, title, rest)) :
    ∃ behind : Text, t = target ++ (title ++ (behind ++ ')' :: rest)) ∧
      behind.allBlank = true := by
  dsimp only [bareTarget?] at read
  split at read
  case isTrue => cases read
  case isFalse =>
    obtain ⟨⟨title', rest'⟩, ends, same⟩ := Option.map_eq_some_iff.1 read
    cases same
    obtain ⟨behind, after, blank⟩ := ending?_eq_some ends
    refine ⟨behind, ?_, blank⟩
    rw [← after]
    exact (List.prefix_iff_eq_append.1 (List.takeWhile_prefix _)).symm

theorem afterBracket?_eq_some {isImage : Bool} {l : Link}
    (read : afterBracket? isImage t = some (l, rest)) :
    ∃ before behind : Text, (if isImage then ['!'] else []) ++ '[' :: t =
        l.written before behind ++ rest ∧
      l.isImage = isImage ∧ before.allBlank = true ∧ behind.allBlank = true := by
  obtain ⟨⟨label, opened⟩, broken, inside⟩ := Option.bind_eq_some_iff.1 read
  obtain ⟨c, whole, bracket⟩ := Text.breakAt_append broken
  obtain rfl : c = ']' := by simpa using bracket
  dsimp only at inside whole
  split at inside
  case h_2 => cases inside
  case h_1 r =>
    obtain ⟨before, cut, blank⟩ : ∃ before : Text, r = before ++ Text.trimStart r ∧
        before.allBlank = true :=
      ⟨Text.indentation r, List.takeWhile_append_dropWhile.symm, List.all_takeWhile⟩
    split at inside
    case h_1 target title after bracketed =>
      cases inside
      obtain ⟨behind, same, ends⟩ := bracketedTarget?_eq_some bracketed
      refine ⟨before, behind, ?_, rfl, blank, ends⟩
      rw [← whole, cut, same]
      simp [written, shown]
    case h_2 =>
      obtain ⟨⟨target, title, after⟩, bare, same⟩ := Option.map_eq_some_iff.1 inside
      cases same
      obtain ⟨behind, same, ends⟩ := bareTarget?_eq_some bare
      refine ⟨before, behind, ?_, rfl, blank, ends⟩
      rw [← whole, cut, same]
      simp [written, shown]

/-- **A link that was read stands in the text**, with blanks around its target. -/
theorem ofStart?_eq_some {l : Link} (read : ofStart? t = some (l, rest)) :
    ∃ before behind : Text, t = l.written before behind ++ rest ∧
      before.allBlank = true ∧ behind.allBlank = true := by
  unfold ofStart? at read
  split at read
  case h_1 r =>
    obtain ⟨before, behind, same, -, blanks⟩ := afterBracket?_eq_some read
    exact ⟨before, behind, same, blanks⟩
  case h_2 r _ =>
    obtain ⟨before, behind, same, -, blanks⟩ := afterBracket?_eq_some read
    exact ⟨before, behind, same, blanks⟩
  case h_3 => cases read

/-! ### The parts of a link that was read -/

/-- A title as it is read: nothing, or blanks and a text between quotation marks. -/
def IsTitle (title : Text) : Prop :=
  title = [] ∨ ∃ blanks inside : Text, title = blanks ++ '"' :: (inside ++ ['"']) ∧
    blanks.allBlank = true

/-- What the parts of a link that was read avoid: each of them ends where the next begins. -/
structure IsRead (l : Link) : Prop where
  label : ']' ∉ l.label
  target : l.bracketed = false → ')' ∉ l.target
  title : IsTitle l.title

theorem isTitle_of_ending? {title : Text} (read : ending? t = some (title, rest)) : IsTitle title := by
  dsimp only [ending?] at read
  split at read
  case h_1 => cases read; exact .inl rfl
  case h_2 =>
    split at read
    case isTrue => cases read
    case isFalse =>
      obtain ⟨⟨inside, behind⟩, -, closes⟩ := Option.bind_eq_some_iff.1 read
      dsimp only at closes
      split at closes
      case h_1 =>
        cases closes
        exact .inr ⟨t.indentation, inside, by simp, List.all_takeWhile⟩
      case h_2 => cases closes
  case h_3 => cases read

theorem isRead_of_afterBracket? {isImage : Bool} {l : Link}
    (read : afterBracket? isImage t = some (l, rest)) : l.IsRead := by
  obtain ⟨⟨label, opened⟩, broken, inside⟩ := Option.bind_eq_some_iff.1 read
  have noBracket : ']' ∉ label := fun mem => by simpa using Text.breakAt_avoids broken _ mem
  dsimp only at inside
  split at inside
  case h_2 => cases inside
  case h_1 r =>
    split at inside
    case h_1 target title after bracketed =>
      cases inside
      refine ⟨noBracket, nofun, ?_⟩
      unfold bracketedTarget? at bracketed
      split at bracketed
      case h_2 => cases bracketed
      case h_1 =>
        split at bracketed
        case h_2 => cases bracketed
        case h_1 =>
          split at bracketed
          case isFalse => cases bracketed
          case isTrue =>
            obtain ⟨⟨title', rest'⟩, ends, same⟩ := Option.map_eq_some_iff.1 bracketed
            cases same
            exact isTitle_of_ending? ends
    case h_2 =>
      obtain ⟨⟨target, title, after⟩, bare, same⟩ := Option.map_eq_some_iff.1 inside
      cases same
      dsimp only [bareTarget?] at bare
      split at bare
      case isTrue => cases bare
      case isFalse =>
        obtain ⟨⟨title', rest'⟩, ends, same⟩ := Option.map_eq_some_iff.1 bare
        cases same
        refine ⟨noBracket, fun _ mem => ?_, isTitle_of_ending? ends⟩
        simpa using List.mem_takeWhile_imp mem

/-- **The parts of a link that was read.** -/
theorem isRead_of_ofStart? {l : Link} (read : ofStart? t = some (l, rest)) : l.IsRead := by
  unfold ofStart? at read
  split at read
  case h_1 => exact isRead_of_afterBracket? read
  case h_2 => exact isRead_of_afterBracket? read
  case h_3 => cases read

end Reading

end Link

/-! ## Targets without their extension -/

/-- The path of a target without its extension: what stands before the anchor. -/
def Target.bare (t : Text) : Text :=
  Name.stripExtension (((Text.breakAt (· = '#') t).map (·.1)).getD t)

/-- An extension of a document, as it is written. -/
def Target.IsExtension (ending : Text) : Prop :=
  ending = ".md".toList ∨ ending = ".mdx".toList

theorem Name.stripExtension_cases (t : Text) :
    stripExtension t = t ∨ ∃ ending, Target.IsExtension ending ∧ stripExtension t ++ ending = t := by
  unfold stripExtension
  cases short : Text.dropEnd? ".md".toList t with
  | some r => exact .inr ⟨_, .inl rfl, Text.dropEnd?_append short⟩
  | none =>
    cases long : Text.dropEnd? ".mdx".toList t with
    | some r => exact .inr ⟨_, .inr rfl, Text.dropEnd?_append long⟩
    | none => exact .inl rfl

/-- **What a rewritten target loses**: the extension of its path, behind which there is an anchor or
nothing. -/
theorem Target.stripped?_eq_some {t u : Text} (strips : stripped? t = some u) :
    ∃ ending anchor, IsExtension ending ∧ (∀ c ∈ anchor.head?, c = '#') ∧
      t = bare t ++ (ending ++ anchor) ∧ u = bare t ++ anchor := by
  have pieces (path anchor : Text) (same : bare t = Name.stripExtension path)
      (whole : path ++ anchor = t) (hash : ∀ c ∈ anchor.head?, c = '#')
      (strips : (if (Name.stripExtension path).length = path.length then none
        else some (Name.stripExtension path ++ anchor)) = some u) :
      ∃ ending anchor, IsExtension ending ∧ (∀ c ∈ anchor.head?, c = '#') ∧
        t = bare t ++ (ending ++ anchor) ∧ u = bare t ++ anchor := by
    rcases Name.stripExtension_cases path with none_ | ⟨ending, isExtension, cut⟩
    · rw [none_, if_pos rfl] at strips
      cases strips
    · split at strips
      case isTrue => cases strips
      case isFalse =>
        cases strips
        refine ⟨ending, anchor, isExtension, hash, ?_, by rw [same]⟩
        rw [same, ← List.append_assoc, cut, whole]
  unfold stripped? at strips
  split at strips
  case isTrue => cases strips
  case isFalse =>
    cases broken : Text.breakAt (· = '#') t with
    | none =>
      rw [broken] at strips
      exact pieces t [] (by rw [bare, broken]; rfl) (List.append_nil t) nofun strips
    | some p =>
      rw [broken] at strips
      obtain ⟨c, whole, hash⟩ := Text.breakAt_append broken
      obtain rfl : c = '#' := by simpa using hash
      exact pieces p.1 ('#' :: p.2) (by rw [bare, broken]; rfl) whole (by simp) strips

/-- A target loses a piece of its own without backticks. -/
theorem Target.exists_of_stripped? {t u : Text} (strips : stripped? t = some u) :
    ∃ bare ending anchor : Text, t = bare ++ (ending ++ anchor) ∧ u = bare ++ anchor ∧
      '\x60' ∉ ending := by
  obtain ⟨ending, anchor, isExtension, -, whole, rest⟩ := stripped?_eq_some strips
  refine ⟨bare t, ending, anchor, whole, rest, ?_⟩
  rcases isExtension with rfl | rfl <;> decide

namespace Link

/-! ## Links that are rewritten -/

/-- A link `old` and the text `new` that is written for it. -/
structure Renews (old new : Text) : Prop where
  opens : old.head? = some '[' ∧ new.head? = some '['
  ends : old.getLast? = some ')' ∧ new.getLast? = some ')'
  ticks : new.count '\x60' = old.count '\x60'
  subset : new ⊆ old

theorem render_eq_written (l : Link) (target : Text) :
    l.render target = { l with isImage := false, target := target }.written [] [] := by
  cases bracketed : l.bracketed <;> simp [render, written, shown, bracketed]

theorem count_tick_eq_zero {t : Text} (blank : t.allBlank = true) : t.count '\x60' = 0 :=
  List.count_eq_zero.2 (Text.not_mem_of_allBlank blank (by decide))

theorem count_tick_written (l : Link) {before behind : Text} (left : before.allBlank = true)
    (right : behind.allBlank = true) :
    (l.written before behind).count '\x60' =
      l.label.count '\x60' + (l.target.count '\x60' + l.title.count '\x60') := by
  have sign : (if l.isImage then ['!'] else []).count '\x60' = 0 := by
    cases l.isImage <;> rfl
  have target : l.shown.count '\x60' = l.target.count '\x60' := by
    unfold shown
    split <;> simp
  simp [written, count_tick_eq_zero left, count_tick_eq_zero right, sign, target]

theorem getLast?_written (l : Link) (before behind : Text) :
    (l.written before behind).getLast? = some ')' := by
  have cut : l.written before behind = (if l.isImage then ['!'] else []) ++
      ('[' :: (l.label ++ ("](".toList ++ (before ++ (l.shown ++ (l.title ++ behind)))))) ++
      [')'] := by
    simp [written]
  rw [cut, List.getLast?_concat]

/-- **What is written for a link that is rewritten.** -/
theorem renews_of_rewritten? {l : Link} {new before behind : Text}
    (rewrites : l.rewritten? = some new) (left : before.allBlank = true)
    (right : behind.allBlank = true) : Renews (l.written before behind) new := by
  unfold rewritten? at rewrites
  split at rewrites
  case isTrue => cases rewrites
  case isFalse link =>
    obtain ⟨target, strips, rfl⟩ := Option.map_eq_some_iff.1 rewrites
    obtain ⟨bare, ending, anchor, whole, rfl, noTick⟩ := Target.exists_of_stripped? strips
    have noSign : l.isImage = false := by simpa using link
    rw [render_eq_written]
    refine ⟨⟨by simp [written, noSign], rfl⟩,
      ⟨getLast?_written _ _ _, getLast?_written _ _ _⟩, ?_, ?_⟩
    · rw [count_tick_written _ rfl rfl, count_tick_written _ left right, whole]
      simp [List.count_eq_zero.2 noTick]
    · intro c mem
      cases bracketed : l.bracketed <;>
        · simp only [written, shown, bracketed, noSign, whole, Bool.false_eq_true, if_false,
            if_true, List.nil_append, List.mem_cons, List.mem_append, List.cons_append] at mem ⊢
          grind

/-- The rule for links covers a text that begins a link, and copies or renews it. -/
theorem exists_of_rule {t new : Text} {n : Nat} (applies : rule t = some (new, n)) :
    ∃ old rest : Text, t = old ++ rest ∧ n = old.length ∧ old ≠ [] ∧
      (new = old ∨ Renews old new) := by
  obtain ⟨⟨l, rest⟩, read, same⟩ := Option.map_eq_some_iff.1 applies
  obtain ⟨before, behind, rfl, left, right⟩ := ofStart?_eq_some read
  have taken : Text.taken (l.written before behind ++ rest) rest =
      (l.written before behind).length := by
    simp [Text.taken]
  cases same
  refine ⟨_, rest, rfl, taken, by simp [written], ?_⟩
  cases rewrites : l.rewritten? with
  | none => exact .inl (by simp [taken])
  | some new => exact .inr (renews_of_rewritten? rewrites left right)

end Link

/-! ## Texts with some of their links rewritten -/

/-- A text, and the text in which some of its links are rewritten. -/
inductive Text.Relinked : Text → Text → Prop
  | nil : Relinked [] []
  | same (c : Char) {t u : Text} (rest : Relinked t u) : Relinked (c :: t) (c :: u)
  | link {old new t u : Text} (renews : Link.Renews old new) (rest : Relinked t u) :
      Relinked (old ++ t) (new ++ u)

namespace Text.Relinked

variable {t u v w : Text}

theorem append_left (a : Text) (h : Relinked t u) : Relinked (a ++ t) (a ++ u) := by
  induction a with
  | nil => exact h
  | cons c a ih => exact .same c ih

theorem refl (t : Text) : Relinked t t := by
  simpa using append_left t .nil

theorem append (left : Relinked t u) (right : Relinked v w) : Relinked (t ++ v) (u ++ w) := by
  induction left with
  | nil => exact right
  | same c _ ih => exact .same c ih
  | link renews _ ih => simpa [List.append_assoc] using Relinked.link renews ih

theorem getLast?_eq (h : Relinked t u) : u.getLast? = t.getLast? := by
  induction h with
  | nil => rfl
  | same c _ ih => simp [List.getLast?_cons, ih]
  | link renews _ ih => rw [List.getLast?_append, List.getLast?_append, ih, renews.ends.1,
      renews.ends.2]

theorem count_tick (h : Relinked t u) : u.count '\x60' = t.count '\x60' := by
  induction h with
  | nil => rfl
  | same c _ ih => rw [List.count_cons, List.count_cons, ih]
  | link renews _ ih => rw [List.count_append, List.count_append, ih, renews.ticks]

theorem subset (h : Relinked t u) : u ⊆ t := by
  induction h with
  | nil => exact List.Subset.refl _
  | same c _ ih => exact List.cons_subset_cons c ih
  | link renews _ ih =>
    exact List.append_subset.2 ⟨fun c mem => List.mem_append_left _ (renews.subset mem),
      fun c mem => List.mem_append_right _ (ih mem)⟩

/-- No link reaches into what stands behind the last parenthesis. -/
theorem of_concat {c : Char} (other : c ≠ ')') (h : Relinked (t ++ [c]) u) :
    ∃ v, u = v ++ [c] ∧ Relinked t v := by
  generalize whole : t ++ [c] = s at h
  induction h generalizing t with
  | nil => simp at whole
  | @same d s u rest ih =>
    cases t with
    | nil =>
      cases whole
      have empty : u = [] := by simpa using rest.getLast?_eq
      exact ⟨[], by rw [empty]; rfl, .nil⟩
    | cons e t =>
      obtain ⟨rfl, later⟩ := List.cons.inj whole
      obtain ⟨v, rfl, kept⟩ := ih later
      exact ⟨e :: v, rfl, .same e kept⟩
  | @link old new s u renews rest ih =>
    rcases List.eq_nil_or_concat s with rfl | ⟨s, d, rfl⟩
    · have last := congrArg List.getLast? whole
      rw [List.getLast?_concat, List.append_nil, renews.ends.1] at last
      exact (other (Option.some.inj last)).elim
    · rw [List.concat_eq_append, ← List.append_assoc] at whole
      obtain ⟨rfl, same⟩ := List.append_inj' whole rfl
      obtain rfl := List.singleton_inj.1 same
      obtain ⟨v, rfl, kept⟩ := ih (List.concat_eq_append).symm
      exact ⟨new ++ v, by simp, .link renews kept⟩

theorem of_append {ending : Text} (noParenthesis : ')' ∉ ending) (h : Relinked (t ++ ending) u) :
    ∃ v, u = v ++ ending ∧ Relinked t v := by
  induction ending generalizing t with
  | nil => exact ⟨u, (List.append_nil u).symm, by simpa using h⟩
  | cons c ending ih =>
    have other : c ≠ ')' := by rintro rfl; exact noParenthesis (.head _)
    have cut : t ++ c :: ending = t ++ [c] ++ ending := by simp
    obtain ⟨v, rfl, kept⟩ := ih (fun mem => noParenthesis (.tail _ mem)) (cut ▸ h)
    obtain ⟨w, rfl, rest⟩ := kept.of_concat other
    exact ⟨w, by simp, rest⟩

/-- Two such texts are equal, or differ behind the bracket of a link. -/
theorem eq_or_branch (h : Relinked t u) :
    t = u ∨ ∃ p v w : Text, t = p ++ '[' :: v ∧ u = p ++ '[' :: w := by
  induction h with
  | nil => exact .inl rfl
  | same c _ ih =>
    rcases ih with rfl | ⟨p, v, w, rfl, rfl⟩
    · exact .inl rfl
    · exact .inr ⟨c :: p, v, w, rfl, rfl⟩
  | @link old new t u renews _ _ =>
    obtain ⟨v, rfl⟩ := List.head?_eq_some_iff.1 renews.opens.1
    obtain ⟨w, rfl⟩ := List.head?_eq_some_iff.1 renews.opens.2
    exact .inr ⟨[], v ++ t, w ++ u, rfl, rfl⟩

/-- A line that opens no fence opens none when its links are rewritten. -/
theorem opener_eq_none (h : Relinked t u) (noOpener : FenceOpener.ofLine? t = none) :
    FenceOpener.ofLine? u = none := by
  rcases h.eq_or_branch with rfl | ⟨p, v, w, rfl, rfl⟩
  · exact noOpener
  · have count := h.count_tick
    simp only [List.count_append, List.count_cons] at count
    have ticks : '\x60' ∈ v → '\x60' ∈ w := by
      rw [← List.count_pos_iff, ← List.count_pos_iff]
      omega
    rw [Option.eq_none_iff_forall_ne_some]
    intro o opens
    obtain ⟨o', was⟩ := FenceOpener.exists_ofLine?_of_branch (by decide) (by decide) ticks opens
    rw [noOpener] at was
    cases was

end Text.Relinked

namespace Text

theorem relinked_rewriteFrom (skip : Nat) (t : Text) :
    Relinked (t.drop skip) (rewriteFrom Link.rule skip t) := by
  induction t generalizing skip with
  | nil => cases skip <;> exact .nil
  | cons c r ih =>
    cases skip with
    | succ skip => exact ih skip
    | zero =>
      rw [List.drop_zero, rewriteFrom]
      split
      case h_2 => exact .same c (ih 0)
      case h_1 new n applies =>
        obtain ⟨old, rest, whole, rfl, filled, written⟩ := Link.exists_of_rule applies
        obtain ⟨d, old, rfl⟩ := List.exists_cons_of_ne_nil filled
        have behind : r.drop old.length = rest := by
          rw [(List.cons.inj whole).2]
          exact List.drop_left
        have later := ih old.length
        rw [behind] at later
        rw [whole]
        rcases written with rfl | renews
        · exact later.append_left _
        · exact .link renews later

/-- **A text and its rewritten form.** -/
theorem relinked_rewrite (t : Text) : Relinked t (rewrite Link.rule t) :=
  relinked_rewriteFrom 0 t

/-- Links are rewritten outside inline code. -/
theorem relinked_mapOutsideCode (t : Text) : Relinked t (mapOutsideCode (rewrite Link.rule) t) := by
  conv => lhs; rw [← flatMap_text_codeSpans t]
  rw [mapOutsideCode]
  induction t.codeSpans with
  | nil => exact .nil
  | cons s ss ih =>
    rw [List.flatMap_cons, List.flatMap_cons]
    refine Relinked.append ?_ ih
    cases s.isCode with
    | true => exact .refl _
    | false => exact relinked_rewrite _

end Text
end MdxPress
