import MdxPress.Proofs.Fence.SameCode
import MdxPress.Proofs.Link.Tags

/-!
Labels of links.  A link is read up to the first bracket that closes, on a line that is cut at its code
spans before.  So the link of a line is seen as a whole only where its label has neither brackets nor
code: behind an image, a nested bracket or a code span, no link begins any more that reaches the target.

* `Link.IsShut` says of a stretch that no link of it goes on behind it, and `Link.exists_rewrite_shut`
  that the end of a link is left alone behind such a stretch;
* `Link.ofStart?_plain` is the link with a plain label;
* `Link.rewriteLinks_line_iff` is the result, for every label whose brackets, code spans and targets end
  where they began;
* `Link.not_rewriteLinks_codeLabel` is a label with a code span.
-/

namespace MdxPress

namespace Link

/-! ## Stretches that shut their links -/

/-- Every bracket that a stretch opens is closed in it, and every target that begins in it ends. -/
structure IsShut (t : Text) : Prop where
  brackets : ∀ r, '[' :: r <:+ t → ']' ∈ r
  targets : ∀ r, ']' :: '(' :: r <:+ t → ')' ∈ r

theorem IsShut.of_suffix {t u : Text} (shut : IsShut t) (part : u <:+ t) : IsShut u where
  brackets r stands := shut.brackets r (stands.trans part)
  targets r stands := shut.targets r (stands.trans part)

section Shut

variable {t q rest : Text} {l : Link}

/-- A target that has ended, with its title and the end of its link, stands before any later end of a
link. -/
theorem exists_behind_target (read : l.IsRead) {before behind y : Text} (left : before.allBlank = true)
    (right : behind.allBlank = true) (noQuote : '"' ∉ q) (noAngle : '>' ∉ q) (ends : ')' ∈ y)
    (whole : before ++ (l.shown ++ (l.title ++ (behind ++ ')' :: rest))) = y ++ ']' :: q) :
    ∃ z, rest = z ++ ']' :: q := by
  obtain ⟨y, rfl, target⟩ :=
    Text.exists_behind_of_not_mem whole (Text.not_mem_of_allBlank left (by decide))
  have closes : ')' ∈ y :=
    (List.mem_append.1 ends).resolve_left (Text.not_mem_of_allBlank left (by decide))
  obtain ⟨y, rfl, title⟩ :
      ∃ x, y = l.shown ++ x ∧ l.title ++ (behind ++ ')' :: rest) = x ++ ']' :: q := by
    cases bracketed : l.bracketed with
    | true =>
      have last : l.shown.getLast? = some '>' := by
        rw [shown, if_pos bracketed, List.getLast?_concat]
      exact Text.exists_behind_of_getLast? target last (by simp [noAngle])
    | false =>
      have bare : l.shown = l.target := by simp [shown, bracketed]
      refine (Text.append_eq_append_sign target).resolve_right ?_
      rintro ⟨x, inside, -⟩
      refine read.target bracketed ?_
      rw [← bare, inside]
      exact List.mem_append_left _ closes
  obtain ⟨y, rfl, blanks⟩ : ∃ x, y = l.title ++ x ∧ behind ++ ')' :: rest = x ++ ']' :: q := by
    rcases read.title with none_ | ⟨blanks, inside, quoted, -⟩
    · exact ⟨y, by rw [none_]; rfl, by simpa [none_] using title⟩
    · have last : l.title.getLast? = some '"' := by
        rw [quoted, ← List.cons_append, ← List.append_assoc, List.getLast?_concat]
      exact Text.exists_behind_of_getLast? title last (by simp [noQuote])
  obtain ⟨y, rfl, closing⟩ :=
    Text.exists_behind_of_not_mem blanks (Text.not_mem_of_allBlank right (by decide))
  cases y with
  | nil => exact absurd (List.cons.inj closing).1 (by decide)
  | cons d z => exact ⟨z, (List.cons.inj closing).2⟩

/-- **A link that begins in a shut stretch ends in it**: the end of another link may follow. -/
theorem exists_behind_of_ofStart? (shut : IsShut t) (noQuote : '"' ∉ q) (noAngle : '>' ∉ q)
    (read : ofStart? (t ++ ']' :: '(' :: q) = some (l, rest)) : ∃ z, rest = z ++ ']' :: '(' :: q := by
  have isRead := isRead_of_ofStart? read
  obtain ⟨before, behind, whole, left, right⟩ := ofStart?_eq_some read
  have cut : ((if l.isImage then ['!'] else []) ++ '[' :: l.label) ++
      ']' :: '(' :: (before ++ (l.shown ++ (l.title ++ (behind ++ ')' :: rest)))) =
      t ++ ']' :: '(' :: q := by
    rw [whole, written]
    simp
  have noBracket : ']' ∉ (if l.isImage then ['!'] else []) ++ '[' :: l.label := by
    have absent := isRead.label
    cases l.isImage <;> simp [absent]
  obtain ⟨y, rfl, behindLabel⟩ := Text.exists_behind_of_not_mem cut noBracket
  rcases y with _ | ⟨d, _ | ⟨e, y⟩⟩
  · have opens : '[' :: l.label <:+ (if l.isImage then ['!'] else []) ++ '[' :: l.label ++ [] := by
      rw [List.append_nil]
      exact List.suffix_append _ _
    exact absurd (shut.brackets _ opens) isRead.label
  · exact absurd (List.cons.inj (List.cons.inj behindLabel).2).1 (by decide)
  · obtain ⟨rfl, behindBracket⟩ := List.cons.inj behindLabel
    obtain ⟨rfl, target⟩ := List.cons.inj behindBracket
    exact exists_behind_target isRead left right (by simp [noQuote]) (by simp [noAngle])
      (shut.targets y (List.suffix_append _ _)) target

/-- No link begins in the end of a link. -/
theorem rule_end_eq_none (noOpen : '(' ∉ q) {u : Text} (part : u <:+ ']' :: '(' :: q) : rule u = none := by
  rw [rule, Option.map_eq_none_iff, Option.eq_none_iff_forall_ne_some]
  rintro ⟨l, rest⟩ read
  obtain ⟨before, behind, whole, -⟩ := ofStart?_eq_some read
  have first : u.head? = some '!' ∨ u.head? = some '[' := by
    rw [whole, written]
    cases l.isImage
    · exact .inr rfl
    · exact .inl rfl
  rcases List.suffix_cons_iff.1 part with rfl | part
  · rcases first with same | same <;> cases same
  rcases List.suffix_cons_iff.1 part with rfl | part
  · rcases first with same | same <;> cases same
  · have stands : '(' ∈ u := by
      rw [whole, written]
      simp
    exact noOpen (part.mem stands)

/-- **The end of a link behind a shut stretch** is left alone. -/
theorem exists_rewrite_shut (shut : IsShut t) (noOpen : '(' ∉ q) (noQuote : '"' ∉ q) (noAngle : '>' ∉ q) :
    ∃ x, Text.rewrite rule (t ++ ']' :: '(' :: q) = x ++ ']' :: '(' :: q := by
  have kept : Text.rewrite rule (']' :: '(' :: q) = ']' :: '(' :: q :=
    Text.rewriteFrom_eq_self fun u part _ => rule_end_eq_none noOpen part
  have stops (u : Text) (part : u <:+ t) (_ : u ≠ []) (new : Text) (n : Nat)
      (applies : rule (u ++ ']' :: '(' :: q) = some (new, n)) : n ≤ u.length := by
    obtain ⟨⟨l, rest⟩, read, same⟩ := Option.map_eq_some_iff.1 applies
    obtain ⟨z, rfl⟩ := exists_behind_of_ofStart? (shut.of_suffix part) noQuote noAngle read
    obtain rfl : Text.taken (u ++ ']' :: '(' :: q) (z ++ ']' :: '(' :: q) = n := (Prod.mk.inj same).2
    simp only [Text.taken, List.length_append]
    omega
  obtain ⟨x, same⟩ := Text.exists_rewriteFrom_append stops (Nat.zero_le _)
  exact ⟨x, by rw [Text.rewrite, same, kept]⟩

end Shut

/-! ## Links with a plain label -/

/-- A link as it is mostly written: a label and a bare target. -/
def plain (label target : Text) : Link :=
  ⟨false, label, target, false, []⟩

theorem written_plain (label target : Text) :
    (plain label target).written [] [] = '[' :: (label ++ ']' :: '(' :: (target ++ [')'])) :=
  rfl

section Plain

variable {label target : Text}

/-- **A link with a plain label** is read as a whole. -/
theorem ofStart?_plain (noBracket : ']' ∉ label) (filled : target ≠ [])
    (noAngle : target.head? ≠ some '<') (ends : ∀ c ∈ target, c ≠ ')' ∧ isBlank c = false) (rest : Text) :
    ofStart? ((plain label target).written [] [] ++ rest) = some (plain label target, rest) := by
  obtain ⟨c, r, rfl⟩ := List.exists_cons_of_ne_nil filled
  have visible : isBlank c = false := (ends c (.head _)).2
  have cut : Text.breakAt (· = ']') (label ++ ']' :: '(' :: (c :: r ++ [')']) ++ rest) =
      some (label, '(' :: (c :: r ++ ')' :: rest)) := by
    rw [List.append_assoc, List.cons_append, List.cons_append, List.append_assoc,
      Text.breakAt_of_not_mem (Text.not_sign_of_not_mem noBracket) (by decide)]
    rfl
  have taken : List.takeWhile (fun d => !(d == ')' || isBlank d)) (c :: r ++ ')' :: rest) = c :: r := by
    rw [List.takeWhile_append_of_pos fun d mem => by simp [(ends d mem).1, (ends d mem).2]]
    simp
  have bare : bareTarget? (c :: r ++ ')' :: rest) = some (c :: r, [], rest) := by
    rw [bareTarget?, taken, List.drop_left]
    simp [ending?, Text.indentation, isBlank]
  have unbracketed : bracketedTarget? (c :: r ++ ')' :: rest) = none := by
    unfold bracketedTarget?
    split
    case h_1 same => exact absurd (congrArg List.head? same) noAngle
    case h_2 => rfl
  have trimmed : Text.trimStart (c :: r ++ ')' :: rest) = c :: r ++ ')' :: rest :=
    Text.trimStart_of_visible visible _
  rw [written_plain, List.cons_append, ofStart?, afterBracket?, cut, Option.bind_some]
  simp only [trimmed, unbracketed, bare, Option.map_some]
  rfl

end Plain

end Link

/-! ## Paths of pages -/

namespace Target

/-- A character of a path or of an anchor that needs no brackets around the target. -/
def isPlain (c : Char) : Bool :=
  !isBlank c && !"()\"'<>\x60#:".toList.contains c

/-- An anchor as it is written, or nothing. -/
def IsAnchor (t : Text) : Prop :=
  t = [] ∨ ∃ name : Text, t = '#' :: name ∧ name.all isPlain = true

theorem IsExtension.all_isPlain {ending : Text} (isExtension : IsExtension ending) :
    ending.all isPlain = true := by
  rcases isExtension with rfl | rfl <;> decide

theorem not_mem_of_isPlain {t : Text} {c : Char} (plain : t.all isPlain = true) (mark : isPlain c = false) :
    c ∉ t := by
  intro mem
  rw [List.all_eq_true.1 plain c mem] at mark
  cases mark

end Target

theorem Name.stripExtension_append {ending : Text} (isExtension : Target.IsExtension ending) (path : Text) :
    stripExtension (path ++ ending) = path := by
  rcases isExtension with rfl | rfl <;>
    simp [stripExtension, Text.dropEnd?, List.isPrefixOf?]

namespace Target

variable {path ending anchor : Text}

/-- A path of a page, the extension of its file and an anchor or none. -/
structure IsPage (path ending anchor : Text) : Prop where
  path : path.all isPlain = true
  ending : IsExtension ending
  anchor : IsAnchor anchor

namespace IsPage

/-- A mark stands nowhere in a target, if it begins no anchor. -/
theorem not_mem (page : IsPage path ending anchor) {c : Char} (mark : isPlain c = false) (noHash : c ≠ '#') :
    c ∉ path ++ ending ++ anchor := by
  have inPath := not_mem_of_isPlain page.path mark
  have inEnding := not_mem_of_isPlain page.ending.all_isPlain mark
  rcases page.anchor with rfl | ⟨name, rfl, plainName⟩
  · simp [inPath, inEnding]
  · simp [inPath, inEnding, noHash, not_mem_of_isPlain plainName mark]

theorem ending_ne_nil (page : IsPage path ending anchor) : ending ≠ [] := by
  rcases page.ending with rfl | rfl <;> decide

theorem isBlank_eq_false (page : IsPage path ending anchor) {c : Char} (mem : c ∈ path ++ ending ++ anchor) :
    isBlank c = false := by
  rw [Bool.eq_false_iff]
  intro blank
  refine page.not_mem (by simp [isPlain, blank]) ?_ mem
  rintro rfl
  cases blank

/-- **A path of a page is written without its extension**, whatever anchor follows it. -/
theorem stripped? (page : IsPage path ending anchor) :
    stripped? (path ++ ending ++ anchor) = some (path ++ anchor) := by
  have noHash : ∀ d ∈ path ++ ending, decide (d = '#') = false := by
    refine Text.not_sign_of_not_mem (not_mem_of_isPlain ?_ (c := '#') (by decide))
    rw [List.all_append, page.path, page.ending.all_isPlain]
    rfl
  have noScheme : hasScheme (path ++ ending ++ anchor) = false := by
    have noColon := page.not_mem (c := ':') (by decide) (by decide)
    rw [hasScheme, Text.breakAt_eq_none (Text.not_sign_of_not_mem noColon)]
  have longer : ¬ path.length = (path ++ ending).length := by
    have filled := List.length_pos_iff.2 page.ending_ne_nil
    rw [List.length_append]
    omega
  rw [Target.stripped?, noScheme, if_neg Bool.false_ne_true]
  rcases page.anchor with rfl | ⟨name, rfl, -⟩
  · rw [List.append_nil, Text.breakAt_eq_none noHash]
    dsimp only
    rw [Name.stripExtension_append page.ending, if_neg longer]
  · rw [Text.breakAt_of_not_mem noHash (by decide)]
    dsimp only
    rw [Name.stripExtension_append page.ending, if_neg longer]

end IsPage
end Target

/-! ## Lines with one link -/

/-- The links of a body that is one line of prose. -/
theorem rewriteLinks_line {l : Line} (whole : l.IsWhole) (filled : l.content ≠ [])
    (noFence : FenceOpener.ofLine? l.content = none) :
    rewriteLinks l.text = (l.text.mapOutsideCode (Text.rewrite Link.rule),
      total Link.countIn ((l.text.codeSpans.filter fun s => !s.isCode).map (·.text))) := by
  have lines : l.text.lines = [l] := Text.lines_text whole fun _ => filled
  have fenced : l.text.fenced = [⟨l, none, none⟩] := by
    simp [Text.fenced, lines, fencedLines, FenceState.next, noFence]
  have passes : (rewriteLinks l.text).1 = l.text.fenced.flatMap fun k => if k.isCode then k.line.text
      else k.line.text.mapOutsideCode (Text.rewrite Link.rule) := Text.mapProse_lines _ _
  have prose : l.text.prose = [l.text] := by
    simp [Text.prose, Text.segments, fenced, Segment.ofLines, FencedLine.isCode]
  refine Prod.ext ?_ ?_
  · rw [passes, fenced]
    simp [FencedLine.isCode]
  · rw [rewriteLinks, prose, List.flatMap_singleton, lines, List.flatMap_singleton]

namespace Link

/-- A label as it may stand in a link: on one line, with its backticks in pairs, and such that behind
them no bracket stays open and every target that begins also ends. -/
structure IsLabel (t : Text) : Prop where
  noFeed : '\n' ∉ t
  ticks : t.count '\x60' % 2 = 0
  brackets : ∀ u ∈ t.tails, '\x60' ∉ u → u.head? = some '[' → ']' ∈ u
  targets : ∀ u ∈ t.tails, '\x60' ∉ u → "](".toList <+: u → ')' ∈ u

instance (t : Text) : Decidable (IsLabel t) :=
  decidable_of_iff ('\n' ∉ t ∧ t.count '\x60' % 2 = 0 ∧
      (∀ u ∈ t.tails, '\x60' ∉ u → u.head? = some '[' → ']' ∈ u) ∧
      ∀ u ∈ t.tails, '\x60' ∉ u → "](".toList <+: u → ')' ∈ u)
    ⟨fun ⟨noFeed, ticks, brackets, targets⟩ => ⟨noFeed, ticks, brackets, targets⟩,
      fun h => ⟨h.noFeed, h.ticks, h.brackets, h.targets⟩⟩

/-- A label without brackets and code. -/
def IsPlainLabel (t : Text) : Prop :=
  ∀ c ∈ ['[', ']', '\x60'], c ∉ t

instance (t : Text) : Decidable (IsPlainLabel t) :=
  inferInstanceAs (Decidable (∀ c ∈ _, _))

variable {label path ending anchor w : Text}

/-- What stands behind the code of a label is shut. -/
theorem IsLabel.isShut (isLabel : IsLabel label) (part : w <:+ label) (noTick : '\x60' ∉ w) : IsShut w where
  brackets r stands := by
    have suffix := stands.trans part
    have closes := isLabel.brackets _ ((List.mem_tails _ _).2 suffix)
      (fun mem => noTick (stands.mem mem)) rfl
    simpa using closes
  targets r stands := by
    have suffix := stands.trans part
    have closes := isLabel.targets _ ((List.mem_tails _ _).2 suffix)
      (fun mem => noTick (stands.mem mem)) ⟨r, rfl⟩
    simpa using closes

/-- A label without code is shut with the bracket before it, if it has a bracket of its own. -/
theorem IsLabel.isShut_cons (isLabel : IsLabel label) (noTick : '\x60' ∉ label)
    (bracket : '[' ∈ label ∨ ']' ∈ label) : IsShut ('[' :: label) := by
  have inner := isLabel.isShut List.suffix_rfl noTick
  have closes : ']' ∈ label := by
    rcases bracket with opens | closes
    · obtain ⟨a, b, rfl⟩ := List.append_of_mem opens
      exact List.mem_append_right _ (.tail _ (inner.brackets b (List.suffix_append _ _)))
    · exact closes
  constructor
  · intro r stands
    rcases List.suffix_cons_iff.1 stands with same | stands
    · obtain ⟨-, rfl⟩ := List.cons.inj same
      exact closes
    · exact inner.brackets r stands
  · intro r stands
    rcases List.suffix_cons_iff.1 stands with same | stands
    · exact absurd (List.cons.inj same).1 (by decide)
    · exact inner.targets r stands

/-- **The end of a link behind brackets or code** is left alone. -/
theorem exists_mapOutsideCode_label (isLabel : IsLabel label) (marked : ¬ IsPlainLabel label) {q : Text}
    (noTick : '\x60' ∉ q) (noOpen : '(' ∉ q) (noQuote : '"' ∉ q) (noAngle : '>' ∉ q) :
    ∃ x, Text.mapOutsideCode (Text.rewrite rule) ('[' :: label ++ ']' :: '(' :: q) =
      x ++ ']' :: '(' :: q := by
  have paired : ('[' :: label).count '\x60' % 2 = 0 := by simpa using isLabel.ticks
  obtain ⟨v, w, cut, plain, codeBefore, same⟩ :=
    Text.exists_mapOutsideCode_append (f := Text.rewrite rule) paired
  have shut : IsShut w := by
    cases v with
    | nil =>
      obtain rfl : '[' :: label = w := cut
      have noTick : '\x60' ∉ label := fun mem => plain (.tail _ mem)
      refine isLabel.isShut_cons noTick (or_iff_not_imp_left.2 fun noOpening => ?_)
      by_contra noClosing
      exact marked (by simp [IsPlainLabel, noOpening, noClosing, noTick])
    | cons c v => exact isLabel.isShut ⟨v, (List.cons.inj cut).2.symm⟩ plain
  obtain ⟨x, kept⟩ := exists_rewrite_shut shut noOpen noQuote noAngle
  refine ⟨Text.mapOutsideCode (Text.rewrite rule) v ++ x, ?_⟩
  rw [same _ (by simp [noTick]) (by simp), kept, List.append_assoc]

/-- **A line that is one link** with a target that is stripped. -/
theorem rewriteLinks_of_ofStart? {l : Line} (whole : l.IsWhole) (filled : l.content ≠ [])
    (noFence : FenceOpener.ofLine? l.content = none) (noTick : '\x60' ∉ l.text) {k : Link} {new : Text}
    (read : ofStart? l.text = some (k, l.ending.text)) (rewrites : k.rewritten? = some new) :
    rewriteLinks l.text = (new ++ l.ending.text, 1) := by
  obtain ⟨c, r, text⟩ : ∃ c r, l.text = c :: r :=
    List.exists_cons_of_ne_nil (List.append_ne_nil_of_left_ne_nil filled _)
  have plain : l.text.codeSpans = [⟨l.text, false⟩] :=
    Text.codeSpans_of_noTick (by simp [text]) noTick
  rw [rewriteLinks_line whole filled noFence, Text.mapOutsideCode, plain, text]
  rw [text] at read
  obtain ⟨before, behind, -, -, -, applies, counts, behindLink⟩ := exists_of_reads read
  have changed : changes (c :: r) = some (true, (k.written before behind).length) := by
    rw [reads, read] at counts
    have taken : Text.taken (c :: r) l.ending.text = (k.written before behind).length :=
      (Prod.mk.inj (Option.some.inj counts)).2
    rw [changes, read, Option.map_some]
    dsimp only
    rw [rewrites, taken]
    rfl
  have idle : Text.rewrite rule l.ending.text = l.ending.text := by
    cases l.ending <;> rfl
  have noHits (pos : Nat) : Text.hitsFrom changes pos 0 l.ending.text = [] := by
    cases l.ending <;> rfl
  have written : Text.rewrite rule (c :: r) = new ++ l.ending.text := by
    rw [Text.rewrite, Text.rewriteFrom, applies, rewrites, Option.getD_some]
    dsimp only
    rw [Text.rewriteFrom_drop, behindLink, idle]
  have counted : countIn (c :: r) = 1 := by
    rw [countIn, Text.hits, Text.hitsFrom, changed]
    dsimp only
    rw [Text.hitsFrom_drop, behindLink, noHits]
    rfl
  simp [written, counted]

/-- A line that is one link. -/
def line (label target : Text) (e : Ending) : Line :=
  ⟨(plain label target).written [] [], e⟩

section Page

variable {label path ending anchor : Text} {e : Ending}

theorem text_line (label target : Text) (e : Ending) :
    (line label target e).text = '[' :: label ++ ']' :: '(' :: (target ++ ')' :: e.text) := by
  simp [Line.text, line, written_plain]

theorem opener_line (label target : Text) (e : Ending) :
    FenceOpener.ofLine? (line label target e).content = none := by
  have noFence : FenceOpener.ofLine? ([] ++ (plain label target).written [] []) = none :=
    FenceOpener.ofLine?_eq_none_of_head (List.forall_mem_nil _) (by rw [written_plain]; simp; decide)
  exact noFence

theorem isWhole_line (isLabel : IsLabel label) {target : Text} (noFeed : '\n' ∉ target) :
    (line label target e).IsWhole where
  noFeed := by simp [line, written_plain, isLabel.noFeed, noFeed]
  noReturn _ := by
    rw [line, getLast?_written]
    decide

/-- A mark stands nowhere behind the target of a page. -/
theorem not_mem_behind (page : Target.IsPage path ending anchor) {c : Char} (mark : Target.isPlain c = false)
    (noHash : c ≠ '#') (noClosing : c ≠ ')') (visible : isBlank c = false) :
    c ∉ path ++ ending ++ anchor ++ ')' :: e.text := by
  have noEnding : c ∉ e.text := fun mem => by
    rw [Ending.isBlank_of_mem mem] at visible
    cases visible
  rw [List.mem_append, List.mem_cons, not_or, not_or]
  exact ⟨page.not_mem mark noHash, noClosing, noEnding⟩

/-- A link with a plain label loses the extension of its target. -/
theorem rewriteLinks_line_of_plain (isLabel : IsLabel label) (page : Target.IsPage path ending anchor)
    (plainLabel : IsPlainLabel label) (e : Ending) :
    rewriteLinks (line label (path ++ ending ++ anchor) e).text =
      ((line label (path ++ anchor) e).text, 1) := by
  have noTick : '\x60' ∉ (line label (path ++ ending ++ anchor) e).text := by
    have behind := not_mem_behind (e := e) page (c := '\x60') (by decide) (by decide) (by decide) (by decide)
    rw [text_line, List.cons_append, List.mem_cons, List.mem_append, List.mem_cons, List.mem_cons]
    simp only [plainLabel '\x60' (by decide), behind, or_false]
    decide
  have filled : path ++ ending ++ anchor ≠ [] := by simp [page.ending_ne_nil]
  have noAngle : (path ++ ending ++ anchor).head? ≠ some '<' := fun first =>
    page.not_mem (c := '<') (by decide) (by decide) (List.mem_of_head? first)
  have ends (c : Char) (mem : c ∈ path ++ ending ++ anchor) : c ≠ ')' ∧ isBlank c = false := by
    refine ⟨?_, page.isBlank_eq_false mem⟩
    rintro rfl
    exact page.not_mem (c := ')') (by decide) (by decide) mem
  have read := ofStart?_plain (plainLabel ']' (by decide)) filled noAngle ends e.text
  have rewrites : (plain label (path ++ ending ++ anchor)).rewritten? =
      some ((plain label (path ++ anchor)).written [] []) := by
    simp only [rewritten?, plain, page.stripped?, Bool.false_eq_true, if_false, Option.map_some,
      render_eq_written]
  exact rewriteLinks_of_ofStart? (isWhole_line isLabel (page.not_mem (by decide) (by decide)))
    (List.cons_ne_nil _ _) (opener_line _ _ _) noTick read rewrites

/-- Two ends of links with different paths. -/
theorem append_end_ne {x y r : Text} (noOpen : '(' ∉ path ++ ending) (filled : ending ≠ []) :
    x ++ '(' :: (path ++ ending ++ r) ≠ y ++ '(' :: (path ++ r) := by
  intro same
  have cut : x ++ '(' :: (path ++ ending) = y ++ '(' :: path := by
    refine (List.append_left_inj r).1 ?_
    simpa [List.append_assoc] using same
  rcases Text.append_eq_append_sign cut with ⟨u, -, inner⟩ | ⟨u, -, inner⟩
  · cases u with
    | nil => exact filled (List.append_right_eq_self.1 (List.cons.inj inner).2)
    | cons d u => exact noOpen ((List.cons.inj inner).2 ▸ by simp)
  · exact noOpen (List.mem_append_left _ (inner ▸ by simp))

/-- A link with another label keeps the extension of its target. -/
theorem rewriteLinks_line_ne (isLabel : IsLabel label) (page : Target.IsPage path ending anchor)
    (marked : ¬ IsPlainLabel label) (e : Ending) :
    (rewriteLinks (line label (path ++ ending ++ anchor) e).text).1 ≠
      (line label (path ++ anchor) e).text := by
  obtain ⟨x, kept⟩ := exists_mapOutsideCode_label isLabel marked
    (not_mem_behind (e := e) page (by decide) (by decide) (by decide) (by decide))
    (not_mem_behind page (by decide) (by decide) (by decide) (by decide))
    (not_mem_behind page (by decide) (by decide) (by decide) (by decide))
    (not_mem_behind page (by decide) (by decide) (by decide) (by decide))
  have noOpen : '(' ∉ path ++ ending := fun mem =>
    page.not_mem (c := '(') (by decide) (by decide) (List.mem_append_left _ mem)
  intro same
  rw [rewriteLinks_line (isWhole_line isLabel (page.not_mem (by decide) (by decide)))
    (List.cons_ne_nil _ _) (opener_line _ _ _)] at same
  dsimp only at same
  rw [text_line, text_line, kept] at same
  refine append_end_ne (x := x ++ [']']) (y := '[' :: label ++ [']']) (r := anchor ++ ')' :: e.text)
    noOpen page.ending_ne_nil ?_
  simpa using same

/-- **A link to a page loses the extension of its target** exactly if its label is plain: behind a
bracket or a code span of its own, the link is not seen. -/
theorem rewriteLinks_line_iff (isLabel : IsLabel label) (page : Target.IsPage path ending anchor)
    (e : Ending) :
    rewriteLinks (line label (path ++ ending ++ anchor) e).text =
        ((line label (path ++ anchor) e).text, 1) ↔
      IsPlainLabel label := by
  constructor
  · intro promised
    by_contra marked
    exact rewriteLinks_line_ne isLabel page marked e (congrArg Prod.fst promised)
  · intro plainLabel
    exact rewriteLinks_line_of_plain isLabel page plainLabel e

end Page

/-- A plain label, with a path, an extension and an anchor. -/
theorem rewriteLinks_line_iff_guide :
    rewriteLinks "[Read on, *please*!](../guide/start.mdx#first-steps)\n".toList =
      ("[Read on, *please*!](../guide/start#first-steps)\n".toList, 1) := by
  have page : Target.IsPage "../guide/start".toList ".mdx".toList "#first-steps".toList :=
    ⟨by decide, .inr rfl, .inr ⟨_, rfl, by decide⟩⟩
  have label : IsLabel "Read on, *please*!".toList := by decide +kernel
  have plainLabel : IsPlainLabel "Read on, *please*!".toList := by decide
  have kept := (rewriteLinks_line_iff label page .lf).2 plainLabel
  -- The two sides are compared as lists of characters, not as strings.
  conv_lhs => rw [String.toList_ofList]
  conv_rhs => rw [String.toList_ofList]
  exact kept

/-- **A label with a code span**: the line is cut at its code first, and what stands behind it is no
link. -/
theorem not_rewriteLinks_codeLabel :
    ¬ ∀ (label path ending anchor : Text) (e : Ending), IsLabel label → Target.IsPage path ending anchor →
      rewriteLinks (line label (path ++ ending ++ anchor) e).text =
        ((line label (path ++ anchor) e).text, 1) := by
  intro all
  have promised := all "a \x60x\x60 b".toList "p".toList ".md".toList [] .none (by decide +kernel)
    ⟨by decide, .inl rfl, .inl rfl⟩
  revert promised
  decide +kernel

end Link

end MdxPress
