import MdxPress.Name
import MdxPress.Proofs.Mdx.Rewritten

/-!
The ids of headings under the escaping of braces.  A heading may end with an id in braces, which are
raw or written as references.  No backtick and no percent sign stands in such an end, so wherever the
walk along the line comes to it, both braces are escaped or neither is; and no delimiter of an id begins
behind the one before the id, so nothing that is escaped there is taken for it.

* `Name.customId_eq_some_iff` says which id a text ends with, and what stands before it;
* `Brace.escapeFrom_alike` is the walk along a text that can open no code and no marker;
* `customId_escapeBraces` says that a heading keeps its id when it is escaped.

Caveat: a heading can gain an id.  An id of which one brace is a reference and the other is not is none,
and is one when the other is escaped.
-/

namespace MdxPress

open Brace

/-! ## Ids -/

namespace Name

/-- An id: letters, digits, dashes and low lines, one at least. -/
structure IsId (id : Text) : Prop where
  filled : id ≠ []
  idChar : ∀ c ∈ id, isIdChar c = true

/-- The two ways of writing what stands before an id and behind it. -/
inductive IdBraces : Text → Text → Prop
  | raw : IdBraces ['{', '#'] ['}']
  | escaped : IdBraces "&#123;#".toList "&#125;".toList

variable {left right id : Text}

theorem IsId.not_mem {c : Char} (isId : IsId id) (other : isIdChar c = false) : c ∉ id :=
  fun mem => Bool.false_ne_true (other.symm.trans (isId.idChar c mem))

/-- The delimiter before an id is the last one: none begins behind its first character. -/
theorem IdBraces.last (braces : IdBraces left right) (isId : IsId id) :
    ∃ c sub, left = c :: sub ∧ ¬ c :: sub <:+: sub ++ (id ++ right) := by
  cases braces with
  | raw =>
    refine ⟨'{', ['#'], rfl, fun part => ?_⟩
    have mem := part.mem (.head _)
    simp only [List.mem_append, isId.not_mem (c := '{') (by decide), false_or] at mem
    exact absurd mem (by decide)
  | escaped =>
    refine ⟨'&', "#123;#".toList, rfl, ?_⟩
    have other : '&' ∉ "#123;#".toList ++ id :=
      fun mem => (List.mem_append.1 mem).elim (by decide) (isId.not_mem (by decide))
    have short : ¬ "#123;#".toList <+: "#125;".toList := by decide
    have last := Text.not_infix_of_last other (by decide) short
    rwa [List.append_assoc] at last

theorem IdBraces.visible (braces : IdBraces left right) :
    ∃ c, right.getLast? = some c ∧ isBlank c = false := by
  cases braces with
  | raw => exact ⟨'}', rfl, rfl⟩
  | escaped => exact ⟨';', rfl, rfl⟩

theorem idBetween?_eq_some_iff {s t : Text} (braces : IdBraces left right) :
    idBetween? left right s = some (t, id) ↔
      ∃ before, s = before ++ (left ++ (id ++ right)) ∧ IsId id ∧ t = before.trimEnd := by
  constructor
  · intro found
    obtain ⟨body, ends, cut⟩ := Option.bind_eq_some_iff.1 found
    obtain ⟨⟨before, rest⟩, last, kept⟩ := Option.bind_eq_some_iff.1 cut
    dsimp only at kept
    split at kept
    case isFalse => cases kept
    case isTrue isId =>
    simp only [Bool.and_eq_true, Bool.not_eq_true', List.isEmpty_eq_false_iff,
      List.all_eq_true] at isId
    cases kept
    have whole := Text.dropEnd?_append ends
    have parts := Text.breakOnLast_append last
    have inside : (before ++ left).length ≤ body.length := by
      by_contra short
      refine isId.1 (List.drop_eq_nil_of_le ?_)
      rw [List.length_append] at short
      omega
    obtain ⟨r, rfl⟩ := List.prefix_of_prefix_length_le ⟨rest, parts⟩ ⟨right, whole⟩ inside
    have inner : (before ++ left ++ r).drop (before.length + left.length) = r := by
      rw [← List.length_append, List.drop_left]
    rw [inner] at isId ⊢
    refine ⟨before, ?_, ⟨isId.1, isId.2⟩, rfl⟩
    rw [← whole, List.append_assoc, List.append_assoc]
  · rintro ⟨before, rfl, isId, rfl⟩
    obtain ⟨c, sub, rfl, last⟩ := braces.last isId
    have ends : Text.dropEnd? right (before ++ (c :: sub ++ (id ++ right))) =
        some (before ++ (c :: sub) ++ id) := by
      rw [← Text.dropEnd?_of_append (before ++ (c :: sub) ++ id) right]
      simp only [List.append_assoc]
    have inner : (before ++ (c :: sub) ++ id).drop (before.length + (c :: sub).length) = id := by
      rw [← List.length_append, List.drop_left]
    have kept : (!id.isEmpty && id.all isIdChar) = true := by
      simpa [isId.filled] using isId.idChar
    rw [idBetween?, ends, Option.bind_some, Text.breakOnLast_of_last last before, Option.bind_some]
    dsimp only
    rw [inner, if_pos kept]

/-- **The id of a text** stands at its end in braces, and what stands before is trimmed. -/
theorem customId_eq_some_iff {h t : Text} :
    customId h = (t, some id) ↔ ∃ left right before, IdBraces left right ∧
      h.trimEnd = before ++ (left ++ (id ++ right)) ∧ IsId id ∧ t = before.trimEnd := by
  have found : customId h = (t, some id) ↔
      (if h.trimEnd.endsWith ['}'] then idBetween? ['{', '#'] ['}'] h.trimEnd
        else if h.trimEnd.endsWith "&#125;".toList then
          idBetween? "&#123;#".toList "&#125;".toList h.trimEnd
        else none) = some (t, id) := by
    simp only [customId]
    split
    case h_1 p cut => rw [cut, Option.some.injEq, Prod.ext_iff, Prod.ext_iff, Option.some.injEq]
    case h_2 cut => simp only [cut, Prod.ext_iff, reduceCtorEq, and_false]
  simp only [found, Text.endsWith, List.isSuffixOf_iff_suffix]
  constructor
  · intro cut
    split at cut
    case isTrue =>
      obtain ⟨before, parts⟩ := (idBetween?_eq_some_iff .raw).1 cut
      exact ⟨_, _, before, .raw, parts⟩
    case isFalse =>
      split at cut
      case isFalse => cases cut
      case isTrue =>
        obtain ⟨before, parts⟩ := (idBetween?_eq_some_iff .escaped).1 cut
        exact ⟨_, _, before, .escaped, parts⟩
  · rintro ⟨left, right, before, braces, whole, isId, rfl⟩
    have ends : right <:+ h.trimEnd := by
      rw [whole, ← List.append_assoc, ← List.append_assoc]
      exact List.suffix_append _ right
    have cut := (idBetween?_eq_some_iff braces).2 ⟨before, whole, isId, rfl⟩
    cases braces with
    | raw => rwa [if_pos ends]
    | escaped =>
      have other : ¬ ['}'] <:+ h.trimEnd := by
        rintro ⟨r, same⟩
        have last := congrArg List.getLast? (same.trans whole)
        simp only [List.getLast?_append] at last
        exact absurd last (by simp)
      rwa [if_neg other, if_pos ends]

end Name

/-! ## What is escaped as a whole -/

namespace Brace

theorem escapePlain_append (t u : Text) : escapePlain (t ++ u) = escapePlain t ++ escapePlain u :=
  List.flatMap_append

theorem escapePlain_of_noBrace {w : Text} (noBrace : '{' ∉ w ∧ '}' ∉ w) : escapePlain w = w := by
  induction w with
  | nil => rfl
  | cons c w ih =>
    obtain ⟨left, right⟩ := noBrace
    rw [List.mem_cons, not_or] at left right
    have first : escapePlain [c] = [c] := by
      rw [escapePlain, List.flatMap_singleton]
      exact escapeChar_of_not_brace (Ne.symm left.1) (Ne.symm right.1) false
    rw [← List.singleton_append, escapePlain_append, first, ih ⟨left.2, right.2⟩]

/-- In a text without backticks and percent signs the walk stays where it is. -/
theorem step_of_quiet {p : Place} {c : Char} {r : Text} (between : p = .prose ∨ p = .marker ∨ p = .code)
    (noTick : '\x60' ∉ c :: r) (noPercent : '%' ∉ c :: r) :
    (p.step c r).2 = p ∧ (p.step c r).1.isProtected = decide (p ≠ .prose) := by
  have tick : c ≠ '\x60' := fun same => noTick (same ▸ .head _)
  have percent : c ≠ '%' := fun same => noPercent (same ▸ .head _)
  have next : r.head? ≠ some '%' := fun head => noPercent (.tail _ (List.mem_of_mem_head? head))
  rcases between with rfl | rfl | rfl <;> simp [Place.step, Cover.isProtected, tick, percent, next]

/-- **A text without backticks and percent signs is escaped as a whole, or left as a whole**, unless it
begins with the brace that closes a marker. -/
theorem escapeFrom_alike {p : Place} {w : Text} (fits : p.Fits w) (noTick : '\x60' ∉ w)
    (noPercent : '%' ∉ w) (start : w.head? ≠ some '}') :
    escapeFrom p w = escapePlain w ∨ escapeFrom p w = w := by
  have between : p = .prose ∨ p = .marker ∨ p = .code := by
    cases p with
    | prose | marker | code => simp
    | opening => exact (noPercent (List.mem_of_mem_head? fits)).elim
    | closing => exact (start fits).elim
  have walk : escapeFrom p w = w.flatMap fun c => escapeChar (c, decide (p ≠ .prose)) := by
    clear fits start
    induction w with
    | nil => rfl
    | cons c r ih =>
      obtain ⟨stays, covers⟩ := step_of_quiet between noTick noPercent
      rw [escapeFrom_cons, stays, covers, List.flatMap_cons,
        ih (fun mem => noTick (.tail _ mem)) fun mem => noPercent (.tail _ mem)]
  by_cases prose : p = .prose
  · rw [decide_eq_false (not_not_intro prose)] at walk
    exact .inl walk
  · rw [decide_eq_true prose, ← List.flatMap_map, flatMap_escapeChar_protected] at walk
    exact .inr walk

end Brace

/-! ## Ids that are escaped -/

namespace Name

variable {left right id : Text}

/-- An id with its braces, in front of blanks, is an id with its braces when it is escaped. -/
theorem IdBraces.exists_escapeFrom (braces : IdBraces left right) (isId : IsId id) {blanks : Text}
    (blank : ∀ c ∈ blanks, isBlank c = true) {p : Place}
    (fits : p.Fits (left ++ (id ++ right) ++ blanks)) :
    ∃ left' right', IdBraces left' right' ∧
      escapeFrom p (left ++ (id ++ right) ++ blanks) = left' ++ (id ++ right') ++ blanks := by
  have apart {c : Char} (other : isIdChar c = false) (shown : isBlank c = false) : c ∉ id ∧ c ∉ blanks :=
    ⟨isId.not_mem other, fun mem => Bool.false_ne_true (shown.symm.trans (blank c mem))⟩
  have tick := apart (c := '\x60') (by decide) (by decide)
  have percent := apart (c := '%') (by decide) (by decide)
  have opening := apart (c := '{') (by decide) (by decide)
  have closing := apart (c := '}') (by decide) (by decide)
  rcases escapeFrom_alike fits (by cases braces <;> simp [tick]) (by cases braces <;> simp [percent])
      (by cases braces <;> simp) with escaped | kept
  · rw [escaped]
    simp only [escapePlain_append, escapePlain_of_noBrace ⟨opening.1, closing.1⟩,
      escapePlain_of_noBrace ⟨opening.2, closing.2⟩]
    refine ⟨_, _, .escaped, ?_⟩
    cases braces <;> rfl
  · exact ⟨left, right, braces, kept⟩

/-- A line keeps its id when its braces are escaped, whatever blanks stand behind it. -/
theorem customId_escapeLine {line blanks t : Text} (blank : ∀ c ∈ blanks, isBlank c = true)
    (found : customId (line ++ blanks) = (t, some id)) :
    ∃ t', customId (escapeLine line ++ blanks) = (t', some id) ∧ unescape t' = unescape t := by
  obtain ⟨left, right, before, braces, whole, isId, rfl⟩ := customId_eq_some_iff.1 found
  rw [Text.trimEnd, Text.dropEndWhile_append line blank] at whole
  obtain ⟨tail, cut, all⟩ := Text.dropEndWhile_append_mem isBlank line
  rw [whole, List.append_assoc] at cut
  obtain ⟨u, q, fits, escapes, walk⟩ :=
    exists_escapeFrom_append (p := .prose) (t := before) (r := left ++ (id ++ right) ++ tail) trivial
  obtain ⟨left', right', braces', kept⟩ := braces.exists_escapeFrom isId all fits
  refine ⟨u.trimEnd, customId_eq_some_iff.2 ⟨left', right', u, braces', ?_, isId, rfl⟩,
    escapes.trimEnd.unescape_eq⟩
  obtain ⟨c, last, visible⟩ := braces'.visible
  have ends : (u ++ (left' ++ (id ++ right'))).getLast? = some c := by
    simp [List.getLast?_append, last]
  rw [escapeLine_eq_escapeFrom, cut, walk, kept, Text.trimEnd, Text.dropEndWhile_append _ blank,
    ← List.append_assoc, Text.dropEndWhile_append _ all]
  exact Text.dropEndWhile_eq_self ends visible

end Name

/-! ## Headings -/

/-- A body of one line is that line, escaped as its class has it. -/
theorem exists_escapeBraces_of_line {h : Text} {l : Line} (single : h.lines = [l]) :
    h = l.text ∧ ∃ c, (escapeBraces h).text = (escapeClassified (l, c)).text := by
  have whole (t : Text) : Line.join t.lines = t := Text.join_lines t
  have lines : h.classified.1.map (·.1) = h.lines := classifyLines_lines _ _ _
  rw [single] at lines
  obtain ⟨⟨k, c⟩, classified, rfl⟩ := List.map_eq_singleton_iff.1 lines
  refine ⟨?_, c, ?_⟩
  · rw [← whole h, single]
    exact List.append_nil _
  · rw [← whole (escapeBraces h).text, lines_escapeBraces, classified]
    exact List.append_nil _

/-- **Headings keep their ids.**  If a text of one line ends with an id, it ends with the same id when
its braces are escaped, and what stands before the id comes out as it does without escaping, when braces
are put for references in both. -/
theorem customId_escapeBraces {h t id : Text} (single : h.lines.length ≤ 1)
    (found : Name.customId h = (t, some id)) :
    ∃ t', Name.customId (escapeBraces h).text = (t', some id) ∧ unescape t' = unescape t := by
  cases lines : h.lines with
  | nil =>
    have empty : h = [] := by rw [← Text.join_lines h, lines]; rfl
    rw [empty] at found
    cases found
  | cons l ls =>
    obtain rfl : ls = [] := by
      rw [lines, List.length_cons] at single
      exact List.eq_nil_of_length_eq_zero (by omega)
    obtain ⟨rfl, c, escaped⟩ := exists_escapeBraces_of_line lines
    rw [escaped]
    cases c with
    | fence | component | exempt => exact ⟨t, found, rfl⟩
    | prose => exact Name.customId_escapeLine (fun c => Ending.isBlank_of_mem) found

/-- A heading with braces in inline code, in a marker and by themselves before its id. -/
theorem customId_escapeBraces_heading :
    let h := "## Set \x60\x7ba\x7d\x60 \x7b% b %\x7d \x7bc\x7d \x7b#set-c\x7d\n".toList
    let t := "## Set \x60\x7ba\x7d\x60 \x7b% b %\x7d \x7bc\x7d".toList
    (escapeBraces h).text =
        "## Set \x60\x7ba\x7d\x60 \x7b% b %\x7d &#123;c&#125; &#123;#set-c&#125;\n".toList ∧
      (Text.lines h).length ≤ 1 ∧ Name.customId h = (t, some "set-c".toList) ∧
      ∃ t', Name.customId (escapeBraces h).text = (t', some "set-c".toList) ∧
        unescape t' = unescape t := by
  intro h t
  -- A list of characters is evaluated faster than the string that it is read from.
  have chars : h = _ := String.toList_ofList
  have escaped : (escapeBraces h).text =
      "## Set \x60\x7ba\x7d\x60 \x7b% b %\x7d &#123;c&#125; &#123;#set-c&#125;\n".toList := by
    rw [chars, String.toList_ofList]
    decide +kernel
  have single : (Text.lines h).length ≤ 1 := by
    rw [chars]
    decide +kernel
  have found : Name.customId h = (t, some "set-c".toList) := by
    rw [chars]
    decide +kernel
  exact ⟨escaped, single, found, customId_escapeBraces single found⟩

/-- A heading that gains an id. -/
example :
    Name.customId "a &#123;#b\x7d".toList = ("a &#123;#b\x7d".toList, none) ∧
      Name.customId (escapeBraces "a &#123;#b\x7d".toList).text = (['a'], some ['b']) := by
  decide +kernel

end MdxPress
