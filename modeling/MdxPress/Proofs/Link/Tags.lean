import MdxPress.Proofs.Mdx.Strays
import Mathlib.Data.List.Infix

/-!
Links that are rewritten, and the tags of their line.  A link may hold what reads as a tag: the target
of `[a](<Card.md>)` reads as the component `Card.md`.  Taking the extension away changes the name
of such a tag, or makes a slash before it the end of a tag.

* `Link.SparesTags` excludes the two;
* `Text.links` lists the links that rewriting a body meets;
* `Text.alike_relinked` is the result: a line whose links all spare the tags is read alike when they
  are rewritten.
-/

namespace MdxPress

/-! ## Links -/

/-- Whether a text ends with the name of a tag. -/
def Tag.endsText (t : Text) : Bool :=
  t.tails.any fun u =>
    match ofStart? u with
    | some (closing, name) => u == '<' :: written closing name
    | none => false

namespace Link

/-- What stands before the extension of a target, with the bracket in front of it. -/
def front (l : Link) : Text :=
  if l.bracketed then '<' :: Target.bare l.target else Target.bare l.target

/-- The link can lose its extension without any tag of its line noticing: no tag has its name up to
the extension, and no slash stands between the extension and the bracket behind it. -/
structure SparesTags (l : Link) : Prop where
  noName : Tag.endsText l.front = false
  noSlash : l.bracketed = true → l.front.trimEnd.getLast? ≠ some '/'

instance (l : Link) : Decidable l.SparesTags :=
  decidable_of_iff (Tag.endsText l.front = false ∧
      (l.bracketed = true → l.front.trimEnd.getLast? ≠ some '/'))
    ⟨fun h => ⟨h.1, h.2⟩, fun h => ⟨h.noName, h.noSlash⟩⟩

/-- The rule that lists links. -/
def reads (t : Text) : Option (Link × Nat) :=
  (ofStart? t).map fun (l, rest) => (l, t.taken rest)

end Link

/-! ## A link and what is written for it -/

section Written

variable {w t u : Text} {a b : Bool}

/-- What stands before a period of a tag's name is a tag's name. -/
theorem Tag.IsName.exists_front {name v x : Text} {closing : Bool} (isName : IsName name)
    (whole : written closing name = v ++ '.' :: x) :
    ∃ front, IsName front ∧ v = written closing front := by
  have cut (v : Text) (whole : name = v ++ '.' :: x) : IsName v := by
    subst whole
    cases v with
    | nil => exact absurd isName.1 (by decide)
    | cons c r => exact ⟨isName.1, fun d mem => isName.2 d (List.mem_append_left _ mem)⟩
  cases closing with
  | false => exact ⟨v, cut v whole, rfl⟩
  | true =>
    cases v with
    | nil => cases whole
    | cons c r =>
      obtain ⟨rfl, same⟩ := List.cons.inj whole
      exact ⟨r, cut r same, rfl⟩

/-- An extension goes on with no tag, where none has its name up to it. -/
theorem clear_of_endsText (noName : Tag.endsText w = false) (r : Text) : Clear w ('.' :: r) where
  tags v part := by
    have noTag (closing : Bool) (name : Text) (isName : Tag.IsName name)
        (whole : v = Tag.written closing name) : False := by
      subst whole
      have starts : Tag.ofStart? ('<' :: Tag.written closing name) = some (closing, name) :=
        Tag.ofStart?_eq_some_iff.2 ⟨[], by simp, isName, nofun⟩
      have found : Tag.endsText w = true := by
        refine List.any_eq_true.2 ⟨_, (List.mem_tails _ _).2 part, ?_⟩
        rw [starts]
        exact beq_self_eq_true _
      rw [noName] at found
      cases found
    apply Option.ext
    rintro ⟨closing, name⟩
    simp only [Tag.ofStart?_eq_some_iff]
    constructor
    · rintro ⟨rest, whole, isName, ends⟩
      rcases List.append_eq_append_iff.1 whole with ⟨x, inner, tail⟩ | ⟨x, outer, tail⟩
      · cases x with
        | nil => exact (noTag closing name isName (by simpa using inner.symm)).elim
        | cons d x =>
          -- the name would go on in the extension, so the text ends with the front of it
          obtain rfl : '.' = d := (List.cons.inj tail).1
          obtain ⟨front, isFront, same⟩ := isName.exists_front inner
          exact (noTag closing front isFront same).elim
      · cases x with
        | nil => exact (noTag closing name isName (by simpa using outer)).elim
        | cons d x => exact ⟨d :: x, outer, isName, fun e first => ends e (by rw [tail]; exact first)⟩
    · rintro ⟨rest, whole, isName, ends⟩
      cases rest with
      | nil => exact (noTag closing name isName (by simpa using whole)).elim
      | cons d rest => exact ⟨d :: rest ++ '.' :: r, by simp [whole], isName, ends⟩
  opener _ percent := absurd (Option.some.inj percent) (by decide)
  closer _ brace := absurd (Option.some.inj brace) (by decide)

theorem slashBehind_of_visible {c : Char} (visible : isBlank c = false) (noSlash : c ≠ '/') :
    slashBehind a c = false := by
  simp [slashBehind, visible, noSlash]

/-- The last visible character of a text decides whether a slash stands at its end. -/
theorem foldl_slashBehind (t : Text) :
    t.foldl slashBehind a = if t.trimEnd = [] then a else t.trimEnd.getLast? == some '/' := by
  induction t using List.reverseRecOn with
  | nil => rfl
  | append_singleton t c ih =>
    rw [List.foldl_append, List.foldl_cons, List.foldl_nil, slashBehind]
    cases blank : isBlank c with
    | true =>
      have dropped : Text.trimEnd (t ++ [c]) = Text.trimEnd t :=
        Text.dropEndWhile_append t (by simpa using blank)
      rw [if_pos rfl, ih, dropped]
    | false =>
      have kept : Text.trimEnd (t ++ [c]) = t ++ [c] :=
        Text.dropEndWhile_eq_self (List.getLast?_concat ..) blank
      rw [kept]
      simp

/-! ## The pieces of a link, from its end to its start -/

/-- A visible character that is no mark of a tag, before whatever stood there. -/
theorem Pared.visible {c : Char} (plain : c ∉ ['<', '>', '\x7b', '%', '/']) (visible : isBlank c = false)
    (rest : Pared id false false t u) : Pared id a b (c :: t) (c :: u) := by
  have other : c ≠ '<' ∧ c ≠ '>' ∧ c ≠ '{' ∧ c ≠ '%' ∧ c ≠ '/' := by simpa using plain
  refine .same (fun same => absurd same other.1) (fun same => absurd same other.2.1)
    (fun same => absurd same other.2.2.1) (fun same => absurd same other.2.2.2.1) ?_
  rw [id_eq, slashBehind_of_visible visible other.2.2.2.2,
    slashBehind_of_visible visible other.2.2.2.2]
  exact rest

theorem Pared.blanks {blanks : Text} (blank : blanks.allBlank = true) (rest : Pared id a b t u) :
    Pared id a b (blanks ++ t) (blanks ++ u) := by
  induction blanks with
  | nil => exact rest
  | cons c r ih =>
    obtain ⟨first, others⟩ : isBlank c = true ∧ Text.allBlank r = true := by
      simpa [Text.allBlank] using blank
    obtain ⟨left, right, -, -, brace, -, percent, -⟩ :=
      Tag.isInert_ne (Tag.isInert_of_isBlank first)
    refine .same (fun same => absurd same left) (fun same => absurd same right)
      (fun same => absurd same brace) (fun same => absurd same percent) ?_
    rw [show slashBehind a (id c) = a from if_pos first, show slashBehind b (id c) = b from if_pos first]
    exact ih others

/-- An extension is left out; what stood before it is forgotten on the left. -/
theorem Pared.drop_extension {ending : Text} (isExtension : Target.IsExtension ending)
    (rest : Pared id false b t u) : Pared id a b (ending ++ t) u := by
  rcases isExtension with rfl | rfl
  · exact .drop (by decide) (.drop (by decide) (.drop (by decide) rest))
  · exact .drop (by decide) (.drop (by decide) (.drop (by decide) (.drop (by decide) rest)))

theorem Text.stops_cons {c : Char} (stop : Tag.isStop c = true) (t : Text) : Text.Stops (c :: t) := by
  rintro d ⟨⟩
  exact stop

namespace Link

/-- The end of a link without the blanks before it. -/
theorem pared_end {behind : Text} (blank : behind.allBlank = true) (rest : Pared id false false t u) :
    Pared id a b (behind ++ ')' :: t) (')' :: u) :=
  Pared.drop_blanks blank (.visible (by decide) (by decide) rest)

theorem stops_end {behind : Text} (blank : behind.allBlank = true) (t : Text) :
    Text.Stops (behind ++ ')' :: t) := by
  cases behind with
  | nil => exact Text.stops_cons (by decide) t
  | cons c r =>
    have first : isBlank c = true := List.all_eq_true.1 blank c (.head _)
    exact Text.stops_cons (Tag.isStop_of_isBlank first) _

theorem pared_title {title behind : Text} (isTitle : IsTitle title) (blank : behind.allBlank = true)
    (rest : Pared id false false t u) :
    Pared id a b (title ++ (behind ++ ')' :: t)) (title ++ ')' :: u) := by
  rcases isTitle with rfl | ⟨blanks, inside, rfl, before⟩
  · exact pared_end blank rest
  · have clear (r : Text) : Clear (inside ++ ['"']) r :=
      clear_concat (by decide) (by decide) (by decide) inside r
    have quoted := Pared.copy (a := false) (clear (behind ++ ')' :: t)) (clear (')' :: u))
      (pared_end blank rest)
    rw [List.append_assoc, List.append_assoc, List.cons_append, List.cons_append]
    exact Pared.blanks before (.visible (by decide) (by decide) quoted)

theorem stops_title {title rest : Text} (isTitle : IsTitle title) (stops : rest.Stops) :
    Text.Stops (title ++ rest) := by
  rcases isTitle with rfl | ⟨blanks, inside, rfl, before⟩
  · exact stops
  · cases blanks with
    | nil => exact Text.stops_cons (by decide) _
    | cons c r =>
      have first : isBlank c = true := List.all_eq_true.1 before c (.head _)
      exact Text.stops_cons (Tag.isStop_of_isBlank first) _

/-- The anchor of a target, behind an extension that is left out, and the rest of the link. -/
theorem pared_anchor {anchor : Text} (hash : ∀ c ∈ anchor.head?, c = '#') (left : t.Stops) (right : u.Stops)
    (rest : ∀ a b, Pared id a b t u) : Pared id a b (anchor ++ t) (anchor ++ u) := by
  cases anchor with
  | nil => exact rest a b
  | cons c r =>
    obtain rfl : c = '#' := hash c rfl
    exact .visible (by decide) (by decide)
      (.copy (clear_of_stops left r) (clear_of_stops right r) (rest _ _))

/-- No slash stands before the end of a bracketed target that spares the tags. -/
theorem foldl_slashBehind_front {l : Link} (spares : l.SparesTags) (bracketed : l.bracketed = true) :
    l.front.foldl slashBehind a = false := by
  have visible : l.front.trimEnd ≠ [] := by
    intro empty
    have angle : '<' ∈ l.front := by
      rw [front, if_pos bracketed]
      exact .head _
    have kept := (Text.mem_trimEnd (c := '<') (by decide)).2 angle
    rw [empty] at kept
    cases kept
  rw [foldl_slashBehind, if_neg visible, beq_eq_false_iff_ne]
  exact spares.noSlash bracketed

/-- The end of a target, behind the extension, with the bracket it may have and what follows it. -/
theorem pared_behind {l : Link} {anchor : Text} (spares : l.SparesTags)
    (hash : ∀ c ∈ anchor.head?, c = '#') (left : t.Stops) (right : u.Stops)
    (rest : ∀ a b, Pared id a b t u) :
    Pared id false (l.front.foldl slashBehind a)
      (anchor ++ ((if l.bracketed then ['>'] else []) ++ t))
      (anchor ++ ((if l.bracketed then ['>'] else []) ++ u)) := by
  cases bracketed : l.bracketed with
  | false => exact pared_anchor hash left right rest
  | true =>
    rw [foldl_slashBehind_front spares bracketed]
    cases anchor with
    | nil =>
      exact .same (fun same => absurd same (by decide)) (fun _ => rfl)
        (fun same => absurd same (by decide)) (fun same => absurd same (by decide)) (rest _ _)
    | cons c r =>
      obtain rfl : c = '#' := hash c rfl
      have clear (v : Text) : Clear (r ++ ['>']) v :=
        clear_concat (by decide) (by decide) (by decide) r v
      have further := Pared.copy (a := false) (clear t) (clear u) (rest _ _)
      rw [List.append_assoc, List.append_assoc] at further
      exact .visible (by decide) (by decide) further

/-- **The target of a link** with what follows it, before and after it loses its extension. -/
theorem pared_target {l : Link} {ending anchor : Text} (spares : l.SparesTags)
    (isExtension : Target.IsExtension ending) (hash : ∀ c ∈ anchor.head?, c = '#')
    (left : t.Stops) (right : u.Stops) (rest : ∀ a b, Pared id a b t u) :
    Pared id a a
      (l.front ++ (ending ++ (anchor ++ ((if l.bracketed then ['>'] else []) ++ t))))
      (l.front ++ (anchor ++ ((if l.bracketed then ['>'] else []) ++ u))) := by
  apply Pared.copy
  · rcases isExtension with rfl | rfl <;> exact clear_of_endsText spares.noName _
  · apply clear_of_stops
    cases anchor with
    | cons c r =>
      obtain rfl : c = '#' := hash c rfl
      exact Text.stops_cons (by decide) _
    | nil =>
      cases l.bracketed with
      | true => exact Text.stops_cons (by decide) _
      | false => exact right
  · exact .drop_extension isExtension (pared_behind spares hash left right rest)

/-- **A link that is rewritten**, before any rest of its line. -/
theorem pared_written {l : Link} {new before behind : Text} (rewrites : l.rewritten? = some new)
    (isTitle : IsTitle l.title) (spares : l.SparesTags) (blank : before.allBlank = true)
    (blank' : behind.allBlank = true) (rest : Pared id false false t u) :
    Pared id a a (l.written before behind ++ t) (new ++ u) := by
  unfold rewritten? at rewrites
  split at rewrites
  case isTrue => cases rewrites
  case isFalse link =>
    obtain ⟨target, strips, rfl⟩ := Option.map_eq_some_iff.1 rewrites
    obtain ⟨ending, anchor, isExtension, hash, whole, rfl⟩ := Target.stripped?_eq_some strips
    have noSign : l.isImage = false := by simpa using link
    have inner := pared_target (a := ('[' :: l.label ++ "](".toList).foldl slashBehind a) spares
      isExtension hash (stops_title isTitle (stops_end blank' t))
      (stops_title isTitle (Text.stops_cons (c := ')') (by decide) u))
      (fun _ _ => pared_title isTitle blank' rest)
    have shown_ : l.shown = l.front ++ (ending ++ (anchor ++ if l.bracketed then ['>'] else [])) := by
      rw [shown, front]
      cases l.bracketed <;> conv_lhs => rw [whole]
      all_goals simp
    have render_ : l.render (Target.bare l.target ++ anchor) = '[' :: l.label ++ "](".toList ++
        (l.front ++ (anchor ++ ((if l.bracketed then ['>'] else []) ++ (l.title ++ [')'])))) := by
      rw [render, front]
      cases l.bracketed <;> simp
    have clear (v : Text) : Clear ('[' :: l.label ++ "](".toList) v := by
      have opens : '[' :: l.label ++ "](".toList = ('[' :: l.label ++ [']']) ++ ['('] := by simp
      rw [opens]
      exact clear_concat (by decide) (by decide) (by decide) _ v
    have copied := Pared.copy (clear _) (clear _) (Pared.drop_blanks blank inner)
    rw [written, noSign, shown_, render_]
    simpa [List.append_assoc] using copied

end Link

end Written

/-! ## Lines -/

section Lines

/-- The links that rewriting meets in a part of a line. -/
def Text.linksIn (part : Text) : List Link :=
  (Text.hits Link.reads part).map (·.value)

/-- A link that is read: what is written for it, and what stands behind it. -/
theorem Link.exists_of_reads {c : Char} {r rest : Text} {l : Link}
    (read : ofStart? (c :: r) = some (l, rest)) :
    ∃ before behind : Text, c :: r = l.written before behind ++ rest ∧
      before.allBlank = true ∧ behind.allBlank = true ∧
      rule (c :: r) = some (l.rewritten?.getD (l.written before behind),
        (l.written before behind).length) ∧
      reads (c :: r) = some (l, (l.written before behind).length) ∧
      r.drop ((l.written before behind).length - 1) = rest := by
  obtain ⟨before, behind, whole, left, right⟩ := ofStart?_eq_some read
  have length : Text.taken (c :: r) rest = (l.written before behind).length := by
    rw [whole, Text.taken]
    simp
  obtain ⟨d, inner, written⟩ : ∃ d inner, l.written before behind = d :: inner :=
    List.exists_cons_of_ne_nil (by simp [Link.written])
  refine ⟨before, behind, whole, left, right, ?_, ?_, ?_⟩
  · rw [rule, read, Option.map_some]
    dsimp only
    rw [length, whole, List.take_left]
  · rw [reads, read, Option.map_some]
    dsimp only
    rw [length]
  · rw [written] at whole ⊢
    rw [(List.cons.inj whole).2]
    exact List.drop_left

/-- Lines that are rewritten, with any stretch before them. -/
theorem pared_rewriteFrom {t u : Text} (tail : ∀ w a, Pared id a a (w ++ t) (w ++ u)) (pos skip : Nat)
    (part : Text) (spares : ∀ h ∈ Text.hitsFrom Link.reads pos skip part,
      h.value.rewritten?.isSome → h.value.SparesTags) (w : Text) (a : Bool) :
    Pared id a a (w ++ (part.drop skip ++ t)) (w ++ (Text.rewriteFrom Link.rule skip part ++ u)) := by
  induction part generalizing pos skip w a with
  | nil =>
    cases skip <;> exact tail w a
  | cons c r ih =>
    cases skip with
    | succ skip => exact ih (pos + 1) skip spares w a
    | zero =>
      rw [List.drop_zero, Text.rewriteFrom]
      cases read : Link.ofStart? (c :: r) with
      | none =>
        have idle : Link.rule (c :: r) = none := by rw [Link.rule, read]; rfl
        have idle' : Link.reads (c :: r) = none := by rw [Link.reads, read]; rfl
        rw [Text.hitsFrom, idle'] at spares
        have further := ih (pos + 1) 0 spares (w ++ [c]) a
        rw [idle]
        simpa using further
      | some p =>
        obtain ⟨l, rest⟩ := p
        obtain ⟨before, behind, whole, left, right, applies, found, after⟩ := Link.exists_of_reads read
        rw [Text.hitsFrom, found] at spares
        obtain ⟨first, others⟩ := List.forall_mem_cons.1 spares
        have further := ih (pos + 1) _ others
        rw [after] at further
        rw [applies, whole, List.append_assoc, List.append_assoc]
        cases rewrites : l.rewritten? with
        | none =>
          have kept := further (w ++ l.written before behind) a
          simpa [List.append_assoc] using kept
        | some new =>
          have renews := Link.renews_of_rewritten? rewrites left right
          have stops {v x : Text} (opens : v.head? = some '[') : Text.Stops (v ++ x) := by
            obtain ⟨v, rfl⟩ := List.head?_eq_some_iff.1 opens
            exact Text.stops_cons (by decide) _
          apply Pared.copy (clear_of_stops (stops renews.opens.1) w)
            (clear_of_stops (stops renews.opens.2) w)
          exact Link.pared_written rewrites (Link.isRead_of_ofStart? read).title
            (first (by rw [rewrites]; rfl)) left right (further [] false)

theorem pared_rewrite {t u : Text} (tail : ∀ w a, Pared id a a (w ++ t) (w ++ u)) {part : Text}
    (spares : ∀ l ∈ part.linksIn, l.rewritten?.isSome → l.SparesTags) (w : Text) (a : Bool) :
    Pared id a a (w ++ (part ++ t)) (w ++ (Text.rewrite Link.rule part ++ u)) :=
  pared_rewriteFrom tail 0 0 part (fun _ mem => spares _ (List.mem_map_of_mem mem)) w a

/-- The links that rewriting meets in a line: those outside of its code. -/
def Text.lineLinks (line : Text) : List Link :=
  line.codeSpans.flatMap fun s => if s.isCode then [] else s.text.linksIn

/-- **A line whose links spare its tags**, and what rewriting leaves of it. -/
theorem pared_mapOutsideCode {line : Text}
    (spares : ∀ l ∈ line.lineLinks, l.rewritten?.isSome → l.SparesTags) :
    Pared id false false line (line.mapOutsideCode (Text.rewrite Link.rule)) := by
  have run (ss : List Span) (spares : ∀ l ∈ ss.flatMap fun s => if s.isCode then [] else s.text.linksIn,
      l.rewritten?.isSome → l.SparesTags) (w : Text) (a : Bool) :
      Pared id a a (w ++ ss.flatMap (·.text))
        (w ++ ss.flatMap fun s => if s.isCode then s.text else Text.rewrite Link.rule s.text) := by
    induction ss generalizing w a with
    | nil => exact Pared.refl _
    | cons s ss ih =>
      rw [List.flatMap_cons] at spares
      obtain ⟨here, later⟩ := List.forall_mem_append.1 spares
      rw [List.flatMap_cons, List.flatMap_cons]
      cases code : s.isCode with
      | true =>
        have kept := ih later (w ++ s.text) a
        simpa [List.append_assoc] using kept
      | false =>
        rw [code] at here
        exact pared_rewrite (ih later) here w a
  have whole := run line.codeSpans spares [] false
  rw [List.nil_append, List.nil_append, Text.flatMap_text_codeSpans] at whole
  exact whole

/-- The links that rewriting meets in a body: those on its lines of prose. -/
def Text.links (body : Text) : List Link :=
  body.fenced.flatMap fun l => if l.isCode then [] else l.line.text.lineLinks

theorem Text.isPrefixOf_append_cons {word : Text} {c : Char} (apart : c ∉ word) (p v : Text) :
    word.isPrefixOf (p ++ c :: v) = word.isPrefixOf p := by
  induction p generalizing word with
  | nil =>
    cases word with
    | nil => rfl
    | cons d word =>
      have other : d ≠ c := fun same => apart (same ▸ .head _)
      simp [List.isPrefixOf, other]
  | cons d p ih =>
    cases word with
    | nil => rfl
    | cons e word => simp [List.isPrefixOf, ih fun mem => apart (.tail _ mem)]

/-- Rewriting links makes no line a statement, and no statement another line. -/
theorem Text.Relinked.isExempt_eq {t u : Text} (relinked : Relinked t u) :
    MdxState.isExempt t = MdxState.isExempt u := by
  rcases relinked.eq_or_branch with rfl | ⟨p, v, w, rfl, rfl⟩
  · rfl
  · have apart : ∀ word ∈ ["import ", "export ", ":::", "@tab "], '[' ∉ word.toList := by decide
    have before (v : Text) : MdxState.isExempt (p ++ '[' :: v) =
        ["import ", "export ", ":::", "@tab "].any fun word =>
          (Text.trimStart p).startsWith word.toList := by
      have trimmed : Text.trimStart (p ++ '[' :: v) = Text.trimStart p ++ '[' :: v := by
        rw [trimStart, List.dropWhile_append]
        split
        case isTrue blank => rw [trimStart, List.isEmpty_iff.1 blank]; rfl
        case isFalse => rfl
      rw [MdxState.isExempt, trimmed, Bool.eq_iff_iff, List.any_eq_true, List.any_eq_true]
      constructor
      · rintro ⟨word, mem, starts⟩
        exact ⟨word, mem, by rwa [startsWith, isPrefixOf_append_cons (apart word mem)] at starts⟩
      · rintro ⟨word, mem, starts⟩
        exact ⟨word, mem, by rwa [startsWith, isPrefixOf_append_cons (apart word mem)]⟩
    rw [before, before]

theorem Ending.allBlank_text (e : Ending) : e.text.allBlank = true := by
  cases e <;> decide

/-- **A line whose links spare its tags** is read alike when they are rewritten. -/
theorem Text.alike_relinked {l : Line} {content : Text}
    (same : content ++ l.ending.text = l.text.mapOutsideCode (Text.rewrite Link.rule))
    (spares : ∀ k ∈ l.text.lineLinks, k.rewritten?.isSome → k.SparesTags) :
    Text.Alike l.content content := by
  have pared := pared_mapOutsideCode spares
  rw [← same] at pared
  have blank := l.ending.allBlank_text
  exact (alike_append_blank blank l.content).symm.trans
    (pared.alike.trans (alike_append_blank blank content))

/-- **Rewriting links keeps the stray braces of a body**, if the links spare its tags. -/
theorem countProseBraces_rewriteLinks {body : Text}
    (spares : ∀ l ∈ body.links, l.rewritten?.isSome → l.SparesTags) :
    countProseBraces (rewriteLinks body).1 = countProseBraces body := by
  have passes : (rewriteLinks body).1 = body.fenced.flatMap fun l => if l.isCode then l.line.text
      else l.line.text.mapOutsideCode (Text.rewrite Link.rule) := Text.mapProse_lines _ body
  have reads : List.Forall₂ FencedLine.Reads body.fenced (rewriteLinks body).1.lines := by
    rw [passes]
    refine Text.forall₂_lines_flatMap fun l mem whole => ?_
    have noOpener := FencedLine.opener_eq_none mem
    cases code : l.isCode with
    | true =>
      refine ⟨l.line, rfl, ⟨fun _ => rfl, ?_, ?_, ?_⟩, id, whole, id⟩ <;> simp [code]
    | false =>
      obtain ⟨content, same, relinked, -⟩ := l.line.exists_relinked
      have here : ∀ k ∈ l.line.text.lineLinks, k.rewritten?.isSome → k.SparesTags := by
        intro k inLine
        exact spares k (List.mem_flatMap.2 ⟨l, mem, by rw [code]; exact inLine⟩)
      refine ⟨⟨content, l.line.ending⟩, same, ⟨by simp [code],
        fun prose => relinked.opener_eq_none (noOpener prose), fun _ => Text.alike_relinked same here,
        fun _ => relinked.isExempt_eq⟩, id, whole.relinked relinked, fun filled empty => filled ?_⟩
      have last := relinked.getLast?_eq
      rw [show content = [] from empty] at last
      simpa using last.symm
  exact (straysFrom_congr (s := .start) (MdxState.Level.refl _) reads 1 1).symm

end Lines

end MdxPress
