import MdxPress.CodeSpan
import Mathlib.Data.List.Chain
import Mathlib.Data.List.Forall2

/-!
Inline code, span by span.  A line is prose without backticks, then a code span, and so on; behind its
last code span at most one backtick stands, which has no partner.

* `Text.flatMap_text_codeSpans` puts the parts together again;
* `Text.codeSpans_span` and `Text.codeSpans_of_lone` are the two steps of the cut, and
  `Text.codeSpans_induction` is the induction on them;
* `Span.IsCut` says which parts make a cut, and `Text.eq_codeSpans` that a line has no other;
* `Span.Allows` says which texts may stand in the place of a part, and `Text.codeSpans_flatten` cuts the
  line again that they make;
* `Text.codeSpans_partition` puts them together;
* `Text.inlineCode_mapOutsideCode` keeps the inline code of a line whose prose is rewritten, as long
  as no backtick is added or taken away.
-/

namespace MdxPress

namespace Text

/-! ## The parts of a line -/

theorem flatMap_text_extend (c : Char) (isCode : Bool) (ss : List Span) :
    (Span.extend c isCode ss).flatMap (·.text) = c :: ss.flatMap (·.text) := by
  cases ss with
  | nil => rfl
  | cons s ss =>
    rw [Span.extend]
    split <;> simp

theorem flatMap_text_codeSpansFrom (inside : Bool) (t : Text) :
    (codeSpansFrom inside t).flatMap (·.text) = t := by
  induction t generalizing inside with
  | nil => cases inside <;> rfl
  | cons c r ih =>
    cases inside <;> rw [codeSpansFrom] <;> split <;> simp [flatMap_text_extend, ih]

/-- The parts of a line put together are the line. -/
theorem flatMap_text_codeSpans (t : Text) : t.codeSpans.flatMap (·.text) = t :=
  flatMap_text_codeSpansFrom false t

/-! ## The cut of a line -/

/-- A stretch of prose as a list of parts: an empty one is no part. -/
def prosePart (t : Text) : List Span :=
  if t = [] then [] else [⟨t, false⟩]

theorem extend_prosePart (c : Char) (t : Text) (ss : List Span)
    (next : ∀ s ∈ ss.head?, t = [] → s.isCode = true) :
    Span.extend c false (prosePart t ++ ss) = ⟨c :: t, false⟩ :: ss := by
  by_cases empty : t = []
  · subst empty
    cases ss with
    | nil => rfl
    | cons s ss => simp [prosePart, Span.extend, next s rfl rfl]
  · simp [prosePart, empty, Span.extend]

theorem codeSpansFrom_true {x : Text} (noTick : '\x60' ∉ x) (rest : Text) :
    codeSpansFrom true (x ++ '\x60' :: rest) = ⟨x ++ ['\x60'], true⟩ :: codeSpansFrom false rest := by
  induction x with
  | nil => simp [codeSpansFrom]
  | cons c x ih =>
    have this : c ≠ '\x60' := by rintro rfl; exact noTick (.head _)
    simp [codeSpansFrom, this, ih fun mem => noTick (.tail _ mem), Span.extend]

/-- **A code span and what precedes it.** -/
theorem codeSpans_span {a x : Text} (before : '\x60' ∉ a) (inside : '\x60' ∉ x) (rest : Text) :
    codeSpans (a ++ '\x60' :: (x ++ '\x60' :: rest)) =
      prosePart a ++ ⟨'\x60' :: (x ++ ['\x60']), true⟩ :: codeSpans rest := by
  induction a with
  | nil => simp [codeSpans, codeSpansFrom, codeSpansFrom_true inside, prosePart, Span.extend]
  | cons c a ih =>
    have this : c ≠ '\x60' := by rintro rfl; exact before (.head _)
    have later := ih fun mem => before (.tail _ mem)
    rw [codeSpans] at later
    simp only [List.cons_append, codeSpans, codeSpansFrom, this, decide_false, Bool.false_and,
      Bool.false_eq_true, if_false, later]
    rw [extend_prosePart c a _ (by simp)]
    simp [prosePart]

/-- A line in which no backtick has a partner is prose. -/
theorem codeSpans_of_lone {t : Text} (lone : t.count '\x60' ≤ 1) : codeSpans t = prosePart t := by
  induction t with
  | nil => rfl
  | cons c r ih =>
    rw [List.count_cons] at lone
    have alone : ¬ (c = '\x60' ∧ '\x60' ∈ r) := by
      rintro ⟨rfl, mem⟩
      have := List.count_pos_iff.2 mem
      simp at lone
      omega
    have later := ih (by omega)
    rw [codeSpans] at later
    rw [codeSpans, codeSpansFrom, if_neg (by simpa using alone), later]
    simpa [prosePart] using extend_prosePart c r [] (by simp)

theorem codeSpans_of_noTick {t : Text} (filled : t ≠ []) (noTick : '\x60' ∉ t) :
    t.codeSpans = [⟨t, false⟩] := by
  rw [codeSpans_of_lone (by simp [List.count_eq_zero.2 noTick]), prosePart, if_neg filled]

/-- Every line has a first code span, or none of its backticks has a partner. -/
theorem exists_span_or_lone (t : Text) :
    (∃ a x rest : Text, t = a ++ '\x60' :: (x ++ '\x60' :: rest) ∧ '\x60' ∉ a ∧ '\x60' ∉ x) ∨
      t.count '\x60' ≤ 1 := by
  by_cases first : '\x60' ∈ t
  · obtain ⟨a, behind, rfl, before⟩ := List.eq_append_cons_of_mem first
    by_cases second : '\x60' ∈ behind
    · obtain ⟨x, rest, rfl, inside⟩ := List.eq_append_cons_of_mem second
      exact .inl ⟨a, x, rest, rfl, before, inside⟩
    · refine .inr ?_
      simp [List.count_append, List.count_eq_zero.2 before, List.count_eq_zero.2 second]
  · exact .inr (by simp [List.count_eq_zero.2 first])

/-- **Induction on the parts of a line**: a code span with the prose before it, or prose in which no
backtick has a partner. -/
@[elab_as_elim]
theorem codeSpans_induction {motive : Text → Prop}
    (span : ∀ a x rest : Text, '\x60' ∉ a → '\x60' ∉ x → motive rest →
      motive (a ++ '\x60' :: (x ++ '\x60' :: rest)))
    (lone : ∀ t : Text, t.count '\x60' ≤ 1 → motive t) (t : Text) : motive t := by
  induction length : t.length using Nat.strongRecOn generalizing t with
  | ind n ih =>
    subst length
    rcases exists_span_or_lone t with ⟨a, x, rest, rfl, before, inside⟩ | alone
    · have shorter : rest.length < (a ++ '\x60' :: (x ++ '\x60' :: rest)).length := by
        simp only [List.length_append, List.length_cons]
        omega
      exact span a x rest before inside (ih _ shorter rest rfl)
    · exact lone t alone

/-! ## What makes a cut -/

end Text

/-- Parts that make a cut: none of them is empty, code stands between two backticks and holds no other,
prose holds a backtick only at the end, and just one there, and no two parts that are prose are
neighbours. -/
structure Span.IsCut (ss : List Span) : Prop where
  filled : ∀ s ∈ ss, s.text ≠ []
  code : ∀ s ∈ ss, s.isCode = true → ∃ x, '\x60' ∉ x ∧ s.text = '\x60' :: (x ++ ['\x60'])
  lone : ∀ s ∈ ss, s.isCode = false → s.text.count '\x60' ≤ 1
  prose : ∀ s ∈ ss.dropLast, s.isCode = false → '\x60' ∉ s.text
  apart : ss.IsChain fun s s' => s.isCode = true ∨ s'.isCode = true

theorem Span.isCut_nil : IsCut [] :=
  ⟨nofun, nofun, nofun, nofun, .nil⟩

/-- A cut is made part by part: behind prose comes code, or nothing. -/
theorem Span.isCut_cons {s : Span} {ss : List Span} : IsCut (s :: ss) ↔ s.text ≠ [] ∧
    (s.isCode = true → ∃ x, '\x60' ∉ x ∧ s.text = '\x60' :: (x ++ ['\x60'])) ∧
    (s.isCode = false → s.text.count '\x60' ≤ 1 ∧
      ∀ s' ∈ ss.head?, s'.isCode = true ∧ '\x60' ∉ s.text) ∧ IsCut ss := by
  constructor
  · intro cut
    obtain ⟨filled, laterFilled⟩ := List.forall_mem_cons.1 cut.filled
    obtain ⟨code, laterCode⟩ := List.forall_mem_cons.1 cut.code
    obtain ⟨lone, laterLone⟩ := List.forall_mem_cons.1 cut.lone
    obtain ⟨next, laterApart⟩ := List.isChain_cons.1 cut.apart
    have laterProse : ∀ s' ∈ ss.dropLast, s'.isCode = false → '\x60' ∉ s'.text := by
      intro s' mem
      cases ss with
      | nil => cases mem
      | cons => exact cut.prose s' (.tail _ mem)
    refine ⟨filled, code, fun prose => ⟨lone prose, fun s' head => ⟨?_, ?_⟩⟩,
      laterFilled, laterCode, laterLone, laterProse, laterApart⟩
    · simpa [prose] using next s' head
    · obtain ⟨ss', rfl⟩ := List.head?_eq_some_iff.1 head
      exact cut.prose s (.head _) prose
  · rintro ⟨filled, code, prose, cut⟩
    refine ⟨List.forall_mem_cons.2 ⟨filled, cut.filled⟩, List.forall_mem_cons.2 ⟨code, cut.code⟩,
      List.forall_mem_cons.2 ⟨fun isProse => (prose isProse).1, cut.lone⟩, ?_,
      List.isChain_cons.2 ⟨fun s' head => ?_, cut.apart⟩⟩
    · cases ss with
      | nil => exact nofun
      | cons s' ss =>
        exact List.forall_mem_cons.2 ⟨fun isProse => ((prose isProse).2 s' rfl).2, cut.prose⟩
    · cases isCode : s.isCode with
      | true => exact .inl rfl
      | false => exact .inr ((prose isCode).2 s' head).1

namespace Text

/-- **The parts of a line make a cut.** -/
theorem isCut_codeSpans (t : Text) : Span.IsCut t.codeSpans := by
  induction t using codeSpans_induction with
  | span a x rest before inside ih =>
    have behind : Span.IsCut (⟨'\x60' :: (x ++ ['\x60']), true⟩ :: codeSpans rest) :=
      Span.isCut_cons.2 ⟨List.cons_ne_nil _ _, fun _ => ⟨x, inside, rfl⟩, nofun, ih⟩
    rw [codeSpans_span before inside, prosePart]
    split
    case isTrue => exact behind
    case isFalse filled =>
      refine Span.isCut_cons.2 ⟨filled, nofun, fun _ => ⟨?_, fun s head => ?_⟩, behind⟩
      · rw [List.count_eq_zero.2 before]
        exact Nat.zero_le 1
      · cases head
        exact ⟨rfl, before⟩
  | lone t lone =>
    rw [codeSpans_of_lone lone, prosePart]
    split
    case isTrue => exact Span.isCut_nil
    case isFalse filled =>
      exact Span.isCut_cons.2 ⟨filled, nofun, fun _ => ⟨lone, nofun⟩, Span.isCut_nil⟩

/-- What is known of a part: it has characters, and a part that is prose holds at most one backtick,
which has no partner. -/
theorem of_mem_codeSpans {s : Span} {t : Text} (mem : s ∈ t.codeSpans) :
    s.text ≠ [] ∧ (s.isCode = false → s.text.count '\x60' ≤ 1) :=
  ⟨(isCut_codeSpans t).filled s mem, (isCut_codeSpans t).lone s mem⟩

/-- **Nothing else makes a cut** of a line: parts that do, and are the line when put together, are its
parts. -/
theorem eq_codeSpans {ss : List Span} (cut : Span.IsCut ss) :
    ss = codeSpans (ss.flatMap (·.text)) := by
  induction ss with
  | nil => rfl
  | cons s ss ih =>
    obtain ⟨filled, code, prose, later⟩ := Span.isCut_cons.1 cut
    have behind := ih later
    obtain ⟨x, isCode⟩ := s
    cases isCode with
    | true =>
      obtain ⟨x, inside, rfl⟩ := code rfl
      have whole : List.flatMap (·.text) (⟨'\x60' :: (x ++ ['\x60']), true⟩ :: ss) =
          [] ++ '\x60' :: (x ++ '\x60' :: ss.flatMap (·.text)) := by simp
      rw [whole, codeSpans_span List.not_mem_nil inside, ← behind]
      rfl
    | false =>
      obtain ⟨alone, next⟩ := prose rfl
      cases ss with
      | nil => rw [List.flatMap_singleton, codeSpans_of_lone alone, prosePart, if_neg filled]
      | cons s' ss =>
        -- The code behind is cut off together with the prose before it.
        obtain ⟨isCode, before⟩ := next s' rfl
        obtain ⟨-, code', -, -⟩ := Span.isCut_cons.1 later
        obtain ⟨y, inside, text⟩ := code' isCode
        have rest : List.flatMap (·.text) (s' :: ss) =
            [] ++ '\x60' :: (y ++ '\x60' :: ss.flatMap (·.text)) := by simp [text]
        rw [rest, codeSpans_span List.not_mem_nil inside] at behind
        rw [List.flatMap_cons, rest, List.nil_append, codeSpans_span before inside, prosePart,
          if_neg filled, behind]
        rfl

/-! ## Inline code -/

/-- The inline code of a line, span by span, with its backticks. -/
def inlineCode (t : Text) : List Text :=
  (t.codeSpans.filter (·.isCode)).map (·.text)

theorem filter_prosePart (t : Text) : (prosePart t).filter (·.isCode) = [] := by
  unfold prosePart
  split <;> rfl

theorem inlineCode_span {a x : Text} (before : '\x60' ∉ a) (inside : '\x60' ∉ x) (rest : Text) :
    inlineCode (a ++ '\x60' :: (x ++ '\x60' :: rest)) =
      ('\x60' :: (x ++ ['\x60'])) :: inlineCode rest := by
  simp [inlineCode, codeSpans_span before inside, filter_prosePart]

theorem inlineCode_of_lone {t : Text} (lone : t.count '\x60' ≤ 1) : inlineCode t = [] := by
  rw [inlineCode, codeSpans_of_lone lone, filter_prosePart, List.map_nil]

/-- Prose at the end of a line adds no inline code. -/
theorem inlineCode_append (t : Text) {u : Text} (noTick : '\x60' ∉ u) :
    inlineCode (t ++ u) = inlineCode t := by
  induction t using codeSpans_induction with
  | span a x rest before inside ih =>
    have cut : a ++ '\x60' :: (x ++ '\x60' :: rest) ++ u =
        a ++ '\x60' :: (x ++ '\x60' :: (rest ++ u)) := by simp
    rw [cut, inlineCode_span before inside, inlineCode_span before inside, ih]
  | lone t lone =>
    have still : (t ++ u).count '\x60' ≤ 1 := by
      rw [List.count_append, List.count_eq_zero.2 noTick]
      exact lone
    rw [inlineCode_of_lone lone, inlineCode_of_lone still]

/-! ## Other texts in the places of parts -/

end Text

/-- The texts that may stand in the place of a part: code stays, and prose may become any text with as
many backticks. -/
inductive Span.Allows : Span → Text → Prop
  | code (x : Text) : Span.Allows ⟨x, true⟩ x
  | prose {x u : Text} (ticks : u.count '\x60' = x.count '\x60') : Span.Allows ⟨x, false⟩ u

/-- What a part becomes when a text is put in its place; nothing, if that is empty. -/
def Span.put (s : Span) (u : Text) : List Span :=
  if s.isCode then [s] else Text.prosePart u

namespace Text

/-- What stands for a stretch of prose and for the parts behind it. -/
theorem exists_of_allows_prosePart {a : Text} {ss : List Span} {us : List Text}
    (allowed : List.Forall₂ Span.Allows (prosePart a ++ ss) us) :
    ∃ b vs, b.count '\x60' = a.count '\x60' ∧ List.Forall₂ Span.Allows ss vs ∧
      us.flatten = b ++ vs.flatten ∧ (List.zipWith Span.put (prosePart a ++ ss) us).flatten =
        prosePart b ++ (List.zipWith Span.put ss vs).flatten := by
  by_cases empty : a = []
  · subst empty
    exact ⟨[], us, rfl, allowed, rfl, rfl⟩
  · rw [prosePart, if_neg empty, List.singleton_append] at allowed ⊢
    cases allowed with
    | cons first behind =>
      cases first with
      | prose ticks => exact ⟨_, _, ticks, behind, rfl, rfl⟩

/-- **The parts of a line in which other texts stand for the parts**: each part becomes what was put in
its place. -/
theorem codeSpans_flatten {t : Text} {us : List Text}
    (allowed : List.Forall₂ Span.Allows t.codeSpans us) :
    codeSpans us.flatten = (List.zipWith Span.put t.codeSpans us).flatten := by
  induction t using codeSpans_induction generalizing us with
  | span a x rest before inside ih =>
    rw [codeSpans_span before inside] at allowed ⊢
    obtain ⟨b, vs, ticks, behind, whole, parts⟩ := exists_of_allows_prosePart allowed
    have noTick : '\x60' ∉ b := by
      rw [← List.count_eq_zero, ticks, List.count_eq_zero]
      exact before
    rw [whole, parts]
    cases behind with
    | @cons _ _ _ ws first later =>
      cases first
      have cut : b ++ List.flatten (('\x60' :: (x ++ ['\x60'])) :: ws) =
          b ++ '\x60' :: (x ++ '\x60' :: ws.flatten) := by simp
      rw [cut, codeSpans_span noTick inside, ih later]
      rfl
  | lone t lone =>
    rw [codeSpans_of_lone lone, ← List.append_nil (prosePart t)] at allowed ⊢
    obtain ⟨b, vs, ticks, behind, whole, parts⟩ := exists_of_allows_prosePart allowed
    cases behind
    rw [whole, parts, List.flatten_nil, List.append_nil, codeSpans_of_lone (ticks ▸ lone)]
    exact (List.append_nil _).symm

/-- **The inline code of such a line** is the same, span by span. -/
theorem inlineCode_flatten {t : Text} {us : List Text}
    (allowed : List.Forall₂ Span.Allows t.codeSpans us) : inlineCode us.flatten = inlineCode t := by
  rw [inlineCode, codeSpans_flatten allowed, inlineCode]
  generalize t.codeSpans = ss at allowed
  induction allowed with
  | nil => rfl
  | cons first _ ih =>
    rw [List.zipWith_cons_cons, List.flatten_cons, List.filter_append, List.map_append, ih]
    cases first with
    | code x => rfl
    | prose ticks => simp [Span.put, filter_prosePart]

/-- **Code spans partition a line.**  Its parts make a cut, and put together they are the line.  When
other texts stand for what is prose, each with as many backticks as the part that it stands for, the line
that they make has the same code spans in the same order. -/
theorem codeSpans_partition (t : Text) :
    Span.IsCut t.codeSpans ∧ t.codeSpans.flatMap (·.text) = t ∧
      ∀ us : List Text, List.Forall₂ Span.Allows t.codeSpans us →
        inlineCode us.flatten = inlineCode t := by
  refine ⟨isCut_codeSpans t, flatMap_text_codeSpans t, ?_⟩
  intro us allowed
  exact inlineCode_flatten allowed

/-- Code without content, prose between code, neighbours that are code, and a backtick at the end. -/
example :
    codeSpans "\x60\x60a\x60b\x60\x60c\x60d\x60".toList =
      [⟨"\x60\x60".toList, true⟩, ⟨"a".toList, false⟩, ⟨"\x60b\x60".toList, true⟩,
        ⟨"\x60c\x60".toList, true⟩, ⟨"d\x60".toList, false⟩] := by
  decide +kernel

/-! ## Rewriting the prose of a line -/

section Rewriting

variable {f : Text → Text}

theorem flatMap_prosePart (t : Text) :
    (prosePart t).flatMap (fun s => if s.isCode then s.text else f s.text) =
      if t = [] then [] else f t := by
  unfold prosePart
  split <;> simp

theorem mapOutsideCode_span {a x : Text} (before : '\x60' ∉ a) (inside : '\x60' ∉ x) (rest : Text) :
    mapOutsideCode f (a ++ '\x60' :: (x ++ '\x60' :: rest)) =
      (if a = [] then [] else f a) ++ '\x60' :: (x ++ '\x60' :: mapOutsideCode f rest) := by
  simp [mapOutsideCode, codeSpans_span before inside, flatMap_prosePart]

theorem mapOutsideCode_of_lone {t : Text} (lone : t.count '\x60' ≤ 1) :
    mapOutsideCode f t = if t = [] then [] else f t := by
  rw [mapOutsideCode, codeSpans_of_lone lone, flatMap_prosePart]

/-- **The prose behind the last code span** of a line whose backticks are paired is rewritten together
with the prose that follows it. -/
theorem exists_mapOutsideCode_append {t : Text} (paired : t.count '\x60' % 2 = 0) :
    ∃ v w : Text, t = v ++ w ∧ '\x60' ∉ w ∧ (v = [] ∨ '\x60' ∈ v) ∧
      ∀ u, '\x60' ∉ u → w ++ u ≠ [] →
        mapOutsideCode f (t ++ u) = mapOutsideCode f v ++ f (w ++ u) := by
  induction t using codeSpans_induction with
  | span a x rest before inside ih =>
    have restPaired : rest.count '\x60' % 2 = 0 := by
      simp only [List.count_append, List.count_eq_zero.2 before, List.count_eq_zero.2 inside,
        List.count_cons_self] at paired
      omega
    obtain ⟨v, w, rfl, noTick, -, behind⟩ := ih restPaired
    refine ⟨a ++ '\x60' :: (x ++ '\x60' :: v), w, by simp, noTick, .inr (by simp), ?_⟩
    intro u plain filled
    have cut : a ++ '\x60' :: (x ++ '\x60' :: (v ++ w)) ++ u =
        a ++ '\x60' :: (x ++ '\x60' :: (v ++ w ++ u)) := by simp
    rw [cut, mapOutsideCode_span before inside, mapOutsideCode_span before inside,
      behind u plain filled]
    simp
  | lone t lone =>
    have noTick : '\x60' ∉ t := List.count_eq_zero.1 (by omega)
    refine ⟨[], t, rfl, noTick, .inl rfl, fun u plain filled => ?_⟩
    have alone : (t ++ u).count '\x60' ≤ 1 := by
      rw [List.count_append, List.count_eq_zero.2 plain]
      exact lone
    rw [mapOutsideCode_of_lone alone, if_neg filled]
    rfl

variable (ticks : ∀ t, (f t).count '\x60' = t.count '\x60')
include ticks

/-- What a rewriting puts for the parts of a line may stand in their places. -/
theorem forall₂_allows (t : Text) : List.Forall₂ Span.Allows t.codeSpans
    (t.codeSpans.map fun s => if s.isCode then s.text else f s.text) := by
  rw [List.forall₂_map_right_iff, List.forall₂_same]
  intro s _
  obtain ⟨x, isCode⟩ := s
  cases isCode with
  | true => exact .code x
  | false => exact .prose (ticks x)

/-- **The parts of a line whose prose is rewritten**, if the rewriting keeps the number of backticks:
code stays, and a part that is prose becomes its rewriting. -/
theorem codeSpans_mapOutsideCode (t : Text) :
    codeSpans (mapOutsideCode f t) =
      t.codeSpans.flatMap fun s => if s.isCode then [s] else prosePart (f s.text) := by
  have becomes (s : Span) : s.put (if s.isCode then s.text else f s.text) =
      if s.isCode then [s] else prosePart (f s.text) := by
    unfold Span.put
    split <;> rfl
  rw [mapOutsideCode, List.flatMap_def, codeSpans_flatten (forall₂_allows ticks t),
    List.zipWith_map_right, List.zipWith_self, List.flatMap_def]
  simp only [becomes]

/-- **Rewriting the prose of a line keeps its inline code**, if it keeps the number of backticks. -/
theorem inlineCode_mapOutsideCode (t : Text) : inlineCode (mapOutsideCode f t) = inlineCode t := by
  rw [mapOutsideCode, List.flatMap_def]
  exact inlineCode_flatten (forall₂_allows ticks t)

end Rewriting

end Text
end MdxPress
