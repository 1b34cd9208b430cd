import MdxPress.Proofs.Mdx.Nested
import MdxPress.Proofs.Text.Case

/-!
Lines of which characters are left out that no tag needs.

* `Pared` compares the characters of a line with those that are left of it: the same tags start at
  the brackets that are kept, and where a tag may end, a slash stands before both ends or before
  neither;
* `Pared.covered` carries the comparison over to what covers the characters;
* `Pared.find?` says that a tag ends at the same place of both lines.

The characters may carry marks: `Pared` takes the function that reads a character off its item.
-/

namespace MdxPress

/-- Whether the last visible character is a slash, behind one more character. -/
def slashBehind (slash : Bool) (c : Char) : Bool :=
  if isBlank c then slash else c == '/'

/-- A tag as it is written up to the end of its name, without the bracket. -/
def Tag.written (closing : Bool) (name : Text) : Text :=
  if closing then '/' :: name else name

/-- A character that neither begins nor ends a tag, a value, an expression, a marker or code. -/
def Tag.isInert (c : Char) : Bool :=
  !(['<', '>', '"', '\'', '\x7b', '\x7d', '%', '\x60'].contains c)

/-- `Pared f a b ks ms`: the items `ms` are what is left of `ks` when inert characters are left out
between the tags.  The flags tell whether the last visible character before each is a slash. -/
inductive Pared {α : Type} (f : α → Char) : Bool → Bool → List α → List α → Prop
  | nil {a b : Bool} : Pared f a b [] []
  | same {a b : Bool} {k : α} {ks ms : List α}
      (noTag : f k = '<' →
        Tag.ofStart? ('<' :: ks.map f) = none ∧ Tag.ofStart? ('<' :: ms.map f) = none)
      (ends : f k = '>' → a = b)
      (opener : f k = '{' → ((ks.map f).head? = some '%' ↔ (ms.map f).head? = some '%'))
      (closer : f k = '%' → ((ks.map f).head? = some '}' ↔ (ms.map f).head? = some '}'))
      (rest : Pared f (slashBehind a (f k)) (slashBehind b (f k)) ks ms) :
      Pared f a b (k :: ks) (k :: ms)
  | tag {a b closing : Bool} {name : Text} {k : α} {ws ks ms : List α} (angle : f k = '<')
      (width : ws.map f = Tag.written closing name)
      (left : Tag.ofStart? ('<' :: (ws ++ ks).map f) = some (closing, name))
      (right : Tag.ofStart? ('<' :: (ws ++ ms).map f) = some (closing, name))
      (rest : Pared f false false ks ms) : Pared f a b (k :: (ws ++ ks)) (k :: (ws ++ ms))
  | drop {a b : Bool} {k : α} {ks ms : List α} (inert : Tag.isInert (f k) = true)
      (rest : Pared f (slashBehind a (f k)) b ks ms) : Pared f a b (k :: ks) ms

/-! ## Names of tags -/

namespace Tag

theorem isInert_ne {c : Char} (inert : isInert c = true) :
    c ≠ '<' ∧ c ≠ '>' ∧ c ≠ '"' ∧ c ≠ '\'' ∧ c ≠ '{' ∧ c ≠ '}' ∧ c ≠ '%' ∧ c ≠ '\x60' := by
  simpa [isInert] using inert

theorem isInert_of_isBlank {c : Char} (blank : isBlank c = true) : isInert c = true := by
  have visible : ∀ d ∈ ['<', '>', '"', '\'', '\x7b', '\x7d', '%', '\x60'], isBlank d = false := by
    decide
  cases inert : isInert c with
  | true => rfl
  | false =>
    have mem : c ∈ ['<', '>', '"', '\'', '\x7b', '\x7d', '%', '\x60'] := by
      rw [isInert, Bool.not_eq_false'] at inert
      exact List.contains_iff_mem.1 inert
    rw [visible c mem] at blank
    cases blank

/-- The name of a component: a capital letter and characters of names. -/
def IsName : Text → Prop
  | [] => False
  | c :: r => isCapital c = true ∧ ∀ d ∈ r, isNameChar d = true

theorem name?_eq_some_iff {t name : Text} :
    name? t = some name ↔ ∃ rest, t = name ++ rest ∧ IsName name ∧
      ∀ c ∈ rest.head?, isNameChar c = false := by
  constructor
  · intro reads
    unfold name? at reads
    split at reads
    case h_2 => cases reads
    case h_1 c r =>
      split at reads
      case isFalse => cases reads
      case isTrue capital =>
        cases reads
        refine ⟨r.dropWhile isNameChar, by simp, ⟨capital, fun d mem => List.mem_takeWhile_imp mem⟩, ?_⟩
        intro d first
        have stops := List.head?_dropWhile_not isNameChar r
        rw [Option.mem_def.1 first] at stops
        exact stops
  · rintro ⟨rest, rfl, isName, stops⟩
    cases name with
    | nil => exact isName.elim
    | cons c r =>
      have run : (r ++ rest).takeWhile isNameChar = r := by
        rw [List.takeWhile_append_of_pos isName.2]
        cases rest with
        | nil => simp
        | cons d rest => rw [List.takeWhile_cons_of_neg (by simp [stops d rfl]), List.append_nil]
      rw [List.cons_append, name?, if_pos isName.1, run]

theorem IsName.isNameChar {name : Text} (isName : IsName name) :
    ∀ c ∈ name, Tag.isNameChar c = true := by
  cases name with
  | nil => exact List.forall_mem_nil _
  | cons c r =>
    refine List.forall_mem_cons.2 ⟨?_, isName.2⟩
    have capital : 'A' ≤ c ∧ c ≤ 'Z' := by simpa [isCapital] using isName.1
    simp [Tag.isNameChar, Text.isAsciiAlnum, Text.isAsciiLetter, capital]

/-- No name begins with a slash. -/
theorem IsName.head?_ne {name rest t : Text} (isName : IsName name) : name ++ rest ≠ '/' :: t := by
  cases name with
  | nil => exact isName.elim
  | cons c r =>
    intro same
    obtain rfl : c = '/' := (List.cons.inj same).1
    exact absurd isName.1 (by decide)

/-- **What a tag looks like up to the end of its name.** -/
theorem ofStart?_eq_some_iff {t name : Text} {closing : Bool} :
    ofStart? ('<' :: t) = some (closing, name) ↔ ∃ rest, t = written closing name ++ rest ∧
      IsName name ∧ ∀ c ∈ rest.head?, isNameChar c = false := by
  by_cases slash : t.head? = some '/'
  · obtain ⟨r, rfl⟩ := List.head?_eq_some_iff.1 slash
    rw [ofStart?, Option.map_eq_some_iff]
    constructor
    · rintro ⟨n, reads, same⟩
      cases same
      obtain ⟨rest, rfl, isName, stops⟩ := name?_eq_some_iff.1 reads
      exact ⟨rest, rfl, isName, stops⟩
    · rintro ⟨rest, whole, isName, stops⟩
      cases closing with
      | true =>
        refine ⟨name, name?_eq_some_iff.2 ⟨rest, ?_, isName, stops⟩, rfl⟩
        exact (List.cons.inj whole).2
      | false => exact absurd whole.symm isName.head?_ne
  · rw [ofStart?_of_not_slash slash, Option.map_eq_some_iff]
    constructor
    · rintro ⟨n, reads, same⟩
      cases same
      exact name?_eq_some_iff.1 reads
    · rintro ⟨rest, whole, isName, stops⟩
      cases closing with
      | true => exact absurd (by rw [whole]; rfl) slash
      | false => exact ⟨name, name?_eq_some_iff.2 ⟨rest, whole, isName, stops⟩, rfl⟩

theorem IsName.ne_nil {name : Text} (isName : IsName name) : name ≠ [] := by
  rintro rfl
  exact isName

/-- The characters of a tag up to the end of its name. -/
theorem mem_written {closing : Bool} {name : Text} (isName : IsName name) {c : Char}
    (mem : c ∈ written closing name) : c = '/' ∨ isNameChar c = true := by
  cases closing with
  | false => exact .inr (isName.isNameChar c mem)
  | true =>
    rcases List.mem_cons.1 mem with rfl | mem
    · exact .inl rfl
    · exact .inr (isName.isNameChar c mem)

theorem isNameChar_false_of_isBlank {c : Char} (blank : isBlank c = true) : isNameChar c = false := by
  cases name : isNameChar c with
  | false => rfl
  | true =>
    simp only [isNameChar, Bool.or_eq_true, decide_eq_true_eq] at name
    rcases name with (letter | rfl) | rfl
    · obtain ⟨low, high⟩ := Text.toNat_of_isAsciiAlnum letter
      simp only [isBlank, Bool.or_eq_true, Bool.and_eq_true, decide_eq_true_eq, beq_iff_eq] at blank
      omega
    · exact absurd blank (by decide)
    · exact absurd blank (by decide)

/-- What is written for a tag up to the end of its name has no marks in it. -/
theorem avoids_written {closing : Bool} {name : Text} (isName : IsName name) {d : Char}
    (other : isNameChar d = false) (noSlash : d ≠ '/') : d ∉ written closing name := by
  intro mem
  rcases mem_written isName mem with rfl | inName
  · exact noSlash rfl
  · rw [other] at inName
    cases inName

end Tag

/-! ## The end of a tag -/

/-- No slash stands before the end of a name. -/
theorem foldl_slashBehind_written {name : Text} (isName : Tag.IsName name) (closing a : Bool) :
    (Tag.written closing name).foldl slashBehind a = false := by
  have last (d : Char) (mem : d ∈ name) (b : Bool) : slashBehind b d = false := by
    have inName := isName.isNameChar d mem
    have visible : isBlank d = false := by
      cases blank : isBlank d with
      | false => rfl
      | true => rw [Tag.isNameChar_false_of_isBlank blank] at inName; cases inName
    have noSlash : d ≠ '/' := by
      rintro rfl
      exact absurd inName (by decide)
    simp [slashBehind, visible, noSlash]
  have behind (b : Bool) : name.foldl slashBehind b = false := by
    obtain ⟨front, d, rfl⟩ := (List.eq_nil_or_concat name).resolve_left isName.ne_nil
    rw [List.concat_eq_append, List.foldl_append]
    exact last d (by simp) _
  cases closing with
  | false => exact behind a
  | true => exact behind _

namespace TagEndState

/-- Two searches for the end of a tag that have come to the same; the flags tell whether a slash
stands before them. -/
structure InStep (s s' : TagEndState) (a b : Bool) : Prop where
  quote : s.quote = s'.quote
  depth : s.depth = s'.depth
  isQuote : ∀ q ∈ s.quote, q = '"' ∨ q = '\''
  left : (s.last == some '/') = a
  right : (s'.last == some '/') = b

variable {s s' : TagEndState} {a b : Bool} {c : Char}

theorem inStep_start : InStep start start false false :=
  ⟨rfl, rfl, nofun, rfl, rfl⟩

theorem InStep.isEnd (inStep : InStep s s' a b) (c : Char) : s.isEnd c = s'.isEnd c := by
  rw [TagEndState.isEnd, TagEndState.isEnd, inStep.quote, inStep.depth]

theorem slash_next (s : TagEndState) (c : Char) :
    ((s.next c).last == some '/') = slashBehind (s.last == some '/') c := by
  have last : (s.next c).last = if isBlank c then s.last else some c := by
    unfold next
    dsimp only
    repeat' split
    all_goals rfl
  rw [last, slashBehind]
  split <;> simp

theorem quote_next (s : TagEndState) (c : Char) :
    (s.next c).quote = s.quote ∨ (s.next c).quote = none ∨
      (c = '"' ∨ c = '\'') ∧ (s.next c).quote = some c := by
  obtain ⟨quote, depth, last⟩ := s
  unfold next
  cases quote with
  | some q =>
    by_cases closes : c = q
    · exact .inr (.inl (if_pos closes))
    · exact .inl (if_neg closes)
  | none =>
    dsimp only
    split
    case isTrue opens =>
      have mark : (c = '"' ∨ c = '\'') ∧ depth = 0 := by simpa using opens
      exact .inr (.inr ⟨mark.1, rfl⟩)
    case isFalse =>
      repeat' split
      all_goals exact .inl rfl

theorem InStep.next (inStep : InStep s s' a b) (c : Char) :
    InStep (s.next c) (s'.next c) (slashBehind a c) (slashBehind b c) where
  quote := by
    unfold TagEndState.next
    dsimp only
    rw [inStep.quote, inStep.depth]
    repeat' split
    all_goals rfl
  depth := by
    unfold TagEndState.next
    dsimp only
    rw [inStep.quote, inStep.depth]
    repeat' split
    all_goals rfl
  isQuote := by
    have isQuote := inStep.isQuote
    intro q quoted
    rcases quote_next s c with same | ⟨none_⟩ | ⟨isMark, here⟩
    · exact isQuote q (same ▸ quoted)
    · rw [none_] at quoted; cases quoted
    · rw [here] at quoted
      cases quoted
      exact isMark
  left := (slash_next s c).trans (by rw [inStep.left])
  right := (slash_next s' c).trans (by rw [inStep.right])

/-- An inert character makes no difference but before a slash. -/
theorem InStep.drop (inStep : InStep s s' a b) (inert : Tag.isInert c = true) :
    InStep (s.next c) s' (slashBehind a c) b := by
  obtain ⟨-, -, double, single, left, right, -, -⟩ := Tag.isInert_ne inert
  have stays : (s.next c).quote = s.quote ∧ (s.next c).depth = s.depth := by
    have isQuote := inStep.isQuote
    obtain ⟨quote, depth, last⟩ := s
    cases quote with
    | some q =>
      have other : c ≠ q := by
        rintro rfl
        rcases isQuote c rfl with same | same
        · exact double same
        · exact single same
      simp [TagEndState.next, other]
    | none => simp [TagEndState.next, double, single, left, right]
  refine ⟨stays.1.trans inStep.quote, stays.2.trans inStep.depth, ?_, ?_, inStep.right⟩
  · rw [stays.1]
    exact inStep.isQuote
  · rw [slash_next, inStep.left]

/-- A stretch without angle brackets ends no tag. -/
theorem InStep.find?_append (inStep : InStep s s' a b) {t : Text} (noEnd : '>' ∉ t) :
    ∃ r r' : TagEndState, InStep r r' (t.foldl slashBehind a) (t.foldl slashBehind b) ∧
      (∀ u, s.find? (t ++ u) = (r.find? u).map fun p => (p.1 + t.length, p.2)) ∧
      ∀ u, s'.find? (t ++ u) = (r'.find? u).map fun p => (p.1 + t.length, p.2) := by
  induction t generalizing s s' a b with
  | nil => exact ⟨s, s', inStep, fun u => by simp, fun u => by simp⟩
  | cons c t ih =>
    have angle : c ≠ '>' := fun same => noEnd (same ▸ .head _)
    obtain ⟨r, r', behind, left, right⟩ := ih (inStep.next c) (fun mem => noEnd (.tail _ mem))
    have more (r : TagEndState) : r.isEnd c = false := by simp [TagEndState.isEnd, angle]
    refine ⟨r, r', behind, fun u => ?_, fun u => ?_⟩
    · rw [List.cons_append, find?, more, if_neg Bool.false_ne_true, left, Option.map_map]
      rfl
    · rw [List.cons_append, find?, more, if_neg Bool.false_ne_true, right, Option.map_map]
      rfl

end TagEndState

section Pared

variable {α : Type} {f : α → Char} {a b : Bool}

/-- A tag in front takes both searches along, and forgets what stood before it. -/
theorem TagEndState.InStep.find?_written {s s' : TagEndState} (inStep : s.InStep s' a b)
    {closing : Bool} {name : Text} (isName : Tag.IsName name) {k : α} {ws : List α} (angle : f k = '<')
    (written : ws.map f = Tag.written closing name) :
    ∃ r r' : TagEndState, r.InStep r' false false ∧
      (∀ js, s.find? ((k :: (ws ++ js)).map f) =
        (r.find? (js.map f)).map fun p => (p.1 + (k :: ws).length, p.2)) ∧
      ∀ js, s'.find? ((k :: (ws ++ js)).map f) =
        (r'.find? (js.map f)).map fun p => (p.1 + (k :: ws).length, p.2) := by
  have noEnd : '>' ∉ '<' :: Tag.written closing name := by
    simpa using Tag.avoids_written isName (d := '>') (by decide) (by decide)
  have whole (js : List α) : (k :: (ws ++ js)).map f = '<' :: Tag.written closing name ++ js.map f := by
    rw [List.map_cons, List.map_append, angle, written, List.cons_append]
  have length : ('<' :: Tag.written closing name).length = (k :: ws).length := by
    rw [← written, List.length_cons, List.length_map, List.length_cons]
  obtain ⟨r, r', inStep', first, second⟩ := inStep.find?_append noEnd
  rw [List.foldl_cons, List.foldl_cons, foldl_slashBehind_written isName,
    foldl_slashBehind_written isName] at inStep'
  refine ⟨r, r', inStep', fun js => ?_, fun js => ?_⟩
  · rw [whole, first, length]
  · rw [whole, second, length]

/-- **A tag ends at one place of both lines**, and closes itself on both or on neither. -/
theorem Pared.find? {ks ms : List α} (pared : Pared f a b ks ms) {s s' : TagEndState}
    (inStep : s.InStep s' a b) :
    (s.find? (ks.map f) = none ∧ s'.find? (ms.map f) = none) ∨
      ∃ n m selfClosing, s.find? (ks.map f) = some (n, selfClosing) ∧
        s'.find? (ms.map f) = some (m, selfClosing) ∧
        Pared f false false (ks.drop n) (ms.drop m) := by
  induction pared generalizing s s' with
  | nil => exact .inl ⟨rfl, rfl⟩
  | @same a b k ks ms _ ends _ _ rest ih =>
    rw [List.map_cons, List.map_cons, TagEndState.find?, TagEndState.find?, ← inStep.isEnd]
    cases here : s.isEnd (f k) with
    | true =>
      have angle : f k = '>' := by
        simp only [TagEndState.isEnd, Bool.and_eq_true, decide_eq_true_eq] at here
        exact here.1.1
      have slash (c : Bool) : slashBehind c '>' = false := by
        simp [slashBehind, show isBlank '>' = false by decide]
      rw [angle, slash, slash] at rest
      refine .inr ⟨1, 1, s.last == some '/', rfl, ?_, rest⟩
      rw [inStep.left, inStep.right, ends angle]
      rfl
    | false =>
      rcases ih (inStep.next (f k)) with ⟨left, right⟩ | ⟨n, m, selfClosing, left, right, behind⟩
      · exact .inl ⟨by rw [left]; rfl, by rw [right]; rfl⟩
      · exact .inr ⟨n + 1, m + 1, selfClosing, by rw [left]; rfl, by rw [right]; rfl, behind⟩
  | @tag a b closing name k ws ks ms angle width left _ rest ih =>
    rw [List.map_append] at left
    obtain ⟨-, -, isName, -⟩ := Tag.ofStart?_eq_some_iff.1 left
    obtain ⟨r, r', inStep', first, second⟩ := inStep.find?_written isName angle width
    have behind (js : List α) (n : Nat) :
        (k :: (ws ++ js)).drop (n + (k :: ws).length) = js.drop n := by
      rw [← List.cons_append, Nat.add_comm, List.drop_length_add_append]
    rw [first, second]
    rcases ih inStep' with ⟨none_, none'⟩ | ⟨n, m, selfClosing, some_, some', further⟩
    · exact .inl ⟨by rw [none_]; rfl, by rw [none']; rfl⟩
    · refine .inr ⟨n + (k :: ws).length, m + (k :: ws).length, selfClosing, by rw [some_]; rfl,
        by rw [some']; rfl, ?_⟩
      rw [behind, behind]
      exact further
  | @drop a b k ks ms inert rest ih =>
    have more : s.isEnd (f k) = false := by
      simp [TagEndState.isEnd, (Tag.isInert_ne inert).2.1]
    rw [List.map_cons, TagEndState.find?, more, if_neg Bool.false_ne_true]
    rcases ih (inStep.drop inert) with ⟨left, right⟩ | ⟨n, m, selfClosing, left, right, behind⟩
    · exact .inl ⟨by rw [left]; rfl, right⟩
    · exact .inr ⟨n + 1, m, selfClosing, by rw [left]; rfl, right, behind⟩

/-! ## What covers the characters -/

open Brace

theorem map_fst_covered (p : Place) (t : Text) : (covered p t).map (·.1) = t := by
  induction t generalizing p with
  | nil => rfl
  | cons c r ih => rw [covered, List.map_cons, ih]

/-- Leaving characters out takes no backtick away. -/
theorem Pared.tick_mem_iff {t u : Text} (pared : Pared id a b t u) : '\x60' ∈ t ↔ '\x60' ∈ u := by
  induction pared with
  | nil => rfl
  | same _ _ _ _ _ ih => rw [List.mem_cons, List.mem_cons, ih]
  | tag _ _ _ _ _ ih => rw [List.mem_cons, List.mem_cons, List.mem_append, List.mem_append, ih]
  | @drop a b c t u inert _ ih =>
    have other := (Tag.isInert_ne inert).2.2.2.2.2.2.2
    rw [List.mem_cons, ih, or_iff_right (fun same => other same.symm)]

/-- What covers a character that is no mark, where the walk is not at a delimiter. -/
def Brace.Place.cover (p : Place) : Cover :=
  match p with
  | .prose => .bare
  | .code => .code
  | _ => .marker

/-- The walk is not at a delimiter. -/
def Brace.Place.IsSteady (p : Place) : Prop :=
  p ≠ .opening ∧ p ≠ .closing

namespace Brace.Place

variable {p : Place} {c : Char} {t u : Text}

theorem IsSteady.fits (steady : p.IsSteady) (t : Text) : p.Fits t := by
  cases p with
  | opening => exact absurd rfl steady.1
  | closing => exact absurd rfl steady.2
  | prose | marker | code => trivial

/-- Before a character that delimits no marker, the walk is not at a delimiter. -/
theorem isSteady_of_fits (fits : p.Fits (c :: t)) (noPercent : c ≠ '%') (noBrace : c ≠ '}') :
    p.IsSteady := by
  constructor
  · rintro rfl
    exact noPercent (Option.some.inj fits)
  · rintro rfl
    exact noBrace (Option.some.inj fits)

/-- The walk stays where it is over a character that is no mark. -/
theorem IsSteady.step (steady : p.IsSteady) (noTick : c ≠ '\x60') (noBrace : c ≠ '{')
    (noPercent : c ≠ '%') (t : Text) : p.step c t = (p.cover, p) := by
  cases p with
  | opening => exact absurd rfl steady.1
  | closing => exact absurd rfl steady.2
  | prose => simp [Place.step, cover, noTick, noBrace]
  | marker => simp [Place.step, cover, noTick, noPercent]
  | code => simp [Place.step, cover, noTick]

theorem IsSteady.covered_append (steady : p.IsSteady) {w : Text}
    (plain : ∀ c ∈ w, c ≠ '\x60' ∧ c ≠ '{' ∧ c ≠ '%') (t : Text) :
    covered p (w ++ t) = w.map (fun c => (c, p.cover)) ++ covered p t := by
  induction w with
  | nil => rfl
  | cons c w ih =>
    obtain ⟨noTick, noBrace, noPercent⟩ := plain c (.head _)
    rw [List.cons_append, covered, steady.step noTick noBrace noPercent,
      ih fun d mem => plain d (.tail _ mem)]
    rfl

/-- The walk sees the same ahead of it. -/
theorem step_congr (p : Place) (ticks : '\x60' ∈ t ↔ '\x60' ∈ u)
    (opener : c = '{' → (t.head? = some '%' ↔ u.head? = some '%'))
    (closer : c = '%' → (t.head? = some '}' ↔ u.head? = some '}')) : p.step c t = p.step c u := by
  have contains : List.contains t '\x60' = List.contains u '\x60' := by
    rw [Bool.eq_iff_iff, List.contains_iff_mem, List.contains_iff_mem, ticks]
  cases p with
  | opening | closing | code => rfl
  | prose =>
    rw [Place.step, Place.step, contains]
    by_cases left : c = '{'
    · have heads : (t.head? == some '%') = (u.head? == some '%') := by
        rw [Bool.eq_iff_iff, beq_iff_eq, beq_iff_eq, opener left]
      rw [heads]
    · simp [left]
  | marker =>
    rw [Place.step, Place.step, contains]
    by_cases percent : c = '%'
    · have heads : (t.head? == some '}') = (u.head? == some '}') := by
        rw [Bool.eq_iff_iff, beq_iff_eq, beq_iff_eq, closer percent]
      rw [heads]
    · simp [percent]

end Brace.Place

/-- **The comparison carries over** to what covers the characters. -/
theorem Pared.covered {t u : Text} (pared : Pared id a b t u) {p : Place} (left : p.Fits t)
    (right : p.Fits u) : Pared (·.1) a b (Brace.covered p t) (Brace.covered p u) := by
  induction pared generalizing p with
  | nil => exact .nil
  | @same a b c t u noTag ends opener closer rest ih =>
    simp only [List.map_id, id_eq] at noTag ends opener closer
    have step := p.step_congr rest.tick_mem_iff opener closer
    have further := ih (p := (p.step c t).2) (p.fits_step c t) (step ▸ p.fits_step c u)
    rw [Brace.covered, Brace.covered, ← step]
    apply Pared.same
    · simpa only [map_fst_covered] using noTag
    · exact ends
    · simpa only [map_fst_covered] using opener
    · simpa only [map_fst_covered] using closer
    · exact further
  | @tag a b closing name c w t u angle width starts starts' rest ih =>
    obtain rfl : c = '<' := angle
    rw [List.map_id] at width starts starts'
    obtain ⟨-, -, isName, -⟩ := Tag.ofStart?_eq_some_iff.1 (width ▸ starts)
    have steady := Place.isSteady_of_fits left (by decide) (by decide)
    have plain : ∀ d ∈ '<' :: w, d ≠ '\x60' ∧ d ≠ '{' ∧ d ≠ '%' := by
      rw [width]
      refine List.forall_mem_cons.2 ⟨by decide, fun d mem => ⟨?_, ?_, ?_⟩⟩
      all_goals
        rintro rfl
        exact Tag.avoids_written isName (by decide) (by decide) mem
    have cut (v : Text) : Brace.covered p ('<' :: (w ++ v)) =
        ('<', p.cover) :: (w.map (fun c => (c, p.cover)) ++ Brace.covered p v) :=
      steady.covered_append plain v
    rw [cut, cut]
    have chars (v : Text) :
        (w.map (fun c => (c, p.cover)) ++ Brace.covered p v).map (·.1) = w ++ v := by
      simp [map_fst_covered, Function.comp_def]
    have name_ : (w.map fun c => (c, p.cover)).map (·.1) = Tag.written closing name := by
      simpa [Function.comp_def] using width
    exact .tag rfl name_ (by rw [chars]; exact starts) (by rw [chars]; exact starts')
      (ih (steady.fits t) (steady.fits u))
  | @drop a b c t u inert rest ih =>
    obtain ⟨-, -, -, -, left_, right_, percent, tick⟩ := Tag.isInert_ne inert
    have steady := Place.isSteady_of_fits left percent right_
    have step : p.step c t = (p.cover, p) := steady.step tick left_ percent t
    rw [Brace.covered, step]
    exact .drop inert (ih (steady.fits t) (steady.fits u))

end Pared

end MdxPress
