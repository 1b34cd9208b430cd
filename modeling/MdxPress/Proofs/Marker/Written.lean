import MdxPress.Proofs.Fence.Opener
import MdxPress.Proofs.Marker.Place

/-!
Markers as an author writes them: a name and quoted attributes, one space before each, on a line of
their own.  Scanning such a line gives back the name and the attributes, as long as no value ends early:
a quotation mark ends the value that it stands in, when another attribute seems to begin behind it.

* `Marker.delimited` is an inside between its delimiters, and `Text.markers_delimited` scans it by itself;
* `Marker.written` is the text of a marker;
* `Attribute.EndsEarly` is such a value, `Text.attributes_written_iff` what it does to its attributes;
* `Marker.ofInside?_inside` reads what stands between the delimiters;
* `Text.markers_written_iff` is the line, with quotation marks in its values or without.
-/

namespace MdxPress

/-! ## Lines without inline code -/

namespace Marker

/-- A line in which no backtick has a partner is prose. -/
theorem inSpans_of_lone (pos : Nat) {t : Text} (lone : t.count '\x60' ≤ 1) :
    inSpans pos t.codeSpans = inProse pos t := by
  rw [Text.codeSpans_of_lone lone, Text.prosePart]
  split
  case isTrue empty => subst empty; rfl
  case isFalse => simp [inSpans]

theorem rule_cons_eq_none {c : Char} {t : Text} (noOpener : c = '{' → t.head? ≠ some '%') :
    rule (c :: t) = none := by
  unfold rule
  split
  case h_1 same =>
    cases same
    exact (noOpener rfl rfl).elim
  case h_2 => rfl

theorem rule_eq_none {t : Text} (outside : Text.NoPair '{' '%' t) : rule t = none := by
  cases t with
  | nil => rfl
  | cons c t =>
    refine rule_cons_eq_none fun brace next => ?_
    exact (List.isChain_cons.1 outside).1 '%' next ⟨brace, rfl⟩

/-- Prose without an opening delimiter holds no marker. -/
theorem inProse_eq_nil (pos : Nat) {t : Text} (outside : Text.NoPair '{' '%' t) :
    inProse pos t = [] := by
  rw [inProse, Text.hits, Text.hitsFrom_eq_nil]
  · rfl
  · exact fun u part _ => rule_eq_none (outside.of_part part.isInfix)

end Marker

/-! ## A marker by itself -/

/-- A text between the delimiters of a marker. -/
def Marker.delimited (inside : Text) : Text :=
  '{' :: '%' :: (inside ++ ['%', '}'])

section Delimited

variable {inside : Text}

theorem Marker.length_delimited (inside : Text) : (delimited inside).length = inside.length + 4 := by
  simp [delimited]

theorem Marker.rule_delimited (noCloser : Text.NoPair '%' '}' inside) (rest : Text) :
    rule (delimited inside ++ rest) = some (ofInside? inside, inside.length + 4) := by
  have text : delimited inside ++ rest = '{' :: '%' :: (inside ++ '%' :: '}' :: rest) := by
    simp [delimited]
  rw [text, rule, Text.breakOn_pair noCloser (by decide), Option.map_some]

theorem Marker.inProse_delimited (noCloser : Text.NoPair '%' '}' inside) :
    inProse 0 (delimited inside) =
      ((ofInside? inside).map fun p => ⟨p.1, p.2, 0, (delimited inside).length⟩).toList := by
  have applies := rule_delimited noCloser []
  rw [List.append_nil] at applies
  rw [inProse, Text.hits, length_delimited, delimited, Text.hitsFrom, ← delimited, applies]
  dsimp only
  rw [Text.hitsFrom_covered _ _ (by simp)]
  cases ofInside? inside <;> simp

theorem Marker.opener_delimited (inside : Text) : FenceOpener.ofLine? (delimited inside) = none := by
  have first : ∀ c ∈ (delimited inside).head?, Text.isIndent c = false ∧
      FenceMark.ofChar? c = none := by
    rintro c ⟨⟩
    decide
  rw [← List.nil_append (delimited inside)]
  exact FenceOpener.ofLine?_eq_none_of_head nofun first

/-- **Scanning a marker by itself**, on a line with at most one backtick. -/
theorem Text.markers_delimited (noCloser : NoPair '%' '}' inside) (noFeed : '\n' ∉ inside)
    (lone : inside.count '\x60' ≤ 1) (e : Ending) :
    (Marker.delimited inside ++ e.text).markers = ((Marker.ofInside? inside).map fun p =>
      ⟨p.1, p.2, 0, (Marker.delimited inside).length⟩).toList := by
  have last : (Marker.delimited inside).getLast? = some '}' := by
    rw [Marker.delimited, List.getLast?_cons_cons, List.getLast?_cons, List.getLast?_append]
    rfl
  have whole : Line.IsWhole ⟨Marker.delimited inside, e⟩ :=
    { noFeed := by simp [Marker.delimited, noFeed]
      noReturn := fun _ => by simp [last] }
  have scanned : (Marker.delimited inside ++ e.text).markers = _ :=
    Line.markers_text whole (fun _ => by simp [Marker.delimited]) (Marker.opener_delimited inside)
  rw [scanned, Marker.inSpans_of_lone 0 (by simp [Marker.delimited, lone]),
    Marker.inProse_delimited noCloser]

end Delimited

/-! ## Writing -/

/-- An attribute as it is written: behind a space, its value between double quotes. -/
def Attribute.written (a : Attribute) : Text :=
  ' ' :: a.key ++ "=\"".toList ++ a.value ++ ['"']

/-- What stands between the delimiters of a marker. -/
def Marker.inside (name : Text) (attributes : List Attribute) : Text :=
  ' ' :: name ++ attributes.flatMap Attribute.written ++ [' ']

/-- A marker as it is written. -/
def Marker.written (name : Text) (attributes : List Attribute) : Text :=
  "\x7b%".toList ++ Marker.inside name attributes ++ "%\x7d".toList

theorem Marker.written_eq (name : Text) (as : List Attribute) :
    written name as = delimited (inside name as) := by
  simp [written, delimited]

/-- A name of a directive or a key: it has characters, and only those of names. -/
structure IsKey (t : Text) : Prop where
  filled : t ≠ []
  chars : ∀ c ∈ t, isKeyChar c = true

instance (t : Text) : Decidable (IsKey t) :=
  decidable_of_iff (t ≠ [] ∧ ∀ c ∈ t, isKeyChar c = true) ⟨fun h => ⟨h.1, h.2⟩, fun h => ⟨h.1, h.2⟩⟩

/-- An attribute that can be written: its value stays on its line, ends at the quote behind it, and
neither opens inline code nor ends the marker. -/
structure Attribute.Writable (a : Attribute) : Prop where
  key : IsKey a.key
  oneLine : a.value.OneLine
  noQuote : '"' ∉ a.value
  noTick : '\x60' ∉ a.value
  noCloser : Text.NoPair '%' '}' a.value

/-- An attribute that can be written, as it is read or not: its value stays on its line, and neither
opens inline code nor ends the marker.  It may hold quotation marks. -/
structure Attribute.Quotable (a : Attribute) : Prop where
  key : IsKey a.key
  noFeed : '\n' ∉ a.value
  noTick : '\x60' ∉ a.value
  noCloser : Text.NoPair '%' '}' a.value

/-- An attribute begins: blanks, a key, blanks and an equals sign. -/
def Attribute.Begins (t : Text) : Prop :=
  ∃ blanks key gap behind : Text, t = blanks ++ (key ++ (gap ++ '=' :: behind)) ∧
    blanks.allBlank = true ∧ IsKey key ∧ gap.allBlank = true

/-- A value holds a quotation mark behind which another attribute seems to begin. -/
def Attribute.EndsEarly (value : Text) : Prop :=
  ∃ before behind : Text, value = before ++ '"' :: behind ∧ Begins behind

/-! ## Keys -/

theorem toNat_of_isKeyChar {c : Char} (key : isKeyChar c = true) :
    33 ≤ c.toNat ∧ c.toNat < 123 := by
  simp only [isKeyChar, Text.isAsciiAlnum, Text.isAsciiLetter, Text.isAsciiDigit, Bool.or_eq_true,
    Bool.and_eq_true, decide_eq_true_eq, Char.le_def, UInt32.le_iff_toNat_le] at key
  change (((97 ≤ c.toNat ∧ c.toNat ≤ 122 ∨ 65 ≤ c.toNat ∧ c.toNat ≤ 90) ∨
    48 ≤ c.toNat ∧ c.toNat ≤ 57) ∨ c = '-') ∨ c = '_' at key
  rcases key with ((letter | digit) | rfl) | rfl
  · omega
  · omega
  · decide
  · decide

theorem not_isBlank_of_isKeyChar {c : Char} (key : isKeyChar c = true) : isBlank c = false := by
  have bounds := toNat_of_isKeyChar key
  simp only [isBlank, Bool.or_eq_false_iff, Bool.and_eq_false_iff, decide_eq_false_iff_not,
    beq_eq_false_iff_ne]
  omega

namespace IsKey

theorem exists_cons {t : Text} (key : IsKey t) :
    ∃ c r, t = c :: r ∧ isKeyChar c = true ∧ isBlank c = false := by
  obtain ⟨filled, chars⟩ := key
  cases t with
  | nil => exact (filled rfl).elim
  | cons c r =>
    exact ⟨c, r, rfl, chars c (.head _), not_isBlank_of_isKeyChar (chars c (.head _))⟩

theorem not_mem {t : Text} (key : IsKey t) {c : Char} (other : isKeyChar c = false) : c ∉ t :=
  fun mem => by simp [key.chars c mem] at other

theorem takeWhile_append {t : Text} (key : IsKey t) {rest : Text}
    (stops : ∀ c ∈ rest.head?, isKeyChar c = false) : (t ++ rest).takeWhile isKeyChar = t := by
  rw [List.takeWhile_append_of_pos key.chars]
  cases rest with
  | nil => simp
  | cons c r => simp [stops c rfl]

theorem dropWhile_append {t : Text} (key : IsKey t) {rest : Text}
    (stops : ∀ c ∈ rest.head?, isKeyChar c = false) : (t ++ rest).dropWhile isKeyChar = rest := by
  rw [List.dropWhile_append_of_pos key.chars]
  cases rest with
  | nil => rfl
  | cons c r => simp [stops c rfl]

end IsKey

/-! ## Values with quotation marks -/

namespace Attribute

theorem startsHere_iff {t : Text} : startsHere t = true ↔
    ∃ key gap behind : Text, t = key ++ (gap ++ '=' :: behind) ∧ IsKey key ∧ gap.allBlank = true := by
  constructor
  · intro starts
    rw [startsHere, Bool.and_eq_true, Bool.not_eq_true', List.isEmpty_eq_false_iff] at starts
    obtain ⟨filled, sign⟩ := starts
    split at sign
    case h_2 => cases sign
    case h_1 behind cut =>
      refine ⟨t.takeWhile isKeyChar, (t.dropWhile isKeyChar).takeWhile isBlank, behind, ?_,
        ⟨filled, fun c => List.mem_takeWhile_imp⟩, List.all_takeWhile⟩
      rw [← cut, Text.trimStart, List.takeWhile_append_dropWhile, List.takeWhile_append_dropWhile]
  · rintro ⟨key, gap, behind, rfl, isKey, blank⟩
    have stops : ∀ c ∈ (gap ++ '=' :: behind).head?, isKeyChar c = false := by
      intro c first
      cases gap with
      | nil => cases first; rfl
      | cons d gap =>
        cases first
        exact Bool.eq_false_iff.2 fun isKey =>
          absurd (not_isBlank_of_isKeyChar isKey) (by simp [List.all_eq_true.1 blank c (.head _)])
    have sign : Text.trimStart (gap ++ '=' :: behind) = '=' :: behind := by
      rw [Text.trimStart_append (List.all_eq_true.1 blank), Text.trimStart_of_visible (by decide)]
    rw [startsHere, isKey.takeWhile_append stops, isKey.dropWhile_append stops, sign]
    simp [isKey.filled]

theorem startsHere_trimStart_iff {t : Text} : startsHere t.trimStart = true ↔ Begins t := by
  rw [startsHere_iff]
  constructor
  · rintro ⟨key, gap, behind, cut, isKey, blank⟩
    refine ⟨t.takeWhile isBlank, key, gap, behind, ?_, List.all_takeWhile, isKey, blank⟩
    rw [← cut, Text.trimStart, List.takeWhile_append_dropWhile]
  · rintro ⟨blanks, key, gap, behind, rfl, before, isKey, blank⟩
    obtain ⟨c, r, same, -, visible⟩ := isKey.exists_cons
    refine ⟨key, gap, behind, ?_, isKey, blank⟩
    rw [Text.trimStart_append (List.all_eq_true.1 before), same]
    exact Text.trimStart_of_visible visible _

instance (t : Text) : Decidable (Begins t) :=
  decidable_of_iff _ startsHere_trimStart_iff

theorem not_endsEarly_nil : ¬ EndsEarly [] := by
  rintro ⟨before, behind, cut, -⟩
  simp at cut

theorem endsEarly_cons {c : Char} {r : Text} :
    EndsEarly (c :: r) ↔ c = '"' ∧ Begins r ∨ EndsEarly r := by
  constructor
  · rintro ⟨before, behind, cut, begins⟩
    cases before with
    | nil => cases cut; exact .inl ⟨rfl, begins⟩
    | cons d before => cases cut; exact .inr ⟨before, behind, rfl, begins⟩
  · rintro (⟨rfl, begins⟩ | ⟨before, behind, rfl, begins⟩)
    · exact ⟨[], r, rfl, begins⟩
    · exact ⟨c :: before, behind, rfl, begins⟩

instance decidableEndsEarly : ∀ value : Text, Decidable (EndsEarly value)
  | [] => isFalse not_endsEarly_nil
  | c :: r =>
    have := decidableEndsEarly r
    decidable_of_iff (c = '"' ∧ Begins r ∨ EndsEarly r) endsEarly_cons.symm

/-- What stands behind a quotation mark does not count for one before it: no attribute begins with
the mark in it. -/
theorem begins_append_quote {value : Text} (rest : Text) :
    Begins (value ++ '"' :: rest) ↔ Begins value := by
  constructor
  · rintro ⟨blanks, key, gap, behind, cut, before, isKey, blank⟩
    have outside : '"' ∉ blanks ++ (key ++ (gap ++ ['='])) := by
      have visible : isBlank '"' = false := by decide
      simp [Text.not_mem_of_allBlank before visible, isKey.not_mem (c := '"') (by decide),
        Text.not_mem_of_allBlank blank visible]
    obtain ⟨x, rfl, -⟩ := Text.exists_behind_of_not_mem
      (show blanks ++ (key ++ (gap ++ ['='])) ++ behind = value ++ '"' :: rest by simp [cut]) outside
    exact ⟨blanks, key, gap, x, by simp, before, isKey, blank⟩
  · rintro ⟨blanks, key, gap, behind, rfl, parts⟩
    exact ⟨blanks, key, gap, behind ++ '"' :: rest, by simp, parts⟩

theorem mayEndBefore_append_quote (value rest : Text) :
    mayEndBefore (value ++ '"' :: rest) = true ↔ Begins value := by
  have visible : Text.allBlank (value ++ '"' :: rest) = false := by
    rw [Text.allBlank, List.all_append, List.all_cons, show isBlank '"' = false by decide,
      Bool.false_and, Bool.and_false]
  rw [mayEndBefore, visible, Bool.false_or, startsHere_trimStart_iff, begins_append_quote]

theorem begins_written {a : Attribute} (key : IsKey a.key) (rest : Text) :
    Begins (a.written ++ rest) :=
  ⟨[' '], a.key, [], '"' :: (a.value ++ '"' :: rest), by simp [written], by decide, key, rfl⟩

theorem mayEndBefore_written {as : List Attribute} (keys : ∀ a ∈ as, IsKey a.key) :
    mayEndBefore (as.flatMap written) = true := by
  cases as with
  | nil => rfl
  | cons a as =>
    rw [List.flatMap_cons, mayEndBefore,
      startsHere_trimStart_iff.2 (begins_written (keys a (.head _)) _), Bool.or_true]

/-- **A value between quotation marks** is read to its end exactly when it does not end early. -/
theorem exists_quoted?_written (value : Text) {rest : Text} (ends : mayEndBefore rest = true) :
    ∃ v r, quoted? '"' (value ++ '"' :: rest) = some (v, r) ∧ (v = value ↔ ¬ EndsEarly value) := by
  induction value with
  | nil => exact ⟨[], rest, by simp [quoted?, ends], by simp [not_endsEarly_nil]⟩
  | cons c value ih =>
    obtain ⟨v, r, read, whole⟩ := ih
    have ahead := mayEndBefore_append_quote value rest
    rw [List.cons_append, quoted?, endsEarly_cons, ← ahead]
    by_cases closes : c = '"' ∧ mayEndBefore (value ++ '"' :: rest) = true
    · exact ⟨[], value ++ '"' :: rest, by simp [closes], by simp [closes]⟩
    · refine ⟨c :: v, r, ?_, by simp [closes, whole]⟩
      rw [if_neg (by simpa using closes), read]
      rfl

theorem getLast?_written (a : Attribute) : a.written.getLast? = some '"' :=
  List.getLast?_concat

theorem Quotable.noCloser_written {a : Attribute} (quotable : a.Quotable) :
    Text.NoPair '%' '}' a.written := by
  have absent : '%' ∉ ' ' :: a.key ++ "=\"".toList := by
    simpa using quotable.key.not_mem (by decide)
  exact ((Text.noPair_of_not_mem (.inl absent)).append quotable.noCloser
    (.inl fun last => absent (List.mem_of_getLast? last))).append
    (Text.noPair_of_not_mem (.inl (by decide))) (.inr (by decide))

theorem Writable.quotable {a : Attribute} (writable : a.Writable) : a.Quotable :=
  ⟨writable.key, writable.oneLine.noFeed, writable.noTick, writable.noCloser⟩

theorem Writable.not_endsEarly {a : Attribute} (writable : a.Writable) : ¬ EndsEarly a.value := by
  rintro ⟨before, behind, cut, -⟩
  exact writable.noQuote (by simp [cut])

end Attribute

/-! ## Reading -/

theorem Text.attributes_written_append {a : Attribute} (isKey : IsKey a.key) {rest v r : Text}
    (read : Attribute.quoted? '"' (a.value ++ '"' :: rest) = some (v, r)) :
    attributes (a.written ++ rest) = ⟨a.key, v⟩ :: attributes r := by
  obtain ⟨c, s, same, keyChar, visible⟩ := isKey.exists_cons
  have trimmed : trimStart (a.written ++ rest) =
      c :: (s ++ '=' :: ('"' :: a.value ++ '"' :: rest)) := by
    have text : a.written ++ rest = ' ' :: c :: (s ++ '=' :: ('"' :: a.value ++ '"' :: rest)) := by
      simp [Attribute.written, same]
    rw [text, trimStart, List.dropWhile_cons_of_pos (by decide)]
    exact trimStart_of_visible visible _
  have chars : ∀ d ∈ s, isKeyChar d = true := fun d mem => isKey.chars d (same ▸ .tail _ mem)
  have value : Attribute.readValue (trimStart ('"' :: a.value ++ '"' :: rest)) = (v, r) := by
    rw [List.cons_append, trimStart_of_visible (by decide)]
    simp [Attribute.readValue, read]
  have behind : trimStart ((s ++ '=' :: ('"' :: a.value ++ '"' :: rest)).dropWhile isKeyChar) =
      '=' :: ('"' :: a.value ++ '"' :: rest) := by
    rw [List.dropWhile_append_of_pos chars, List.dropWhile_cons_of_neg (by decide)]
    exact trimStart_of_visible (by decide) _
  have key : (s ++ '=' :: ('"' :: a.value ++ '"' :: rest)).takeWhile isKeyChar = s := by
    rw [List.takeWhile_append_of_pos chars, List.takeWhile_cons_of_neg (by decide)]
    simp
  rw [attributes.eq_def]
  split
  case h_1 empty => rw [trimmed] at empty; cases empty
  case h_2 c' s' cut =>
    rw [trimmed] at cut
    cases cut
    rw [if_pos keyChar]
    split
    case h_1 w tail =>
      rw [behind] at tail
      cases tail
      rw [key, value, ← same]
    case h_2 other =>
      exact (other _ behind).elim

/-- **Reading gives back the attributes that were written** exactly when none of their values ends
early. -/
theorem Text.attributes_written_iff {as : List Attribute} (keys : ∀ a ∈ as, IsKey a.key) :
    attributes (as.flatMap Attribute.written) = as ↔ ∀ a ∈ as, ¬ Attribute.EndsEarly a.value := by
  induction as with
  | nil =>
    rw [List.flatMap_nil, attributes.eq_def]
    simp [trimStart]
  | cons a as ih =>
    obtain ⟨key, later⟩ := List.forall_mem_cons.1 keys
    obtain ⟨v, r, read, whole⟩ :=
      Attribute.exists_quoted?_written a.value (Attribute.mayEndBefore_written later)
    have behind : v = a.value → r = as.flatMap Attribute.written := by
      rintro rfl
      simpa using (Attribute.quoted?_append read).symm
    rw [List.flatMap_cons, attributes_written_append key read, List.forall_mem_cons, ← ih later, ← whole]
    constructor
    · intro same
      obtain ⟨first, rest⟩ := List.cons.inj same
      have value : v = a.value := congrArg Attribute.value first
      exact ⟨value, behind value ▸ rest⟩
    · rintro ⟨value, rest⟩
      rw [behind value, rest, value]

namespace Marker

variable {name : Text} {as : List Attribute}

/-- **Reading the inside of a marker that was written.** -/
theorem ofInside?_inside (key : IsKey name) :
    ofInside? (inside name as) =
      some (Text.asciiLower name, Text.attributes (as.flatMap Attribute.written)) := by
  obtain ⟨c, r, same, _, visible⟩ := key.exists_cons
  obtain ⟨d, last, ends⟩ : ∃ d, (name ++ as.flatMap Attribute.written).getLast? = some d ∧
      isBlank d = false := by
    by_cases none : as = []
    · refine ⟨name.getLast key.filled, ?_, ?_⟩
      · simp [none, List.getLast?_eq_some_getLast key.filled]
      · exact not_isBlank_of_isKeyChar (key.chars _ (List.getLast_mem key.filled))
    · refine ⟨'"', ?_, by decide⟩
      rw [List.getLast?_append, ← List.dropLast_concat_getLast none, List.flatMap_append,
        List.flatMap_singleton, List.getLast?_append, Attribute.getLast?_written]
      rfl
  have trimmed : (inside name as).trim = name ++ as.flatMap Attribute.written := by
    have text : inside name as = [' '] ++ (name ++ as.flatMap Attribute.written) ++ [' '] := by
      simp [inside]
    rw [text]
    exact Text.trim_between (by decide) (by decide) (by rw [same]; rfl) visible last ends
  have stops : ∀ e ∈ (as.flatMap Attribute.written).head?, isKeyChar e = false := by
    cases as with
    | nil => exact nofun
    | cons a as => rintro e ⟨⟩; decide
  rw [ofInside?, trimmed, key.takeWhile_append stops, key.dropWhile_append stops]
  simp [key.filled]

theorem noCloser_inside (key : IsKey name) (quotable : ∀ a ∈ as, a.Quotable) :
    Text.NoPair '%' '}' (inside name as) := by
  have attributes : Text.NoPair '%' '}' (as.flatMap Attribute.written) ∧
      (as.flatMap Attribute.written).head? ≠ some '}' :=
    Text.NoPair.flatMap_texts (fun a mem => (quotable a mem).noCloser_written) fun a _ => by
      simp [Attribute.written]
  have first : Text.NoPair '%' '}' (' ' :: name) :=
    Text.noPair_of_not_mem (.inl (by simpa using key.not_mem (by decide)))
  exact (first.append attributes.1 (.inr attributes.2)).append
    (Text.noPair_of_not_mem (.inl (by decide))) (.inr (by decide))

/-- What stands between the delimiters of a marker that was written holds the characters of its name
and of its attributes, and those that stand around them. -/
theorem not_mem_inside (key : IsKey name) (keys : ∀ a ∈ as, IsKey a.key) {c : Char}
    (other : isKeyChar c = false) (values : ∀ a ∈ as, c ∉ a.value) (outside : c ∉ " =\"".toList) :
    c ∉ inside name as := by
  have each : ∀ a ∈ as, c ∉ a.written := by
    intro a mem
    have apart := (keys a mem).not_mem other
    have value := values a mem
    simp at outside
    simp [Attribute.written, apart, value, outside]
  have all : c ∉ as.flatMap Attribute.written := by
    intro mem
    obtain ⟨a, isIn, inside⟩ := List.mem_flatMap.1 mem
    exact each a isIn inside
  have apart := key.not_mem other
  simp at outside
  simp [inside, apart, all, outside]

theorem not_mem_written (key : IsKey name) (keys : ∀ a ∈ as, IsKey a.key) {c : Char}
    (other : isKeyChar c = false) (values : ∀ a ∈ as, c ∉ a.value)
    (outside : c ∉ "\x7b% =\"\x7d".toList) : c ∉ written name as := by
  simp at outside
  have between := not_mem_inside key keys other values (by simp [outside])
  simp [written, between, outside]

theorem written_oneLine (key : IsKey name) (writable : ∀ a ∈ as, a.Writable) :
    (written name as).OneLine where
  noFeed := not_mem_written key (fun a mem => (writable a mem).key) (by decide)
    (fun a mem => (writable a mem).oneLine.noFeed) (by decide)
  noReturn := not_mem_written key (fun a mem => (writable a mem).key) (by decide)
    (fun a mem => (writable a mem).oneLine.noReturn) (by decide)

theorem opener_written (name : Text) (as : List Attribute) :
    FenceOpener.ofLine? (written name as) = none := by
  rw [written_eq, opener_delimited]

end Marker

namespace Text

variable {name : Text} {as : List Attribute}

/-- A marker on a line of its own. -/
def markerLine (name : Text) (as : List Attribute) : Text :=
  Marker.written name as ++ ['\n']

theorem closed_markerLine (key : IsKey name) (writable : ∀ a ∈ as, a.Writable) :
    (markerLine name as).Closed :=
  .of_line (Marker.written_oneLine key writable) (Marker.opener_written name as)

/-- A line of prose, read as a text. -/
theorem fenced_line {t : Text} (one : t.OneLine) (prose : FenceOpener.ofLine? t = none) :
    fenced (t ++ ['\n']) = [⟨⟨t, .lf⟩, none, none⟩] :=
  Line.fenced_text (l := ⟨t, .lf⟩) one.isWhole nofun prose

theorem markers_line {t : Text} (one : t.OneLine) (prose : FenceOpener.ofLine? t = none)
    (noTick : '\x60' ∉ t) : (t ++ ['\n']).markers = Marker.inProse 0 t := by
  have scanned : (t ++ ['\n']).markers = _ := Line.markers_text (l := ⟨t, .lf⟩) one.isWhole nofun prose
  rw [scanned, Marker.inSpans_of_lone 0 (by simp [List.count_eq_zero.2 noTick])]

/-- A marker that was written is scanned, whatever its values say, with the attributes that are read
in it. -/
theorem markers_written (key : IsKey name) (quotable : ∀ a ∈ as, a.Quotable) (e : Ending) :
    (Marker.written name as ++ e.text).markers = [⟨asciiLower name,
      attributes (as.flatMap Attribute.written), 0, (Marker.written name as).length⟩] := by
  have keys (a : Attribute) (mem : a ∈ as) : IsKey a.key := (quotable a mem).key
  have noFeed : '\n' ∉ Marker.inside name as :=
    Marker.not_mem_inside key keys (by decide) (fun a mem => (quotable a mem).noFeed) (by decide)
  have noTick : '\x60' ∉ Marker.inside name as :=
    Marker.not_mem_inside key keys (by decide) (fun a mem => (quotable a mem).noTick) (by decide)
  rw [Marker.written_eq, markers_delimited (Marker.noCloser_inside key quotable) noFeed
    (by simp [List.count_eq_zero.2 noTick]), Marker.ofInside?_inside key]
  rfl

/-- **Scanning a line that was written gives back the marker.** -/
theorem markers_markerLine (key : IsKey name) (writable : ∀ a ∈ as, a.Writable) :
    (markerLine name as).markers =
      [⟨asciiLower name, as, 0, (Marker.written name as).length⟩] := by
  have scanned := markers_written key (fun a mem => (writable a mem).quotable) .lf
  have read : attributes (as.flatMap Attribute.written) = as :=
    (attributes_written_iff fun a mem => (writable a mem).key).2 fun a mem =>
      (writable a mem).not_endsEarly
  rw [read] at scanned
  exact scanned

/-- **Scanning undoes writing.**  Whatever ends the line, the scan finds one marker, which covers the
line up to its ending and has the name in lowercase; it has the attributes that were written exactly
when in none of their values a quotation mark stands before blanks, a key, blanks and an equals sign. -/
theorem markers_written_iff (key : IsKey name) (quotable : ∀ a ∈ as, a.Quotable) (e : Ending) :
    (Marker.written name as ++ e.text).markers =
        [⟨asciiLower name, as, 0, (Marker.written name as).length⟩] ↔
      ∀ a ∈ as, ¬ Attribute.EndsEarly a.value := by
  have attributes := attributes_written_iff fun a mem => (quotable a mem).key
  rw [← attributes, markers_written key quotable e]
  simp

/-- Quotation marks, an equals sign and braces in the values: no attribute begins behind a mark. -/
theorem markers_written_quoting :
    (Marker.written "Code".toList
        [⟨"title".toList, "Say \"hi\" = \x7b% \"".toList⟩, ⟨"wrap".toList, []⟩] ++ ['\n']).markers =
      [⟨"code".toList, [⟨"title".toList, "Say \"hi\" = \x7b% \"".toList⟩, ⟨"wrap".toList, []⟩], 0, 42⟩] :=
  (markers_written_iff (by decide)
    (List.forall_mem_cons.2 ⟨⟨by decide, by decide, by decide, by decide⟩,
      List.forall_mem_singleton.2 ⟨by decide, by decide, by decide, by decide⟩⟩) .lf).2 (by decide)

end Text

end MdxPress
