import MdxPress.Proofs.Mdx.LoneTag

/-!
The tag of a void element on a line of its own kind: no code, no other tag, no asset.  The rule for void
elements applies to it once, and what it closes is the tag up to its first `>`.  So a tag is closed at its
own end if its values hold no `>`.

* `Html.VoidTag` and `Html.TagLine` are the tags, and the lines that hold one;
* `Html.normalize_tagLine` is what becomes of a line;
* `Html.normalize_close_iff` is the exact condition for the tag to be closed at its own end, and for the
  rest of the line to stay.

Caveat: a tag that has its slash already stays as it is when the slash of a value stands in front of a
quoted `>`, since that slash is taken for the one of the tag and put back.
-/

namespace MdxPress.Html

/-! ## Tags and lines -/

/-- An attribute as it is written in a tag: its value stands between two quotation marks of a kind that
the value does not hold. -/
structure TagAttribute where
  name : Text
  quote : Char
  value : Text
  named : name ≠ [] ∧ ∀ c ∈ name, isBlank c = false ∧ c ∉ ['"', '\'', '=', '<', '>', '/']
  quoted : isQuote quote = true
  closed : quote ∉ value ∧ '<' ∉ value

def TagAttribute.text (a : TagAttribute) : Text :=
  ' ' :: (a.name ++ '=' :: a.quote :: (a.value ++ [a.quote]))

/-- The tag of a void element, with a slash before its end or without. -/
structure VoidTag where
  name : Text
  attributes : List TagAttribute
  isClosed : Bool
  isVoid : name.asciiLower ∈ voidNames

namespace VoidTag

/-- The attributes of a tag as they are written. -/
def body (g : VoidTag) : Text :=
  g.attributes.flatMap TagAttribute.text

def ending (g : VoidTag) : Text :=
  if g.isClosed then "/>".toList else ">".toList

def text (g : VoidTag) : Text :=
  '<' :: (g.name ++ (g.body ++ g.ending))

/-- A tag with its slash. -/
def close (g : VoidTag) : VoidTag :=
  { g with isClosed := true }

end VoidTag

/-- A line without code that holds one tag, of a void element, and nowhere the folder of the assets. -/
structure TagLine where
  before : Text
  tag : VoidTag
  behind : Text
  ending : Ending
  noAngle : '<' ∉ before ∧ '<' ∉ behind
  noMark : ∀ c ∈ before ++ (tag.text ++ behind), c ≠ '\x60' ∧ c ≠ '~' ∧ c ≠ '\n'
  noFolder : holdsFolder (before ++ (tag.text ++ (behind ++ ending.text))) = false

def TagLine.text (l : TagLine) : Text :=
  l.before ++ (l.tag.text ++ (l.behind ++ l.ending.text))

theorem eq_of_isQuote {q : Char} (quoted : isQuote q = true) : q = '"' ∨ q = '\'' := by
  simpa [isQuote] using quoted

theorem TagAttribute.ne_quote (a : TagAttribute) {c : Char} (other : isQuote c = false) :
    c ≠ a.quote := by
  rintro rfl
  rw [a.quoted] at other
  cases other

theorem TagAttribute.noAngle (a : TagAttribute) : '<' ∉ a.text := by
  have quote : '<' ≠ a.quote := a.ne_quote rfl
  have named : '<' ∉ a.name := fun mem => (a.named.2 _ mem).2 (by decide)
  simp [text, quote, named, a.closed.2]

/-- The only `>` of an attribute stand in its value. -/
theorem TagAttribute.mem_text (a : TagAttribute) : '>' ∈ a.text ↔ '>' ∈ a.value := by
  have quote : '>' ≠ a.quote := a.ne_quote rfl
  have named : '>' ∉ a.name := fun mem => (a.named.2 _ mem).2 (by decide)
  simp [text, quote, named]

namespace VoidTag

variable (g : VoidTag)

theorem noAngle_body : '<' ∉ g.body := by
  intro mem
  obtain ⟨a, -, inside⟩ := List.mem_flatMap.1 mem
  exact a.noAngle inside

theorem mem_body : '>' ∈ g.body ↔ ∃ a ∈ g.attributes, '>' ∈ a.value := by
  simp only [body, List.mem_flatMap, TagAttribute.mem_text]

theorem noAngle_name : '<' ∉ g.name := by
  intro mem
  have lower : '<' ∈ g.name.asciiLower := List.mem_map.2 ⟨'<', mem, rfl⟩
  have letters : ∀ w ∈ voidNames, '<' ∉ w := by decide
  exact letters _ g.isVoid lower

/-- Attributes end with a quotation mark. -/
theorem getLast?_body (filled : g.body ≠ []) : ∃ q, g.body.getLast? = some q ∧ isQuote q = true := by
  obtain ⟨as, a, same⟩ := (List.eq_nil_or_concat' g.attributes).resolve_left fun none =>
    filled (by rw [body, none]; rfl)
  refine ⟨a.quote, ?_, a.quoted⟩
  have last : a.text = ' ' :: (a.name ++ '=' :: a.quote :: a.value) ++ [a.quote] := by
    simp [TagAttribute.text]
  rw [body, same, List.flatMap_append, List.flatMap_singleton, last, ← List.append_assoc,
    List.getLast?_concat]

/-- The name of a tag ends in front of its attributes and its end. -/
theorem startsOutsideWord_body (r : Text) : Text.startsOutsideWord (g.body ++ (g.ending ++ r)) = true := by
  have outside : ∀ c ∈ [' ', '/', '>'], Text.isWordChar c = false := by decide
  have first : ∃ c ∈ [' ', '/', '>'], ∃ t, g.body ++ (g.ending ++ r) = c :: t := by
    rw [body, ending]
    cases g.attributes with
    | nil =>
      cases g.isClosed
      · exact ⟨'>', by simp, r, rfl⟩
      · exact ⟨'/', by simp, '>' :: r, rfl⟩
    | cons a as => exact ⟨' ', by simp, _, rfl⟩
  obtain ⟨c, mem, t, same⟩ := first
  rw [same, Text.startsOutsideWord, outside c mem]
  rfl

/-- The last character of a name and its attributes is no `s`. -/
theorem exists_last (before : Text) : ∃ c, (before ++ '<' :: (g.name ++ g.body)).getLast? = some c ∧
    Text.sameLetter 's' c = false := by
  obtain ⟨-, -, y, -, last, -, letter⟩ := exists_letters g.isVoid
  have name : (before ++ '<' :: g.name).getLast? = some y := by
    rw [List.getLast?_append, List.getLast?_cons, last]
    rfl
  by_cases filled : g.body = []
  · have ascii : ∀ c ∈ ['r', 'g', 't'], c ≠ 's' ∧ c.toNat < 128 := by decide
    obtain ⟨other, small⟩ := ascii _ letter
    exact ⟨y, by rw [filled, List.append_nil, name], Text.sameLetter_eq_false other small⟩
  · obtain ⟨q, last, quoted⟩ := g.getLast?_body filled
    refine ⟨q, ?_, ?_⟩
    · rw [List.getLast?_append, List.getLast?_cons, List.getLast?_append, last]
      rfl
    · rcases eq_of_isQuote quoted with rfl | rfl <;> decide

theorem text_close (h : g.isClosed = true) : g.close.text = g.text := by
  rw [text, text, ending, ending, h]
  rfl

/-- The characters of a tag with its slash. -/
theorem mem_text_close {c : Char} (mem : c ∈ g.close.text) : c = '/' ∨ c ∈ g.text := by
  by_cases isClosed : g.isClosed = true
  · rw [g.text_close isClosed] at mem
    exact .inr mem
  · have open_ : g.text = '<' :: (g.name ++ (g.body ++ ['>'])) := by
      rw [text, ending, if_neg isClosed]
      rfl
    have close : g.close.text = '<' :: (g.name ++ (g.body ++ ['/', '>'])) := rfl
    rw [close] at mem
    rw [open_]
    simp only [List.mem_cons, List.mem_append, List.not_mem_nil, or_false] at mem ⊢
    tauto

end VoidTag

namespace TagLine

variable (l : TagLine)

/-- A line whose tag has its slash. -/
def close : TagLine :=
  { l with
    tag := l.tag.close
    noMark := by
      intro c mem
      have slash : '/' ≠ '\x60' ∧ '/' ≠ '~' ∧ '/' ≠ '\n' := by decide
      rcases List.mem_append.1 mem with mem | mem
      · exact l.noMark c (List.mem_append_left _ mem)
      rcases List.mem_append.1 mem with mem | mem
      · rcases l.tag.mem_text_close mem with rfl | mem
        · exact slash
        · exact l.noMark c (List.mem_append_right _ (List.mem_append_left _ mem))
      · exact l.noMark c (List.mem_append_right _ (List.mem_append_right _ mem))
    noFolder := by
      by_cases isClosed : l.tag.isClosed = true
      · rw [l.tag.text_close isClosed]
        exact l.noFolder
      · obtain ⟨c, last, other⟩ := l.tag.exists_last l.before
        have absent := l.noFolder
        rw [VoidTag.text, VoidTag.ending, if_neg isClosed] at absent
        have slash := holdsFolder_slash (b := l.behind ++ l.ending.text) last other
          (by simpa using absent)
        have whole : l.before ++ (l.tag.close.text ++ (l.behind ++ l.ending.text)) =
            l.before ++ '<' :: (l.tag.name ++ l.tag.body) ++
              '/' :: '>' :: (l.behind ++ l.ending.text) := by
          simp [VoidTag.text, VoidTag.ending, VoidTag.close, VoidTag.body]
        rw [whole]
        exact slash }

theorem text_eq : l.text = l.before ++ '<' :: (l.tag.name ++
    (l.tag.body ++ (l.tag.ending ++ (l.behind ++ l.ending.text)))) := by
  simp only [text, VoidTag.text, List.cons_append, List.append_assoc]

theorem isPlainLine : IsPlainLine l.text := by
  have angle : '<' ∈ l.before ++ (l.tag.text ++ l.behind) := by simp [VoidTag.text]
  have noFeed : '\n' ∉ l.before ++ (l.tag.text ++ l.behind) := fun mem => (l.noMark _ mem).2.2 rfl
  have whole : l.text = l.before ++ (l.tag.text ++ l.behind) ++ l.ending.text := by
    simp only [text, List.append_assoc]
  have noMark {c : Char} (mark : c = '\x60' ∨ c = '~') : c ∉ l.text := by
    intro mem
    rw [whole] at mem
    rcases List.mem_append.1 mem with mem | mem
    · have other := l.noMark c mem
      exact mark.elim other.1 other.2.1
    · have blank := Ending.isBlank_of_mem mem
      rcases mark with rfl | rfl <;> cases blank
  refine ⟨?_, noMark (.inl rfl), noMark (.inr rfl)⟩
  have single {w e : Text} (cut : l.text = w ++ e) (plain : '\n' ∉ w)
      (ends : e = [] ∧ w ≠ [] ∨ e = ['\n']) : ∃ k, l.text.lines = [k] := by
    obtain ⟨k, line, -⟩ := Text.exists_line_of_noFeed plain ends
    exact ⟨k, cut ▸ line⟩
  cases ending : l.ending with
  | none =>
    rw [ending] at whole
    exact single whole noFeed (.inl ⟨rfl, List.ne_nil_of_mem angle⟩)
  | lf =>
    rw [ending] at whole
    exact single whole noFeed (.inr rfl)
  | crlf =>
    rw [ending] at whole
    refine single (w := l.before ++ (l.tag.text ++ l.behind) ++ ['\r']) ?_ ?_ (.inr rfl)
    · rw [whole, List.append_assoc _ ['\r']]
      rfl
    · simpa using noFeed

theorem noAngle_rest :
    '<' ∉ l.tag.name ++ (l.tag.body ++ (l.tag.ending ++ (l.behind ++ l.ending.text))) := by
  have ending : '<' ∉ l.tag.ending := by
    rw [VoidTag.ending]
    split <;> decide
  have feed : '<' ∉ l.ending.text := fun mem => by cases Ending.isBlank_of_mem mem
  simp [l.tag.noAngle_name, l.tag.noAngle_body, ending, feed, l.noAngle.2]

/-- **What becomes of a line.**  The tag is closed at the first `>` behind its name, and of the slashes
there an even number is kept. -/
theorem normalize_eq (o : HtmlOptions) {v w : Text} {n : Nat} (inside : '>' ∉ v)
    (last : v.getLast? ≠ some '/')
    (cut : l.tag.body ++ (l.tag.ending ++ (l.behind ++ l.ending.text)) = v ++ (slashes n ++ '>' :: w)) :
    normalize o l.text = l.before ++ '<' :: (l.tag.name ++
      ((v ++ slashes (n - n % 2)).trimEnd ++ ("/>".toList ++ w))) := by
  obtain ⟨attrs, reads, trimmed⟩ := exists_voidRest?_eq inside last n w
  have outside := l.tag.startsOutsideWord_body (l.behind ++ l.ending.text)
  have right := l.noAngle_rest
  have text := l.text_eq
  have plain := l.isPlainLine
  have noFolder : holdsFolder l.text = false := l.noFolder
  rw [cut] at outside right text
  rw [text] at plain noFolder
  have noAngle : '<' ∉ w := fun mem => right (by simp [mem])
  have closes : Text.rewrite voidRule (l.before ++ '<' :: (l.tag.name ++ (v ++ (slashes n ++ '>' :: w)))) =
      l.before ++ '<' :: (l.tag.name ++ ((v ++ slashes (n - n % 2)).trimEnd ++ ("/>".toList ++ w))) := by
    have applies := voidRule_tag l.tag.isVoid outside
    rw [reads, Option.map_some] at applies
    have parts : l.tag.name ++ (v ++ (slashes n ++ '>' :: w)) =
        l.tag.name ++ (v ++ (slashes n ++ ['>'])) ++ w := by
      simp
    rw [parts] at applies ⊢
    rw [Text.rewrite_sign (fun _ => voidRule_eq_none) l.noAngle.1 noAngle applies, trimmed]
    simp only [List.cons_append, List.append_assoc]
  have still : '<' ∉ l.tag.name ++ ((v ++ slashes (n - n % 2)).trimEnd ++ ("/>".toList ++ w)) := by
    have noSlash : ∀ k, '<' ∉ slashes k := fun k mem => by cases List.eq_of_mem_replicate mem
    simp only [List.mem_append, not_or] at right ⊢
    refine ⟨right.1, fun mem => ?_, by decide, noAngle⟩
    rcases List.mem_append.1 ((Text.trimEnd_isPrefix _).subset mem) with mem | mem
    · exact right.2.1 mem
    · exact noSlash _ mem
  rw [text]
  exact normalize_of_rewrite l.tag.isVoid l.noAngle.1 right still plain noFolder closes o

end TagLine

/-! ## Where a tag ends -/

/-- A text that ends with an odd number of slashes, so that the last of them passes for the slash of a
tag: no blank stands before a lone one. -/
def EndsClosed (t : Text) : Prop :=
  ∃ v n, t = v ++ slashes n ∧ v.getLast? ≠ some '/' ∧ n % 2 = 1 ∧ (n = 1 → v.trimEnd = v)

/-- Slashes are cut off the end of a text. -/
theorem exists_slashes (t : Text) : ∃ v n, t = v ++ slashes n ∧ v.getLast? ≠ some '/' := by
  obtain ⟨tail, cut, all⟩ := Text.dropEndWhile_append_mem (· = '/') t
  refine ⟨t.dropEndWhile (· = '/'), tail.length, ?_, fun last => ?_⟩
  · rw [slashes, ← List.eq_replicate_of_mem fun c mem => by simpa using all c mem]
    exact cut
  · have other := Text.getLast?_dropEndWhile last
    simp at other

theorem trimEnd_slashes (v : Text) {n : Nat} (some_ : n ≠ 0) :
    (v ++ slashes n).trimEnd = v ++ slashes n := by
  obtain ⟨n, rfl⟩ := Nat.exists_eq_succ_of_ne_zero some_
  refine Text.dropEndWhile_eq_self (c := '/') ?_ (by decide)
  rw [slashes, List.replicate_succ', ← List.append_assoc, List.getLast?_concat]

/-- **The slash that is put is the last of those that were read**, when their number is odd. -/
theorem trimEnd_slash_iff {v : Text} {n : Nat} (last : v.getLast? ≠ some '/') :
    (v ++ slashes (n - n % 2)).trimEnd ++ ['/'] = v ++ slashes n ↔
      n % 2 = 1 ∧ (n = 1 → v.trimEnd = v) := by
  have one : slashes 1 = ['/'] := rfl
  have none : v ++ slashes 0 = v := List.append_nil v
  rcases Nat.mod_two_eq_zero_or_one n with even | odd
  · refine iff_of_false (fun same => ?_) (by omega)
    rw [even, Nat.sub_zero] at same
    by_cases some_ : n = 0
    · rw [some_, none] at same
      rw [← same, List.getLast?_concat] at last
      exact last rfl
    · rw [trimEnd_slashes v some_] at same
      simp at same
  · rw [odd, and_iff_right rfl]
    by_cases lone : n = 1
    · rw [lone, Nat.sub_self, none, one, List.append_left_inj]
      exact ⟨fun same _ => same, fun same => same rfl⟩
    · rw [trimEnd_slashes v (by omega), slashes, slashes, List.append_assoc, ← List.replicate_succ',
        Nat.sub_add_cancel (by omega)]
      simp [lone]

namespace TagLine

variable (l : TagLine) (o : HtmlOptions)

theorem text_close : l.close.text = l.before ++ '<' :: (l.tag.name ++
    (l.tag.body ++ ("/>".toList ++ (l.behind ++ l.ending.text)))) :=
  l.close.text_eq

/-- A tag without `>` in its values is closed at its own end. -/
theorem normalize_of_not_mem (plain : '>' ∉ l.tag.body) : normalize o l.text = l.close.text := by
  have trimmed : l.tag.body.trimEnd = l.tag.body ∧ l.tag.body.getLast? ≠ some '/' := by
    by_cases filled : l.tag.body = []
    · rw [filled]
      exact ⟨rfl, by simp⟩
    · obtain ⟨q, last, quoted⟩ := l.tag.getLast?_body filled
      rw [last]
      rcases eq_of_isQuote quoted with rfl | rfl
      · exact ⟨Text.dropEndWhile_eq_self last (by decide), by decide⟩
      · exact ⟨Text.dropEndWhile_eq_self last (by decide), by decide⟩
  obtain ⟨n, few, cut⟩ : ∃ n < 2, l.tag.body ++ (l.tag.ending ++ (l.behind ++ l.ending.text)) =
      l.tag.body ++ (slashes n ++ '>' :: (l.behind ++ l.ending.text)) := by
    rw [VoidTag.ending]
    cases l.tag.isClosed
    · exact ⟨0, by decide, rfl⟩
    · exact ⟨1, by decide, rfl⟩
  have even : n - n % 2 = 0 := by omega
  have none : l.tag.body ++ slashes 0 = l.tag.body := List.append_nil _
  rw [l.normalize_eq o plain trimmed.2 cut, even, none, trimmed.1, text_close]

/-- A tag with a `>` in its values, and the slashes in front of the first. -/
theorem normalize_slashes_iff {v more : Text} {n : Nat} (inside : '>' ∉ v) (last : v.getLast? ≠ some '/')
    (body : l.tag.body = v ++ slashes n ++ '>' :: more) :
    normalize o l.text = l.close.text ↔
      l.tag.isClosed = true ∧ n % 2 = 1 ∧ (n = 1 → v.trimEnd = v) := by
  have cut : l.tag.body ++ (l.tag.ending ++ (l.behind ++ l.ending.text)) =
      v ++ (slashes n ++ '>' :: (more ++ (l.tag.ending ++ (l.behind ++ l.ending.text)))) := by
    simp [body]
  rw [l.normalize_eq o inside last cut, text_close, body, List.append_cancel_left_eq, List.cons.injEq,
    and_iff_right rfl, List.append_cancel_left_eq, ← trimEnd_slash_iff last]
  generalize (v ++ slashes (n - n % 2)).trimEnd = attrs
  generalize v ++ slashes n = u
  generalize l.behind ++ l.ending.text = rest
  rw [VoidTag.ending]
  cases l.tag.isClosed with
  | true =>
    -- what stands from the `>` on is the same on both sides
    have left : attrs ++ ("/>".toList ++ (more ++ ("/>".toList ++ rest))) =
        attrs ++ ['/'] ++ ('>' :: (more ++ ("/>".toList ++ rest))) := by simp
    have right : u ++ '>' :: more ++ ("/>".toList ++ rest) =
        u ++ ('>' :: (more ++ ("/>".toList ++ rest))) := by simp
    rw [if_pos rfl, left, right, List.append_left_inj, and_iff_right rfl]
  | false =>
    have left : attrs ++ ("/>".toList ++ (more ++ (">".toList ++ rest))) =
        attrs ++ ('/' :: '>' :: more) ++ ('>' :: rest) := by simp
    have right : u ++ '>' :: more ++ ("/>".toList ++ rest) =
        u ++ ('>' :: (more ++ ['/'])) ++ ('>' :: rest) := by simp
    rw [if_neg (by decide), left, right, List.append_left_inj]
    refine iff_of_false (fun same => ?_) (by simp)
    -- the two have one length, so the slash that was put stands where the `>` did
    have length : attrs.length = u.length := by
      have whole := congrArg List.length same
      simp only [List.length_append, List.length_cons, List.length_nil] at whole
      omega
    cases (List.append_inj same length).2

/-- A tag with a `>` in its values stays as it is, or is closed at the wrong place. -/
theorem normalize_quoted_iff {u more : Text} (body : l.tag.body = u ++ '>' :: more) (inside : '>' ∉ u) :
    normalize o l.text = l.close.text ↔ l.tag.isClosed = true ∧ EndsClosed u := by
  have parts {v : Text} {n : Nat} (cut : u = v ++ slashes n) (last : v.getLast? ≠ some '/') :=
    l.normalize_slashes_iff o (fun mem => inside (cut ▸ List.mem_append_left _ mem)) last (cut ▸ body)
  constructor
  · intro closed
    obtain ⟨v, n, cut, last⟩ := exists_slashes u
    obtain ⟨slash, odd⟩ := (parts cut last).1 closed
    exact ⟨slash, v, n, cut, last, odd⟩
  · rintro ⟨slash, v, n, cut, last, odd⟩
    exact (parts cut last).2 ⟨slash, odd⟩

end TagLine

/-- **A tag is closed at its own end, the rest of its line stays, and a second run changes nothing**,
exactly when no value of the tag holds a `>`, or the tag has its slash already and a slash that would be
taken for it stands in front of the first such `>`. -/
theorem normalize_close_iff (o : HtmlOptions) (l : TagLine) :
    normalize o l.text = l.close.text ∧ normalize o (normalize o l.text) = normalize o l.text ↔
      (∀ a ∈ l.tag.attributes, '>' ∉ a.value) ∨
        l.tag.isClosed = true ∧
          ∃ u more, l.tag.body = u ++ '>' :: more ∧ '>' ∉ u ∧ EndsClosed u := by
  have once (l : TagLine) : normalize o l.text = l.close.text ↔
      (∀ a ∈ l.tag.attributes, '>' ∉ a.value) ∨ l.tag.isClosed = true ∧
        ∃ u more, l.tag.body = u ++ '>' :: more ∧ '>' ∉ u ∧ EndsClosed u := by
    have values : (∀ a ∈ l.tag.attributes, '>' ∉ a.value) ↔ '>' ∉ l.tag.body := by
      rw [l.tag.mem_body]
      simp
    rw [values]
    by_cases quoted : '>' ∈ l.tag.body
    · rw [or_iff_right (not_not.2 quoted)]
      constructor
      · intro closed
        obtain ⟨u, more, body, inside⟩ := List.eq_append_cons_of_mem quoted
        obtain ⟨slash, ends⟩ := (l.normalize_quoted_iff o body inside).1 closed
        exact ⟨slash, u, more, body, inside, ends⟩
      · rintro ⟨slash, u, more, body, inside, ends⟩
        exact (l.normalize_quoted_iff o body inside).2 ⟨slash, ends⟩
    · exact iff_of_true (l.normalize_of_not_mem o quoted) (.inl quoted)
  rw [← once l]
  refine and_iff_left_of_imp fun closed => ?_
  have again : normalize o l.close.text = l.close.close.text :=
    (once l.close).2 (((once l).1 closed).imp id fun ⟨_, quoted⟩ => ⟨rfl, quoted⟩)
  rw [closed, again]
  rfl

/-- The slash of a value stays where it is, and so does that of the tag. -/
example : normalize .standard "<img alt=\"a/>b\"/>".toList = "<img alt=\"a/>b\"/>".toList := by
  decide +kernel

/-- A line with an image whose text holds a `>`. -/
def quotedAngle : TagLine where
  before := []
  tag :=
    { name := "img".toList
      attributes := [⟨"alt".toList, '"', "a>b".toList, by decide, rfl, by decide⟩]
      isClosed := false
      isVoid := by decide }
  behind := []
  ending := .lf
  noAngle := by decide
  noMark := by decide
  noFolder := by decide +kernel

/-- The slash is put into the value. -/
theorem not_normalize_close_quotedAngle :
    quotedAngle.text = "<img alt=\"a>b\">\n".toList ∧
      normalize .standard quotedAngle.text = "<img alt=\"a/>b\">\n".toList ∧
      ¬ ∀ (o : HtmlOptions) (l : TagLine), normalize o l.text = l.close.text := by
  have written : normalize .standard quotedAngle.text = "<img alt=\"a/>b\">\n".toList := by
    decide +kernel
  refine ⟨by decide +kernel, written, fun closed => ?_⟩
  have same := closed .standard quotedAngle
  rw [written] at same
  revert same
  decide +kernel

end MdxPress.Html
