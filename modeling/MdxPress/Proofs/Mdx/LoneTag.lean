import Mathlib.Data.List.Infix
import MdxPress.Proofs.Mdx.Html

/-!
A line of prose whose only tag is that of a void element, and which does not hold the folder of the
assets.  Of all rules for inline HTML none but the one for void elements applies to such a line.  That one
goes on to the first `>`, be it quoted or not: of the slashes in front of it two at a time belong to the
attributes, and one that is left over belongs to the end, as do blanks with no slash or one behind them.

* `Text.rewrite_sign` is what any rule does with a text in which the sign that it begins with stands once;
* `Html.exists_voidRest?_eq` reads the attributes of a void element, and `Html.voidRule_tag` its tag;
* `Html.holdsFolder` looks for the folder, and `Html.normalizeInline_of_noFolder` says what is left of the
  rules for the prose of a line without it;
* `Html.NoOtherTag` excludes the tags of the other rules, and `Html.rewrite_otherTag` leaves a line alone;
* `Html.normalize_of_rewrite` is what all rules do with the line.
-/

namespace MdxPress

/-! ## Texts with one sign -/

namespace Text

section Sign

variable {rule : Text → Option (Text × Nat)} {c : Char} (starts : ∀ t : Text, t.head? ≠ some c → rule t = none)
include starts

theorem rewrite_of_not_mem {t : Text} (absent : c ∉ t) : rewrite rule t = t := by
  refine rewriteFrom_eq_self fun u part _ => starts u fun first => ?_
  exact absent (part.mem (List.mem_of_head? first))

/-- A rule is tried where its sign stands, and what stands before it is copied. -/
theorem rewrite_before_sign {before : Text} (absent : c ∉ before) (t : Text) :
    rewrite rule (before ++ t) = before ++ rewrite rule t := by
  induction before with
  | nil => rfl
  | cons d before ih =>
    have other : (d :: (before ++ t)).head? ≠ some c := by
      rintro ⟨⟩
      exact absent (.head _)
    have step : rewrite rule (d :: (before ++ t)) = d :: rewrite rule (before ++ t) := by
      rw [rewrite, rewriteFrom, starts _ other]
      rfl
    rw [List.cons_append, step, ih fun mem => absent (.tail _ mem)]
    rfl

/-- **A rule whose sign stands once in a text** is applied there once, if at all. -/
theorem rewrite_sign {before read rest new : Text} (left : c ∉ before) (right : c ∉ rest)
    (applies : rule (c :: (read ++ rest)) = some (new, taken (c :: (read ++ rest)) rest)) :
    rewrite rule (before ++ c :: (read ++ rest)) = before ++ (new ++ rest) := by
  have covered : taken (c :: (read ++ rest)) rest - 1 = read.length := by
    simp only [taken, List.length_cons, List.length_append]
    omega
  rw [rewrite_before_sign starts left, rewrite, rewriteFrom, applies]
  dsimp only
  rw [covered, rewriteFrom_drop, List.drop_left, rewrite_of_not_mem starts right]

end Sign

theorem trimEnd_cons_congr {a b : Text} (same : a.trimEnd = b.trimEnd) (c : Char) :
    trimEnd (c :: a) = trimEnd (c :: b) := by
  rw [trimEnd, trimEnd] at same
  rw [trimEnd, trimEnd, dropEndWhile, dropEndWhile, same]

/-- A character whose lowercase form is another ASCII letter is no variant of a letter. -/
theorem sameLetter_eq_false {l c : Char} (other : c.toLower ≠ l) (ascii : c.toLower.toNat < 128) :
    sameLetter l c = false := by
  have narrow (n : Nat) (wide : ¬ (Char.ofNat n).toLower.toNat < 128) : (c.toNat == n) = false := by
    rw [beq_eq_false_iff_ne]
    rintro rfl
    rw [Char.ofNat_toNat] at wide
    exact wide ascii
  rw [sameLetter, narrow 0x17F (by decide), narrow 0x212A (by decide)]
  simpa using other

/-- A word without the two letters that have variants of their own is read off the lowercase form. -/
theorem dropWord?_plain {word : Text} (plain : ∀ l ∈ word, l ≠ 's' ∧ l ≠ 'k') (t : Text) :
    dropWord? word t = if word <+: t.asciiLower then some (t.drop word.length) else none := by
  induction word generalizing t with
  | nil => simp [dropWord?]
  | cons l word ih =>
    obtain ⟨⟨noS, noK⟩, rest⟩ := List.forall_mem_cons.1 plain
    cases t with
    | nil => simp [dropWord?, asciiLower]
    | cons c t =>
      have letter : sameLetter l c = (c.toLower == l) := by
        simp [sameLetter, beq_eq_false_iff_ne.2 noS, beq_eq_false_iff_ne.2 noK]
      have lower : asciiLower (c :: t) = c.toLower :: asciiLower t := rfl
      rw [dropWord?, letter, ih rest, lower]
      by_cases same : c.toLower = l
      · simp [same]
      · simp [same, Ne.symm same]

end Text

namespace Html

/-! ## The end of a void element -/

/-- A run of slashes. -/
def slashes (n : Nat) : Text :=
  List.replicate n '/'

theorem voidEnd?_blank_append {blanks : Text} (blank : ∀ c ∈ blanks, isBlank c = true) (t : Text) :
    voidEnd? (blanks ++ t) = voidEnd? t := by
  rw [voidEnd?, Text.trimStart_append blank]
  rfl

theorem voidEnd?_slashes (n : Nat) (r : Text) :
    voidEnd? (slashes n ++ '>' :: r) = if n ≤ 1 then some r else none := by
  match n with
  | 0 => rfl
  | 1 => rfl
  | n + 2 => rfl

/-- **An end may be reached over blanks and one slash**, and over nothing else. -/
theorem voidEnd?_append {v : Text} (inside : '>' ∉ v) (last : v.getLast? ≠ some '/') (n : Nat) (r : Text) :
    voidEnd? (v ++ (slashes n ++ '>' :: r)) = if v.allBlank = true ∧ n ≤ 1 then some r else none := by
  by_cases blank : v.allBlank = true
  · rw [voidEnd?_blank_append (List.all_eq_true.1 blank), voidEnd?_slashes]
    simp [blank]
  · rw [if_neg fun h => blank h.1]
    obtain ⟨blanks, shown, -, -, rfl, all, stops⟩ := Text.exists_cut_of_fails isBlank v
    rw [List.append_assoc, voidEnd?_blank_append all]
    cases shown with
    | nil => exact (blank (by rw [List.append_nil]; exact List.all_eq_true.2 all)).elim
    | cons x shown =>
      have visible : isBlank x = false := stops x rfl
      rw [List.cons_append, voidEnd?, Text.trimStart_of_visible visible]
      split
      case h_1 h => cases h; simp at inside
      case h_2 r' h =>
        obtain ⟨rfl, rest⟩ := List.cons.inj h
        cases shown with
        | nil => simp at last
        | cons y shown =>
          obtain ⟨rfl, -⟩ := List.cons.inj rest
          simp at inside
      case h_3 => rfl

/-! ## Its attributes -/

theorem voidRest?_slashes (n : Nat) (r : Text) :
    voidRest? (slashes n ++ '>' :: r) = some (slashes (n - n % 2), r) := by
  induction n using Nat.twoStepInduction with
  | zero => exact voidRest?_of_end (voidEnd?_slashes 0 r)
  | one => exact voidRest?_of_end (voidEnd?_slashes 1 r)
  | more n ih _ =>
    have goesOn : voidEnd? ('/' :: '/' :: (slashes n ++ '>' :: r)) = none := voidEnd?_slashes (n + 2) r
    have whole : slashes (n + 2) ++ '>' :: r = '/' :: '/' :: (slashes n ++ '>' :: r) := rfl
    have even : n + 2 - (n + 2) % 2 = n - n % 2 + 2 := by omega
    rw [whole, voidRest?_slash goesOn, ih, even]
    rfl

/-- **The attributes of a void element** are what stands before its end, without the blanks there. -/
theorem exists_voidRest?_eq {v : Text} (inside : '>' ∉ v) (last : v.getLast? ≠ some '/') (n : Nat)
    (r : Text) :
    ∃ attrs, voidRest? (v ++ (slashes n ++ '>' :: r)) = some (attrs, r) ∧
      attrs.trimEnd = (v ++ slashes (n - n % 2)).trimEnd := by
  have atEnd {v : Text} (inside : '>' ∉ v) (last : v.getLast? ≠ some '/')
      (ends : v.allBlank = true ∧ n ≤ 1) :
      ∃ attrs, voidRest? (v ++ (slashes n ++ '>' :: r)) = some (attrs, r) ∧
        attrs.trimEnd = (v ++ slashes (n - n % 2)).trimEnd := by
    refine ⟨[], voidRest?_of_end (by rw [voidEnd?_append inside last, if_pos ends]), ?_⟩
    have none : n - n % 2 = 0 := by have few := ends.2; omega
    rw [none]
    exact (Text.dropEndWhile_append [] (List.all_eq_true.1 ends.1)).symm.trans (by simp [slashes, Text.trimEnd])
  induction v using List.twoStepInduction with
  | nil => exact ⟨_, voidRest?_slashes n r, rfl⟩
  | singleton c =>
    by_cases ends : Text.allBlank [c] = true ∧ n ≤ 1
    · exact atEnd inside last ends
    · have goesOn := voidEnd?_append inside last n r
      rw [if_neg ends, List.singleton_append] at goesOn
      refine ⟨c :: slashes (n - n % 2), ?_, rfl⟩
      rw [List.singleton_append, voidRest?_cons goesOn (by simpa using last) (by simp), voidRest?_slashes]
      rfl
  | cons_cons c d v ih ihd =>
    by_cases ends : Text.allBlank (c :: d :: v) = true ∧ n ≤ 1
    · exact atEnd inside last ends
    · have goesOn := voidEnd?_append inside last n r
      rw [if_neg ends, List.cons_append] at goesOn
      by_cases slash : c = '/'
      · subst slash
        rw [List.cons_append] at goesOn
        have later : v.getLast? ≠ some '/' := by
          cases v with
          | nil => simp
          | cons e v => simpa using last
        obtain ⟨attrs, reads, trimmed⟩ := ih (fun mem => inside (.tail _ (.tail _ mem))) later
        refine ⟨'/' :: d :: attrs, ?_, ?_⟩
        · rw [List.cons_append, List.cons_append, voidRest?_slash goesOn, reads]
          rfl
        · exact Text.trimEnd_cons_congr (Text.trimEnd_cons_congr trimmed d) '/'
      · obtain ⟨attrs, reads, trimmed⟩ :=
          ihd d (fun mem => inside (.tail _ mem)) (by simpa using last)
        refine ⟨c :: attrs, ?_, Text.trimEnd_cons_congr trimmed c⟩
        rw [List.cons_append, voidRest?_cons goesOn slash (by simp), reads]
        rfl

/-! ## Its tag -/

theorem findSome?_of_single {α β : Type} [DecidableEq α] {xs : List α} {a : α} {f : α → Option β}
    {found : Option β} (mem : a ∈ xs) (each : ∀ x ∈ xs, f x = if x = a then found else none) :
    xs.findSome? f = found := by
  cases found with
  | none => exact List.findSome?_eq_none_iff.2 fun x inside => by simp [each x inside]
  | some b =>
    induction xs with
    | nil => cases mem
    | cons x xs ih =>
      obtain ⟨first, rest⟩ := List.forall_mem_cons.1 each
      rw [List.findSome?_cons, first]
      by_cases here : x = a
      · simp [here]
      · simpa [here] using ih ((List.mem_cons.1 mem).resolve_left (Ne.symm here)) rest

section Tag

variable {name : Text} (isVoid : name.asciiLower ∈ voidNames)
include isVoid

/-- The first letter of a name, and its last. -/
theorem exists_letters : ∃ x rest y, name = x :: rest ∧ name.getLast? = some y ∧
    x.toLower ∈ ['b', 'h', 'i'] ∧ y.toLower ∈ ['r', 'g', 't'] := by
  have first : ∀ w ∈ voidNames, w.head? ∈ [some 'b', some 'h', some 'i'] := by decide
  have last : ∀ w ∈ voidNames, w.getLast? ∈ [some 'r', some 'g', some 't'] := by decide
  have begins := first _ isVoid
  have stops := last _ isVoid
  rw [Text.asciiLower] at begins stops
  cases name with
  | nil => simp at begins
  | cons x rest =>
    obtain ⟨y, ends⟩ := Option.ne_none_iff_exists'.1 (mt List.getLast?_eq_none_iff.1 (List.cons_ne_nil x rest))
    rw [List.getLast?_map, ends] at stops
    exact ⟨x, rest, y, rfl, ends, by simpa using begins, by simpa using stops⟩

/-- No name of a void element begins another. -/
theorem dropWord?_voidNames {word : Text} (mem : word ∈ voidNames) (r : Text) :
    Text.dropWord? ('<' :: word) ('<' :: (name ++ r)) =
      if word = name.asciiLower then some r else none := by
  have plain : ∀ w ∈ voidNames, ∀ l ∈ w, l ≠ 's' ∧ l ≠ 'k' := by decide
  have apart : ∀ v ∈ voidNames, ∀ w ∈ voidNames, v <+: w → v = w := by decide
  have sign : Text.dropWord? ('<' :: word) ('<' :: (name ++ r)) = Text.dropWord? word (name ++ r) := rfl
  have lower : Text.asciiLower (name ++ r) = name.asciiLower ++ r.asciiLower := List.map_append
  rw [sign, Text.dropWord?_plain (plain word mem), lower]
  by_cases same : word = name.asciiLower
  · have length : word.length = name.length := by rw [same, Text.asciiLower, List.length_map]
    rw [if_pos same, if_pos (same ▸ List.prefix_append _ _), length, List.drop_left]
  · rw [if_neg same, if_neg]
    intro start
    rcases List.prefix_or_prefix_of_prefix start (List.prefix_append name.asciiLower _) with shorter | longer
    · exact same (apart word mem _ isVoid shorter)
    · exact same (apart _ isVoid word mem longer).symm

/-- **What the rule makes of a tag** whose name is that of a void element. -/
theorem voidRule_tag {r : Text} (ends : Text.startsOutsideWord r = true) :
    voidRule ('<' :: (name ++ r)) = (voidRest? r).map fun p =>
      ('<' :: (name ++ (p.1.trimEnd ++ "/>".toList)), Text.taken ('<' :: (name ++ r)) p.2) := by
  have read : ('<' :: (name ++ r)).take (Text.taken ('<' :: (name ++ r)) r) = '<' :: name :=
    take_taken ('<' :: name) r
  have each : ∀ word ∈ voidNames,
      ((Text.dropWord? ('<' :: word) ('<' :: (name ++ r))).bind fun r' =>
        (if Text.startsOutsideWord r' then voidRest? r' else none).map fun p =>
          (('<' :: (name ++ r)).take (Text.taken ('<' :: (name ++ r)) r') ++ p.1.trimEnd ++ "/>".toList,
            Text.taken ('<' :: (name ++ r)) p.2)) =
      if word = name.asciiLower then (voidRest? r).map fun p =>
        ('<' :: (name ++ (p.1.trimEnd ++ "/>".toList)), Text.taken ('<' :: (name ++ r)) p.2)
      else none := by
    intro word mem
    rw [dropWord?_voidNames isVoid mem]
    by_cases same : word = name.asciiLower
    · simp only [same, if_true, Option.bind_some, ends, read, List.cons_append, List.append_assoc]
    · simp only [same, if_false, Option.bind_none]
  exact findSome?_of_single isVoid each

end Tag

end Html

/-! ## Words in a text -/

namespace Text

/-- Whether a word stands somewhere in a text, in any letter case. -/
def holdsWord (word t : Text) : Bool :=
  t.tails.any fun u => (dropWord? word u).isSome

variable {word t u : Text}

theorem dropWord?_of_holdsWord (absent : holdsWord word t = false) (part : u <:+ t) :
    dropWord? word u = none := by
  have none := List.any_eq_false.1 absent u (List.mem_tails _ _ |>.2 part)
  simpa using none

theorem holdsWord_of_suffix (absent : holdsWord word t = false) (part : u <:+ t) :
    holdsWord word u = false := by
  rw [holdsWord, List.any_eq_false]
  intro w isTail
  simp [dropWord?_of_holdsWord absent ((List.mem_tails _ _ |>.1 isTail).trans part)]

/-- What a word is read from, letter by letter. -/
theorem dropWord?_isSome_iff : (dropWord? word t).isSome = true ↔
    ∃ v rest, t = v ++ rest ∧ List.Forall₂ (fun l c => sameLetter l c = true) word v := by
  induction word generalizing t with
  | nil => simp [dropWord?]
  | cons l word ih =>
    cases t with
    | nil => simp [dropWord?]
    | cons c t =>
      rw [dropWord?]
      split
      case isTrue same =>
        rw [ih]
        constructor
        · rintro ⟨v, rest, rfl, letters⟩
          exact ⟨c :: v, rest, rfl, .cons same letters⟩
        · rintro ⟨v, rest, whole, letters⟩
          cases letters with
          | cons first letters =>
            obtain ⟨-, rfl⟩ := List.cons.inj whole
            exact ⟨_, rest, rfl, letters⟩
      case isFalse differs =>
        constructor
        · intro reads
          cases reads
        · rintro ⟨v, rest, whole, letters⟩
          cases letters with
          | cons first letters =>
            obtain ⟨rfl, -⟩ := List.cons.inj whole
            exact (differs first).elim

theorem exists_letter_of_mem {v : Text} (letters : List.Forall₂ (fun l c => sameLetter l c = true) word v)
    {c : Char} (mem : c ∈ v) : ∃ l ∈ word, sameLetter l c = true := by
  induction letters with
  | nil => cases mem
  | @cons l d _ _ same _ ih =>
    rcases List.mem_cons.1 mem with rfl | mem
    · exact ⟨l, .head _, same⟩
    · obtain ⟨k, inside, same⟩ := ih mem
      exact ⟨k, .tail _ inside, same⟩

/-- A word in lowercase is a word in any case. -/
theorem dropWord?_of_dropStart? {rest : Text} (lower : ∀ l ∈ word, l.toLower = l)
    (reads : dropStart? word t = some rest) : dropWord? word t = some rest := by
  obtain rfl := isPrefixOf?_eq_some_iff.1 reads
  clear reads
  induction word with
  | nil => rfl
  | cons l word ih =>
    obtain ⟨first, later⟩ := List.forall_mem_cons.1 lower
    rw [List.cons_append, dropWord?, if_pos (by simp [sameLetter, first])]
    exact ih later

end Text

namespace Html

open Listing (openTag? exactTag? tagRest?)

/-! ## The folder of the assets -/

/-- Whether the folder of the assets stands somewhere in a text, in any letter case. -/
def holdsFolder (t : Text) : Bool :=
  Text.holdsWord ".gitbook/assets/".toList t

/-- The folder does not come about where a slash is put in front of `>`, unless an `s` stands before it. -/
theorem holdsFolder_slash {a b : Text} {c : Char} (last : a.getLast? = some c)
    (other : Text.sameLetter 's' c = false) (absent : holdsFolder (a ++ '>' :: b) = false) :
    holdsFolder (a ++ '/' :: '>' :: b) = false := by
  have noAngle : ∀ l ∈ ".gitbook/assets/".toList, Text.sameLetter l '>' = false := by decide
  rw [holdsFolder, Text.holdsWord, List.any_eq_false]
  intro u isTail reads
  obtain ⟨v, rest, rfl, letters⟩ := Text.dropWord?_isSome_iff.1 reads
  obtain ⟨w, whole⟩ := (List.mem_tails _ _).1 isTail
  have kept {more : Text} (part : v ++ more <:+ a ++ '>' :: b) : False := by
    have found := Text.dropWord?_isSome_iff.2 ⟨v, more, rfl, letters⟩
    rw [Text.dropWord?_of_holdsWord absent part] at found
    cases found
  rw [← List.append_assoc] at whole
  rcases Text.append_eq_append_sign whole with ⟨x, rfl, -⟩ | ⟨x, same, behind⟩
  · exact @kept (x ++ '>' :: b) ⟨w, by simp only [List.append_assoc]⟩
  rcases Text.append_eq_append_sign same with ⟨p, rfl, rfl⟩ | ⟨p, -, rfl⟩
  · have outside : x = [] := by
      cases x with
      | nil => rfl
      | cons d x =>
        obtain ⟨rfl, -⟩ := List.cons.inj behind
        obtain ⟨l, mem, same⟩ := Text.exists_letter_of_mem letters (c := '>') (by simp)
        rw [noAngle l mem] at same
        cases same
    subst outside
    -- read backwards, the folder begins with the slash and the letter in front of it
    obtain ⟨more, spelled⟩ : ∃ more, ".gitbook/assets/".toList.reverse = '/' :: 's' :: more := ⟨_, rfl⟩
    have backward := List.forall₂_reverse_iff.2 letters
    rw [spelled, List.reverse_append] at backward
    cases p using List.reverseRecOn with
    | nil => cases backward with | cons _ backward => cases backward
    | append_singleton p d =>
      rw [List.reverse_append] at backward
      cases backward with
      | cons _ backward =>
        cases backward with
        | cons letter _ =>
          obtain rfl : d = c := by simpa using last
          rw [other] at letter
          cases letter
  · exact kept ⟨a ++ p, by rw [List.append_assoc, ← List.append_assoc p, ← behind]⟩

/-! ## Rules that do not apply -/

section Assets

variable {t : Text} (site : Text) (noFolder : holdsFolder t = false)
include noFolder

theorem assetPathAnyCase?_eq_none : assetPathAnyCase? t = none := by
  refine Text.dropWord?_of_holdsWord noFolder ?_
  cases docs : Text.dropWord? "docs/".toList (dropUpward t) with
  | none => exact dropUpward_suffix t
  | some r => exact (Text.dropWord?_suffix docs).trans (dropUpward_suffix t)

theorem assetPath?_eq_none : assetPath? t = none := by
  have part : (Text.dropStart? "docs/".toList (dropUpward t)).getD (dropUpward t) <:+ t := by
    cases docs : Text.dropStart? "docs/".toList (dropUpward t) with
    | none => exact dropUpward_suffix t
    | some r => exact (dropStart?_suffix docs).trans (dropUpward_suffix t)
  have lower : ∀ l ∈ ".gitbook/assets/".toList, l.toLower = l := by decide
  rw [Option.eq_none_iff_forall_ne_some]
  intro path reads
  have word := Text.dropWord?_of_dropStart? lower reads
  rw [Text.dropWord?_of_holdsWord noFolder part] at word
  cases word

theorem imageAssetRule_eq_none : imageAssetRule site t = none := by
  rw [imageAssetRule, Option.bind_eq_none_iff]
  rintro ⟨start, target⟩ image
  have part : target <:+ t := ⟨start, (imageStart?_append image).symm⟩
  dsimp only
  rw [assetPath?_eq_none (Text.holdsWord_of_suffix noFolder part)]
  split
  · rename_i r
    rw [assetPath?_eq_none (Text.holdsWord_of_suffix noFolder ((List.suffix_cons '<' r).trans part))]
    rfl
  · rfl

theorem sourceAssetRule_eq_none : sourceAssetRule site t = none := by
  rw [sourceAssetRule, Option.bind_eq_none_iff]
  intro r name
  rw [Option.map_eq_none_iff]
  split
  case isFalse => rfl
  case isTrue =>
    rw [Option.eq_none_iff_forall_ne_some]
    rintro ⟨before, source, q, file, rest⟩ found
    obtain ⟨u, rfl, reads⟩ := assetInTag?_append found
    have part : u <:+ t := (List.suffix_append before u).trans (Text.dropWord?_suffix name)
    obtain ⟨path, equals, later⟩ := Option.bind_eq_some_iff.1 reads
    obtain ⟨word, src, sign⟩ := Option.bind_eq_some_iff.1 equals
    have inner : path <:+ t := (equals?_suffix sign).trans ((Text.dropWord?_suffix src).trans part)
    split at later
    case h_2 => cases later
    case h_1 q' path' =>
      rw [assetPathAnyCase?_eq_none (Text.holdsWord_of_suffix noFolder
        ((List.suffix_cons q' path').trans inner))] at later
      split at later <;> cases later

/-- The rules for assets leave a text alone that does not hold their folder. -/
theorem normalizeInline_of_noFolder : normalizeInline site t = t.rewrite voidRule := by
  have images : t.rewrite (imageAssetRule site) = t :=
    Text.rewriteFrom_eq_self fun u part _ =>
      imageAssetRule_eq_none site (Text.holdsWord_of_suffix noFolder part)
  have sources : t.rewrite (sourceAssetRule site) = t :=
    Text.rewriteFrom_eq_self fun u part _ =>
      sourceAssetRule_eq_none site (Text.holdsWord_of_suffix noFolder part)
  rw [normalizeInline, images, sources]

end Assets

/-! ## Rules for other tags -/

/-- No tag begins a text, or one whose name begins like that of a void element. -/
def NoOtherTag (t : Text) : Prop :=
  ∀ l word, l ∉ ['b', 'h', 'i'] → Text.dropWord? ('<' :: l :: word) t = none

theorem noOtherTag_of_head? {t : Text} (other : t.head? ≠ some '<') : NoOtherTag t :=
  fun l word _ => Text.dropWord?_angle (l :: word) other

/-- The tag of a void element is none whose name begins with another letter. -/
theorem noOtherTag_tag {name : Text} (isVoid : name.asciiLower ∈ voidNames) (r : Text) :
    NoOtherTag ('<' :: (name ++ r)) := by
  intro l word other
  obtain ⟨x, rest, y, rfl, -, first, -⟩ := exists_letters isVoid
  have ascii : ∀ c ∈ ['b', 'h', 'i'], c.toNat < 128 := by decide
  have differs : Text.sameLetter l x = false :=
    Text.sameLetter_eq_false (fun same => other (same ▸ first)) (ascii _ first)
  have sign : Text.dropWord? ('<' :: l :: word) ('<' :: (x :: rest ++ r)) =
      Text.dropWord? (l :: word) (x :: (rest ++ r)) := rfl
  rw [sign, Text.dropWord?, differs]
  rfl

section NoOtherTag

variable {t : Text}

theorem NoOtherTag.openTag? (noOther : NoOtherTag t) {l : Char} (other : l ∉ ['b', 'h', 'i']) (name : Text) :
    openTag? (l :: name) t = none := by
  rw [Listing.openTag?, noOther l name other]
  rfl

theorem figureRule_eq_none (noOther : NoOtherTag t) : figureRule t = none := by
  have figure : Listing.openTag? "figure".toList t = none := noOther.openTag? (l := 'f') (by decide) _
  rw [figureRule, figure]
  rfl

theorem customSpanRule_eq_none (noOther : NoOtherTag t) : customSpanRule t = none := by
  have span : Text.dropWord? "<span".toList t = none := noOther 's' _ (by decide)
  rw [customSpanRule, span]
  rfl

theorem captionRule_eq_none (noOther : NoOtherTag t) : captionRule t = none := by
  have caption : Listing.openTag? "figcaption".toList t = none :=
    noOther.openTag? (l := 'f') (by decide) _
  rw [captionRule, caption]
  rfl

theorem figureTagRule_eq_none (noOther : NoOtherTag t) : figureTagRule t = none := by
  have figure : Listing.openTag? "figure".toList t = none := noOther.openTag? (l := 'f') (by decide) _
  have figureEnd : Listing.openTag? "/figure".toList t = none :=
    noOther.openTag? (l := '/') (by decide) _
  have caption : Text.dropWord? "<figcaption>".toList t = none := noOther 'f' _ (by decide)
  have captionEnd : Text.dropWord? "</figcaption>".toList t = none := noOther '/' _ (by decide)
  rw [figureTagRule, figure, figureEnd, caption, captionEnd]
  rfl

end NoOtherTag

theorem voidRule_eq_none {t : Text} (other : t.head? ≠ some '<') : voidRule t = none := by
  rw [voidRule, List.findSome?_eq_none_iff]
  intro name _
  rw [Text.dropWord?_angle name other]
  rfl

/-- In a line with the tag of one void element stands no other. -/
theorem noOtherTag_suffix {before name r u : Text} (isVoid : name.asciiLower ∈ voidNames)
    (left : '<' ∉ before) (right : '<' ∉ name ++ r) (part : u <:+ before ++ '<' :: (name ++ r)) :
    NoOtherTag u := by
  by_cases first : u.head? = some '<'
  · obtain ⟨v, rfl⟩ := List.head?_eq_some_iff.1 first
    obtain ⟨w, whole⟩ := part
    rcases Text.append_eq_append_sign whole.symm with ⟨x, -, same⟩ | ⟨x, rfl, -⟩
    · cases x with
      | nil =>
        obtain ⟨-, rfl⟩ := List.cons.inj same
        exact noOtherTag_tag isVoid r
      | cons d x =>
        rw [(List.cons.inj same).2] at right
        exact (right (by simp)).elim
    · exact (left (by simp)).elim
  · exact noOtherTag_of_head? first

section Prose

variable {site before name r : Text} (isVoid : name.asciiLower ∈ voidNames) (left : '<' ∉ before)
  (right : '<' ∉ name ++ r)
include isVoid left right

/-- A rule for another tag leaves a line alone. -/
theorem rewrite_otherTag {rule : Text → Option (Text × Nat)}
    (fails : ∀ ⦃t : Text⦄, NoOtherTag t → rule t = none) :
    Text.rewrite rule (before ++ '<' :: (name ++ r)) = before ++ '<' :: (name ++ r) :=
  Text.rewriteFrom_eq_self fun _ part _ => fails (noOtherTag_suffix isVoid left right part)

end Prose

/-! ## A line of prose -/

/-- A text that is a line without code. -/
structure IsPlainLine (t : Text) : Prop where
  line : ∃ l, t.lines = [l]
  noMark : '\x60' ∉ t ∧ '~' ∉ t

theorem IsPlainLine.normalize {t : Text} (plain : IsPlainLine t) (o : HtmlOptions) :
    normalize o t = normalizeProse (o.assetPrefix.dropEndWhile (· = '/')) t := by
  obtain ⟨⟨l, line⟩, noTick, noTilde⟩ := plain
  have text : l.text = t := by rw [← Text.join_lines t, line]; simp [Line.join]
  have prose : FenceOpener.ofLine? l.content = none := by
    refine FenceOpener.ofLine?_eq_none_of_trimStart fun c first => ?_
    have inside : c ∈ t := by
      rw [← text]
      exact List.mem_append_left _ ((Text.trimStart_suffix _).mem (List.mem_of_head? first))
    rw [FenceMark.ofChar?, if_neg, if_neg]
    · rintro rfl; exact noTilde inside
    · rintro rfl; exact noTick inside
  have segments : t.segments = [⟨false, t⟩] := by
    rw [Text.segments, Text.fenced_of_prose (by simpa [line] using prose), line]
    simp [Segment.ofLines, FencedLine.isCode, text]
  simp [Html.normalize, Text.mapProse, segments]

theorem IsPlainLine.mapLineProse {t : Text} (plain : IsPlainLine t) (f : Text → Text) :
    t.mapLineProse f = if t = [] then [] else f t := by
  obtain ⟨⟨l, line⟩, noTick, -⟩ := plain
  have text : l.text = t := by rw [← Text.join_lines t, line]; simp [Line.join]
  have lone : t.count '\x60' ≤ 1 := by rw [List.count_eq_zero.2 noTick]; exact Nat.zero_le 1
  rw [Text.mapLineProse, line, List.flatMap_singleton, text, Text.mapOutsideCode_of_lone lone]

section Line

variable {before name r s : Text} (isVoid : name.asciiLower ∈ voidNames) (left : '<' ∉ before)
include isVoid left

/-- **On a line with one tag, of a void element, only the rule for void elements counts.** -/
theorem normalize_of_rewrite (right : '<' ∉ name ++ r) (still : '<' ∉ name ++ s)
    (plain : IsPlainLine (before ++ '<' :: (name ++ r)))
    (noFolder : holdsFolder (before ++ '<' :: (name ++ r)) = false)
    (closes : Text.rewrite voidRule (before ++ '<' :: (name ++ r)) = before ++ '<' :: (name ++ s))
    (o : HtmlOptions) :
    normalize o (before ++ '<' :: (name ++ r)) = before ++ '<' :: (name ++ s) := by
  have figures := rewrite_otherTag isVoid left right fun _ => figureRule_eq_none
  have later {rule : Text → Option (Text × Nat)} (fails : ∀ ⦃t : Text⦄, NoOtherTag t → rule t = none) :=
    rewrite_otherTag isVoid left still fails
  rw [plain.normalize, normalizeProse, figures, plain.mapLineProse, if_neg (by simp),
    normalizeInline_of_noFolder _ noFolder, closes, later fun _ => customSpanRule_eq_none,
    later fun _ => captionRule_eq_none, later fun _ => figureTagRule_eq_none]

end Line

end Html
end MdxPress
