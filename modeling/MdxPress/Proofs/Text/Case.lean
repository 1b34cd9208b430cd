import MdxPress.Proofs.Text.Search
import MdxPress.Text.Case
import MdxPress.Text.Letter

/-!
Letters, numbers and the case of letters.  Changing the case of a text makes no sign of it: every
character keeps its place and becomes one or more characters, none of which is a sign that the passes
look for unless it stood there before.

* letters and numbers of any script are visible characters: none of them controls anything, breaks a
  line, or is no character at all;
* `Text.Recased` is the relation, `Text.Recased.noPair` what follows for pairs of signs;
* `Text.recased_lower` and `Text.recased_titleCase` are the case mappings;
* `Text.not_isCapital_of_mem_lower` says that none of the capitals of ASCII is left in a lowercase text.
-/

namespace MdxPress.Text

theorem toNat_of_isAsciiAlnum {c : Char} (letter : isAsciiAlnum c = true) :
    48 ≤ c.toNat ∧ c.toNat < 123 := by
  simp only [isAsciiAlnum, isAsciiLetter, isAsciiDigit, Bool.or_eq_true, Bool.and_eq_true,
    decide_eq_true_eq, Char.le_def, UInt32.le_iff_toNat_le] at letter
  change (97 ≤ c.toNat ∧ c.toNat ≤ 122 ∨ 65 ≤ c.toNat ∧ c.toNat ≤ 90) ∨
    48 ≤ c.toNat ∧ c.toNat ≤ 57 at letter
  omega

/-- The ranges of letters and numbers leave out the control characters, the two separators and the
two ends of a plane that are no characters. -/
theorem letterRanges_avoid :
    ∀ r ∈ letterRanges ++ numberRanges, (r.2 < 0x80 ∨ 0xA0 ≤ r.1) ∧
      (r.2 < 0x2028 ∨ 0x2029 < r.1) ∧ (r.2 < 0xFFFE ∨ 0xFFFF < r.1) := by
  decide +kernel

/-- A letter or number is one of ASCII, or lies behind the control characters. -/
theorem toNat_of_isLetterOrNumber {c : Char} (letter : isLetterOrNumber c = true) :
    (48 ≤ c.toNat ∧ c.toNat < 123) ∨ (0xA0 ≤ c.toNat ∧ c.toNat ≠ 0x2028 ∧ c.toNat ≠ 0x2029 ∧
      c.toNat ≠ 0xFFFE ∧ c.toNat ≠ 0xFFFF) := by
  unfold isLetterOrNumber at letter
  split at letter
  case isTrue => exact .inl (toNat_of_isAsciiAlnum letter)
  case isFalse beyond =>
    have found : Ranges.has (letterRanges ++ numberRanges) c = true := by
      rw [Ranges.has, List.any_append]
      exact letter
    obtain ⟨r, mem, within⟩ := List.any_eq_true.1 found
    obtain ⟨first, last⟩ : r.1 ≤ c.toNat ∧ c.toNat ≤ r.2 := by simpa using within
    obtain ⟨control, separator, none⟩ := letterRanges_avoid r mem
    exact .inr (by omega)

/-! ## Texts of the same signs -/

/-- The signs that lines, inline code and markers are made of. -/
def signs : List Char :=
  ['{', '%', '\x60', '\n', '\r']

/-- A form of a character: it is not empty, and holds a sign only if it is the character itself. -/
structure IsForm (c : Char) (form : Text) : Prop where
  filled : form ≠ []
  sign : ∀ k ∈ signs, k ∈ form → form = [c]

/-- A text with a form for each of its characters. -/
inductive Recased : Text → Text → Prop
  | nil : Recased [] []
  | cons {c : Char} {form t u : Text} (isForm : IsForm c form) (rest : Recased t u) :
      Recased (c :: t) (form ++ u)

theorem IsForm.self (c : Char) : IsForm c [c] :=
  ⟨by simp, fun _ _ _ => rfl⟩

theorem IsForm.of_not_sign {c d : Char} (noSign : d ∉ signs) : IsForm c [d] :=
  ⟨by simp, fun k isSign mem => absurd (List.mem_singleton.1 mem ▸ isSign) noSign⟩

theorem Recased.flatMap {f : Char → Text} (each : ∀ c, IsForm c (f c)) (t : Text) :
    Recased t (t.flatMap f) := by
  induction t with
  | nil => exact .nil
  | cons c t ih => exact .cons (each c) ih

theorem Recased.map {f : Char → Char} (each : ∀ c, IsForm c [f c]) (t : Text) :
    Recased t (t.map f) := by
  rw [← List.flatMap_pure_eq_map]
  exact .flatMap each t

namespace Recased

variable {t u : Text}

theorem mem {k : Char} (recased : Recased t u) (isSign : k ∈ signs) (mem : k ∈ u) : k ∈ t := by
  induction recased with
  | nil => exact mem
  | @cons c form t u isForm _ ih =>
    rcases List.mem_append.1 mem with first | later
    · rw [isForm.sign k isSign first] at first
      rw [List.mem_singleton.1 first]
      exact .head _
    · exact .tail _ (ih later)

theorem head? {k : Char} (recased : Recased t u) (isSign : k ∈ signs) (head : u.head? = some k) :
    t.head? = some k := by
  cases recased with
  | nil => cases head
  | @cons c form t u isForm _ =>
    rw [List.head?_append_of_ne_nil _ isForm.filled] at head
    have first := isForm.sign k isSign (List.mem_of_head? head)
    rw [first] at head
    exact head

/-- Signs that are apart stay apart. -/
theorem noPair {x y : Char} (recased : Recased t u) (left : x ∈ signs) (right : y ∈ signs)
    (apart : NoPair x y t) : NoPair x y u := by
  induction recased with
  | nil => exact .nil
  | @cons c form t u isForm rest ih =>
    obtain ⟨neighbour, later⟩ := List.isChain_cons.1 apart
    have inner : NoPair x y form := by
      by_cases mem : x ∈ form
      · rw [isForm.sign x left mem]
        exact .singleton c
      · exact noPair_of_not_mem (.inl mem)
    refine noPair_append.2 ⟨inner, ih later, ?_⟩
    rintro ⟨last, head⟩
    have self := isForm.sign x left (List.mem_of_getLast? last)
    rw [self] at last
    exact neighbour y (rest.head? right head) ⟨by simpa using last, rfl⟩

end Recased

/-! ## Case tables -/

/-- A run of a case table gives none of the codes of signs. -/
def CaseRun.AvoidsSigns (r : CaseRun) : Prop :=
  ∀ k ∈ signs, k.toNat < r.image ∨ r.image + (r.last - r.first) < k.toNat

instance (r : CaseRun) : Decidable r.AvoidsSigns :=
  inferInstanceAs (Decidable (∀ k ∈ signs, _))

/-- The character with a code, or the null character for a code that no character has. -/
theorem toNat_ofNat_cases (n : Nat) : (Char.ofNat n).toNat = n ∨ (Char.ofNat n).toNat = 0 := by
  by_cases valid : n.isValidChar
  · rw [Char.ofNat, dif_pos valid]
    exact .inl rfl
  · rw [Char.ofNat, dif_neg valid]
    exact .inr rfl

theorem not_sign_ofNat {n : Nat} (avoids : ∀ k ∈ signs, k.toNat ≠ n) : Char.ofNat n ∉ signs := by
  have noNull : ∀ k ∈ signs, k.toNat ≠ 0 := by decide
  intro isSign
  rcases toNat_ofNat_cases n with same | null
  · exact avoids _ isSign same
  · exact noNull _ isSign null

/-- The image of a code point is one of those of a run. -/
theorem exists_of_runImage {runs : List CaseRun} {n image : Nat}
    (found : runImage runs n = some image) :
    ∃ r ∈ runs, r.image ≤ image ∧ image ≤ r.image + (r.last - r.first) := by
  obtain ⟨r, mem, covers⟩ := List.exists_of_findSome?_eq_some found
  refine ⟨r, mem, ?_⟩
  unfold CaseRun.map? at covers
  split at covers
  case isTrue inside =>
    cases covers
    simp only [Bool.and_eq_true, decide_eq_true_eq] at inside
    omega
  case isFalse => cases covers

theorem not_sign_runImage {runs : List CaseRun} (avoid : ∀ r ∈ runs, r.AvoidsSigns) {n image : Nat}
    (found : runImage runs n = some image) : Char.ofNat image ∉ signs := by
  obtain ⟨r, mem, first, last⟩ := exists_of_runImage found
  refine not_sign_ofNat fun k isSign same => ?_
  rcases avoid r mem k isSign with below | above <;> omega

theorem lowerRuns_avoid : ∀ r ∈ lowerRuns, r.AvoidsSigns := by
  decide +kernel

theorem upperRuns_avoid : ∀ r ∈ upperRuns, r.AvoidsSigns := by
  decide +kernel

theorem upperLong_avoid : ∀ p ∈ upperLong, p.2 ≠ [] ∧ ∀ n ∈ p.2, ∀ k ∈ signs, k.toNat ≠ n := by
  decide +kernel

/-! ## Forms of characters -/

theorem toLower_cases (c : Char) :
    c.toLower = c ∨ (97 ≤ c.toLower.toNat ∧ c.toLower.toNat ≤ 122) := by
  unfold Char.toLower
  split
  case isTrue letter =>
    obtain ⟨first, last⟩ := letter
    rw [ge_iff_le, UInt32.le_iff_toNat_le] at first
    rw [UInt32.le_iff_toNat_le] at last
    change 65 ≤ c.val.toNat at first
    change c.val.toNat ≤ 90 at last
    refine .inr ?_
    change 97 ≤ (c.val.toNat + 32) % 2 ^ 32 ∧ (c.val.toNat + 32) % 2 ^ 32 ≤ 122
    omega
  case isFalse => exact .inl rfl

theorem toUpper_cases (c : Char) :
    c.toUpper = c ∨ (65 ≤ c.toUpper.toNat ∧ c.toUpper.toNat ≤ 90) := by
  unfold Char.toUpper
  split
  case isTrue letter =>
    obtain ⟨first, last⟩ := letter
    rw [UInt32.le_iff_toNat_le] at first last
    change 97 ≤ c.val.toNat at first
    change c.val.toNat ≤ 122 at last
    have code : (c.val + ('A'.val - 'a'.val)).toNat = c.val.toNat - 32 := by
      have step : ('A'.val - 'a'.val).toNat = 2 ^ 32 - 32 := by decide
      rw [UInt32.toNat_add, step]
      omega
    refine .inr ?_
    change 65 ≤ (c.val + ('A'.val - 'a'.val)).toNat ∧ (c.val + ('A'.val - 'a'.val)).toNat ≤ 90
    rw [code]
    omega
  case isFalse => exact .inl rfl

theorem not_sign_of_letter {d : Char}
    (letter : (97 ≤ d.toNat ∧ d.toNat ≤ 122) ∨ (65 ≤ d.toNat ∧ d.toNat ≤ 90)) : d ∉ signs := by
  have codes : ∀ k ∈ signs, ¬ ((97 ≤ k.toNat ∧ k.toNat ≤ 122) ∨ (65 ≤ k.toNat ∧ k.toNat ≤ 90)) := by
    decide
  exact fun isSign => codes d isSign letter

theorem isForm_lowerChar (c : Char) : IsForm c (lowerChar c) := by
  unfold lowerChar
  split
  · rcases toLower_cases c with same | letter
    · rw [same]; exact .self c
    · exact .of_not_sign (not_sign_of_letter (.inl letter))
  · split
    · have apart : ∀ k ∈ signs, k ∉ ['i', Char.ofNat 0x307] := by decide
      exact ⟨by simp, fun k isSign mem => absurd mem (apart k isSign)⟩
    · split
      case h_1 n found => exact .of_not_sign (not_sign_runImage lowerRuns_avoid found)
      case h_2 => exact .self c

theorem isForm_upperChar (c : Char) : IsForm c (upperChar c) := by
  unfold upperChar
  split
  · rcases toUpper_cases c with same | letter
    · rw [same]; exact .self c
    · exact .of_not_sign (not_sign_of_letter (.inr letter))
  · split
    case h_1 p found =>
      obtain ⟨filled, codes⟩ := upperLong_avoid p (List.mem_of_find?_eq_some found)
      refine ⟨by simpa using filled, fun k isSign mem => ?_⟩
      obtain ⟨n, inside, rfl⟩ := List.mem_map.1 mem
      exact absurd isSign (not_sign_ofNat (codes n inside))
    case h_2 =>
      split
      case h_1 n found => exact .of_not_sign (not_sign_runImage upperRuns_avoid found)
      case h_2 => exact .self c

/-! ## Texts in another case -/

theorem recased_lowerAfter (before t : Text) : Recased t (lowerAfter before t) := by
  induction t generalizing before with
  | nil => exact .nil
  | cons c t ih =>
    rw [lowerAfter]
    refine .cons ?_ (ih (c :: before))
    split
    · split
      · exact .of_not_sign (by decide)
      · exact .of_not_sign (by decide)
    · exact isForm_lowerChar c

theorem recased_lower (t : Text) : Recased t t.lower :=
  recased_lowerAfter [] t

/-! ## Capitals -/

/-- A capital of ASCII. -/
def IsCapital (c : Char) : Prop :=
  65 ≤ c.toNat ∧ c.toNat ≤ 90

instance (c : Char) : Decidable (IsCapital c) :=
  inferInstanceAs (Decidable (_ ∧ _))

/-- No run of the lowercase table gives the code of a capital of ASCII. -/
theorem lowerRuns_avoid_capitals :
    ∀ r ∈ lowerRuns, r.image + (r.last - r.first) < 65 ∨ 90 < r.image := by
  decide +kernel

theorem not_isCapital_toLower (c : Char) : ¬ IsCapital c.toLower := by
  unfold Char.toLower
  split
  case isTrue letter =>
    obtain ⟨first, last⟩ := letter
    rw [ge_iff_le, UInt32.le_iff_toNat_le] at first
    rw [UInt32.le_iff_toNat_le] at last
    change 65 ≤ c.val.toNat at first
    change c.val.toNat ≤ 90 at last
    change ¬ (65 ≤ (c.val.toNat + 32) % 2 ^ 32 ∧ (c.val.toNat + 32) % 2 ^ 32 ≤ 90)
    omega
  case isFalse other =>
    rintro ⟨first, last⟩
    exact other ⟨UInt32.le_iff_toNat_le.2 first, UInt32.le_iff_toNat_le.2 last⟩

/-- The lowercase form of a character holds no capital of ASCII: that of the Kelvin sign, say, is a
small letter. -/
theorem not_isCapital_of_mem_lowerChar {c d : Char} (mem : d ∈ lowerChar c) : ¬ IsCapital d := by
  unfold lowerChar at mem
  split at mem
  · rw [List.mem_singleton.1 mem]
    exact not_isCapital_toLower c
  · rename_i beyond
    split at mem
    · have apart : ∀ d ∈ ['i', Char.ofNat 0x307], ¬ IsCapital d := by decide
      exact apart d mem
    · split at mem
      case h_1 image found =>
        rw [List.mem_singleton.1 mem]
        obtain ⟨r, isRun, first, last⟩ := exists_of_runImage found
        rintro ⟨low, high⟩
        rcases toNat_ofNat_cases image with same | null
        · rcases lowerRuns_avoid_capitals r isRun with below | above <;> omega
        · omega
      case h_2 =>
        rw [List.mem_singleton.1 mem]
        rintro ⟨-, high⟩
        omega

/-- A lowercase text holds no capital of ASCII. -/
theorem not_isCapital_of_mem_lower {t : Text} {c : Char} (mem : c ∈ t.lower) : ¬ IsCapital c := by
  have along (before t : Text) (mem : c ∈ lowerAfter before t) : ¬ IsCapital c := by
    induction t generalizing before with
    | nil => cases mem
    | cons d t ih =>
      rw [lowerAfter] at mem
      rcases List.mem_append.1 mem with form | later
      · split at form
        · have apart : ¬ IsCapital (Char.ofNat 0x3C2) ∧ ¬ IsCapital (Char.ofNat 0x3C3) := by decide
          split at form
          · exact List.mem_singleton.1 form ▸ apart.1
          · exact List.mem_singleton.1 form ▸ apart.2
        · exact not_isCapital_of_mem_lowerChar form
      · exact ih _ later
  exact along [] t mem

theorem recased_titleCaseAfter (inWord : Bool) (t : Text) :
    Recased t (titleCaseAfter inWord t) := by
  induction t generalizing inWord with
  | nil => exact .nil
  | cons c t ih =>
    rw [titleCaseAfter]
    split
    · refine .cons ?_ (ih true)
      cases inWord
      · exact isForm_upperChar c
      · exact isForm_lowerChar c
    · exact .cons (.self c) (ih false)

theorem recased_titleCase (t : Text) : Recased t t.titleCase :=
  recased_titleCaseAfter false t

end MdxPress.Text
