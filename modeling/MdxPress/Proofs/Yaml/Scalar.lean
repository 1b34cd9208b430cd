import MdxPress.Proofs.Text.Case
import MdxPress.Yaml.Scalar.Render
import MdxPress.Yaml.Token.Plain

/-!
Scalars on one line are read as what was written: between quotation marks with three escapes, or
without quotation marks.

* `readQuoted_escaped` reads a text between quotation marks, if `isKept` holds of its characters;
* `readPlain_bare` reads a text without quotation marks up to its end.

Caveat: `escaped` leaves every line break but the line feed as it is, and the reader folds it; a
control character is refused.  So `isKept` leaves both out.
-/

namespace MdxPress.Yaml

/-! ## Between quotation marks -/

/-- A character that comes back from between quotation marks. -/
def isKept (c : Char) : Bool :=
  isAllowed c && (!isBreak c || c = '\n')

/-- A text as it stands between quotation marks: backslashes, quotation marks and line feeds are
escaped. -/
def escaped (t : Text) : Text :=
  t.flatMap fun c =>
    if c = '\\' then "\\\\".toList
    else if c = '"' then "\\\"".toList
    else if c = '\n' then "\\n".toList
    else [c]

section

variable {column : Nat} {gap : Fold} {c : Char} (r : Text)

/-- A character on a line, between double quotation marks. -/
theorem readQuoted_inLine (inLine : isBreak c = false) (single : c = '\'' → r.head? ≠ some '\'')
    (inside : 0 < column) :
    readQuoted false .content column gap (c :: r) =
      if isSpace c then readQuoted false .content (column + 1) (gap.space c) r
      else if c = '"' then .ok (gap.text, r)
      else if c = '\\' then
        (readQuoted false .backslash (column + 1) .empty r).map fun p => (gap.text ++ p.1, p.2)
      else
        (readQuoted false .content (column + 1) .empty r).map fun p => (gap.text ++ c :: p.1, p.2) := by
  have filled : column ≠ 0 := by omega
  rw [readQuoted]
  · simp [inLine, filled]
  · rintro r' rfl; cases inLine
  · rintro r' rfl rfl; exact (single rfl rfl).elim

/-- A letter behind a backslash stands for another character. -/
theorem readQuoted_backslash {e : Char} (stands : escapeOf? c = some e) (inLine : isBreak c = false) :
    readQuoted false .backslash column .empty (c :: r) =
      (readQuoted false .content (column + 1) .empty r).map fun p => (e :: p.1, p.2) := by
  rw [readQuoted]
  · simp [inLine, stands]
  · rintro r' rfl; cases inLine
  · rintro r' rfl; cases stands

theorem readQuoted_close (inside : 0 < column) :
    readQuoted false .content column gap ('"' :: r) = .ok (gap.text, r) := by
  have single : '"' = '\'' → r.head? ≠ some '\'' := fun same => absurd same (by decide)
  rw [readQuoted_inLine r (by decide) single inside]
  rfl

theorem readQuoted_space (space : isSpace c = true) (inside : 0 < column) :
    readQuoted false .content column gap (c :: r) =
      readQuoted false .content (column + 1) (gap.space c) r := by
  have noBreak : isBreak c = false := by
    rcases Bool.or_eq_true_iff.1 space with same | same <;> rw [of_decide_eq_true same] <;> decide
  have single : c = '\'' → r.head? ≠ some '\'' := by
    rintro rfl
    cases space
  rw [readQuoted_inLine r noBreak single inside, if_pos space]

theorem readQuoted_escape {e : Char} (stands : escapeOf? c = some e) (inLine : isBreak c = false)
    (inside : 0 < column) :
    readQuoted false .content column gap ('\\' :: c :: r) =
      (readQuoted false .content (column + 2) .empty r).map fun p =>
        (gap.text ++ e :: p.1, p.2) := by
  have single : '\\' = '\'' → (c :: r).head? ≠ some '\'' := fun same => absurd same (by decide)
  have noSpace : ¬isSpace '\\' = true := by decide
  have noQuote : '\\' ≠ '"' := by decide
  rw [readQuoted_inLine (c :: r) (by decide) single inside, if_neg noSpace, if_neg noQuote, if_pos rfl,
    readQuoted_backslash r stands inLine]
  cases readQuoted false .content (column + 2) .empty r <;> rfl

theorem readQuoted_char (inLine : isBreak c = false) (visible : isSpace c = false)
    (noQuote : c ≠ '"') (noEscape : c ≠ '\\') (single : c = '\'' → r.head? ≠ some '\'')
    (inside : 0 < column) :
    readQuoted false .content column gap (c :: r) =
      (readQuoted false .content (column + 1) .empty r).map fun p =>
        (gap.text ++ c :: p.1, p.2) := by
  rw [readQuoted_inLine r inLine single inside, visible, if_neg noQuote, if_neg noEscape]
  rfl

/-- Two apostrophes are read at once. -/
theorem readQuoted_apostrophes :
    readQuoted false .content column gap ('\'' :: '\'' :: r) =
      (readQuoted false .content (column + 2) .empty r).map fun p =>
        (gap.text ++ '\'' :: '\'' :: p.1, p.2) := by
  rw [readQuoted]
  rfl

end

/-- A character is escaped by a letter that stands for it, or stays. -/
theorem escaped_cons (c : Char) (t : Text) :
    (∃ e, (escapeOf? e = some c ∧ isBreak e = false ∧ isAllowed e = true) ∧
      escaped (c :: t) = '\\' :: e :: escaped t) ∨
      (c ≠ '\\' ∧ c ≠ '"' ∧ c ≠ '\n' ∧ escaped (c :: t) = c :: escaped t) := by
  by_cases backslash : c = '\\'
  · subst backslash; exact .inl ⟨'\\', ⟨rfl, rfl, rfl⟩, rfl⟩
  by_cases quote : c = '"'
  · subst quote; exact .inl ⟨'"', ⟨rfl, rfl, rfl⟩, rfl⟩
  by_cases feed : c = '\n'
  · subst feed; exact .inl ⟨'n', ⟨rfl, rfl, rfl⟩, rfl⟩
  exact .inr ⟨backslash, quote, feed, by simp [escaped, backslash, quote, feed]⟩

/-- An apostrophe at the front of what stands between quotation marks is one of the text. -/
theorem head?_of_escaped {t rest : Text} (first : (escaped t ++ '"' :: rest).head? = some '\'') :
    t.head? = some '\'' := by
  cases t with
  | nil => cases first
  | cons c t =>
    rcases escaped_cons c t with ⟨e, -, same⟩ | ⟨-, -, -, same⟩
    · rw [same] at first; cases first
    · rw [same] at first; exact first

/-- The characters between quotation marks break no line, and a document may hold them. -/
theorem isBreak_of_mem_escaped {t : Text} (kept : ∀ c ∈ t, isKept c = true) :
    ∀ c ∈ escaped t, isBreak c = false ∧ isAllowed c = true := by
  induction t with
  | nil => simp [escaped]
  | cons c t ih =>
    have later := ih fun d mem => kept d (.tail _ mem)
    have here := Bool.and_eq_true_iff.1 (kept c (.head _))
    rcases escaped_cons c t with ⟨e, ⟨-, inLine, allowed⟩, same⟩ | ⟨-, -, noFeed, same⟩
    · have backslash : isBreak '\\' = false ∧ isAllowed '\\' = true := by decide
      rw [same, List.forall_mem_cons, List.forall_mem_cons]
      exact ⟨backslash, ⟨inLine, allowed⟩, later⟩
    · rw [same, List.forall_mem_cons]
      exact ⟨⟨by simpa [noFeed] using here.2, here.1⟩, later⟩

/-- The content between quotation marks is read up to the second mark. -/
theorem readQuoted_escaped {t : Text} (kept : ∀ c ∈ t, isKept c = true) {column : Nat}
    (inside : 0 < column) {gap : Fold} (unbroken : gap.broken = false) (rest : Text) :
    readQuoted false .content column gap (escaped t ++ '"' :: rest) =
      .ok (gap.spaces ++ t, rest) := by
  -- Two apostrophes are one step, so the induction is on the length.
  induction size : t.length using Nat.strongRecOn generalizing t column gap with
  | ind n ih =>
    subst size
    have text : gap.text = gap.spaces := by simp [Fold.text, unbroken]
    cases t with
    | nil =>
      rw [escaped, List.flatMap_nil, List.nil_append, readQuoted_close rest inside, text,
        List.append_nil]
    | cons c t =>
      have keptBehind : ∀ d ∈ t, isKept d = true := fun d mem => kept d (.tail _ mem)
      have later {column : Nat} (inside : 0 < column) :
          readQuoted false .content column .empty (escaped t ++ '"' :: rest) = .ok (t, rest) :=
        ih t.length (by simp) keptBehind inside rfl rfl
      rcases escaped_cons c t with ⟨e, ⟨stands, inLine, -⟩, same⟩ | ⟨noEscape, noQuote, noFeed, same⟩
      · rw [same, List.cons_append, List.cons_append, readQuoted_escape _ stands inLine inside,
          later (by omega), text]
        rfl
      · have inLine : isBreak c = false := by
          simpa [isKept, noFeed] using (Bool.and_eq_true_iff.1 (kept c (.head _))).2
        rw [same, List.cons_append]
        by_cases space : isSpace c = true
        · have longer : (gap.space c).spaces = gap.spaces ++ [c] := by simp [Fold.space, unbroken]
          have still : (gap.space c).broken = false := by simp [Fold.space, unbroken]
          rw [readQuoted_space _ space inside, ih t.length (by simp) keptBehind (by omega) still rfl, longer,
            List.append_assoc]
          rfl
        · by_cases pair : c = '\'' ∧ t.head? = some '\''
          · obtain ⟨rfl, first⟩ := pair
            obtain ⟨t', rfl⟩ : ∃ t', t = '\'' :: t' := by
              cases t with
              | nil => cases first
              | cons d t' => cases first; exact ⟨t', rfl⟩
            have behind : escaped ('\'' :: t') = '\'' :: escaped t' := rfl
            rw [behind, List.cons_append, readQuoted_apostrophes,
              ih t'.length (by simp only [List.length_cons]; omega) (fun d mem => keptBehind d (.tail _ mem)) (by omega) rfl
                rfl, text]
            rfl
          · have single : c = '\'' → (escaped t ++ '"' :: rest).head? ≠ some '\'' :=
              fun apostrophe first => pair ⟨apostrophe, head?_of_escaped first⟩
            rw [readQuoted_char _ inLine (by simpa using space) noQuote noEscape single inside,
              later (by omega), text]
            rfl

/-! ## Without quotation marks -/

/-- A character of a text that is written without quotation marks. -/
def isBareChar (c : Char) : Bool :=
  Text.isLetterOrNumber c || " +-_./".toList.contains c

theorem toNat_of_isBareChar {c : Char} (bare : isBareChar c = true) :
    (0x20 ≤ c.toNat ∧ c.toNat < 123) ∨ (0xA0 ≤ c.toNat ∧ c.toNat ≠ 0x2028 ∧ c.toNat ≠ 0x2029 ∧
      c.toNat ≠ 0xFFFE ∧ c.toNat ≠ 0xFFFF) := by
  rcases Bool.or_eq_true_iff.1 bare with letter | sign
  · have bounds := Text.toNat_of_isLetterOrNumber letter
    omega
  · have all : ∀ d ∈ " +-_./".toList, 0x20 ≤ d.toNat ∧ d.toNat < 123 := by decide
    exact .inl (all c (by simpa using sign))

theorem isBreak_of_isBareChar {c : Char} (bare : isBareChar c = true) : isBreak c = false := by
  have bounds := toNat_of_isBareChar bare
  have feed : c ≠ '\n' := by rintro rfl; cases bare
  have carriage : c ≠ '\r' := by rintro rfl; cases bare
  have next : c.toNat ≠ 0x85 := by omega
  have others : c.toNat ≠ 0x2028 ∧ c.toNat ≠ 0x2029 := by omega
  simp [isBreak, feed, carriage, next, others]

section

variable {indent column : Nat} {gap : Fold} {c : Char}

/-- A space of a text without quotation marks belongs to a gap. -/
theorem readPlain_space (r : Text) :
    readPlain false indent column gap (' ' :: r) =
      readPlain false indent (column + 1) (gap.space ' ') r := by
  have noBreak : isBreak ' ' = false := by decide
  have space : isSpace ' ' = true := by decide
  rw [readPlain]
  · simp [noBreak, space]
  · simp

/-- Any other character on the line ends the text, or the gap. -/
theorem readPlain_visible (inLine : isBreak c = false) (visible : isSpace c = false) (r : Text) :
    readPlain false indent column gap (c :: r) =
      if !gap.isEmpty && endsBehindGap false indent column (c :: r) then .ok ⟨[], c :: r, gap.broken⟩
      else if c = ':' && atGap r then .ok ⟨[], c :: r, gap.broken⟩
      else (readPlain false indent (column + 1) .empty r).map (·.prepend (gap.text ++ [c])) := by
  have noColon : hasPlainColon false (c :: r) = false := by
    unfold hasPlainColon
    split <;> rfl
  rw [readPlain]
  · simp [inLine, visible, noColon, endsPlain]
  · rintro r' rfl; cases inLine

/-- A character of a text without quotation marks ends the gap. -/
theorem readPlain_char (bare : isBareChar c = true) (visible : c ≠ ' ')
    (inside : gap = .empty ∨ (indent ≤ column ∧ 0 < column)) (r : Text) :
    readPlain false indent column gap (c :: r) =
      (readPlain false indent (column + 1) .empty r).map (·.prepend (gap.text ++ [c])) := by
  have noTab : c ≠ '\t' := by rintro rfl; cases bare
  have noColon : c ≠ ':' := by rintro rfl; cases bare
  have noComment : c ≠ '#' := by rintro rfl; cases bare
  have noSpace : isSpace c = false := by simp [isSpace, visible, noTab]
  have goesOn : (!gap.isEmpty && endsBehindGap false indent column (c :: r)) = false := by
    rcases inside with rfl | ⟨deep, filled⟩
    · rfl
    · have deep : ¬column < indent := by omega
      have filled : column ≠ 0 := by omega
      simp [endsBehindGap, deep, filled, noComment]
  rw [readPlain_visible (isBreak_of_isBareChar bare) noSpace, goesOn]
  simp [noColon]

/-- **A text without quotation marks is read up to where it ends.** -/
theorem readPlain_bare {t : Text} (bare : ∀ c ∈ t, isBareChar c = true)
    (last : t.getLast? ≠ some ' ') (unbroken : gap.broken = false) (deep : indent ≤ column + 1)
    (inside : gap = .empty ∨ (indent ≤ column ∧ 0 < column ∧ t ≠ [])) {rest : Text} {p : PlainScalar}
    (ends : ∀ column, readPlain false indent column .empty rest = .ok p) :
    readPlain false indent column gap (t ++ rest) = .ok (p.prepend (gap.spaces ++ t)) := by
  induction t generalizing column gap with
  | nil =>
    rcases inside with rfl | ⟨-, -, filled⟩
    · exact ends column
    · exact (filled rfl).elim
  | cons c t ih =>
    have bareBehind : ∀ d ∈ t, isBareChar d = true := fun d mem => bare d (.tail _ mem)
    have text : gap.text = gap.spaces := by simp [Fold.text, unbroken]
    rw [List.cons_append]
    by_cases space : c = ' '
    · subst space
      have filled : t ≠ [] := by rintro rfl; exact last rfl
      have longer : (gap.space ' ').spaces = gap.spaces ++ [' '] := by simp [Fold.space, unbroken]
      have still : (gap.space ' ').broken = false := by simp [Fold.space, unbroken]
      have end_ : t.getLast? ≠ some ' ' := by rwa [List.getLast?_cons_of_ne_nil filled] at last
      rw [readPlain_space, ih bareBehind end_ still (by omega)
        (.inr ⟨deep, Nat.succ_pos _, filled⟩), longer, List.append_assoc]
      rfl
    · have end_ : t.getLast? ≠ some ' ' := by
        cases t with
        | nil => simp
        | cons d t => simpa using last
      have shape : gap = .empty ∨ (indent ≤ column ∧ 0 < column) :=
        inside.imp_right fun h => ⟨h.1, h.2.1⟩
      rw [readPlain_char (bare c (.head _)) space shape, ih bareBehind end_ rfl (by omega) (.inl rfl),
        text]
      simp [Except.map, PlainScalar.prepend, Fold.empty]

end

/-! ## Ends of texts without quotation marks -/

theorem readPlain_nil (indent column : Nat) :
    readPlain false indent column .empty [] = .ok ⟨[], [], false⟩ := rfl

theorem readPlain_colon (indent column : Nat) {r : Text} (gap : atGap r = true) :
    readPlain false indent column .empty (':' :: r) = .ok ⟨[], ':' :: r, false⟩ := by
  rw [readPlain_visible (by decide) (by decide)]
  simp [gap, Fold.isEmpty, Fold.empty]

/-- Behind a line break, spaces are the indentation of the next line. -/
theorem readPlain_indentation {indent n : Nat} {gap : Fold} (broken : gap.broken = true) {column : Nat}
    (left : column + n < indent) {c : Char} (visible : isSpace c = false) (inLine : isBreak c = false)
    (r : Text) :
    readPlain false indent column gap (spaces n ++ c :: r) = .ok ⟨[], c :: r, true⟩ := by
  induction n generalizing column gap with
  | zero =>
    have none : spaces 0 ++ c :: r = c :: r := rfl
    have ends : endsBehindGap false indent column (c :: r) = true := by
      simp [endsBehindGap, show column < indent by omega]
    rw [none, readPlain_visible inLine visible]
    simp [Fold.isEmpty, broken, ends]
  | succ n ih =>
    have more : spaces (n + 1) = ' ' :: spaces n := rfl
    rw [more, List.cons_append, readPlain_space]
    exact ih (by simp [Fold.space, broken]) (by omega)

/-- The next line ends the text, if it does not reach its column. -/
theorem readPlain_feed {indent n : Nat} (left : n < indent) {c : Char} (visible : isSpace c = false)
    (inLine : isBreak c = false) (column : Nat) (r : Text) :
    readPlain false indent column .empty ('\n' :: (spaces n ++ c :: r)) = .ok ⟨[], c :: r, true⟩ := by
  have feed : isBreak '\n' = true := by decide
  rw [readPlain]
  · rw [if_pos feed]
    exact readPlain_indentation (by rfl) (by omega) visible inLine r
  · simp

end MdxPress.Yaml
