import MdxPress.Proofs.Yaml.Entry
import MdxPress.Yaml.Value.Render

/-!
What is written of a mapping begins with its first key, or with the mark before it: never with a gap
or a comment.

* `Mapping.isVisible_render` is the mapping of a document.
-/

namespace MdxPress.Yaml

/-! ## First characters -/

theorem isVisible_append {t : Text} (visible : isVisible t = true) (u : Text) :
    isVisible (t ++ u) = true := by
  cases t with
  | nil => cases visible
  | cons c t => exact visible

theorem isVisible_of_digits {t : Text} (digits : ∀ c ∈ t, c.isDigit = true) (filled : t ≠ []) :
    isVisible t = true := by
  obtain ⟨c, r, rfl⟩ := List.exists_cons_of_ne_nil filled
  have digit := digits c (.head _)
  have other {d : Char} (sign : d.isDigit = false) : c ≠ d := by
    rintro rfl
    rw [digit] at sign
    cases sign
  have bounds : 48 ≤ c.toNat ∧ c.toNat ≤ 57 := by
    simp only [Char.isDigit, Bool.and_eq_true, decide_eq_true_eq] at digit
    exact digit
  have next : c.toNat ≠ 0x85 ∧ c.toNat ≠ 0x2028 ∧ c.toNat ≠ 0x2029 ∧ c.toNat ≠ 0xFEFF := by omega
  have blank : c ≠ ' ' ∧ c ≠ '\t' ∧ c ≠ '\n' ∧ c ≠ '\r' ∧ c ≠ '#' :=
    ⟨other (by decide), other (by decide), other (by decide), other (by decide), other (by decide)⟩
  simp [isVisible, isSpace, isBreak, next, blank]

theorem isVisible_ofNat (n : Nat) : isVisible (Text.ofNat n) = true :=
  isVisible_of_digits (fun _ mem => Nat.isDigit_of_mem_toDigits (by decide) (by decide) mem)
    Nat.toDigits_ne_nil

theorem isVisible_ofInt (n : Int) : isVisible (Text.ofInt n) = true := by
  unfold Text.ofInt
  split
  · rfl
  · exact isVisible_ofNat _

theorem isVisible_take {t : Text} (visible : isVisible t = true) {n : Nat} (filled : 0 < n) :
    isVisible (t.take n) = true := by
  cases t with
  | nil => cases visible
  | cons c t =>
    obtain ⟨n, rfl⟩ : ∃ k, n = k + 1 := ⟨n - 1, by omega⟩
    exact visible

theorem isVisible_renderDecimal (f : DecimalFormat) (d : Decimal) : isVisible (d.render f) = true := by
  have digits := isVisible_ofNat d.digits
  simp only [Decimal.render]
  split
  · exact isVisible_append (isVisible_append digits _) _
  · split
    · rename_i point
      simp only [Bool.and_eq_true, decide_eq_true_eq] at point
      exact isVisible_append (isVisible_take digits (by omega)) _
    · split
      · exact isVisible_append (isVisible_append rfl _) _
      · exact isVisible_append (isVisible_append (isVisible_take digits Nat.one_pos) _) _

theorem isVisible_renderBinary (f : Binary) : isVisible f.render = true := by
  unfold Binary.render
  split
  · rename_i negative m e
    have magnitude : isVisible (if m = 0 then "0.0".toList
        else (Decimal.shortest m e).render .header) = true := by
      split
      · rfl
      · exact isVisible_renderDecimal _ _
    cases negative
    · exact magnitude
    · rfl
  · split <;> rfl
  · rfl

/-- A string without quotation marks shows its first character. -/
theorem isVisible_of_plain {t : Text} (text : Plain.isText t = true)
    (allows : (Shape.ofText t).allowsPlain = true) : isVisible t = true := by
  cases t with
  | nil => exact absurd text (by decide +kernel)
  | cons c r =>
    simp only [Shape.allowsPlain, Shape.ofText, Bool.and_eq_true, Bool.not_eq_true',
      Bool.or_eq_false_iff] at allows
    obtain ⟨⟨⟨⟨⟨first, -⟩, -⟩, printable, -⟩, -⟩, ⟨-, leads⟩, -⟩ := allows
    obtain ⟨noSpace, noBreak⟩ : c ≠ ' ' ∧ isBreak c = false := by simpa [isPlainSpace] using first
    have printed : isPrintable c = true :=
      List.all_eq_true.1 (by simpa using printable) c (.head _)
    have noTab : c ≠ '\t' := by rintro rfl; cases printed
    have noMark : c.toNat ≠ 0xFEFF := by
      intro same
      simp [isPrintable, same] at printed
    have noComment : c ≠ '#' := by
      rintro rfl
      cases leads
    simp [isVisible, isSpace, noSpace, noTab, noBreak, noComment, noMark]

/-- What a style without quotation marks asks of a string. -/
theorem Style.of_plain {isKey : Bool} {t : Text} (plain : Style.ofText isKey t = .plain) :
    Plain.isText t = true ∧ (Shape.ofText t).allowsPlain = true := by
  simp only [Style.ofText] at plain
  split at plain
  · split at plain <;> cases plain
  · split at plain
    · cases plain
    · split at plain
      · rename_i both
        exact Bool.and_eq_true_iff.1 both
      · split at plain <;> cases plain

theorem isVisible_renderString (isKey : Bool) (column : Nat) (t : Text) :
    isVisible (renderString isKey column t) = true := by
  unfold renderString
  cases style : Style.ofText isKey t with
  | plain =>
    obtain ⟨text, allows⟩ := Style.of_plain style
    exact isVisible_of_plain text allows
  | single | double | block => rfl

/-! ## Keys -/

namespace Value

theorem isVisible_scalar {isKey : Bool} {column : Nat} {v : Value} {t : Text}
    (scalar : v.scalar? isKey column = some t) : isVisible t = true := by
  cases v with
  | null => cases scalar; rfl
  | bool b => cases scalar; cases b <;> rfl
  | int n => cases scalar; exact isVisible_ofInt n
  | float f => cases scalar; exact isVisible_renderBinary f
  | string s => cases scalar; exact isVisible_renderString isKey column s
  | sequence items =>
    cases items with
    | nil => cases scalar; rfl
    | cons => cases scalar
  | mapping entries =>
    cases entries with
    | nil => cases scalar; rfl
    | cons => cases scalar
  | tagged => cases scalar

theorem isVisible_simpleKey {tag : Option Text} {v : Value} {t : Text}
    (key : v.simpleKey? tag = some t) : isVisible t = true := by
  simp only [simpleKey?] at key
  split at key
  · cases key
  · obtain ⟨u, scalar, rfl⟩ := Option.map_eq_some_iff.1 key
    cases tag with
    | none => exact isVisible_scalar scalar
    | some tag => rfl

theorem isVisible_lineKey {v : Value} {t : Text} (key : v.lineKey? = some t) : isVisible t = true := by
  unfold lineKey? at key
  split at key <;> exact isVisible_simpleKey key

end Value

/-! ## Mappings -/

theorem isVisible_endLine {t : Text} (visible : isVisible t = true) : isVisible (endLine t) = true := by
  unfold endLine
  split
  · exact visible
  · exact isVisible_append visible _

theorem isVisible_stack {t : Text} (visible : isVisible t = true) (column : Nat) (ls : List Text) :
    isVisible (stack column t ls) = true := by
  induction ls generalizing t with
  | nil => exact visible
  | cons l ls ih => exact ih (isVisible_append (isVisible_append (isVisible_endLine visible) _) _)

theorem isVisible_renderEntries {column : Nat} {m : Mapping} {l : Text} {ls : List Text}
    (lines : Value.renderEntries column m = l :: ls) : isVisible l = true := by
  cases m with
  | nil => cases lines
  | cons e m =>
    obtain ⟨k, v⟩ := e
    rw [Value.renderEntries, List.cons.injEq] at lines
    obtain ⟨rfl, -⟩ := lines
    split
    · rename_i key
      exact isVisible_append (Value.isVisible_lineKey key) _
    · exact isVisible_stack rfl _ _

/-- **What is written of a mapping begins with a visible character.** -/
theorem Mapping.isVisible_render {m : Mapping} {t : Text} (written : m.render = .ok t) :
    isVisible t = true := by
  unfold Mapping.render at written
  split at written
  · cases written
  · split at written
    · cases written; rfl
    · rename_i lines
      cases written
      exact isVisible_endLine (isVisible_stack (isVisible_renderEntries lines) _ _)

end MdxPress.Yaml
