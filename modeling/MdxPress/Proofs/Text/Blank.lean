import Mathlib.Data.List.TakeWhile
import MdxPress.Text.Blank

/-!
# Trimmed texts

What trimming keeps: every character that is no blank, in its order.
-/

namespace MdxPress.Text

theorem contains_iff {t sub : Text} : t.contains sub = true ↔ sub <:+: t := by
  induction t with
  | nil => simp [contains]
  | cons c t ih => rw [contains, Bool.or_eq_true, ih, List.isPrefixOf_iff_prefix, List.infix_cons_iff]

theorem contains_singleton {t : Text} {c : Char} : t.contains [c] = true ↔ c ∈ t := by
  induction t with
  | nil => simp [contains]
  | cons d t ih => simp [contains, ih]

theorem dropEndWhile_append_mem (p : Char → Bool) (t : Text) :
    ∃ tail : Text, t = dropEndWhile p t ++ tail ∧ ∀ c ∈ tail, p c = true := by
  induction t with
  | nil => exact ⟨[], rfl, by simp⟩
  | cons c r ih =>
    obtain ⟨tail, cut, all⟩ := ih
    rw [dropEndWhile]
    split
    · rename_i empty
      rw [empty, List.nil_append] at cut
      subst cut
      split
      · exact ⟨c :: r, rfl, by simp_all⟩
      · exact ⟨r, rfl, all⟩
    · rename_i d s kept
      exact ⟨tail, by rw [← kept, List.cons_append, ← cut], all⟩

/-- What is left at the end of a text, when characters are taken off there, is no such character. -/
theorem getLast?_dropEndWhile {p : Char → Bool} {t : Text} {c : Char}
    (last : (dropEndWhile p t).getLast? = some c) : p c = false := by
  induction t with
  | nil => cases last
  | cons d t ih =>
    rw [dropEndWhile] at last
    cases rest : dropEndWhile p t with
    | nil =>
      rw [rest] at last
      by_cases gone : p d = true
      · simp [gone] at last
      · obtain rfl : d = c := by simpa [gone] using last
        simpa using gone
    | cons x xs =>
      rw [rest] at last ih
      exact ih (by simpa [List.getLast?_cons] using last)

theorem mem_trimEnd {t : Text} {c : Char} (visible : isBlank c = false) :
    c ∈ t.trimEnd ↔ c ∈ t := by
  obtain ⟨tail, cut, all⟩ := dropEndWhile_append_mem isBlank t
  have outside : c ∉ tail := fun mem => by simp [all c mem] at visible
  calc c ∈ t.trimEnd
      ↔ c ∈ t.trimEnd ++ tail := by rw [List.mem_append, or_iff_left outside]
    _ ↔ c ∈ t := by rw [trimEnd, ← cut]

theorem mem_trimStart {t : Text} {c : Char} (visible : isBlank c = false) :
    c ∈ t.trimStart ↔ c ∈ t := by
  have outside : c ∉ t.takeWhile isBlank := fun mem => by
    simp [List.all_eq_true.1 List.all_takeWhile c mem] at visible
  calc c ∈ t.dropWhile isBlank
      ↔ c ∈ t.takeWhile isBlank ++ t.dropWhile isBlank := by
        rw [List.mem_append, or_iff_right outside]
    _ ↔ c ∈ t := by rw [List.takeWhile_append_dropWhile]

theorem mem_trim {t : Text} {c : Char} (visible : isBlank c = false) : c ∈ t.trim ↔ c ∈ t := by
  rw [trim, mem_trimStart visible, mem_trimEnd visible]

theorem isBlank_of_mem_indentation {t : Text} {c : Char} (mem : c ∈ t.indentation) : isBlank c = true :=
  List.mem_takeWhile_imp mem

theorem indentation_append_trimStart (t : Text) : t.indentation ++ t.trimStart = t :=
  List.takeWhile_append_dropWhile

/-! ## Texts with nothing to trim -/

theorem dropEndWhile_append {p : Char → Bool} (t : Text) {tail : Text}
    (all : ∀ c ∈ tail, p c = true) : dropEndWhile p (t ++ tail) = dropEndWhile p t := by
  induction t with
  | nil =>
    induction tail with
    | nil => rfl
    | cons c tail ih =>
      have rest : dropEndWhile p tail = [] := ih fun d mem => all d (.tail _ mem)
      simp [dropEndWhile, rest, all c (.head _)]
  | cons c t ih => simp [dropEndWhile, ih]

theorem dropEndWhile_eq_self {p : Char → Bool} {t : Text} {c : Char}
    (last : t.getLast? = some c) (stays : p c = false) : dropEndWhile p t = t := by
  induction t with
  | nil => cases last
  | cons d t ih =>
    cases t with
    | nil =>
      obtain rfl : d = c := by simpa using last
      simp [dropEndWhile, stays]
    | cons e t =>
      have rest : dropEndWhile p (e :: t) = e :: t := ih (by simpa using last)
      simp [dropEndWhile] at rest ⊢
      simp [rest]

theorem trimEnd_trimEnd (t : Text) : t.trimEnd.trimEnd = t.trimEnd := by
  cases last : t.trimEnd.getLast? with
  | none =>
    rw [List.getLast?_eq_none_iff.1 last]
    rfl
  | some c => exact dropEndWhile_eq_self last (getLast?_dropEndWhile last)

theorem trimStart_append {before : Text} (blank : ∀ c ∈ before, isBlank c = true) (t : Text) :
    trimStart (before ++ t) = trimStart t :=
  List.dropWhile_append_of_pos blank

theorem trimStart_eq_self {t : Text} {c : Char} (first : t.head? = some c)
    (visible : isBlank c = false) : t.trimStart = t := by
  obtain ⟨r, rfl⟩ : ∃ r, t = c :: r := by
    cases t with
    | nil => cases first
    | cons d r => cases first; exact ⟨r, rfl⟩
  simp [trimStart, visible]

theorem trim_of_allBlank {t : Text} (blank : t.allBlank = true) : t.trim = [] := by
  have all : trimEnd ([] ++ t) = trimEnd [] := dropEndWhile_append [] (List.all_eq_true.1 blank)
  rw [List.nil_append] at all
  rw [trim, all]
  rfl

/-- A text between blanks, when no blank stands at either of its ends. -/
theorem trim_between {before t behind : Text} {c d : Char} (left : ∀ b ∈ before, isBlank b = true)
    (right : ∀ b ∈ behind, isBlank b = true) (first : t.head? = some c)
    (visible : isBlank c = false) (last : t.getLast? = some d) (ends : isBlank d = false) :
    trim (before ++ t ++ behind) = t := by
  have stop : (before ++ t).getLast? = some d := by
    rw [List.getLast?_append, last]
    rfl
  rw [trim, trimEnd, dropEndWhile_append _ right, dropEndWhile_eq_self stop ends, trimStart,
    List.dropWhile_append_of_pos left]
  exact trimStart_eq_self first visible

theorem trimStart_eq_nil_iff {t : Text} : t.trimStart = [] ↔ ∀ c ∈ t, isBlank c = true :=
  List.dropWhile_eq_nil_iff

theorem trimStart_of_visible {c : Char} (visible : isBlank c = false) (t : Text) :
    trimStart (c :: t) = c :: t :=
  trimStart_eq_self rfl visible

theorem trimStart_trimStart (t : Text) : t.trimStart.trimStart = t.trimStart := by
  induction t with
  | nil => rfl
  | cons c t ih =>
    cases blank : isBlank c
    · rw [trimStart_of_visible blank, trimStart_of_visible blank]
    · have step : trimStart (c :: t) = trimStart t := List.dropWhile_cons_of_pos blank
      rw [step]
      exact ih

theorem trimStart_append_of_filled {t : Text} (filled : t.trimStart ≠ []) (u : Text) :
    trimStart (t ++ u) = trimStart t ++ u := by
  rw [trimStart, List.dropWhile_append, if_neg (by simpa [trimStart] using filled)]
  rfl

theorem dropEndWhile_append_of_filled {p : Char → Bool} (t : Text) {u : Text}
    (filled : dropEndWhile p u ≠ []) : dropEndWhile p (t ++ u) = t ++ dropEndWhile p u := by
  induction t with
  | nil => rfl
  | cons c t ih =>
    rw [List.cons_append, dropEndWhile, ih]
    cases same : t ++ dropEndWhile p u with
    | nil => exact (filled (List.append_eq_nil_iff.1 same).2).elim
    | cons d r => rw [List.cons_append, same]

theorem trimEnd_append_of_filled (t : Text) {u : Text} (filled : u.trimEnd ≠ []) :
    trimEnd (t ++ u) = t ++ trimEnd u :=
  dropEndWhile_append_of_filled t filled

theorem trimEnd_append_of_blank (t : Text) {u : Text} (blank : u.trimEnd = []) :
    trimEnd (t ++ u) = trimEnd t := by
  obtain ⟨tail, cut, all⟩ := dropEndWhile_append_mem isBlank u
  rw [← trimEnd, blank, List.nil_append] at cut
  subst cut
  exact dropEndWhile_append t all

/-- Nothing is taken off before the last character that is no blank. -/
theorem trimEnd_append_of_visible {w : Text} {c : Char} (last : w.getLast? = some c)
    (visible : isBlank c = false) (t : Text) : trimEnd (w ++ t) = w ++ trimEnd t := by
  by_cases gone : t.trimEnd = []
  · rw [trimEnd_append_of_blank w gone, gone, List.append_nil]
    exact dropEndWhile_eq_self last visible
  · exact trimEnd_append_of_filled w gone

/-! ## Trimming what blanks stand around -/

theorem trim_append_blank (t : Text) {blanks : Text} (blank : ∀ c ∈ blanks, isBlank c = true) :
    trim (t ++ blanks) = trim t := by
  rw [trim, trimEnd, dropEndWhile_append t blank]
  rfl

theorem trim_blank_append {blanks : Text} (blank : ∀ c ∈ blanks, isBlank c = true) (t : Text) :
    trim (blanks ++ t) = trim t := by
  by_cases nothing : t.trimEnd = []
  · have all : ∀ c ∈ blanks, isBlank c = true := blank
    have gone : trimEnd blanks = [] := by
      have whole := dropEndWhile_append ([] : Text) all
      rwa [List.nil_append] at whole
    rw [trim, trim, trimEnd_append_of_blank blanks nothing, gone, nothing]
  · rw [trim, trimEnd_append_of_filled blanks nothing, trimStart,
      List.dropWhile_append_of_pos blank]
    rfl

end MdxPress.Text
