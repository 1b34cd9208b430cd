import Mathlib.Data.List.Chain
import MdxPress.Text.Scan

/-!
# Searches

What the searches of a text find: a prefix, a cut, a hit.  A pair of characters is searched for by
its two members: `Text.NoPair` says that they are nowhere neighbours, and is kept by every cut.
-/

namespace MdxPress.Text

/-! ## Prefixes and cuts -/

theorem isPrefixOf?_eq_some_iff {sub t rest : Text} :
    sub.isPrefixOf? t = some rest ↔ t = sub ++ rest := by
  induction sub generalizing t with
  | nil => simp [List.isPrefixOf?]
  | cons c sub ih =>
    cases t with
    | nil => simp [List.isPrefixOf?]
    | cons d t =>
      by_cases same : c = d
      · simp [List.isPrefixOf?, same, ih]
      · simp [List.isPrefixOf?, same, Ne.symm same]

theorem dropStart?_append (start rest : Text) : dropStart? start (start ++ rest) = some rest :=
  isPrefixOf?_eq_some_iff.2 rfl

/-- The two sides of a cut, with what was cut out between them. -/
theorem breakOn_append {sub t : Text} {p : Text × Text} (cut : breakOn sub t = some p) :
    p.1 ++ sub ++ p.2 = t := by
  induction t generalizing p with
  | nil =>
    simp only [breakOn, List.isEmpty_iff] at cut
    split at cut
    case isTrue empty => cases cut; simp [empty]
    case isFalse => cases cut
  | cons c r ih =>
    rw [breakOn] at cut
    split at cut
    case h_1 rest starts =>
      cases cut
      exact (isPrefixOf?_eq_some_iff.1 starts).symm
    case h_2 =>
      obtain ⟨q, later, rfl⟩ := Option.map_eq_some_iff.1 cut
      simpa using ih later

/-! ## Last occurrences -/

theorem breakOnLast_append {sub t : Text} {p : Text × Text} (cut : breakOnLast sub t = some p) :
    p.1 ++ sub ++ p.2 = t := by
  induction t generalizing p with
  | nil =>
    simp only [breakOnLast, List.isEmpty_iff] at cut
    split at cut
    case isTrue empty => cases cut; simp [empty]
    case isFalse => cases cut
  | cons c r ih =>
    rw [breakOnLast] at cut
    split at cut
    case h_1 q later =>
      cases cut
      simpa using ih later
    case h_2 =>
      obtain ⟨rest, starts, rfl⟩ := Option.map_eq_some_iff.1 cut
      exact (isPrefixOf?_eq_some_iff.1 starts).symm

theorem breakOnLast_eq_none {sub t : Text} (absent : ¬ sub <:+: t) : breakOnLast sub t = none :=
  Option.eq_none_iff_forall_ne_some.2 fun p cut => absent ⟨p.1, p.2, breakOnLast_append cut⟩

/-- An occurrence is the last one if none begins behind its first character. -/
theorem breakOnLast_of_last {c : Char} {sub rest : Text} (last : ¬ c :: sub <:+: sub ++ rest)
    (before : Text) :
    breakOnLast (c :: sub) (before ++ (c :: sub ++ rest)) = some (before, rest) := by
  induction before with
  | nil =>
    have starts : (c :: sub).isPrefixOf? (c :: (sub ++ rest)) = some rest :=
      isPrefixOf?_eq_some_iff.2 rfl
    rw [List.nil_append, List.cons_append, breakOnLast, breakOnLast_eq_none last]
    simp [starts]
  | cons d before ih => rw [List.cons_append, breakOnLast, ih]

/-- A text is no part of another whose first character stands in it only where the rest is too short. -/
theorem not_infix_of_last {c : Char} {sub a b : Text} (before : c ∉ a) (behind : c ∉ b)
    (short : ¬ sub <+: b) : ¬ c :: sub <:+: a ++ c :: b := by
  induction a with
  | nil =>
    rw [List.nil_append, List.infix_cons_iff, List.cons_prefix_cons]
    rintro (⟨-, starts⟩ | part)
    · exact short starts
    · exact behind (part.mem (.head _))
  | cons d a ih =>
    rw [List.cons_append, List.infix_cons_iff, List.cons_prefix_cons]
    rintro (⟨same, -⟩ | part)
    · exact before (same ▸ .head _)
    · exact ih (fun mem => before (.tail _ mem)) part

/-! ## Pairs of characters -/

/-- A character is nowhere followed by another. -/
def NoPair (x y : Char) (t : Text) : Prop :=
  t.IsChain fun a b => ¬ (a = x ∧ b = y)

instance (x y : Char) (t : Text) : Decidable (NoPair x y t) :=
  inferInstanceAs (Decidable (List.IsChain _ t))

section NoPair

variable {x y : Char} {t u : Text}

theorem noPair_append : NoPair x y (t ++ u) ↔
    NoPair x y t ∧ NoPair x y u ∧ ¬ (t.getLast? = some x ∧ u.head? = some y) := by
  simp only [NoPair, List.isChain_append, Option.mem_def]
  refine and_congr_right fun _ => and_congr_right fun _ => ⟨?_, ?_⟩
  · rintro apart ⟨last, head⟩
    exact apart x last y head ⟨rfl, rfl⟩
  · rintro apart a last b head ⟨rfl, rfl⟩
    exact apart ⟨last, head⟩

theorem NoPair.append (left : NoPair x y t) (right : NoPair x y u)
    (apart : t.getLast? ≠ some x ∨ u.head? ≠ some y) : NoPair x y (t ++ u) :=
  noPair_append.2 ⟨left, right, fun both => apart.elim (· both.1) (· both.2)⟩

theorem NoPair.of_part (apart : NoPair x y t) (part : u <:+: t) : NoPair x y u := by
  obtain ⟨s, r, rfl⟩ := part
  exact (noPair_append.1 (noPair_append.1 apart).1).2.1

/-- The first member of a pair makes none behind a text. -/
theorem NoPair.concat (apart : NoPair x y t) (differ : x ≠ y) : NoPair x y (t ++ [x]) :=
  apart.append (.singleton x) (.inr (by simpa using differ))

/-- No pair in a text and the character behind it: none begins with the first character of the text. -/
theorem NoPair.of_cons {c : Char} {rest : Text} (apart : NoPair x y (c :: (t ++ rest.head?.toList))) :
    (c = x → (t ++ rest).head? ≠ some y) ∧ NoPair x y (t ++ rest.head?.toList) := by
  obtain ⟨neighbour, later⟩ := List.isChain_cons.1 apart
  have head : (t ++ rest).head? = (t ++ rest.head?.toList).head? := by
    cases t <;> cases rest <;> rfl
  exact ⟨fun first next => neighbour y (head ▸ next) ⟨first, rfl⟩, later⟩

theorem noPair_of_not_mem (absent : x ∉ t ∨ y ∉ t) : NoPair x y t := by
  induction t with
  | nil => exact .nil
  | cons c t ih =>
    have rest : NoPair x y t := ih (absent.imp (· ∘ .tail _) (· ∘ .tail _))
    refine List.isChain_cons.2 ⟨?_, rest⟩
    rintro b head ⟨rfl, rfl⟩
    exact absent.elim (· (.head _)) (· (.tail _ (List.mem_of_mem_head? head)))

/-- Texts that do not begin with the second member of a pair make none where they meet. -/
theorem NoPair.flatMap_texts {α : Type} {f : α → Text} {xs : List α}
    (each : ∀ a ∈ xs, NoPair x y (f a)) (starts : ∀ a ∈ xs, (f a).head? ≠ some y) :
    NoPair x y (xs.flatMap f) ∧ (xs.flatMap f).head? ≠ some y := by
  induction xs with
  | nil => exact ⟨.nil, by simp⟩
  | cons a xs ih =>
    obtain ⟨rest, head⟩ := ih (fun b mem => each b (.tail _ mem)) fun b mem =>
      starts b (.tail _ mem)
    rw [List.flatMap_cons]
    refine ⟨(each a (.head _)).append rest (.inr head), ?_⟩
    have own := starts a (.head _)
    rw [List.head?_append]
    cases first : (f a).head? with
    | none => simpa using head
    | some c => simpa [first] using own

end NoPair

/-- The first occurrence of a pair that stands at the end of a text and nowhere before it. -/
theorem breakOn_pair {x y : Char} {t : Text} (apart : NoPair x y t) (differ : x ≠ y)
    (rest : Text) : breakOn [x, y] (t ++ x :: y :: rest) = some (t, rest) := by
  induction t with
  | nil => simp [breakOn, List.isPrefixOf?]
  | cons c t ih =>
    obtain ⟨neighbour, later⟩ := List.isChain_cons.1 apart
    have other : List.isPrefixOf? [x, y] (c :: (t ++ x :: y :: rest)) = none := by
      rw [Option.eq_none_iff_forall_ne_some]
      intro r starts
      have start := isPrefixOf?_eq_some_iff.1 starts
      cases t with
      | nil => simp at start; exact differ start.2.1
      | cons d t => simp at start; exact neighbour d rfl ⟨start.1, start.2.1⟩
    rw [List.cons_append, breakOn, other, ih later]
    rfl

/-- The first occurrence of a pair has none before it. -/
theorem noPair_of_breakOn {x y : Char} {t : Text} {p : Text × Text}
    (cut : breakOn [x, y] t = some p) : NoPair x y p.1 := by
  induction t generalizing p with
  | nil => cases cut
  | cons c r ih =>
    rw [breakOn] at cut
    split at cut
    case h_1 => cases cut; exact .nil
    case h_2 other =>
      obtain ⟨q, later, rfl⟩ := Option.map_eq_some_iff.1 cut
      refine List.isChain_cons.2 ⟨?_, ih later⟩
      rintro d head ⟨rfl, rfl⟩
      have text := breakOn_append later
      obtain ⟨u, same⟩ : ∃ u, q.1 = d :: u := by
        cases cut : q.1 with
        | nil => rw [cut] at head; cases head
        | cons e u => rw [cut] at head; cases head; exact ⟨u, rfl⟩
      rw [same] at text
      have starts : List.isPrefixOf? [c, d] (c :: r) = some (u ++ [c, d] ++ q.2) :=
        isPrefixOf?_eq_some_iff.2 (by rw [← text]; simp)
      rw [starts] at other
      cases other

/-- A pair is not found exactly when it stands nowhere. -/
theorem breakOn_eq_none_iff {x y : Char} {t : Text} : breakOn [x, y] t = none ↔ NoPair x y t := by
  constructor
  · intro absent
    induction t with
    | nil => exact .nil
    | cons c r ih =>
      rw [breakOn] at absent
      split at absent
      case h_1 => cases absent
      case h_2 other =>
        refine List.isChain_cons.2 ⟨?_, ih (Option.map_eq_none_iff.1 absent)⟩
        rintro d head ⟨rfl, rfl⟩
        obtain ⟨u, rfl⟩ := List.head?_eq_some_iff.1 head
        have starts : List.isPrefixOf? [c, d] (c :: d :: u) = some u := isPrefixOf?_eq_some_iff.2 rfl
        rw [starts] at other
        cases other
  · intro apart
    rw [Option.eq_none_iff_forall_ne_some]
    intro p cut
    rw [← breakOn_append cut] at apart
    have pair := apart.of_part (List.infix_append p.1 [x, y] p.2)
    simp [NoPair] at pair

/-! ## Hits -/

/-- A hit is a place where the rule applies. -/
theorem exists_of_mem_hitsFrom {α : Type} {rule : Text → Option (α × Nat)} {pos skip : Nat}
    {t : Text} {h : Hit α} (mem : h ∈ hitsFrom rule pos skip t) :
    ∃ (before rest : Text) (n : Nat), t = before ++ rest ∧ h.start = pos + before.length ∧
      h.stop = h.start + n ∧ rule rest = some (h.value, n) := by
  induction t generalizing pos skip with
  | nil => cases skip <;> cases mem
  | cons c r ih =>
    have later : ∀ {skip}, h ∈ hitsFrom rule (pos + 1) skip r →
        ∃ (before rest : Text) (n : Nat), c :: r = before ++ rest ∧
          h.start = pos + before.length ∧ h.stop = h.start + n ∧ rule rest = some (h.value, n) := by
      intro skip mem
      obtain ⟨before, rest, n, rfl, start, stop, applies⟩ := ih mem
      exact ⟨c :: before, rest, n, rfl, by rw [start, List.length_cons]; omega, stop, applies⟩
    cases skip with
    | succ skip => exact later mem
    | zero =>
      rw [hitsFrom] at mem
      split at mem
      case h_1 v n applies =>
        rcases List.mem_cons.1 mem with rfl | mem
        · exact ⟨[], c :: r, n, rfl, rfl, rfl, applies⟩
        · exact later mem
      case h_2 => exact later mem

/-- A rule that applies nowhere hits nothing. -/
theorem hitsFrom_eq_nil {α : Type} {rule : Text → Option (α × Nat)} {pos : Nat} {t : Text}
    (nowhere : ∀ u, u <:+ t → u ≠ [] → rule u = none) : hitsFrom rule pos 0 t = [] := by
  induction t generalizing pos with
  | nil => rfl
  | cons c r ih =>
    rw [hitsFrom, nowhere _ (List.suffix_refl _) (by simp)]
    exact ih fun u part => nowhere u (part.trans (List.suffix_cons c r))

/-- Characters that are covered already are passed over. -/
theorem hitsFrom_covered {α : Type} (rule : Text → Option (α × Nat)) (pos : Nat) {skip : Nat}
    {t : Text} (covered : t.length ≤ skip) : hitsFrom rule pos skip t = [] := by
  induction t generalizing pos skip with
  | nil => cases skip <;> rfl
  | cons c r ih =>
    cases skip with
    | zero => simp at covered
    | succ skip => exact ih (pos + 1) (by simpa using covered)

/-- Characters that are covered already may as well be absent. -/
theorem hitsFrom_drop {α : Type} (rule : Text → Option (α × Nat)) (pos skip : Nat) (t : Text) :
    hitsFrom rule pos skip t = hitsFrom rule (pos + skip) 0 (t.drop skip) := by
  induction t generalizing pos skip with
  | nil => cases skip <;> rfl
  | cons c r ih =>
    cases skip with
    | zero => rfl
    | succ skip =>
      have shift : pos + (skip + 1) = pos + 1 + skip := by omega
      rw [List.drop_succ_cons, shift]
      exact ih (pos + 1) skip

theorem rewriteFrom_drop (rule : Text → Option (Text × Nat)) (skip : Nat) (t : Text) :
    rewriteFrom rule skip t = rewrite rule (t.drop skip) := by
  induction t generalizing skip with
  | nil => cases skip <;> rfl
  | cons c r ih =>
    cases skip with
    | zero => rfl
    | succ skip => exact ih skip

/-- **A text is rewritten by itself**, whatever stands before it, if every application of the rule that
begins before it ends there. -/
theorem exists_rewriteFrom_append {rule : Text → Option (Text × Nat)} {w t : Text}
    (stops : ∀ u, u <:+ w → u ≠ [] → ∀ new n, rule (u ++ t) = some (new, n) → n ≤ u.length)
    {skip : Nat} (within : skip ≤ w.length) :
    ∃ x, rewriteFrom rule skip (w ++ t) = x ++ rewrite rule t := by
  induction w generalizing skip with
  | nil =>
    obtain rfl : skip = 0 := by simpa using within
    exact ⟨[], rfl⟩
  | cons c w ih =>
    have later := @ih fun u part => stops u (part.trans (List.suffix_cons c w))
    cases skip with
    | succ skip => exact later (by simpa using within)
    | zero =>
      rw [List.cons_append, rewriteFrom]
      split
      case h_1 new n applies =>
        have covered := stops (c :: w) (List.suffix_refl _) (by simp) new n applies
        rw [List.length_cons] at covered
        obtain ⟨x, same⟩ := @later (n - 1) (by omega)
        exact ⟨new ++ x, by rw [same, List.append_assoc]⟩
      case h_2 =>
        obtain ⟨x, same⟩ := @later 0 (Nat.zero_le _)
        exact ⟨c :: x, by rw [same]; rfl⟩

theorem rewriteFrom_eq_self {rule : Text → Option (Text × Nat)} {t : Text}
    (nowhere : ∀ u, u <:+ t → u ≠ [] → rule u = none) : rewriteFrom rule 0 t = t := by
  induction t with
  | nil => rfl
  | cons c r ih =>
    rw [rewriteFrom, nowhere _ (List.suffix_refl _) (by simp)]
    simp [ih fun u part => nowhere u (part.trans (List.suffix_cons c r))]

/-! ## Replacing -/

section Replace

variable (old new : Text)

theorem replaceFrom_eq_drop (skip : Nat) (t : Text) :
    replaceFrom old new skip t = replace old new (t.drop skip) := by
  induction t generalizing skip with
  | nil => cases skip <;> rfl
  | cons c r ih =>
    cases skip with
    | zero => rfl
    | succ skip => exact ih skip

variable {old}

theorem replace_append (filled : old ≠ []) (rest : Text) :
    replace old new (old ++ rest) = new ++ replace old new rest := by
  obtain ⟨c, r, rfl⟩ := List.exists_cons_of_ne_nil filled
  have starts : (c :: r).isPrefixOf (c :: (r ++ rest)) = true :=
    List.isPrefixOf_iff_prefix.2 (List.prefix_append (c :: r) rest)
  rw [List.cons_append, replace, replaceFrom, if_pos starts, replaceFrom_eq_drop, List.length_cons,
    Nat.add_sub_cancel, List.drop_left]

theorem replace_cons {c : Char} {t : Text} (absent : ¬ old <+: c :: t) :
    replace old new (c :: t) = c :: replace old new t := by
  rw [replace, replaceFrom, if_neg (mt List.isPrefixOf_iff_prefix.1 absent), replace]

end Replace

end MdxPress.Text
