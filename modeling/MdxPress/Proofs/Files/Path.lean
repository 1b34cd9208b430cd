import MdxPress.Files.Path
import MdxPress.Proofs.Text.Part

/-!
The parts of a path, and of the path around it.

* `Text.splitOn_joinWith`: pieces that are joined are cut where they were joined;
* `Path.parent?_cases` is all that the path around a path can be: its parts are those of the path
  without the last, and both paths start at the root or neither does;
* `Path.Covers` says that a path is that of another, or of a folder around it.
-/

namespace MdxPress

/-! ## Pieces -/

section Pieces

variable {sep : Char} {t : Text} {ts : List Text}

theorem Text.splitOn_append_cons (apart : sep ∉ t) (rest : Text) :
    Text.splitOn (· = sep) (t ++ sep :: rest) = t :: Text.splitOn (· = sep) rest := by
  induction t with
  | nil => simp [Text.splitOn]
  | cons c r ih =>
    have other : c ≠ sep := fun same => apart (same ▸ .head _)
    rw [List.cons_append, Text.splitOn, ih fun mem => apart (.tail _ mem)]
    simp [other]

theorem Text.splitOn_of_notMem (apart : sep ∉ t) : Text.splitOn (· = sep) t = [t] := by
  induction t with
  | nil => rfl
  | cons c r ih =>
    have other : c ≠ sep := fun same => apart (same ▸ .head _)
    rw [Text.splitOn, ih fun mem => apart (.tail _ mem)]
    simp [other]

/-- Cutting undoes joining, for pieces without the character between them. -/
theorem Text.splitOn_joinWith (filled : ts ≠ []) (apart : ∀ t ∈ ts, sep ∉ t) :
    Text.splitOn (· = sep) (Text.joinWith [sep] ts) = ts := by
  induction ts with
  | nil => exact absurd rfl filled
  | cons t us ih =>
    cases us with
    | nil => exact Text.splitOn_of_notMem (apart t (.head _))
    | cons u us =>
      rw [Text.joinWith, List.append_assoc, List.singleton_append,
        Text.splitOn_append_cons (apart t (.head _)),
        ih (by simp) fun v mem => apart v (.tail _ mem)]

end Pieces

namespace Path

variable {p q r : Text} {ps : List Text}

/-! ## Parts -/

/-- A part has characters, is no single dot and holds no slash. -/
theorem isPart_of_mem_parts {s : Text} (mem : s ∈ parts p) : s ≠ [] ∧ s ≠ ['.'] ∧ '/' ∉ s := by
  obtain ⟨piece, kept⟩ := List.mem_filter.1 mem
  have shape : s ≠ [] ∧ s ≠ ['.'] := by simpa using kept
  refine ⟨shape.1, shape.2, ?_⟩
  intro slash
  have none_ := Text.splitOn_avoids piece '/' slash
  simp at none_

theorem parts_joinWith (apart : ∀ s ∈ ps, '/' ∉ s) :
    parts (Text.joinWith ['/'] ps) = ps.filter fun s => !s.isEmpty && s != ['.'] := by
  cases ps with
  | nil => rfl
  | cons s ss => rw [parts, Text.splitOn_joinWith (by simp) apart]

/-- Parts that are joined are those of the path. -/
theorem filter_parts (sub : ∀ s ∈ ps, s ∈ parts p) :
    (ps.filter fun s => !s.isEmpty && s != ['.']) = ps := by
  apply List.filter_eq_self.2
  intro s mem
  obtain ⟨filled, noDot, -⟩ := isPart_of_mem_parts (sub s mem)
  simp [filled, noDot]

/-! ## The path around a path -/

theorem isAbsolute_cons (c : Char) (r : Text) : isAbsolute (c :: r) = (c == '/') := by
  simp [isAbsolute, Text.startsWith, List.isPrefixOf, eq_comm]

theorem startsHere_of_isAbsolute (root : isAbsolute p = true) : startsHere p = false := by
  cases p with
  | nil => rfl
  | cons c r =>
    rw [isAbsolute_cons] at root
    simp [startsHere, Text.splitOn, eq_of_beq root]

/-- Joined pieces start at the root only behind an empty first piece. -/
theorem isAbsolute_joinWith {s : Text} (filled : s ≠ []) (apart : '/' ∉ s) (ss : List Text) :
    isAbsolute (Text.joinWith ['/'] (s :: ss)) = false := by
  cases s with
  | nil => exact absurd rfl filled
  | cons c r =>
    have other : c ≠ '/' := fun same => apart (same ▸ .head _)
    cases ss with
    | nil => rw [Text.joinWith, isAbsolute_cons, beq_false_of_ne other]
    | cons u us =>
      rw [Text.joinWith, List.append_assoc, List.cons_append, isAbsolute_cons, beq_false_of_ne other]

/-- The parts of a path that is joined from pieces in front and parts of another path. -/
theorem parts_joinWith_append {front : List Text} (apart : ∀ s ∈ front, '/' ∉ s)
    (skipped : (front.filter fun s => !s.isEmpty && s != ['.']) = [])
    (sub : ∀ s ∈ ps, s ∈ parts p) : parts (Text.joinWith ['/'] (front ++ ps)) = ps := by
  rw [parts_joinWith, List.filter_append, skipped, List.nil_append, filter_parts sub]
  intro s mem
  rcases List.mem_append.1 mem with mem | mem
  · exact apart s mem
  · exact (isPart_of_mem_parts (sub s mem)).2.2

/-- **All that the path around a path can be.** -/
theorem parent?_cases (p : Text) :
    (parent? p = none ∧ parts p = []) ∨
      ∃ around, parent? p = some around ∧ isAbsolute around = isAbsolute p ∧
        parts around = (parts p).dropLast := by
  have sub : ∀ s ∈ (parts p).dropLast, s ∈ parts p := fun s mem => List.dropLast_subset _ mem
  by_cases empty : parts p = []
  · cases here : startsHere p with
    | false => exact .inl ⟨by simp [parent?, empty, here], empty⟩
    | true =>
      have relative : isAbsolute p = false := by
        cases root : isAbsolute p with
        | false => rfl
        | true => rw [startsHere_of_isAbsolute root] at here; cases here
      exact .inr ⟨[], by simp [parent?, empty, here], relative.symm, by rw [empty]; rfl⟩
  · right
    have around (front : List Text) (own : front = if isAbsolute p then [[]]
        else if startsHere p then [['.']] else []) :
        parent? p = if front ++ (parts p).dropLast == [[]] then some ['/']
          else some (Text.joinWith ['/'] (front ++ (parts p).dropLast)) := by
      rw [parent?, if_neg (by simpa using empty), ← own]
    cases root : isAbsolute p with
    | true =>
      rw [around [[]] (by rw [root]; rfl)]
      cases kept : (parts p).dropLast with
      | nil => exact ⟨['/'], rfl, rfl, rfl⟩
      | cons s ss =>
        refine ⟨_, if_neg (by simp), rfl, ?_⟩
        exact parts_joinWith_append (by simp) rfl (kept ▸ sub)
    | false =>
      cases here : startsHere p with
      | true =>
        rw [around [['.']] (by rw [root, here]; rfl)]
        refine ⟨_, if_neg (by simp), isAbsolute_joinWith (by simp) (by decide) _, ?_⟩
        exact parts_joinWith_append (by simp) rfl sub
      | false =>
        rw [around [] (by rw [root, here]; rfl), List.nil_append]
        cases kept : (parts p).dropLast with
        | nil => exact ⟨[], rfl, rfl, rfl⟩
        | cons s ss =>
          obtain ⟨filled, -, apart⟩ := isPart_of_mem_parts (sub s (kept ▸ .head _))
          refine ⟨_, if_neg (by simp [filled]), isAbsolute_joinWith filled apart ss, ?_⟩
          have joined : parts (Text.joinWith ['/'] ([] ++ s :: ss)) = s :: ss :=
            parts_joinWith_append (by simp) rfl (kept ▸ sub)
          exact joined

/-! ## Paths around paths -/

/-- A path that is another or leads to a folder around it, told from the parts that count. -/
def Covers (p q : Text) : Prop :=
  isAbsolute p = isAbsolute q ∧ parts p <+: parts q

instance (p q : Text) : Decidable (Covers p q) :=
  inferInstanceAs (Decidable (_ ∧ _))

/-- A path that has no step to the folder around. -/
def Straight (p : Text) : Prop :=
  ['.', '.'] ∉ parts p

instance (p : Text) : Decidable (Straight p) :=
  inferInstanceAs (Decidable (¬ _))

end Path
end MdxPress
