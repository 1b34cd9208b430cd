import MdxPress.Proofs.Text.Edge
import MdxPress.Text.Scan

/-!
A text that a rule rewrites, piece by piece: characters that are kept, and stretches for which the rule
puts a text of its own.  A piece knows both sides, so what stands around a rewritten stretch can be read
off the text before and off the text after.

* `Text.pieces` cuts a text at the places where a rule applies;
* `Text.source_pieces` and `Text.target_pieces` are its two sides, the text and its rewriting;
* `Text.pieces_cases` is the induction on them: no place at all, or a first one and the rest;
* `Text.ended_pieces` says when the line feed at the end of a text is kept.
-/

namespace MdxPress.Text

/-- A piece of a text that is rewritten. -/
inductive Piece where
  /-- A character that stays. -/
  | kept (c : Char)
  /-- A stretch, and what is put for it. -/
  | put (old new : Text)
  deriving DecidableEq, Repr

namespace Piece

/-- What a piece was. -/
def old : Piece → Text
  | kept c => [c]
  | put old _ => old

/-- What a piece becomes. -/
def new : Piece → Text
  | kept c => [c]
  | put _ new => new

/-- The text that pieces were cut from. -/
def source (ps : List Piece) : Text :=
  ps.flatMap old

/-- The text that pieces become. -/
def target (ps : List Piece) : Text :=
  ps.flatMap new

section Sides

variable (ps qs : List Piece) (t old new : Text)

@[simp]
theorem source_nil : source [] = [] :=
  rfl

@[simp]
theorem target_nil : target [] = [] :=
  rfl

@[simp]
theorem source_append : source (ps ++ qs) = source ps ++ source qs :=
  List.flatMap_append

@[simp]
theorem target_append : target (ps ++ qs) = target ps ++ target qs :=
  List.flatMap_append

@[simp]
theorem source_put : source (put old new :: ps) = old ++ source ps :=
  rfl

@[simp]
theorem target_put : target (put old new :: ps) = new ++ target ps :=
  rfl

@[simp]
theorem source_map_kept : source (t.map kept) = t := by
  induction t with
  | nil => rfl
  | cons c t ih => simpa [source, Piece.old] using ih

@[simp]
theorem target_map_kept : target (t.map kept) = t := by
  induction t with
  | nil => rfl
  | cons c t ih => simpa [target, Piece.new] using ih

end Sides

/-- No stretch stands among characters that are kept. -/
theorem map_kept_ne_append_put {t old new : Text} {a b : List Piece} :
    t.map kept ≠ a ++ put old new :: b := by
  intro same
  have mem : put old new ∈ t.map kept := same ▸ List.mem_append_right _ (.head _)
  obtain ⟨c, -, ⟨⟩⟩ := List.mem_map.1 mem

/-- A stretch among pieces put together stands among the first or among the second. -/
theorem append_eq_append_put {ps qs a b : List Piece} {old new : Text}
    (split : ps ++ qs = a ++ put old new :: b) :
    (∃ b', ps = a ++ put old new :: b' ∧ b = b' ++ qs) ∨
      ∃ a', qs = a' ++ put old new :: b ∧ a = ps ++ a' := by
  rcases List.append_eq_append_iff.1 split with ⟨a', rfl, rest⟩ | ⟨b', first, rest⟩
  · exact .inr ⟨a', rest, rfl⟩
  · cases b' with
    | nil => exact .inr ⟨[], rest.symm, by simpa using first.symm⟩
    | cons p b' =>
      obtain ⟨rfl, rfl⟩ := List.cons.inj rest
      exact .inl ⟨b', first, rfl⟩

/-- Pieces are all kept, or a last stretch stands among them. -/
theorem kept_or_last (ps : List Piece) :
    (∃ t : Text, ps = t.map kept) ∨
      ∃ (a : List Piece) (old new t : Text), ps = a ++ put old new :: t.map kept := by
  induction ps with
  | nil => exact .inl ⟨[], rfl⟩
  | cons p ps ih =>
    rcases ih with ⟨t, rfl⟩ | ⟨a, old, new, t, rfl⟩
    · cases p with
      | kept c => exact .inl ⟨c :: t, rfl⟩
      | put old new => exact .inr ⟨[], old, new, t, rfl⟩
    · exact .inr ⟨p :: a, old, new, t, rfl⟩

/-- Pieces are all kept, or a first stretch stands among them. -/
theorem kept_or_first (ps : List Piece) :
    (∃ t : Text, ps = t.map kept) ∨
      ∃ (t old new : Text) (b : List Piece), ps = t.map kept ++ put old new :: b := by
  induction ps with
  | nil => exact .inl ⟨[], rfl⟩
  | cons p ps ih =>
    cases p with
    | put old new => exact .inr ⟨[], old, new, ps, rfl⟩
    | kept c =>
      rcases ih with ⟨t, rfl⟩ | ⟨t, old, new, b, rfl⟩
      · exact .inl ⟨c :: t, rfl⟩
      · exact .inr ⟨c :: t, old, new, b, rfl⟩

/-! ## Whole lines -/

/-- Pieces of whole lines: the last of them is the line feed that ends the last line. -/
def Ended (ps : List Piece) : Prop :=
  ps = [] ∨ ∃ qs, ps = qs ++ [Piece.kept '\n']

section Ended

variable {ps : List Piece}

theorem Ended.endsLine_source (ended : Ended ps) : (source ps).EndsLine := by
  rcases ended with rfl | ⟨qs, rfl⟩
  · exact .inl rfl
  · rw [source_append]
    exact endsLine_append_feed _

theorem Ended.endsLine_target (ended : Ended ps) : (target ps).EndsLine := by
  rcases ended with rfl | ⟨qs, rfl⟩
  · exact .inl rfl
  · rw [target_append]
    exact endsLine_append_feed _

/-- Behind a stretch among whole lines the line feed still follows. -/
theorem Ended.exists_behind {a b : List Piece} {old new : Text}
    (ended : Ended (a ++ Piece.put old new :: b)) : ∃ c, b = c ++ [Piece.kept '\n'] := by
  rcases ended with empty | ⟨qs, same⟩
  · simp at empty
  · rcases List.eq_nil_or_concat' b with rfl | ⟨c, p, rfl⟩
    · have last := List.append_inj_right' same rfl
      cases last
    · rw [← List.cons_append, ← List.append_assoc] at same
      have last := List.append_inj_right' same rfl
      exact ⟨c, by rw [last]⟩

theorem Ended.map_kept {t : Text} (ends : t.EndsLine) : Ended (t.map .kept) := by
  rcases ends with rfl | feed
  · exact .inl rfl
  · obtain ⟨u, rfl⟩ := List.getLast?_eq_some_iff.1 feed
    exact .inr ⟨u.map .kept, by simp⟩

end Ended

end Piece

/-! ## The pieces of a text -/

/-- Cuts a text at the places where a rule applies, when the next `skip` characters are already
covered. -/
def piecesFrom (rule : Text → Option (Text × Nat)) : Nat → Text → List Piece
  | _, [] => []
  | skip + 1, _ :: r => piecesFrom rule skip r
  | 0, c :: r =>
    match rule (c :: r) with
    | some (new, n) => .put (c :: r.take (n - 1)) new :: piecesFrom rule (n - 1) r
    | none => .kept c :: piecesFrom rule 0 r

/-- The pieces of a text. -/
def pieces (rule : Text → Option (Text × Nat)) (t : Text) : List Piece :=
  piecesFrom rule 0 t

section Rule

variable {rule : Text → Option (Text × Nat)}

theorem piecesFrom_eq_drop (skip : Nat) (t : Text) :
    piecesFrom rule skip t = pieces rule (t.drop skip) := by
  induction t generalizing skip with
  | nil => cases skip <;> rfl
  | cons c r ih =>
    cases skip with
    | zero => rfl
    | succ skip => exact ih skip

theorem source_piecesFrom (skip : Nat) (t : Text) :
    Piece.source (piecesFrom rule skip t) = t.drop skip := by
  induction t generalizing skip with
  | nil => cases skip <;> rfl
  | cons c r ih =>
    cases skip with
    | succ skip => exact ih skip
    | zero =>
      rw [piecesFrom]
      split
      case h_1 v n _ => simp [ih]
      case h_2 => simpa [Piece.source, Piece.old] using ih 0

/-- The pieces of a text were the text. -/
@[simp]
theorem source_pieces (t : Text) : Piece.source (pieces rule t) = t :=
  source_piecesFrom 0 t

theorem target_piecesFrom (skip : Nat) (t : Text) :
    Piece.target (piecesFrom rule skip t) = rewriteFrom rule skip t := by
  induction t generalizing skip with
  | nil => cases skip <;> rfl
  | cons c r ih =>
    cases skip with
    | succ skip => exact ih skip
    | zero =>
      rw [piecesFrom, rewriteFrom]
      split
      case h_1 v n applies => simp [applies, ih]
      case h_2 other => simpa [other, Piece.target, Piece.new] using ih 0

/-- The pieces of a text become its rewriting. -/
@[simp]
theorem target_pieces (t : Text) : Piece.target (pieces rule t) = rewrite rule t :=
  target_piecesFrom 0 t

/-- Characters from which the rule applies nowhere are kept. -/
theorem pieces_append {w : Text} (x : Text)
    (nowhere : ∀ u, u <:+ w → u ≠ [] → rule (u ++ x) = none) :
    pieces rule (w ++ x) = w.map .kept ++ pieces rule x := by
  induction w with
  | nil => rfl
  | cons c w ih =>
    have here : rule (c :: (w ++ x)) = none := nowhere _ (List.suffix_refl _) (by simp)
    have later := ih fun u part => nowhere u (part.trans (List.suffix_cons c w))
    rw [List.cons_append, pieces, piecesFrom, here, List.map_cons, List.cons_append, ← later]
    rfl

theorem pieces_of_applies {c : Char} {r new : Text} {n : Nat}
    (applies : rule (c :: r) = some (new, n)) :
    pieces rule (c :: r) = .put (c :: r.take (n - 1)) new :: pieces rule (r.drop (n - 1)) := by
  rw [pieces, piecesFrom, applies, ← piecesFrom_eq_drop]

/-- **The first place where a rule applies**, with what stands before it and behind it, or none. -/
theorem pieces_cases (rule : Text → Option (Text × Nat)) (t : Text) :
    pieces rule t = t.map .kept ∨
      ∃ (w old rest new : Text) (n : Nat), t = w ++ (old ++ rest) ∧
        old = (old ++ rest).take (n - 1 + 1) ∧ old ≠ [] ∧ rule (old ++ rest) = some (new, n) ∧
        pieces rule t = w.map .kept ++ Piece.put old new :: pieces rule rest := by
  induction t with
  | nil => exact .inl rfl
  | cons c r ih =>
    cases applies : rule (c :: r) with
    | some hit =>
      obtain ⟨new, n⟩ := hit
      refine .inr ⟨[], c :: r.take (n - 1), r.drop (n - 1), new, n, by simp, by simp, by simp, ?_, ?_⟩
      · simpa using applies
      · simpa using pieces_of_applies applies
    | none =>
      have first : pieces rule (c :: r) = .kept c :: pieces rule r := by
        rw [pieces, piecesFrom, applies]
        rfl
      rcases ih with all | ⟨w, old, rest, new, n, rfl, cut, filled, applies, same⟩
      · exact .inl (by rw [first, all, List.map_cons])
      · exact .inr ⟨c :: w, old, rest, new, n, rfl, cut, filled, applies, by rw [first, same]; rfl⟩

/-- What is put is what the rule gives for the stretch it covers. -/
theorem exists_of_put_mem {t old new : Text} (mem : .put old new ∈ pieces rule t) :
    ∃ (u : Text) (n : Nat), rule u = some (new, n) ∧ old = u.take (n - 1 + 1) := by
  suffices each : ∀ (skip : Nat), .put old new ∈ piecesFrom rule skip t →
      ∃ (u : Text) (n : Nat), rule u = some (new, n) ∧ old = u.take (n - 1 + 1) from each 0 mem
  clear mem
  induction t with
  | nil => intro skip mem; cases skip <;> cases mem
  | cons c r ih =>
    intro skip mem
    cases skip with
    | succ skip => exact ih skip mem
    | zero =>
      rw [piecesFrom] at mem
      split at mem
      case h_1 v n applies =>
        rcases List.mem_cons.1 mem with same | mem
        · cases same
          exact ⟨_, n, applies, rfl⟩
        · exact ih _ mem
      case h_2 =>
        rcases List.mem_cons.1 mem with same | mem
        · cases same
        · exact ih _ mem

/-- A rule whose applications do not end with a line feed. -/
def StopsInLine (rule : Text → Option (Text × Nat)) : Prop :=
  ∀ ⦃t new : Text⦄ ⦃n : Nat⦄, rule t = some (new, n) → (t.take (n - 1 + 1)).getLast? ≠ some '\n'

/-- The line feed at the end of a text is kept. -/
theorem ended_pieces (stops : StopsInLine rule) {t : Text} (ends : t.EndsLine) :
    Piece.Ended (pieces rule t) := by
  induction length : t.length using Nat.strongRecOn generalizing t with
  | ind n ih =>
    subst length
    rcases pieces_cases rule t with kept | ⟨w, old, rest, new, n, rfl, cut, filled, applies, same⟩
    · rw [kept]
      exact .map_kept ends
    · have more : rest ≠ [] := by
        rintro rfl
        have last := ends.of_append (t := w) (by simpa using filled)
        rw [List.append_nil, cut] at last
        exact stops applies last
      have restEnds : rest.getLast? = some '\n' := by
        rw [← List.append_assoc] at ends
        exact ends.of_append more
      have shorter : rest.length < (w ++ (old ++ rest)).length := by
        have := List.length_pos_iff.2 filled
        simp only [List.length_append]
        omega
      rcases ih _ shorter (.inr restEnds) rfl with empty | ⟨qs, behind⟩
      · have text : Piece.source (pieces rule rest) = rest := source_pieces rest
        rw [empty] at text
        exact (more text.symm).elim
      · exact .inr ⟨w.map .kept ++ Piece.put old new :: qs, by rw [same, behind]; simp⟩

/-- Rewriting keeps the line feed at the end of a text. -/
theorem getLast?_rewrite (stops : StopsInLine rule) {t : Text} (feed : t.getLast? = some '\n') :
    (rewrite rule t).getLast? = some '\n' := by
  rcases ended_pieces stops (.inr feed) with empty | ⟨qs, same⟩
  · have source : Piece.source (pieces rule t) = t := source_pieces t
    rw [empty] at source
    rw [← source] at feed
    cases feed
  · rw [← target_pieces, same, Piece.target_append]
    exact List.getLast?_concat

end Rule

/-- A rule that takes up to a certain character ends with it. -/
theorem getLast?_take_taken {inside rest : Text} (c : Char) :
    ((inside ++ c :: rest).take (taken (inside ++ c :: rest) rest - 1 + 1)).getLast? = some c := by
  have length : taken (inside ++ c :: rest) rest = inside.length + 1 := by
    simp only [taken, List.length_append, List.length_cons]
    omega
  rw [length, Nat.add_sub_cancel, List.take_append]
  simp

end MdxPress.Text
